import AdaSyntax.Diagnostic.Context
import AdaSyntax.Diagnostic.Log
import AdaSyntax.Scope.Lookup
import AdaSyntax.Token.Cursor
import AdaSyntax.Tree.Basic

/-!
The state of a parse, and the steps on it that need no grammar: looking at tokens and consuming them,
reporting, adding nodes, and declaring symbols.
-/

namespace AdaSyntax

structure Options where
  /-- How deeply attempts may be nested. -/
  maxDepth : Nat := 256
  /-- Whether the library region holds the predefined environment. -/
  predefined : Bool := true
  /-- Whether a type mark that is not declared is reported. -/
  warnUndeclared : Bool := true
deriving DecidableEq, Inhabited

/-- The outcome of a piece of grammar. -/
inductive Reply (α : Type) where
  | matched (value : α)
  | mismatch
  | fatal (error : Fatal)
  /-- More calls of rules, or more items of a list, than the budget allows. -/
  | exhausted

namespace Reply

def map {α β : Type} (f : α → β) : Reply α → Reply β
  | matched value => .matched (f value)
  | mismatch => .mismatch
  | fatal error => .fatal error
  | exhausted => .exhausted

def value? {α : Type} : Reply α → Option α
  | matched value => some value
  | _ => none

def fatal? {α : Type} : Reply α → Option Fatal
  | fatal error => some error
  | _ => none

end Reply

/-- A token that was wanted at a position and was not there. -/
structure Mismatch where
  position : Nat
  expected : String
deriving DecidableEq, Inhabited

structure Parser where
  cursor : Cursor
  log : DiagnosticLog
  symbols : SymbolTable
  tree : Tree
  options : Options
  depth : Nat
  /-- The mismatch furthest into the input, the first one recorded there. -/
  furthest : Option Mismatch
  /-- The lists being parsed, the innermost first. -/
  contexts : List Context

namespace Parser

def new (cursor : Cursor) (options : Options) : Parser :=
  { cursor, log := .empty, symbols := if options.predefined then .predefined else .empty
    tree := .empty, options, depth := 0, furthest := none, contexts := [] }

/-! Tokens -/

def current (parser : Parser) : Token := parser.cursor.current

def kind (parser : Parser) : TokenKind := parser.cursor.kind

def position (parser : Parser) : Nat := parser.cursor.position

def start (parser : Parser) : Nat := parser.current.range.start

/-- From `start` to the end of the last consumed token. -/
def rangeFrom (parser : Parser) (start : Nat) : Range := .upTo start parser.cursor.previousEnd

def atAny (parser : Parser) (kinds : List TokenKind) : Bool := kinds.contains parser.kind

def take (parser : Parser) : Reply Token × Parser :=
  match parser.cursor.advance with
  | .ok (token, cursor) => (.matched token, { parser with cursor })
  | .error error => (.fatal error, parser)

def recordMismatch (parser : Parser) (expected : String) : Parser :=
  let further : Bool :=
    match parser.furthest with
    | some mismatch => mismatch.position < parser.position
    | none => true
  if further then { parser with furthest := some ⟨parser.position, expected⟩ } else parser

/-- Consumes a token that may be missing. -/
def expectChoice (parser : Parser) (kind : TokenKind) : Reply Token × Parser :=
  if parser.kind = kind then parser.take
  else (.mismatch, parser.recordMismatch kind.description)

/-- Consumes a token that must not be missing at the end of the input. -/
def expect (parser : Parser) (kind : TokenKind) : Reply Token × Parser :=
  if parser.kind = kind then parser.take
  else if parser.cursor.atEnd then (.fatal (.endOfStream parser.start), parser)
  else (.mismatch, parser.recordMismatch kind.description)

/-- The kind of entity that the simple or expanded name at the cursor denotes. The tokens behind an
identifier are read in pairs of a dot and a selector. -/
def lookaheadFrom (parser : Parser) (resolution : Resolution) : Nat → Nat → SymbolKind
  | 0, _ => resolution.kind
  | fuel + 1, n =>
    if (parser.cursor.ahead n).kind = .dot && (parser.cursor.ahead (n + 1)).kind = .identifier then
      match resolution.symbol with
      | some owner =>
        if resolution.kind.qualifies then
          let selector := Name.ofText (parser.cursor.ahead (n + 1)).text
          parser.lookaheadFrom (parser.symbols.resolveMember owner selector) fuel (n + 2)
        else .unresolved
      | none => .unresolved
    else resolution.kind

def lookaheadClass (parser : Parser) : SymbolKind :=
  if parser.kind = .identifier then
    parser.lookaheadFrom (parser.symbols.resolve (.ofText parser.current.text))
      parser.cursor.remaining 1
  else .unresolved

/-! Diagnostics -/

def report (parser : Parser) (diagnostic : Diagnostic) : Parser :=
  { parser with log := parser.log.report diagnostic }

def context (parser : Parser) : Context := parser.contexts.headD .compilation

/-! Nodes and symbols -/

def addNode (parser : Parser) (start : Nat) (payload : Payload Range) : NodeId × Parser :=
  let (id, tree) := parser.tree.add (parser.rangeFrom start) payload
  (id, { parser with tree })

def reserveNode (parser : Parser) (start : Nat) : NodeId × Parser :=
  let (id, tree) := parser.tree.reserve (.empty start)
  (id, { parser with tree })

def fillNode (parser : Parser) (id : NodeId) (start : Nat) (payload : Payload Range) :
    Reply Unit × Parser :=
  match parser.tree.fill id (parser.rangeFrom start) payload with
  | .ok tree => (.matched (), { parser with tree })
  | .error error => (.fatal error, parser)

def reportDeclared (parser : Parser) (id : SymbolId) : Declared → Parser
  | .duplicate existing =>
    match parser.symbols.symbol? id, parser.symbols.symbol? existing with
    | some symbol, some earlier =>
      let diagnostic := Diagnostic.ofCode .duplicateDeclaration
        ("'" ++ symbol.name.text ++ "' is already declared in this region") symbol.range
      parser.report <|
        if earlier.isPredefined then diagnostic
        else diagnostic.withRelated "first declared here" earlier.range
    | _, _ => parser
  | _ => parser

def declare (parser : Parser) (declaration : Declaration) : SymbolId × Parser :=
  let (id, declared, symbols) := parser.symbols.declare declaration
  (id, { parser with symbols }.reportDeclared id declared)

def bind (parser : Parser) (id : SymbolId) : Declared × Parser :=
  let (declared, symbols) := parser.symbols.bind id
  (declared, { parser with symbols }.reportDeclared id declared)

end Parser

end AdaSyntax

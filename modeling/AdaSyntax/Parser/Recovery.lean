import AdaSyntax.Parser.Basic

/-!
Attempts, and lists that recover. A checkpoint is a few lengths and a position; going back to it cuts the
log, the symbols and the tree to these lengths, and an attempt that does not match goes back to where it
began. A list goes on behind an item that nothing matched: the item is reported once, at the furthest
place any alternative came to, and skipped.
-/

namespace AdaSyntax

/-- Where to go back to. -/
structure Checkpoint where
  position : Nat
  log : Nat
  scopes : ScopeMark
  nodes : Nat
deriving DecidableEq, Inhabited

namespace Parser

def checkpoint (parser : Parser) : Checkpoint :=
  { position := parser.position, log := parser.log.length, scopes := parser.symbols.mark
    nodes := parser.tree.size }

/-- Goes back to a checkpoint: first the cursor, then the log, then symbols and nodes. -/
def restore (parser : Parser) (checkpoint : Checkpoint) : Option Fatal × Parser :=
  match parser.cursor.rewind checkpoint.position with
  | .error error => (some error, parser)
  | .ok cursor =>
    match parser.log.rollback checkpoint.log with
    | .error error => (some error, { parser with cursor })
    | .ok log =>
      (none,
        { parser with
          cursor, log
          symbols := parser.symbols.rollback checkpoint.scopes
          tree := parser.tree.truncate checkpoint.nodes })

/-- Ends an attempt: whatever is no match leaves the parser at the checkpoint. -/
def settle {α : Type} (checkpoint : Checkpoint) : Reply α × Parser → Reply α × Parser
  | (.matched value, parser) => (.matched value, parser)
  | (reply, parser) =>
    match parser.restore checkpoint with
    | (none, parser) => (reply, parser)
    | (some error, parser) => (.fatal error, parser)

def descend (parser : Parser) : Except Fatal Parser :=
  if parser.options.maxDepth ≤ parser.depth then
    .error (.depthExceeded parser.options.maxDepth parser.start)
  else .ok { parser with depth := parser.depth + 1 }

def ascend (parser : Parser) : Parser := { parser with depth := parser.depth - 1 }

def nested {α : Type} (parser : Parser) (body : Parser → Reply α × Parser) : Reply α × Parser :=
  match parser.descend with
  | .error error => (.fatal error, parser)
  | .ok parser =>
    let (reply, parser) := body parser
    (reply, parser.ascend)

def attempt {α : Type} (parser : Parser) (body : Parser → Reply α × Parser) : Reply α × Parser :=
  settle parser.checkpoint (parser.nested body)

/-- Reports an item at `first` that nothing matched, at the furthest mismatch behind its start. -/
def reportUnrecognized (parser : Parser) (context : Context) (code : Code) (first : Nat) : Parser :=
  let (position, expected) :=
    match parser.furthest with
    | some mismatch =>
      if first ≤ mismatch.position then (mismatch.position, mismatch.expected)
      else (first, context.expected)
    | none => (first, context.expected)
  let found := parser.cursor.tokenAt position
  parser.report <|
    (Diagnostic.ofCode code (context.message found.description expected) found.range).withRelated
      ("while parsing " ++ context.expected ++ " starting here")
      (parser.cursor.tokenAt first).range

def skip (parser : Parser) : Parser :=
  match parser.cursor.advance with
  | .ok (_, cursor) => { parser with cursor }
  | .error _ => parser

/-- Skips up to and including the next semicolon, but stops in front of any of `closers`. -/
def skipPast (closers : List TokenKind) : Nat → Parser → Parser
  | 0, parser => parser
  | fuel + 1, parser =>
    if parser.cursor.atEnd || parser.atAny closers then parser
    else if parser.kind = .semicolon then parser.skip
    else skipPast closers fuel parser.skip

/-- Skips at least one token, unless at the end, and then to the end of the item. -/
def resynchronize (parser : Parser) (closers : List TokenKind) : Parser :=
  if parser.kind = .semicolon then parser.skip
  else skipPast closers parser.cursor.remaining parser.skip

def pushContext (parser : Parser) (context : Context) : Parser :=
  { parser with contexts := context :: parser.contexts }

def popContext (parser : Parser) : Parser := { parser with contexts := parser.contexts.tail }

def atListEnd (parser : Parser) (context : Context) : Bool :=
  parser.cursor.atEnd || parser.atAny context.closers

def forgetMismatch (parser : Parser) : Parser := { parser with furthest := none }

/-- Keeps the further one of an earlier mismatch and the one recorded since, the earlier one if they
are equally far. -/
def mergeMismatch (parser : Parser) (outer : Option Mismatch) : Parser :=
  let furthest :=
    match outer, parser.furthest with
    | some earlier, some later =>
      if later.position ≤ earlier.position then some earlier else some later
    | some earlier, none => some earlier
    | none, later => later
  { parser with furthest }

def dropItem (parser : Parser) (context : Context) (code : Code) (first : Nat)
    (outer : Option Mismatch) : Parser :=
  ((parser.reportUnrecognized context code first).resynchronize context.closers).mergeMismatch outer

end Parser

end AdaSyntax

import AdaSyntax.Parser.Basic

/-!
The steps a grammar may take, and what it may find wrong without stopping. A grammar refers to places by
token position alone and never sees an offset, an option or a number of a region, and it never looks behind
an end marker.
-/

namespace AdaSyntax

inductive Finding where
  /-- The name behind an end, written at `position`, is not the one of the construct. -/
  | endMismatch (position : Nat) (written expected : Name)
  | undeclaredTypeMark (mark : NodeId)
  | notAType (mark : NodeId) (kind : SymbolKind)
  /-- A logical operator, whose first token is at `position`, behind another one. -/
  | mixedOperators (position : Nat) (first next : BinaryOp)
  | notAPackage (package : NodeId) (kind : SymbolKind)
  | exitOutsideLoop (statement : NodeId)
  | exitNotEnclosing (target : NodeId)

namespace Parser

def place (parser : Parser) (position : Nat) : Range := (parser.cursor.tokenAt position).range

def quotedName (parser : Parser) (id : NodeId) : String :=
  "'" ++ parser.tree.spelling parser.tree.size id ++ "'"

def describe (parser : Parser) : Finding → Diagnostic
  | .endMismatch position written expected =>
    .ofCode .endMismatch ("'end " ++ written.text ++ "' does not match '" ++ expected.text ++ "'")
      (parser.place position)
  | .undeclaredTypeMark mark =>
    .ofCode .undeclaredTypeMark ("type mark " ++ parser.quotedName mark ++ " is not declared")
      (parser.tree.range mark)
  | .notAType mark kind =>
    .ofCode .notAType (parser.quotedName mark ++ " is a " ++ kind.text ++ ", not a type")
      (parser.tree.range mark)
  | .mixedOperators position first next =>
    (Diagnostic.ofCode .mixedOperators
      ("'" ++ next.text ++ "' cannot follow '" ++ first.text ++ "' in the same expression")
      (parser.rangeFrom (parser.place position).start)).withHint
      "add parentheses to make the grouping explicit"
  | .notAPackage package .unresolved =>
    .ofCode .notAPackage (parser.quotedName package ++ " is not declared")
      (parser.tree.range package)
  | .notAPackage package kind =>
    .ofCode .notAPackage (parser.quotedName package ++ " is a " ++ kind.text ++ ", not a package")
      (parser.tree.range package)
  | .exitOutsideLoop statement =>
    .ofCode .exitOutsideLoop "exit statement outside of a loop" (parser.tree.range statement)
  | .exitNotEnclosing target =>
    .ofCode .exitNotEnclosing
      (parser.quotedName target ++ " is not the label of an enclosing loop")
      (parser.tree.range target)

/-- Type marks that are not declared are reported only where the options ask for it. -/
def find (parser : Parser) : Finding → Parser
  | .undeclaredTypeMark mark =>
    if parser.options.warnUndeclared then parser.report (parser.describe (.undeclaredTypeMark mark))
    else parser
  | finding => parser.report (parser.describe finding)

end Parser

/-! Steps -/

structure TokenAt where
  kind : TokenKind
  text : String
  position : Nat
deriving DecidableEq, Inhabited

inductive Op : Type → Type where
  | kind : Op TokenKind
  | position : Op Nat
  /-- Whether the current token and the next one are of these kinds. -/
  | followedBy (first second : TokenKind) : Op Bool
  | aheadInGroup (kinds : List TokenKind) : Op Bool
  /-- The same from behind the parenthesis at the cursor. -/
  | aheadInParentheses (kinds : List TokenKind) : Op Bool
  | lookaheadClass : Op SymbolKind
  | take : Op TokenAt
  | expect (kind : TokenKind) : Op TokenAt
  | expectChoice (kind : TokenKind) : Op TokenAt
  | add (start : Nat) (payload : Payload Nat) : Op NodeId
  | reserve (start : Nat) : Op NodeId
  | fill (id : NodeId) (start : Nat) (payload : Payload Nat) : Op Unit
  | inspect (id : NodeId) : Op (Payload Unit)
  | resolve (name : Name) : Op Resolution
  | resolveMember (owner : SymbolId) (name : Name) : Op Resolution
  | kindOf (id : SymbolId) : Op SymbolKind
  | shapeOf (id : SymbolId) : Op TypeShape
  /-- Whether the innermost region declared the symbol. -/
  | declaredHere (id : SymbolId) : Op Bool
  /-- The first binding of a name in the library region. -/
  | libraryUnit (name : Name) : Op (Option SymbolId)
  | enclosingLoop (label : Option SymbolId) : Op Bool
  | declare (name : DefiningName Nat) (kind : SymbolKind) (node : NodeId)
      (shape : Option TypeShape) : Op SymbolId
  | bind (id : SymbolId) : Op Unit
  | openRegion (kind : RegionKind) (owner : Option SymbolId) : Op Unit
  | closeRegion : Op Members
  | markPrivate : Op Unit
  | addImport (package : SymbolId) (kind : ImportKind) : Op Unit
  | publish (owner : SymbolId) (members : Members) : Op Unit
  | publishAlias (synonym target : SymbolId) : Op Unit
  | find (finding : Finding) : Op Unit

namespace Parser

def withPosition (position : Nat) : Reply Token × Parser → Reply TokenAt × Parser
  | (reply, parser) => (reply.map fun token => ⟨token.kind, token.text, position⟩, parser)

def withSymbols (parser : Parser) (symbols : SymbolTable) : Reply Unit × Parser :=
  (.matched (), { parser with symbols })

def perform {α : Type} (parser : Parser) : Op α → Reply α × Parser
  | .kind => (.matched parser.kind, parser)
  | .position => (.matched parser.position, parser)
  | .followedBy first second =>
    (.matched (parser.kind = first && (parser.cursor.ahead 1).kind = second), parser)
  | .aheadInGroup kinds => (.matched (parser.cursor.aheadInGroup 0 kinds), parser)
  | .aheadInParentheses kinds =>
    (.matched (parser.kind = .leftParen && parser.cursor.aheadInGroup 1 kinds), parser)
  | .lookaheadClass => (.matched parser.lookaheadClass, parser)
  | .take => withPosition parser.position parser.take
  | .expect kind => withPosition parser.position (parser.expect kind)
  | .expectChoice kind => withPosition parser.position (parser.expectChoice kind)
  | .add start payload =>
    let (id, parser) := parser.addNode (parser.place start).start (payload.map parser.place)
    (.matched id, parser)
  | .reserve start =>
    let (id, parser) := parser.reserveNode (parser.place start).start
    (.matched id, parser)
  | .fill id start payload =>
    parser.fillNode id (parser.place start).start (payload.map parser.place)
  | .inspect id => (.matched ((parser.tree.payload id).map fun _ => ()), parser)
  | .resolve name => (.matched (parser.symbols.resolve name), parser)
  | .resolveMember owner name => (.matched (parser.symbols.resolveMember owner name), parser)
  | .kindOf id => (.matched (parser.symbols.kindOf id), parser)
  | .shapeOf id =>
    let shape :=
      match parser.symbols.symbol? id with
      | some symbol => symbol.typeShape
      | none => .unknown
    (.matched shape, parser)
  | .declaredHere id =>
    let here :=
      match parser.symbols.symbol? id with
      | some symbol => decide (symbol.region = parser.symbols.innermost.id)
      | none => false
    (.matched here, parser)
  | .libraryUnit name => (.matched (parser.symbols.library.bindings.get name).head?, parser)
  | .enclosingLoop label => (.matched (parser.symbols.enclosingLoop label), parser)
  | .declare name kind node shape =>
    let (id, parser) := parser.declare
      { name := name.name, kind, node := some node, range := parser.place name.place, shape }
    (.matched id, parser)
  | .bind id => (.matched (), (parser.bind id).2)
  | .openRegion kind owner => parser.withSymbols (parser.symbols.openRegion kind owner)
  | .closeRegion =>
    match parser.symbols.closeRegion with
    | some (closed, symbols) => (.matched closed.toMembers, { parser with symbols })
    | none => (.matched {}, parser)
  | .markPrivate => parser.withSymbols parser.symbols.markPrivate
  | .addImport package kind => parser.withSymbols (parser.symbols.addImport package kind)
  | .publish owner members => parser.withSymbols (parser.symbols.publish owner members)
  | .publishAlias synonym target => parser.withSymbols (parser.symbols.publishAlias synonym target)
  | .find finding => (.matched (), parser.find finding)

end Parser

end AdaSyntax

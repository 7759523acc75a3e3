import AdaSyntax.Parser.Operation
import AdaSyntax.Proofs.Parser.Backtrack
import AdaSyntax.Proofs.Parser.Yield
import AdaSyntax.Proofs.Scope.Change
import AdaSyntax.Proofs.Tree.Growth
import AdaSyntax.Proofs.Tree.Row

namespace AdaSyntax

namespace Parser

def added (parser : Parser) (start : Nat) (payload : Payload Nat) : Parser :=
  (parser.addNode (parser.place start).start (payload.map parser.place)).2

def checkMark (parser : Parser) (mark : NodeId) : Parser :=
  let kind := (parser.tree.payload mark).classify.2
  if kind = .unresolved then parser.find (.undeclaredTypeMark mark)
  else if kind.isTypeMark then parser
  else parser.find (.notAType mark kind)

def usePackage (parser : Parser) (package : NodeId) : Parser :=
  match (parser.tree.payload package).classify with
  | (some id, .package) | (some id, .unit) => { parser with symbols := parser.symbols.addImport id .use }
  | (_, kind) => parser.find (.notAPackage package kind)

def usePackages (parser : Parser) (packages : List NodeId) : Parser := packages.foldl usePackage parser

def namesEnclosingLoop (parser : Parser) (target : NodeId) : Bool :=
  match (parser.tree.payload target).classify with
  | (some label, .label) => parser.symbols.enclosingLoop (some label)
  | _ => false

def checkExit (parser : Parser) (statement : NodeId) (target : Option NodeId) : Parser :=
  if parser.symbols.enclosingLoop none then
    match target with
    | some target =>
      if parser.namesEnclosingLoop target then parser else parser.find (.exitNotEnclosing target)
    | none => parser
  else parser.find (.exitOutsideLoop statement)

def Awaits (parser : Parser) (node : NodeId) (start : Nat) : Prop :=
  start ≤ parser.position ∧
    parser.tree.get? node = some ⟨.empty (tokenStart parser.cursor.tokens start), .placeholder⟩

def Spans (parser : Parser) (node : NodeId) (place : Nat) : Prop :=
  place < parser.position ∧ ∃ entry low, parser.tree.get? node = some entry ∧ low ≤ place ∧
    entry.range.start = tokenStart parser.cursor.tokens low ∧
    (entry.payload.isPlaceholder = false → ∃ high, place < high ∧ high ≤ parser.position ∧
      tokenStop parser.cursor.tokens high ≤ entry.range.stop)

end Parser

def Code.isChecked : Code → Bool
  | undeclaredTypeMark | notAType | notAPackage | exitOutsideLoop | exitNotEnclosing => true
  | _ => false

def Code.isPlain (code : Code) : Bool := !code.isChecked && code != .duplicateDeclaration

theorem Code.isChecked_of_isPlain {code : Code} (h : code.isPlain = true) : code.isChecked = false := by
  simp only [isPlain, Bool.and_eq_true, Bool.not_eq_true'] at h
  exact h.1

namespace Payload

def Resolved (symbols : SymbolTable) : Payload Nat → Prop
  | .name (.identifier written symbol kind) => symbols.resolve written = ⟨symbol, kind⟩
  | .name (.selected _ selector _ symbol kind) =>
    (symbol = none ∧ (kind = .component ∨ kind = .unresolved)) ∨
      ∃ owner, symbols.resolveMember owner selector = ⟨symbol, kind⟩
  | _ => True

structure Completes (payload : Payload Nat) (range : Option NodeId) : Prop where
  reservable : payload.isReservable = true
  range : payload.loopRange? = range

namespace Completes

variable {payload : Payload Nat} {range : Option NodeId}

theorem isName (h : payload.Completes range) : payload.isName = false := by
  cases payload with
  | name use => cases h.reservable
  | _ => rfl

theorem isExit (h : payload.Completes range) : payload.isExit = false := by
  cases payload with
  | stmt part =>
    cases part with
    | exit target condition => cases h.reservable
    | _ => rfl
  | _ => rfl

end Completes

structure Fits (payload : Payload Nat) (yield : Yield) (node : NodeId) (role : Role) : Prop where
  pieces : yield.pieces = payload.pieces node role
  admits : role.admits payload = true
  fresh : role.isFresh = true
  silent : payload.isName = true → yield.silent = true

def isPlain (payload : Payload Nat) (role : Role) : Bool :=
  role.admits payload && role.isFresh && !payload.isName && !payload.isExit

section

variable {payload : Payload Nat} {yield : Yield} {node : NodeId} {role : Role}

theorem isName_of_isPlain (h : payload.isPlain role = true) : payload.isName = false := by
  simp only [isPlain, Bool.and_eq_true, Bool.not_eq_true'] at h
  exact h.1.2

theorem isExit_of_isPlain (h : payload.isPlain role = true) : payload.isExit = false := by
  simp only [isPlain, Bool.and_eq_true, Bool.not_eq_true'] at h
  exact h.2

theorem resolved_of_isPlain (h : payload.isPlain role = true) (symbols : SymbolTable) :
    payload.Resolved symbols := by
  cases payload with
  | name use => cases isName_of_isPlain h
  | _ => trivial

theorem fits_of_isPlain (hpieces : yield.pieces = payload.pieces node role)
    (h : payload.isPlain role = true) : payload.Fits yield node role where
  pieces := hpieces
  admits := (Bool.and_eq_true_iff.mp (Bool.and_eq_true_iff.mp (Bool.and_eq_true_iff.mp h).1).1).1
  fresh := (Bool.and_eq_true_iff.mp (Bool.and_eq_true_iff.mp (Bool.and_eq_true_iff.mp h).1).1).2
  silent hname := by rw [isName_of_isPlain h] at hname; cases hname

end

end Payload

def Cursor.Follows (later earlier : Cursor) : Prop :=
  later = earlier ∨ ∃ token, earlier.advance = .ok (token, later)

def SymbolKind.isHeld : SymbolKind → Bool
  | label | loopParameter => true
  | _ => false

inductive Change (base parser : Parser) : Yield → TableChange → Yield → Prop where
  | declare {yield : Yield} {declaration : Declaration} {node : NodeId} {place : Nat}
      (hkind : declaration.kind.isHeld = false) (hnode : declaration.node = some node)
      (hrange : declaration.range = parser.place place) (hspans : parser.Spans node place) :
      Change base parser yield (.declare declaration) yield.loud
  | label {yield : Yield} {declaration : Declaration} {hole : Hole} {place : Nat}
      (hholes : yield.holes = [hole]) (hopened : yield.opened = []) (hkind : declaration.kind = .label)
      (hnode : declaration.node = some hole.node) (hrange : declaration.range = parser.place place)
      (hspans : parser.Spans hole.node place) :
      Change base parser yield (.declare declaration)
        (yield.labeling hole ⟨parser.symbols.symbols.size⟩)
  | parameter {yield : Yield} {declaration : Declaration} {hole : Hole} {range : NodeId} {role : Role}
      {place : Nat} (hholes : yield.holes = [hole]) (hfirst : hole.range = none)
      (hpieces : yield.pieces = [⟨range, role⟩]) (hkind : declaration.kind = .loopParameter)
      (hnode : declaration.node = some hole.node) (hrange : declaration.range = parser.place place)
      (hspans : parser.Spans hole.node place) :
      Change base parser yield (.declare declaration) (yield.ranging hole range)
  | bind {yield : Yield} {id : SymbolId} (hid : base.symbols.symbols.size ≤ id.index) :
      Change base parser yield (.bind id) yield.loud
  | file {yield : Yield} (id : SymbolId) : Change base parser yield (.bind id) yield.filing
  | openRegion {yield : Yield} {kind : RegionKind} (owner : Option SymbolId) (hkind : kind ≠ .loop) :
      Change base parser yield (.openRegion kind owner) (yield.opening kind.bracket)
  | openLoop {yield : Yield} {hole : Hole} {owner : Option SymbolId} (hholes : yield.holes = [hole])
      (howner : hole.labels = owner.toList) :
      Change base parser yield (.openRegion .loop owner) (yield.opening (.loop hole.node))
  | closeRegion {yield : Yield} (hopened : yield.opened ≠ []) :
      Change base parser yield .closeRegion yield.closing
  | markPrivate {yield : Yield} (hopened : yield.opened ≠ []) :
      Change base parser yield .markPrivate yield
  | addImport {yield : Yield} (package : SymbolId) (kind : ImportKind) :
      Change base parser yield (.addImport package kind) yield
  | publish {yield : Yield} {owner : SymbolId} (members : Members)
      (howner : base.symbols.symbols.size ≤ owner.index) :
      Change base parser yield (.publish owner members) yield
  | publishAlias {yield : Yield} {synonym : SymbolId} (target : SymbolId)
      (hsynonym : base.symbols.symbols.size ≤ synonym.index) :
      Change base parser yield (.publishAlias synonym target) yield

inductive Course : Parser → Parser → Yield → List NodeId → Prop where
  | refl (parser : Parser) : Course parser parser .empty []
  | append {base middle parser : Parser} {yield yield' : Yield} {nodes nodes' : List NodeId}
      (h : Course base middle yield nodes) (h' : Course middle parser yield' nodes') :
      Course base parser (yield ++ yield') (nodes ++ nodes')
  | nested {base parser : Parser} {yield : Yield} {nodes : List NodeId}
      (h : Course base.deeper parser yield nodes) : Course base parser.ascend yield nodes
  | listed {base parser : Parser} {context : Context} {yield : Yield} {nodes : List NodeId}
      (h : Course (base.pushContext context) parser yield nodes) :
      Course base parser.popContext yield nodes
  | resume {base parser later : Parser} {yield : Yield} {nodes : List NodeId}
      (h : Course base parser yield nodes) (hlater : later.Resumes parser) :
      Course base later yield nodes
  | weaken {base parser : Parser} {yield yield' : Yield} {nodes : List NodeId}
      (h : Course base parser yield nodes) (hyield : yield.Weakens yield') :
      Course base parser yield' nodes
  | advance {base parser : Parser} {yield : Yield} {nodes : List NodeId} {token : Token} {cursor : Cursor}
      (h : Course base parser yield nodes) (hadvance : parser.cursor.advance = .ok (token, cursor)) :
      Course base { parser with cursor }
        { yield with places := yield.places ++ [parser.position] } nodes
  | report {base parser : Parser} {yield : Yield} {nodes : List NodeId} {diagnostic : Diagnostic}
      (h : Course base parser yield nodes) (hcode : diagnostic.code.isPlain = true) :
      Course base (parser.report diagnostic) yield nodes
  | declared {base parser : Parser} {yield : Yield} {nodes : List NodeId} {id : SymbolId}
      (declared : Declared) (h : Course base parser yield nodes) (hloud : yield.silent = false)
      (hid : base.symbols.symbols.size ≤ id.index ∨ yield.files = true) :
      Course base (parser.reportDeclared id declared) yield nodes
  | mark {base parser : Parser} {node : NodeId} {nodes : List NodeId}
      (h : Course base parser (.one .name node) nodes) :
      Course base (parser.checkMark node) (.one .mark node) nodes
  | bounds {base parser : Parser} {node : NodeId} {nodes : List NodeId}
      (h : Course base parser (.expression node) nodes)
      (hname : (parser.tree.payload node).isSimpleName = false) :
      Course base parser (.one .bounds node) nodes
  | packages {base parser : Parser} {nodes packages : List NodeId}
      (h : Course base parser (.expressions packages) nodes) :
      Course base (parser.usePackages packages) (.many .package packages) nodes
  | add {base parser : Parser} {yield : Yield} {nodes : List NodeId} {payload : Payload Nat} {role : Role}
      {cursor : Cursor} (h : Course base parser yield nodes)
      (hfits : payload.Fits yield ⟨parser.tree.size⟩ role) (hexit : payload.isExit = false)
      (hresolved : payload.Resolved parser.symbols) (hcursor : cursor.Follows parser.cursor)
      (hmoved : base.position < cursor.position) :
      Course base { parser.added base.position payload with cursor } (yield.fold ⟨parser.tree.size⟩ role)
        (⟨parser.tree.size⟩ :: nodes)
  | exit {base parser : Parser} {yield : Yield} {nodes : List NodeId} {target condition : Option NodeId}
      (h : Course base parser yield nodes)
      (hfits : (Payload.stmt (.exit target condition)).Fits yield ⟨parser.tree.size⟩ (.statement []))
      (hopened : yield.opened = []) (hsilent : yield.silent = true)
      (hmoved : base.position < parser.position) :
      Course base
        ((parser.added base.position (.stmt (.exit target condition))).checkExit ⟨parser.tree.size⟩ target)
        (yield.fold ⟨parser.tree.size⟩ (.statement [])) (⟨parser.tree.size⟩ :: nodes)
  | reserve {base parser : Parser} {yield : Yield} {nodes : List NodeId}
      (h : Course base parser yield nodes) :
      Course base (parser.reserveNode (parser.place base.position).start).2
        (yield.reserving ⟨parser.tree.size⟩ base.position) nodes
  | fill {base parser : Parser} {yield : Yield} {nodes : List NodeId} {hole : Hole}
      {payload : Payload Nat} {role : Role} (h : Course base parser yield nodes)
      (hholes : yield.holes = [hole]) (hstart : hole.start = base.position)
      (hfits : payload.Fits yield hole.node role) (hcompletes : payload.Completes hole.range)
      (hmoved : base.position < parser.position) :
      Course base
        { parser with
          tree := parser.tree.replace hole.node
            ⟨parser.rangeFrom (parser.place base.position).start, payload.map parser.place⟩ }
        (yield.filling.fold hole.node role) (hole.node :: nodes)
  | change {base parser : Parser} {yield yield' : Yield} {nodes : List NodeId} {change : TableChange}
      (h : Course base parser yield nodes) (hchange : Change base parser yield change yield') :
      Course base { parser with symbols := parser.symbols.change change } yield' nodes

end AdaSyntax

import AdaSyntax.Grammar.Generic
import AdaSyntax.Proofs.Moment.Expression
import AdaSyntax.Proofs.Scope.Publication

namespace AdaSyntax

def SymbolTable.orderly : SymbolTable.Invariant where
  holds := SymbolTable.Orderly
  counter h hnext := h.of_counter hnext
  declare declaration h := h.declare declaration
  everywhere := true

open SymbolTable (orderly Orderly)

variable {α : Type} {budget : Nat} {parser : Parser}

namespace Op

instance (id : SymbolId) : (bind id).Maintains orderly := ⟨fun {parser} hparser => by
  have hsymbols : (parser.perform (bind id)).2.symbols = (parser.symbols.bind id).2 := Parser.reportDeclared_symbols ..
  exact hsymbols ▸ hparser.holds.bind id⟩

instance (kind : RegionKind) (owner : Option SymbolId) : (openRegion kind owner).Maintains orderly :=
  ⟨fun hparser => hparser.holds.openRegion kind owner⟩

instance : closeRegion.Maintains orderly := ⟨fun {parser} hparser => by
  have hsymbols : (parser.perform closeRegion).2.symbols = parser.symbols.change .closeRegion := by
    simp only [Parser.perform, SymbolTable.change]
    cases parser.symbols.closeRegion <;> rfl
  exact hsymbols ▸ hparser.holds.closeRegion⟩

instance : markPrivate.Maintains orderly := ⟨fun hparser => hparser.holds.markPrivate⟩

instance (package : SymbolId) : (addImport package .use).Maintains orderly :=
  ⟨fun hparser => hparser.holds.addImport package fun _ => rfl⟩

end Op

namespace Program

instance (kind : RegionKind) (owner : Option SymbolId) : Maintains orderly (openRegion kind owner) := by
  unfold openRegion; infer_instance

instance : Maintains orderly closeRegion := by unfold closeRegion; infer_instance

instance (ids : List SymbolId) : Maintains orderly (bindAll ids) := by
  induction ids with
  | nil => unfold bindAll; infer_instance
  | cons id ids ih => unfold bindAll; infer_instance

theorem called_maintains (production : Production α) : Maintains orderly (.call production) := call_maintains rfl

instance (called : Rule) : Maintains orderly (rule called) := called_maintains (.rule called)

instance : Maintains orderly (.call .componentList) := called_maintains .componentList

instance (rules : List Rule) : Maintains orderly (tryRules rules) := tryRules_maintains fun _ _ => rfl

instance (rules : List Rule) : Maintains orderly (firstOf rules) := firstOf_maintains fun _ _ => rfl

end Program

namespace Grammar

open Program

instance : Maintains orderly indexSubtype := by unfold indexSubtype; infer_instance

instance (indexes : Program NodeId) [indexes.Maintains orderly] : Maintains orderly (arrayOf indexes) := by
  unfold arrayOf; infer_instance

instance : Maintains orderly unconstrainedArray := by unfold unconstrainedArray; infer_instance

instance : Maintains orderly constrainedArray := by unfold constrainedArray; infer_instance

instance : Maintains orderly arrayDefinition := .skip fun definition => .skip fun payload => by
  split <;> infer_instance

instance : Maintains orderly accessDefinition := by unfold accessDefinition; infer_instance

instance : Maintains orderly discriminantSpecification := by unfold discriminantSpecification; infer_instance

instance : Maintains orderly discriminantPart := by unfold discriminantPart; infer_instance

instance (present : Bool) : Maintains orderly (optionalDiscriminants present) := by
  unfold optionalDiscriminants; infer_instance

instance : Maintains orderly componentDeclaration := by unfold componentDeclaration; infer_instance

instance : Maintains orderly variant := by unfold variant; infer_instance

instance : Maintains orderly variantPart := by unfold variantPart; infer_instance

instance : Maintains orderly componentList := by unfold componentList; infer_instance

instance (start : Nat) : Maintains orderly (nullRecord start) := by unfold nullRecord; infer_instance

instance : Maintains orderly recordDefinition := .skip fun start => .skip fun isNull => by
  split
  · infer_instance
  · refine .skip fun _ => ?_
    infer_instance

instance : Maintains orderly enumerationLiteral := .skip fun kind => by split <;> infer_instance

instance : Maintains orderly enumerationDefinition := by unfold enumerationDefinition; infer_instance

instance : Maintains orderly integerDefinition := by unfold integerDefinition; infer_instance

instance : Maintains orderly floatDefinition := by unfold floatDefinition; infer_instance

instance : Maintains orderly fixedDefinition := by unfold fixedDefinition; infer_instance

instance : Maintains orderly derivedDefinition := by unfold derivedDefinition; infer_instance

instance (discriminated : Bool) : Maintains orderly (typeDefinition discriminated) := .skip fun kind => by
  split <;> infer_instance

instance (name : DefiningName Nat) (discriminants : List NodeId) (discriminated : Bool) :
    Maintains orderly (privateView name discriminants discriminated) := by
  unfold privateView; infer_instance

instance (name : DefiningName Nat) (discriminants : List NodeId) (discriminated : Bool) :
    Maintains orderly (fullView name discriminants discriminated) := by
  unfold fullView; infer_instance

instance (name : DefiningName Nat) (discriminants : List NodeId) (discriminated : Bool) :
    Maintains orderly (typeView name discriminants discriminated) := by
  unfold typeView; infer_instance

instance : Maintains orderly typeDeclaration :=
  .skip fun start => .skip fun _ => .skip fun name => .skip fun node => .skip fun discriminated => .skip fun _ =>
    .skip fun _ => .skip fun discriminants => by infer_instance

instance (context : Context) : Maintains orderly (declarativeItems context) := by
  unfold declarativeItems; infer_instance

instance : Maintains orderly declarativePart := by unfold declarativePart; infer_instance

instance (isConstant : Bool) : Maintains orderly (objectSubtype isConstant) := by
  unfold objectSubtype; infer_instance

instance : Maintains orderly objectDeclaration := by unfold objectDeclaration; infer_instance

instance : Maintains orderly numberDeclaration := by unfold numberDeclaration; infer_instance

instance : Maintains orderly exceptionDeclaration := by unfold exceptionDeclaration; infer_instance

instance : Maintains orderly subtypeDeclaration := .skip fun start => .skip fun _ => .skip fun name => by
  infer_instance

instance : Maintains orderly renamedEntity := by unfold renamedEntity; infer_instance

instance : Maintains orderly objectRenamingKind := by unfold objectRenamingKind; infer_instance

instance : Maintains orderly objectRenaming := by unfold objectRenaming; infer_instance

instance : Maintains orderly separateTail := by unfold separateTail; infer_instance

instance : Maintains orderly packageStub := by unfold packageStub; infer_instance

instance (package : NodeId) : Maintains orderly (usePackage package) := .skip fun named => by
  split <;> infer_instance

instance (packages : List NodeId) : Maintains orderly (usePackages packages) := by
  induction packages with
  | nil => unfold usePackages; infer_instance
  | cons package packages ih => unfold usePackages; infer_instance

instance : Maintains orderly useClause := by unfold useClause; infer_instance

instance : Maintains orderly pragma := by unfold pragma; infer_instance

end Grammar

end AdaSyntax

import AdaSyntax.Proofs.Scope.Places
import AdaSyntax.Proofs.Scope.Stack

/-!
What a package has in its private part cannot be told from outside. Two tables in which only that differs give the same
answers to all questions for names, and go on to do so, until a region of the package opens or is imported for a body.
-/

namespace AdaSyntax

/-- Whether the change may let someone into the private part of `package`. -/
def TableChange.reveals (package : SymbolId) : TableChange → Bool
  | openRegion _ owner => owner = some package
  | addImport other kind => other = package && kind = .body
  | publishAlias _ target => target = package
  | _ => false

namespace SymbolTable

variable {first second table later : SymbolTable} {package : SymbolId} {name : Name}

/-- The tables differ at most in what `package` has published in its private part, and in their journals. -/
structure SameOutside (package : SymbolId) (first second : SymbolTable) : Prop where
  symbols : second.symbols = first.symbols
  innermost : second.innermost = first.innermost
  enclosing : second.enclosing = first.enclosing
  nextRegion : second.nextRegion = first.nextRegion
  published : ∀ owner, owner ≠ package → second.published? owner = first.published? owner
  visible : ((second.published? package).getD {}).visible = ((first.published? package).getD {}).visible

/-- No region of `package` is open, and none that imports it for a body. -/
def Outside (package : SymbolId) (table : SymbolTable) : Prop :=
  ∀ region ∈ table.regions, region.owner ≠ some package ∧ ⟨package, .body⟩ ∉ region.imports

namespace SameOutside

theorem regions (h : SameOutside package first second) : second.regions = first.regions := by
  rw [SymbolTable.regions, SymbolTable.regions, h.innermost, h.enclosing]

theorem symbol?_eq (h : SameOutside package first second) (id : SymbolId) : second.symbol? id = first.symbol? id := by
  rw [symbol?, symbol?, h.symbols]

theorem kindOf_eq (h : SameOutside package first second) : second.kindOf = first.kindOf := by
  funext id
  rw [kindOf, kindOf, h.symbol?_eq]

theorem resolution_eq (h : SameOutside package first second) (found : Option SymbolId) :
    second.resolution found = first.resolution found := by
  cases found with
  | none => rfl
  | some id => rw [resolution, resolution, h.kindOf_eq]

theorem lookupPublished_eq (h : SameOutside package first second) {owner : SymbolId} {withHidden : Bool}
    (houtside : owner = package → withHidden = false) (name : Name) :
    second.lookupPublished owner name withHidden = first.lookupPublished owner name withHidden := by
  by_cases howner : owner = package
  · subst howner
    have hvisible : ∀ table : SymbolTable, table.lookupPublished owner name false =
        (((table.published? owner).getD {}).visible.get name).getLast? := by
      intro table
      rw [lookupPublished]
      cases table.published? owner <;> rfl
    rw [houtside rfl, hvisible, hvisible, h.visible]
  · exact lookupPublished_congr (h.published owner howner) name withHidden

theorem lookupAt_eq (h : SameOutside package first second) (houtside : first.Outside package) (name : Name) :
    ∀ place ∈ first.places, second.lookupAt name place = first.lookupAt name place := by
  intro place hplace
  obtain ⟨region, hregion, ⟨restricted, rfl⟩ | ⟨used, hused, rfl⟩⟩ := mem_places hplace
  · simp only [lookupAt, lookupIn, hides, h.kindOf_eq]
  · refine h.lookupPublished_eq (fun hpackage => ?_) name
    -- An import of the package with its private part would be one for a body.
    refine decide_eq_false fun hkind => (houtside region hregion).2 ?_
    rwa [← hpackage, ← hkind]

theorem resolve_eq (h : SameOutside package first second) (houtside : first.Outside package) (name : Name) :
    second.resolve name = first.resolve name := by
  have hplaces : second.places = first.places := by rw [places, places, h.regions, h.innermost]
  rw [SymbolTable.resolve_eq, SymbolTable.resolve_eq, hplaces, findSome?_congr (h.lookupAt_eq houtside name),
    h.resolution_eq]

theorem resolveMember_eq (h : SameOutside package first second) (houtside : first.Outside package) (owner : SymbolId)
    (name : Name) : second.resolveMember owner name = first.resolveMember owner name := by
  have hinside : owner = package → (!(first.regions.filter (·.owner = some owner)).isEmpty) = false := by
    rintro rfl
    rw [List.filter_eq_nil_iff.mpr fun region hregion => by simp [(houtside region hregion).1]]
    rfl
  simp only [resolveMember, h.regions, h.lookupPublished_eq hinside name, h.resolution_eq]

theorem reserve (h : SameOutside package first second) (declaration : Declaration) :
    SameOutside package (first.reserve declaration).2 (second.reserve declaration).2 := by
  have hdepth : second.depth = first.depth := by rw [depth, depth, h.enclosing]
  exact ⟨by simp only [SymbolTable.reserve, h.symbols, h.innermost, hdepth], h.innermost, h.enclosing, h.nextRegion,
    h.published, h.visible⟩

theorem bind (h : SameOutside package first second) (id : SymbolId) :
    SameOutside package (first.bind id).2 (second.bind id).2 := by
  have hclassify : second.classifyBinding = first.classifyBinding := by
    funext kind ids
    cases ids with
    | nil => rfl
    | cons first rest => simp only [classifyBinding, h.kindOf_eq]
  unfold SymbolTable.bind
  rw [h.symbol?_eq, hclassify, h.innermost]
  cases first.symbol? id with
  | none => exact h
  | some symbol =>
    dsimp only
    split
    · exact h
    · split
      · exact h
      · exact ⟨h.symbols, rfl, h.enclosing, h.nextRegion, h.published, h.visible⟩

theorem declare_id (h : SameOutside package first second) (declaration : Declaration) :
    (second.declare declaration).1 = (first.declare declaration).1 :=
  congrArg (fun symbols : Array Symbol => SymbolId.mk symbols.size) h.symbols

theorem declare (h : SameOutside package first second) (declaration : Declaration) :
    SameOutside package (first.declare declaration).2.2 (second.declare declaration).2.2 := by
  show SameOutside package ((first.reserve declaration).2.bind (first.declare declaration).1).2
    ((second.reserve declaration).2.bind (second.declare declaration).1).2
  rw [h.declare_id]
  exact (h.reserve declaration).bind _

theorem openRegion (h : SameOutside package first second) (kind : RegionKind) (owner : Option SymbolId) :
    SameOutside package (first.openRegion kind owner) (second.openRegion kind owner) where
  symbols := h.symbols
  innermost := by simp only [SymbolTable.openRegion, h.nextRegion]
  enclosing := h.regions
  nextRegion := congrArg (· + 1) h.nextRegion
  published := h.published
  visible := h.visible

theorem closeRegion (h : SameOutside package first second) :
    SameOutside package (first.change .closeRegion) (second.change .closeRegion) := by
  simp only [SymbolTable.change, SymbolTable.closeRegion, h.enclosing]
  cases first.enclosing with
  | nil => exact h
  | cons region rest => exact ⟨h.symbols, rfl, rfl, h.nextRegion, h.published, h.visible⟩

theorem markPrivate (h : SameOutside package first second) :
    SameOutside package first.markPrivate second.markPrivate :=
  ⟨h.symbols, by simp only [SymbolTable.markPrivate, h.innermost], h.enclosing, h.nextRegion, h.published, h.visible⟩

theorem addImport (h : SameOutside package first second) (other : SymbolId) (kind : ImportKind) :
    SameOutside package (first.addImport other kind) (second.addImport other kind) :=
  ⟨h.symbols, by simp only [SymbolTable.addImport, h.innermost], h.enclosing, h.nextRegion, h.published, h.visible⟩

theorem putContents (h : SameOutside package first second) {owner : SymbolId} {contents contents' : Contents}
    (hvisible : contents'.visible = contents.visible) (hsame : owner ≠ package → contents' = contents) :
    SameOutside package (first.putContents owner contents) (second.putContents owner contents') where
  symbols := h.symbols
  innermost := h.innermost
  enclosing := h.enclosing
  nextRegion := h.nextRegion
  published other hother := by
    simp only [published?_putContents]
    split
    · rename_i heq
      rw [hsame (heq ▸ hother)]
    · exact h.published other hother
  visible := by
    simp only [published?_putContents]
    split
    · exact hvisible
    · exact h.visible

theorem publish (h : SameOutside package first second) (owner : SymbolId) (members : Members) :
    SameOutside package (first.publish owner members) (second.publish owner members) := by
  have hbindings : second.addBindings = first.addBindings := by
    funext bindings ids
    simp only [addBindings, h.symbol?_eq]
  refine h.putContents ?_ fun howner => ?_
  · dsimp only
    by_cases heq : owner = package
    · rw [heq, h.visible, hbindings]
    · rw [h.published owner heq, hbindings]
  · rw [h.published owner howner, hbindings]

theorem publishCurrent (h : SameOutside package first second) {owner owner' : SymbolId} (howner : owner' = owner) :
    SameOutside package (first.publishCurrent owner) (second.publishCurrent owner') := by
  rw [howner, SymbolTable.publishCurrent, SymbolTable.publishCurrent, h.innermost]
  exact h.publish owner _

theorem publishAlias (h : SameOutside package first second) (synonym : SymbolId) {target : SymbolId}
    (htarget : target ≠ package) :
    SameOutside package (first.publishAlias synonym target) (second.publishAlias synonym target) := by
  unfold SymbolTable.publishAlias
  rw [h.published target htarget]
  cases first.published? target with
  | none => exact h
  | some contents => exact h.putContents rfl fun _ => rfl

theorem addPredefined (h : SameOutside package first second) :
    SameOutside package first.addPredefined.2 second.addPredefined.2 := by
  unfold SymbolTable.addPredefined
  generalize Predefined.declarations = declarations
  have hfold : SameOutside package (declarations.foldl (fun table entity => (table.declare entity).2.2) first)
      (declarations.foldl (fun table entity => (table.declare entity).2.2) second) := by
    induction declarations generalizing first second with
    | nil => exact h
    | cons declaration rest ih => exact ih (h.declare declaration)
  exact (hfold.declare _).publishCurrent (hfold.declare_id _)

theorem change (h : SameOutside package first second) {made : TableChange} (hmade : made.reveals package = false) :
    SameOutside package (first.change made) (second.change made) := by
  cases made with
  | populate => exact h.addPredefined
  | declare declaration => exact h.declare declaration
  | reserve declaration => exact h.reserve declaration
  | bind id => exact h.bind id
  | openRegion kind owner => exact h.openRegion kind owner
  | closeRegion => exact h.closeRegion
  | markPrivate => exact h.markPrivate
  | addImport other kind => exact h.addImport other kind
  | publish owner members => exact h.publish owner members
  | publishCurrent owner => exact h.publishCurrent rfl
  | publishAlias synonym target => exact h.publishAlias synonym (of_decide_eq_false hmade)

end SameOutside

namespace Outside

theorem of_innermost (h : table.Outside package) (howner : later.innermost.owner = table.innermost.owner)
    (himports : later.innermost.imports = table.innermost.imports) (henclosing : later.enclosing = table.enclosing) :
    later.Outside package := by
  obtain ⟨hinnermost, hrest⟩ := List.forall_mem_cons.mp h
  refine List.forall_mem_cons.mpr ⟨?_, henclosing ▸ hrest⟩
  rwa [howner, himports]

theorem declare (h : table.Outside package) (declaration : Declaration) :
    (table.declare declaration).2.2.Outside package :=
  have hextends := table.declare_extends declaration
  h.of_innermost hextends.1.owner (table.declare_imports declaration) hextends.2

theorem addPredefined (h : table.Outside package) : table.addPredefined.2.Outside package :=
  addPredefined_induction h (fun _ declaration h => h.declare declaration) fun _ declaration h => h.declare declaration

theorem change (h : table.Outside package) {made : TableChange} (hmade : made.reveals package = false) :
    (table.change made).Outside package := by
  cases made with
  | populate => exact h.addPredefined
  | declare declaration => exact h.declare declaration
  | bind id =>
    rcases table.bind_eq id with heq | ⟨symbol, -, heq⟩ <;> simp only [SymbolTable.change, heq]
    · exact h
    · exact h.of_innermost rfl rfl rfl
  | openRegion kind owner => exact List.forall_mem_cons.mpr ⟨⟨of_decide_eq_false hmade, List.not_mem_nil⟩, h⟩
  | closeRegion =>
    obtain ⟨-, hrest⟩ := List.forall_mem_cons.mp h
    cases henclosing : table.enclosing with
    | nil => simpa only [SymbolTable.change, SymbolTable.closeRegion, henclosing] using h
    | cons region rest =>
      rw [henclosing] at hrest
      simp only [SymbolTable.change, SymbolTable.closeRegion, henclosing]
      exact hrest
  | addImport other kind =>
    obtain ⟨hinnermost, hrest⟩ := List.forall_mem_cons.mp h
    refine List.forall_mem_cons.mpr ⟨⟨hinnermost.1, fun hmem => ?_⟩, hrest⟩
    rcases List.mem_append.mp hmem with hmem | hmem
    · exact hinnermost.2 hmem
    · obtain ⟨rfl, rfl⟩ := Import.mk.inj (List.mem_singleton.mp hmem)
      simp [TableChange.reveals] at hmade
  | publishAlias synonym target =>
    rcases table.publishAlias_eq synonym target with heq | ⟨contents, heq⟩ <;> simp only [SymbolTable.change, heq] <;>
      exact h
  | reserve | markPrivate | publish | publishCurrent => exact h.of_innermost rfl rfl rfl

end Outside

theorem SameOutside.changes (h : SameOutside package first second) (houtside : first.Outside package)
    {made : List TableChange} (hmade : ∀ change ∈ made, change.reveals package = false) :
    SameOutside package (first.changes made) (second.changes made) ∧ (first.changes made).Outside package := by
  induction made generalizing first second with
  | nil => exact ⟨h, houtside⟩
  | cons change rest ih =>
    obtain ⟨hchange, hrest⟩ := List.forall_mem_cons.mp hmade
    exact ih (h.change hchange) (houtside.change hchange) hrest

/-- Nobody outside of a package can tell what it has in its private part, now or after any changes that both tables go
through, as long as nobody comes inside: all names and all selectors stand for the same. -/
theorem private_secrecy (hsame : SameOutside package first second) (houtside : first.Outside package)
    {made : List TableChange} (hmade : ∀ change ∈ made, change.reveals package = false) :
    (∀ name, (first.changes made).resolve name = (second.changes made).resolve name) ∧
      ∀ owner name, (first.changes made).resolveMember owner name = (second.changes made).resolveMember owner name := by
  obtain ⟨hsame, houtside⟩ := hsame.changes houtside hmade
  exact ⟨fun name => (hsame.resolve_eq houtside name).symm,
    fun owner name => (hsame.resolveMember_eq houtside owner name).symm⟩

/-- One package binds an object in its private part that the other one does not. A body can tell, but neither a use
clause nor an expanded name, also behind another declaration. -/
theorem private_secrecy_object :
    let specification : List TableCommand → List TableCommand := fun hidden =>
      [.change (.declare { name := ⟨"P"⟩, kind := .package }), .change (.openRegion .package (some ⟨0⟩)),
        .change (.declare { name := ⟨"T"⟩, kind := .privateType }), .change .markPrivate,
        .change (.reserve { name := ⟨"X"⟩, kind := .object })] ++ hidden ++
        [.change (.publishCurrent ⟨0⟩), .change .closeRegion, .change (.openRegion .block none),
          .change (.addImport ⟨0⟩ .use)]
    let first := (MarkedTable.start.run (specification [])).table
    let second := (MarkedTable.start.run (specification [.change (.bind ⟨2⟩)])).table
    let made : List TableChange :=
      [.openRegion .block none, .addImport ⟨0⟩ .use, .declare { name := ⟨"Y"⟩, kind := .object }]
    let body : SymbolTable → SymbolTable := fun table => (table.openRegion .packageBody none).addImport ⟨0⟩ .body
    first.Reachable ∧ second.Reachable ∧ SameOutside ⟨0⟩ first second ∧ first.Outside ⟨0⟩ ∧
      (∀ change ∈ made, change.reveals ⟨0⟩ = false) ∧
      (body first).resolve ⟨"X"⟩ = .unresolved ∧ (body second).resolve ⟨"X"⟩ = ⟨some ⟨2⟩, .object⟩ ∧
      (first.changes made).resolve ⟨"X"⟩ = (second.changes made).resolve ⟨"X"⟩ ∧
      (first.changes made).resolveMember ⟨0⟩ ⟨"X"⟩ = (second.changes made).resolveMember ⟨0⟩ ⟨"X"⟩ := by
  intro specification first second made body
  have hfirst : MarkedTable.start.Legal (specification []) := by
    simp only [specification, List.cons_append, List.nil_append, MarkedTable.Legal, TableCommand.Legal,
      TableChange.Legal, Has]
    decide
  have hsecond : MarkedTable.start.Legal (specification [.change (.bind ⟨2⟩)]) := by
    simp only [specification, List.cons_append, List.nil_append, MarkedTable.Legal, TableCommand.Legal,
      TableChange.Legal, Has]
    decide
  have hpublished : ∀ owner, owner ≠ ⟨0⟩ → second.published? owner = first.published? owner := by
    intro owner howner
    have hnone : ∀ contents : Contents, [((⟨0⟩ : SymbolId), contents)].lookup owner = none := by
      intro contents
      simp [List.lookup_cons, beq_eq_false_iff_ne.mpr howner]
    exact (hnone _).trans (hnone _).symm
  have hsame : SameOutside ⟨0⟩ first second :=
    ⟨by decide, by decide, by decide, by decide, hpublished, by decide⟩
  have houtside : first.Outside ⟨0⟩ := by
    intro region hregion
    revert region
    decide
  have hmade : ∀ change ∈ made, change.reveals ⟨0⟩ = false := by
    simp [made, TableChange.reveals]
  obtain ⟨hresolve, hmember⟩ := private_secrecy hsame houtside hmade
  exact ⟨⟨_, hfirst, rfl⟩, ⟨_, hsecond, rfl⟩, hsame, houtside, hmade, by decide, by decide, hresolve _, hmember _ _⟩

end SymbolTable

end AdaSyntax

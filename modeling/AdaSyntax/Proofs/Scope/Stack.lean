import AdaSyntax.Proofs.Scope.Contents

namespace AdaSyntax

/-- Whether the change may publish for `owner`; the predefined entities are published for one of their own. -/
def TableChange.mayPublishFor (owner : SymbolId) : TableChange → Bool
  | populate => true
  | publish other _ | publishCurrent other | publishAlias other _ => other = owner
  | _ => false

def TableChange.isPrivateMark : TableChange → Bool
  | markPrivate => true
  | _ => false

namespace SymbolTable

/-- Some run of legal changes, marks and rollbacks leads to the table. -/
def Reachable (table : SymbolTable) : Prop :=
  ∃ commands, MarkedTable.start.Legal commands ∧ (MarkedTable.start.run commands).table = table

def changes (table : SymbolTable) (made : List TableChange) : SymbolTable := made.foldl SymbolTable.change table

variable {table later : SymbolTable} {change : TableChange}

theorem Reachable.wellFormed (h : table.Reachable) : table.WellFormed := by
  obtain ⟨commands, hlegal, rfl⟩ := h
  have hstart : MarkedTable.Retraces MarkedTable.start.table MarkedTable.start.marks := trivial
  exact (MarkedTable.run_retraces .empty hstart hlegal).1

theorem declare_extends (table : SymbolTable) (declaration : Declaration) :
    (table.declare declaration).2.2.innermost.Extends table.innermost ∧
      (table.declare declaration).2.2.enclosing = table.enclosing := by
  have hbind := (table.reserve declaration).2.bind_eq (table.declare declaration).1
  change (table.declare declaration).2.2 = _ ∨ _ at hbind
  rcases hbind with heq | ⟨symbol, -, heq⟩
  · rw [heq]
    exact ⟨.refl _, rfl⟩
  · change (table.declare declaration).2.2 = _ at heq
    rw [heq]
    exact ⟨.bind .., rfl⟩

theorem addPredefined_extends (table : SymbolTable) :
    table.addPredefined.2.innermost.Extends table.innermost ∧ table.addPredefined.2.enclosing = table.enclosing := by
  have hdeclare : ∀ (later : SymbolTable) declaration,
      later.innermost.Extends table.innermost ∧ later.enclosing = table.enclosing →
        (later.declare declaration).2.2.innermost.Extends table.innermost ∧
          (later.declare declaration).2.2.enclosing = table.enclosing := by
    rintro later declaration ⟨hextends, henclosing⟩
    obtain ⟨hextends', henclosing'⟩ := later.declare_extends declaration
    exact ⟨hextends'.trans hextends, henclosing'.trans henclosing⟩
  exact addPredefined_induction (motive := fun later =>
    later.innermost.Extends table.innermost ∧ later.enclosing = table.enclosing) ⟨.refl _, rfl⟩ hdeclare hdeclare

theorem change_regions (table : SymbolTable) {change : TableChange} (h : change.isPrivateMark = false) :
    (table.change change).enclosing = table.regions ∨ (table.change change).regions = table.enclosing ∨
      (table.change change).innermost.Extends table.innermost ∧ (table.change change).enclosing = table.enclosing := by
  cases change with
  | populate =>
    rw [SymbolTable.change]
    exact .inr (.inr table.addPredefined_extends)
  | declare declaration => exact .inr (.inr (table.declare_extends declaration))
  | bind id =>
    refine .inr (.inr ?_)
    rcases table.bind_eq id with heq | ⟨symbol, -, heq⟩ <;> simp only [SymbolTable.change, heq]
    · exact ⟨.refl _, trivial⟩
    · exact ⟨.bind .., rfl⟩
  | openRegion kind owner => exact .inl rfl
  | closeRegion =>
    cases henclosing : table.enclosing with
    | nil => simp only [SymbolTable.change, SymbolTable.closeRegion, henclosing]; exact .inr (.inr ⟨.refl _, trivial⟩)
    | cons region rest => simp only [SymbolTable.change, SymbolTable.closeRegion, henclosing]; exact .inr (.inl rfl)
  | markPrivate => cases h
  | addImport package kind =>
    exact .inr (.inr ⟨⟨rfl, rfl, rfl, fun _ => List.prefix_rfl, List.prefix_rfl, List.prefix_append .., rfl⟩, rfl⟩)
  | publishAlias synonym target =>
    refine .inr (.inr ?_)
    rcases table.publishAlias_eq synonym target with heq | ⟨contents, heq⟩ <;> simp only [SymbolTable.change, heq]
    · exact ⟨.refl _, trivial⟩
    · exact ⟨.refl _, rfl⟩
  | reserve | publish | publishCurrent => exact .inr (.inr ⟨.refl _, rfl⟩)

theorem published?_change (table : SymbolTable) {owner : SymbolId} (h : change.mayPublishFor owner = false) :
    (table.change change).published? owner = table.published? owner := by
  have hput : ∀ other contents, (decide (other = owner)) = false →
      (table.putContents other contents).published? owner = table.published? owner := by
    intro other contents hother
    rw [published?_putContents, if_neg (Ne.symm (of_decide_eq_false hother))]
  cases change with
  | populate => cases h
  | declare declaration => exact congrArg (·.lookup owner) (table.declare_contents declaration)
  | bind id => exact congrArg (·.lookup owner) (table.bind_contents id)
  | closeRegion => exact congrArg (·.lookup owner) table.closeRegion_contents
  | publish other members => exact hput other _ h
  | publishCurrent other => exact hput other _ h
  | publishAlias synonym target =>
    rcases table.publishAlias_eq synonym target with heq | ⟨contents, heq⟩ <;> simp only [SymbolTable.change, heq]
    exact hput synonym contents h
  | reserve | openRegion | markPrivate | addImport => rfl

theorem closeRegion_of_depth (h : 1 < table.depth) :
    ∃ later, table.closeRegion = some (table.innermost.close, later) := by
  cases henclosing : table.enclosing with
  | nil => simp [depth, henclosing] at h
  | cons region rest =>
    simp only [closeRegion, henclosing]
    exact ⟨_, rfl⟩

end SymbolTable

structure SymbolTable.Above (base table : SymbolTable) : Prop where
  proper : table.Proper
  symbols : base.symbols.toList <+: table.symbols.toList
  published : ∀ owner, table.published? owner = base.published? owner
  regions : base.regions <:+ table.enclosing

namespace SymbolTable.Above

variable {base table : SymbolTable}

theorem openRegion (h : base.Proper) (kind : RegionKind) (owner : Option SymbolId) :
    Above base (base.openRegion kind owner) where
  proper := h.openRegion kind owner
  symbols := List.prefix_rfl
  published _ := rfl
  regions := List.suffix_rfl

theorem of_counter (h : Above base table) (next : Nat) : Above base { table with nextRegion := next } :=
  ⟨h.proper, h.symbols, h.published, h.regions⟩

theorem change (h : Above base table) {made : TableChange} (hpublishes : ∀ owner, made.mayPublishFor owner = false)
    (hopen : base.depth < (table.change made).depth) : Above base (table.change made) where
  proper := h.proper.change made
  symbols := h.symbols.trans (change_revertsTo h.proper made).symbols
  published owner := (table.published?_change (hpublishes owner)).trans (h.published owner)
  regions := by
    by_cases hmark : made.isPrivateMark = true
    · cases made with
      | markPrivate => exact h.regions
      | _ => cases hmark
    · rcases table.change_regions (Bool.eq_false_iff.mpr hmark) with hopened | hclosed | ⟨-, hkept⟩
      · exact hopened ▸ h.regions.trans (List.suffix_cons ..)
      · have hregions : base.regions <:+ (table.change made).regions := hclosed ▸ h.regions
        -- The region that closes is none of those of `base`, for then no more would be open than there were.
        rcases List.suffix_cons_iff.mp hregions with heq | hsuffix
        · have hlength := congrArg List.length heq
          simp only [SymbolTable.regions, List.length_cons] at hlength
          simp only [depth] at hopen
          omega
        · exact hsuffix
      · exact hkept ▸ h.regions

theorem closeRegion (h : Above base table) (hdepth : table.depth = base.depth + 1) :
    (table.change .closeRegion).regions = base.regions := by
  have henclosing : base.regions = table.enclosing := by
    refine h.regions.eq_of_length ?_
    simp only [depth] at hdepth
    simp only [SymbolTable.regions, List.length_cons]
    omega
  cases hrest : table.enclosing with
  | nil => rw [hrest] at henclosing; cases henclosing
  | cons region rest =>
    simp only [SymbolTable.change, SymbolTable.closeRegion, hrest]
    exact (henclosing.trans hrest).symm

end SymbolTable.Above

end AdaSyntax

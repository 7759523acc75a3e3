import AdaSyntax.Proofs.Scope.Journal

namespace AdaSyntax

/-- The same region, with more declared and imported behind what was there. -/
structure Region.Extends (later earlier : Region) : Prop where
  id : later.id = earlier.id
  kind : later.kind = earlier.kind
  owner : later.owner = earlier.owner
  bindings : ∀ name, earlier.bindings.get name <+: later.bindings.get name
  order : earlier.order <+: later.order
  imports : earlier.imports <+: later.imports
  privateStart : later.privateStart = earlier.privateStart

namespace Region.Extends

theorem refl (region : Region) : region.Extends region :=
  ⟨rfl, rfl, rfl, fun _ => List.prefix_rfl, List.prefix_rfl, List.prefix_rfl, rfl⟩

theorem trans {first second third : Region} (h : third.Extends second)
    (h' : second.Extends first) : third.Extends first where
  id := h.id.trans h'.id
  kind := h.kind.trans h'.kind
  owner := h.owner.trans h'.owner
  bindings := fun name => (h'.bindings name).trans (h.bindings name)
  order := h'.order.trans h.order
  imports := h'.imports.trans h.imports
  privateStart := h.privateStart.trans h'.privateStart

theorem bind (region : Region) (name : Name) (id : SymbolId) :
    (region.bind name id).Extends region :=
  ⟨rfl, rfl, rfl, fun _ => Bindings.get_prefix_add .., List.prefix_append _ _, List.prefix_rfl, rfl⟩

end Region.Extends

namespace SymbolTable

structure Grown (earlier later : SymbolTable) (opened : Nat) : Prop where
  reverts : later.RevertsTo earlier
  regions : ∃ inner region, later.regions = inner ++ region :: earlier.enclosing ∧
    inner.length = opened ∧ region.Extends earlier.innermost
  published : ∀ owner, owner.index < earlier.symbols.size →
    later.published? owner = earlier.published? owner

namespace Grown

variable {first second third table : SymbolTable} {opened : Nat}

theorem refl (table : SymbolTable) : Grown table table 0 where
  reverts := .refl table
  regions := ⟨[], table.innermost, rfl, rfl, .refl _⟩
  published := fun _ _ => rfl

theorem symbols_le (h : Grown first second opened) : first.symbols.size ≤ second.symbols.size := by
  simpa using h.reverts.symbols.length_le

theorem depth_eq (h : Grown first second opened) : second.depth = first.depth + opened := by
  obtain ⟨inner, region, hregions, hlength, -⟩ := h.regions
  have hcount := congrArg List.length hregions
  simp only [SymbolTable.regions, List.length_append, List.length_cons] at hcount
  simp only [depth]
  omega

theorem depth_le (h : Grown first second opened) : first.depth ≤ second.depth :=
  h.depth_eq ▸ Nat.le_add_right _ _

theorem innermost (h : Grown first second 0) :
    second.innermost.Extends first.innermost ∧ second.enclosing = first.enclosing := by
  obtain ⟨inner, region, hregions, hlength, hextends⟩ := h.regions
  rw [List.length_eq_zero_iff.mp hlength] at hregions
  obtain ⟨rfl, henclosing⟩ := List.cons.inj hregions
  exact ⟨hextends, henclosing⟩

theorem trans {opened' : Nat} (h : Grown first second opened) (h' : Grown second third opened') :
    Grown first third (opened + opened') where
  reverts := h'.reverts.trans h.reverts
  regions := by
    obtain ⟨inner, region, hregions, hlength, hextends⟩ := h.regions
    obtain ⟨inner', region', hregions', hlength', hextends'⟩ := h'.regions
    cases inner with
    | nil =>
      obtain ⟨rfl, hrest⟩ := List.cons.inj hregions
      refine ⟨inner', region', hrest ▸ hregions', ?_, hextends'.trans hextends⟩
      rw [hlength', ← hlength, List.length_nil, Nat.zero_add]
    | cons top inner =>
      obtain ⟨rfl, hrest⟩ := List.cons.inj hregions
      refine ⟨inner' ++ region' :: inner, region, ?_, ?_, hextends⟩
      · rw [hregions', hrest]
        simp
      · simp only [List.length_append, List.length_cons] at hlength ⊢
        omega
  published := fun owner howner =>
    (h'.published owner (Nat.lt_of_lt_of_le howner h.symbols_le)).trans (h.published owner howner)

theorem of_innermost {earlier later : SymbolTable} (hreverts : later.RevertsTo earlier)
    (hinnermost : later.innermost.Extends earlier.innermost)
    (henclosing : later.enclosing = earlier.enclosing)
    (hcontents : later.contents = earlier.contents) : Grown earlier later 0 where
  reverts := hreverts
  regions := ⟨[], later.innermost, by simp [SymbolTable.regions, henclosing], rfl, hinnermost⟩
  published := fun owner _ => by simp [published?, hcontents]

theorem of_counter {next : Nat} (h : table.nextRegion ≤ next) :
    Grown table { table with nextRegion := next } 0 :=
  .of_innermost (.of_counter h) (.refl _) rfl rfl

theorem reserve (table : SymbolTable) (declaration : Declaration) :
    Grown table (table.reserve declaration).2 0 :=
  .of_innermost (table.reserve_revertsTo declaration) (.refl _) rfl rfl

theorem bind (h : table.Proper) (id : SymbolId) : Grown table (table.bind id).2 0 := by
  rcases table.bind_eq id with heq | ⟨symbol, -, heq⟩ <;> rw [heq]
  · exact .refl table
  · exact .of_innermost (putBinding_revertsTo h symbol.name id) (.bind _ symbol.name id) rfl rfl

theorem declare (h : table.Proper) (declaration : Declaration) :
    Grown table (table.declare declaration).2.2 0 :=
  (reserve table declaration).trans (bind (h.reserve declaration) _)

theorem addImport (table : SymbolTable) (package : SymbolId) (kind : ImportKind) :
    Grown table (table.addImport package kind) 0 :=
  .of_innermost (table.addImport_revertsTo package kind)
    ⟨rfl, rfl, rfl, fun _ => List.prefix_rfl, List.prefix_rfl, List.prefix_append _ _, rfl⟩ rfl rfl

theorem openRegion (table : SymbolTable) (kind : RegionKind) (owner : Option SymbolId) :
    Grown table (table.openRegion kind owner) 1 where
  reverts := table.openRegion_revertsTo kind owner
  regions := ⟨[_], table.innermost, rfl, rfl, .refl _⟩
  published := fun _ _ => rfl

theorem closeRegion (h : Grown first second (opened + 1)) :
    ∃ closed later, second.closeRegion = some (closed, later) ∧ Grown first later opened := by
  obtain ⟨inner, region, hregions, hlength, hextends⟩ := h.regions
  cases inner with
  | nil => cases hlength
  | cons top inner =>
    obtain ⟨-, hrest⟩ := List.cons.inj hregions
    cases henclosing : second.enclosing with
    | nil => simp [henclosing] at hrest
    | cons next rest =>
      have hclose : second.closeRegion = some (second.innermost.close,
          { second with
            innermost := next, enclosing := rest
            journal := second.journal.push (.closed second.innermost) }) := by
        simp [SymbolTable.closeRegion, henclosing]
      refine ⟨_, _, hclose, (closeRegion_revertsTo hclose).trans h.reverts, ?_, h.published⟩
      exact ⟨inner, region, henclosing.symm.trans hrest, Nat.succ.inj hlength, hextends⟩

theorem markPrivate (h : Grown first second (opened + 1)) :
    Grown first second.markPrivate (opened + 1) where
  reverts := second.markPrivate_revertsTo.trans h.reverts
  regions := by
    obtain ⟨inner, region, hregions, hlength, hextends⟩ := h.regions
    cases inner with
    | nil => cases hlength
    | cons top inner =>
      obtain ⟨-, hrest⟩ := List.cons.inj hregions
      exact ⟨second.markPrivate.innermost :: inner, region,
        congrArg (second.markPrivate.innermost :: ·) hrest, hlength, hextends⟩
  published := h.published

theorem putContents (h : Grown first second opened) {owner : SymbolId}
    (howner : first.symbols.size ≤ owner.index) (contents : Contents) :
    Grown first (second.putContents owner contents) opened where
  reverts := (second.putContents_revertsTo owner contents).trans h.reverts
  regions := h.regions
  published := by
    intro other hother
    have hne : other ≠ owner := by
      rintro rfl
      omega
    rw [← h.published other hother]
    exact lookup_setContents_of_ne contents second.contents hne

theorem publish (h : Grown first second opened) {owner : SymbolId}
    (howner : first.symbols.size ≤ owner.index) (members : Members) :
    Grown first (second.publish owner members) opened := by
  obtain ⟨contents, heq⟩ := second.publish_eq owner members
  rw [heq]
  exact h.putContents howner contents

theorem publishAlias (h : Grown first second opened) {synonym : SymbolId}
    (hsynonym : first.symbols.size ≤ synonym.index) (target : SymbolId) :
    Grown first (second.publishAlias synonym target) opened := by
  rcases second.publishAlias_eq synonym target with heq | ⟨contents, heq⟩ <;> rw [heq]
  · exact h
  · exact h.putContents hsynonym contents

end Grown

end SymbolTable

end AdaSyntax

import AdaSyntax.Proofs.Scope.Growth
import AdaSyntax.Proofs.Scope.WellFormed

namespace AdaSyntax

def Undo.publishes (owner : SymbolId) : Undo → Bool
  | .published other _ => other = owner
  | _ => false

def SymbolKind.publications : SymbolKind → Nat
  | .genericPackage => 2
  | _ => 1

theorem SymbolKind.publications_pos (kind : SymbolKind) : 0 < kind.publications := by
  cases kind <;> decide

def RegionKind.importsByUse : RegionKind → Bool
  | .package | .genericFormal => true
  | _ => false

namespace SymbolTable

variable {table earlier later : SymbolTable} {owner : SymbolId}

def publications (table : SymbolTable) (owner : SymbolId) : Nat :=
  table.journal.toList.countP (Undo.publishes owner)

theorem undoLast_journal (table : SymbolTable) (count : Nat) :
    (table.undoLast count).journal.toList = table.journal.toList.take (table.journal.size - count) := by
  induction count generalizing table with
  | zero => simp [undoLast, ← Array.length_toList]
  | succ count ih =>
    simp only [undoLast]
    cases hback : table.journal.back? with
    | none => simp [Array.back?_eq_none_iff.mp hback]
    | some change =>
      simp only [ih, undo_journal, Array.size_pop, Array.toList_pop, List.dropLast_eq_take, List.take_take,
        Array.length_toList]
      congr 1
      omega

theorem RevertsTo.journal_take (h : later.RevertsTo earlier) :
    later.journal.toList.take earlier.journal.size = earlier.journal.toList := by
  have hundone := congrArg (fun table : SymbolTable => table.journal.toList) h.undone
  rw [undoLast_journal, Nat.sub_sub_self h.journal] at hundone
  exact hundone

theorem updateRegion_contents (table : SymbolTable) (id : RegionId) (f : Region → Region) :
    (table.updateRegion id f).contents = table.contents := by
  unfold updateRegion
  split <;> rfl

theorem lookup_filter_of_ne {other : SymbolId} (entries : List (SymbolId × Contents)) (h : owner ≠ other) :
    (entries.filter (·.1 ≠ other)).lookup owner = entries.lookup owner := by
  induction entries with
  | nil => rfl
  | cons entry rest ih =>
    obtain ⟨key, contents⟩ := entry
    by_cases hkey : key = other
    · subst hkey
      have hne : (owner == key) = false := beq_eq_false_iff_ne.mpr h
      simpa [List.lookup_cons, hne] using ih
    · simp only [ne_eq, hkey, not_false_eq_true, decide_true, List.filter_cons_of_pos, List.lookup_cons]
      simp only [ne_eq] at ih
      rw [ih]

theorem published?_undo {change : Undo} (h : change.publishes owner = false) :
    (table.undo change).published? owner = table.published? owner := by
  cases change with
  | opened => simp only [undo]; split <;> rfl
  | closed region => rfl
  | bound id name => exact congrArg (·.lookup owner) (table.updateRegion_contents ..)
  | imported id => exact congrArg (·.lookup owner) (table.updateRegion_contents ..)
  | markedPrivate id previous => exact congrArg (·.lookup owner) (table.updateRegion_contents ..)
  | published other previous =>
    have hne : owner ≠ other := fun heq => by simp [Undo.publishes, heq] at h
    cases previous with
    | none => exact lookup_filter_of_ne _ hne
    | some contents => exact lookup_setContents_of_ne contents _ hne

theorem published?_undoLast (count : Nat)
    (h : ∀ change ∈ table.journal.toList.drop (table.journal.size - count), change.publishes owner = false) :
    (table.undoLast count).published? owner = table.published? owner := by
  induction count generalizing table with
  | zero => rfl
  | succ count ih =>
    simp only [undoLast]
    cases hback : table.journal.back? with
    | none => rfl
    | some change =>
      obtain ⟨journal, hjournal⟩ := Array.back?_eq_some_iff.mp hback
      have hsize : table.journal.size - (count + 1) = journal.size - count := by
        rw [hjournal, Array.size_push]
        omega
      have hle : journal.size - count ≤ journal.toList.length := by simp
      rw [hsize, hjournal, Array.toList_push, List.drop_append_of_le_length hle] at h
      obtain ⟨hearlier, hlast⟩ := List.forall_mem_append.mp h
      have hpop : table.journal.pop = journal := by simp [hjournal]
      rw [hpop]
      refine (ih ?_).trans (published?_undo (hlast change (List.mem_singleton_self _)))
      rwa [undo_journal]

theorem RevertsTo.published?_eq (h : later.RevertsTo earlier)
    (hsame : later.publications owner ≤ earlier.publications owner) :
    later.published? owner = earlier.published? owner := by
  have hsplit := List.take_append_drop earlier.journal.size later.journal.toList
  rw [h.journal_take] at hsplit
  have hsince : (later.journal.toList.drop earlier.journal.size).countP (Undo.publishes owner) = 0 := by
    rw [publications, ← hsplit, List.countP_append, publications] at hsame
    omega
  have hundone := congrArg (fun table : SymbolTable => table.published? owner) h.undone
  refine (published?_undoLast _ fun change hchange => ?_).symm.trans hundone
  rw [Nat.sub_sub_self h.journal] at hchange
  simpa using List.countP_eq_zero.mp hsince change hchange

theorem publications_push {change : Undo} (hjournal : later.journal = table.journal.push change)
    (hchange : change.publishes owner = false) : later.publications owner = table.publications owner := by
  simp [publications, hjournal, List.countP_append, hchange]

theorem publications_putContents (table : SymbolTable) (owner other : SymbolId) (contents : Contents) :
    (table.putContents owner contents).publications other =
      table.publications other + if owner = other then 1 else 0 := by
  simp [publications, SymbolTable.putContents, List.countP_append, Undo.publishes, List.countP_cons]

theorem declare_contents (table : SymbolTable) (declaration : Declaration) :
    (table.declare declaration).2.2.contents = table.contents := by
  have hbind : ((table.reserve declaration).2.bind (table.declare declaration).1).2.contents = table.contents := by
    rcases (table.reserve declaration).2.bind_eq (table.declare declaration).1 with heq | ⟨symbol, -, heq⟩ <;>
      rw [heq] <;> rfl
  exact hbind

theorem kindOf_declare (table : SymbolTable) (declaration : Declaration) :
    (table.declare declaration).2.2.kindOf (table.declare declaration).1 = declaration.kind := by
  have hid : (table.declare declaration).1 = ⟨table.symbols.size⟩ := rfl
  simp [kindOf, symbol?, hid, declare_symbols]

theorem declare_imports (table : SymbolTable) (declaration : Declaration) :
    (table.declare declaration).2.2.innermost.imports = table.innermost.imports := by
  have hbind : ((table.reserve declaration).2.bind (table.declare declaration).1).2.innermost.imports =
      table.innermost.imports := by
    rcases (table.reserve declaration).2.bind_eq (table.declare declaration).1 with heq | ⟨symbol, -, heq⟩ <;>
      rw [heq] <;> rfl
  exact hbind

theorem lookup_setContents_self (owner : SymbolId) (contents : Contents) (entries : List (SymbolId × Contents)) :
    (setContents owner contents entries).lookup owner = some contents := by
  induction entries with
  | nil => simp
  | cons entry rest ih =>
    obtain ⟨key, old⟩ := entry
    by_cases hkey : key = owner
    · subst hkey
      simp [setContents_cons]
    · have hne : (owner == key) = false := beq_eq_false_iff_ne.mpr (Ne.symm hkey)
      simpa [setContents_cons, hkey, List.lookup_cons, hne] using ih

theorem published?_putContents (table : SymbolTable) (owner other : SymbolId) (contents : Contents) :
    (table.putContents owner contents).published? other =
      if other = owner then some contents else table.published? other := by
  split
  · rename_i heq
    exact heq ▸ lookup_setContents_self other contents table.contents
  · rename_i hne
    exact lookup_setContents_of_ne contents table.contents hne

structure Orderly (table : SymbolTable) : Prop where
  wellFormed : table.WellFormed
  unpublished : ∀ owner, table.published? owner = none ↔ table.publications owner = 0
  bounded : ∀ owner, table.publications owner ≤ (table.kindOf owner).publications
  imports : ∀ region ∈ table.regions, region.kind.importsByUse = true → ∀ used ∈ region.imports, used.kind = .use

structure MayPublish (table : SymbolTable) (owner : SymbolId) : Prop where
  has : table.Has owner
  lt : table.publications owner < (table.kindOf owner).publications

structure Unpublished (table : SymbolTable) (owner : SymbolId) (kind : SymbolKind) : Prop where
  has : table.Has owner
  kind : table.kindOf owner = kind
  published : table.published? owner = none

namespace Unpublished

variable {kind : SymbolKind} {opened : Nat}

theorem of_contents (h : table.Unpublished owner kind) (hgrown : table.symbols.toList <+: later.symbols.toList)
    (hcontents : later.contents = table.contents) : later.Unpublished owner kind where
  has := h.has.mono hgrown
  kind := (kindOf_eq_of_has hgrown h.has).trans h.kind
  published := (congrArg (·.lookup owner) hcontents).trans h.published

theorem grown (h : table.Unpublished owner kind) (hgrown : Grown table later opened) : later.Unpublished owner kind where
  has := h.has.mono hgrown.reverts.symbols
  kind := (kindOf_eq_of_has hgrown.reverts.symbols h.has).trans h.kind
  published := (hgrown.published owner h.has).trans h.published

end Unpublished

theorem closeRegion_symbols (table : SymbolTable) : (table.change .closeRegion).symbols = table.symbols :=
  table.change_symbols rfl

theorem closeRegion_publications (table : SymbolTable) (owner : SymbolId) :
    (table.change .closeRegion).publications owner = table.publications owner := by
  cases henclosing : table.enclosing with
  | nil => simp only [SymbolTable.change, SymbolTable.closeRegion, henclosing]
  | cons region rest =>
    simp only [SymbolTable.change, SymbolTable.closeRegion, henclosing]
    exact publications_push rfl rfl

theorem closeRegion_contents (table : SymbolTable) : (table.change .closeRegion).contents = table.contents := by
  cases henclosing : table.enclosing <;> simp only [SymbolTable.change, SymbolTable.closeRegion, henclosing]

theorem Unpublished.closeRegion {kind : SymbolKind} (h : table.Unpublished owner kind) :
    (table.change .closeRegion).Unpublished owner kind :=
  h.of_contents (table.closeRegion_symbols ▸ List.prefix_rfl) table.closeRegion_contents

theorem MayPublish.closeRegion (h : table.MayPublish owner) : (table.change .closeRegion).MayPublish owner where
  has := h.has.mono (table.closeRegion_symbols ▸ List.prefix_rfl)
  lt := by
    have hkind : (table.change .closeRegion).kindOf owner = table.kindOf owner :=
      kindOf_eq_of_has (table.closeRegion_symbols ▸ List.prefix_rfl) h.has
    rw [table.closeRegion_publications, hkind]
    exact h.lt

namespace Orderly

theorem published?_of_not_has (h : table.Orderly) (howner : ¬ table.Has owner) : table.published? owner = none := by
  refine List.lookup_eq_none_iff.mpr fun entry hentry => bne_iff_ne.mpr ?_
  rintro rfl
  exact howner (h.wellFormed.published entry hentry).1

theorem publications_of_not_has (h : table.Orderly) (howner : ¬ table.Has owner) : table.publications owner = 0 :=
  (h.unpublished owner).mp (h.published?_of_not_has howner)

theorem mayPublish (h : table.Orderly) {kind : SymbolKind} (howner : table.Unpublished owner kind) :
    table.MayPublish owner :=
  ⟨howner.has, (h.unpublished owner).mp howner.published ▸ SymbolKind.publications_pos _⟩

theorem of_publications (h : table.Orderly) (hwell : later.WellFormed)
    (hgrown : table.symbols.toList <+: later.symbols.toList) (hcontents : later.contents = table.contents)
    (hpublications : ∀ owner, later.publications owner = table.publications owner)
    (himports : ∀ region ∈ later.regions, region.kind.importsByUse = true → ∀ used ∈ region.imports, used.kind = .use) :
    later.Orderly where
  wellFormed := hwell
  unpublished owner := by rw [published?, hcontents, hpublications]; exact h.unpublished owner
  bounded owner := by
    rw [hpublications]
    by_cases howner : table.Has owner
    · rw [kindOf_eq_of_has hgrown howner]
      exact h.bounded owner
    · rw [h.publications_of_not_has howner]
      exact Nat.zero_le _
  imports := himports

theorem of_innermost (h : table.Orderly) (hwell : later.WellFormed)
    (hgrown : table.symbols.toList <+: later.symbols.toList) (hcontents : later.contents = table.contents)
    (hpublications : ∀ owner, later.publications owner = table.publications owner)
    (henclosing : later.enclosing = table.enclosing) (hkind : later.innermost.kind = table.innermost.kind)
    (himports : later.innermost.imports = table.innermost.imports) : later.Orderly := by
  refine h.of_publications hwell hgrown hcontents hpublications (List.forall_mem_cons.mpr ⟨?_, ?_⟩)
  · rw [hkind, himports]
    exact h.imports _ List.mem_cons_self
  · rw [henclosing]
    exact fun region hregion => h.imports region (List.mem_cons_of_mem _ hregion)

theorem empty : SymbolTable.empty.Orderly where
  wellFormed := .empty
  unpublished owner := ⟨fun _ => rfl, fun _ => rfl⟩
  bounded owner := Nat.zero_le _
  imports region hregion := by
    obtain rfl := List.mem_singleton.mp hregion
    nofun

theorem of_counter (h : table.Orderly) {next : Nat} (hnext : table.nextRegion ≤ next) :
    ({ table with nextRegion := next } : SymbolTable).Orderly :=
  h.of_innermost (h.wellFormed.of_counter hnext) List.prefix_rfl rfl (fun _ => rfl) rfl rfl rfl

theorem reserve (h : table.Orderly) (declaration : Declaration) : (table.reserve declaration).2.Orderly :=
  h.of_innermost (h.wellFormed.reserve declaration) (table.reserve_revertsTo declaration).symbols rfl
    (fun _ => rfl) rfl rfl rfl

theorem bind (h : table.Orderly) (id : SymbolId) : (table.bind id).2.Orderly := by
  have hwell := h.wellFormed.bind id
  rcases table.bind_eq id with heq | ⟨symbol, -, heq⟩ <;> rw [heq] at hwell ⊢
  · exact h
  · exact h.of_innermost hwell List.prefix_rfl rfl (fun _ => publications_push rfl rfl) rfl rfl rfl

theorem declare (h : table.Orderly) (declaration : Declaration) : (table.declare declaration).2.2.Orderly :=
  (h.reserve declaration).bind _

theorem openRegion (h : table.Orderly) (kind : RegionKind) (owner : Option SymbolId) :
    (table.openRegion kind owner).Orderly :=
  h.of_publications (h.wellFormed.openRegion kind owner) List.prefix_rfl rfl (fun _ => publications_push rfl rfl)
    (List.forall_mem_cons.mpr ⟨nofun, h.imports⟩)

theorem closeRegion (h : table.Orderly) : (table.change .closeRegion).Orderly := by
  have hwell := h.wellFormed.closeRegion
  cases henclosing : table.enclosing with
  | nil => simpa only [SymbolTable.change, SymbolTable.closeRegion, henclosing] using h
  | cons region rest =>
    simp only [SymbolTable.change, SymbolTable.closeRegion, henclosing] at hwell ⊢
    refine h.of_publications hwell List.prefix_rfl rfl (fun _ => publications_push rfl rfl) fun other hother => ?_
    exact h.imports other (List.mem_cons_of_mem _ (henclosing ▸ hother))

theorem markPrivate (h : table.Orderly) : table.markPrivate.Orderly :=
  h.of_innermost h.wellFormed.markPrivate List.prefix_rfl rfl (fun _ => publications_push rfl rfl) rfl rfl rfl

theorem addImport (h : table.Orderly) (package : SymbolId) {kind : ImportKind}
    (hkind : table.innermost.kind.importsByUse = true → kind = .use) : (table.addImport package kind).Orderly := by
  refine h.of_publications (h.wellFormed.addImport package kind) List.prefix_rfl rfl
    (fun _ => publications_push rfl rfl) (List.forall_mem_cons.mpr ⟨fun hregion used hused => ?_, ?_⟩)
  · rcases List.mem_append.mp hused with hused | hused
    · exact h.imports _ List.mem_cons_self hregion used hused
    · exact List.mem_singleton.mp hused ▸ hkind hregion
  · exact fun region hregion => h.imports region (List.mem_cons_of_mem _ hregion)

theorem putContents (h : table.Orderly) {contents : Contents} (hfiled : contents.Filed table)
    (howner : table.MayPublish owner) : (table.putContents owner contents).Orderly := by
  refine ⟨h.wellFormed.putContents howner.has hfiled, fun other => ?_, fun other => ?_, h.imports⟩
  · rw [publications_putContents]
    by_cases heq : owner = other
    · subst heq
      simp [published?_putContents]
    · rw [if_neg heq, published?_putContents, if_neg (Ne.symm heq)]
      exact h.unpublished other
  · rw [publications_putContents]
    by_cases heq : owner = other
    · subst heq
      rw [if_pos rfl]
      exact howner.lt
    · rw [if_neg heq]
      exact h.bounded other

theorem published?_eq (h : later.Orderly) (hreverts : later.RevertsTo earlier)
    (hall : (later.kindOf owner).publications ≤ earlier.publications owner) :
    later.published? owner = earlier.published? owner :=
  hreverts.published?_eq (Nat.le_trans (h.bounded owner) hall)

theorem published?_final (h : later.Orderly) (hearlier : earlier.Orderly) (hreverts : later.RevertsTo earlier)
    (hkind : earlier.kindOf owner ≠ .genericPackage) {contents : Contents}
    (hcontents : earlier.published? owner = some contents) : later.published? owner = some contents := by
  have hpositive : 0 < earlier.publications owner := by
    refine Nat.pos_of_ne_zero fun hzero => ?_
    rw [(hearlier.unpublished owner).mpr hzero] at hcontents
    cases hcontents
  have hhas : earlier.Has owner := by
    by_contra hnot
    exact Nat.ne_of_gt hpositive (hearlier.publications_of_not_has hnot)
  have honce : (later.kindOf owner).publications = 1 := by
    rw [kindOf_eq_of_has hreverts.symbols hhas]
    generalize earlier.kindOf owner = kind at hkind
    cases kind <;> first | rfl | exact absurd rfl hkind
  exact (h.published?_eq hreverts (honce ▸ hpositive)).trans hcontents

theorem publish (h : table.Orderly) (howner : table.MayPublish owner) (members : Members) :
    (table.publish owner members).Orderly :=
  have hold := h.wellFormed.filed.contents_getD owner
  h.putContents ⟨hold.visible.addAll members.visible, hold.hidden.addAll members.hidden⟩ howner

theorem publishAlias (h : table.Orderly) (howner : table.MayPublish owner) (target : SymbolId) :
    (table.publishAlias owner target).Orderly := by
  unfold SymbolTable.publishAlias
  split
  · exact h
  · rename_i contents hcontents
    exact h.putContents (h.wellFormed.filed.published hcontents) howner

theorem unpublished_declare (h : table.Orderly) (declaration : Declaration) :
    (table.declare declaration).2.2.Unpublished (table.declare declaration).1 declaration.kind where
  has := has_declare table declaration
  kind := kindOf_declare table declaration
  published := by
    rw [published?, declare_contents]
    exact h.published?_of_not_has (Nat.lt_irrefl _)

theorem mayPublish_publish (h : table.Orderly) (howner : table.Unpublished owner .genericPackage)
    (members : Members) : (table.publish owner members).MayPublish owner where
  has := howner.has
  lt := by
    obtain ⟨contents, heq⟩ := table.publish_eq owner members
    have hkind : (table.publish owner members).kindOf owner = .genericPackage := howner.kind
    rw [hkind, heq, publications_putContents, (h.unpublished owner).mp howner.published, if_pos rfl]
    decide

theorem addPredefined (h : table.Orderly) : table.addPredefined.2.Orderly := by
  refine addPredefined_induction h (fun _ declaration h => h.declare declaration) fun table declaration h => ?_
  have hdeclare := h.declare declaration
  exact hdeclare.publish (hdeclare.mayPublish (h.unpublished_declare declaration)) _

end Orderly

end SymbolTable

end AdaSyntax

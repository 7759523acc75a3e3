import AdaSyntax.Proofs.Parser.Since

/-!
Going back to any checkpoint, also to one of a later state or of another parser. The cursor moves first, and only then
the log is asked whether it is long enough. So there are two ways to fail, of which one leaves the parser as it was and
the other one leaves it at the position of the checkpoint, with all else untouched. Whatever happens, going back once more
changes nothing.
-/

namespace AdaSyntax

theorem shrink_shrink {α : Type} (items : Array α) (size : Nat) : (items.shrink size).shrink size = items.shrink size := by
  apply Array.toList_inj.mp
  simp

theorem SymbolTable.rollback_rollback (table : SymbolTable) (mark : ScopeMark) :
    (table.rollback mark).rollback mark = table.rollback mark := by
  have hsize := table.undoLast_journal_size (table.journal.size - mark.journal)
  have hnone : (table.undoLast (table.journal.size - mark.journal)).journal.size - mark.journal = 0 := by omega
  rw [table.rollback_eq]
  generalize table.undoLast (table.journal.size - mark.journal) = undone at *
  rw [rollback_eq, undoLast_withStores]
  simp only [withStores, hnone, undoLast_zero, shrink_shrink]

theorem Tree.truncate_truncate (tree : Tree) (size : Nat) : (tree.truncate size).truncate size = tree.truncate size :=
  congrArg mk (shrink_shrink tree.nodes size)

namespace Parser

/-- What going back to a checkpoint can lead to. -/
inductive Restored (parser : Parser) (checkpoint : Checkpoint) : Option Fatal × Parser → Prop where
  /-- There is no such position. -/
  | outside (hposition : parser.cursor.tokens.size ≤ checkpoint.position) :
      Restored parser checkpoint (some (.invalidPosition checkpoint.position), parser)
  /-- The log is too short for the checkpoint, but the cursor has moved. -/
  | halfway (cursor : Cursor) (htokens : cursor.tokens = parser.cursor.tokens)
      (hposition : cursor.position = checkpoint.position) (hlog : parser.log.length < checkpoint.log) :
      Restored parser checkpoint (some (.invalidMarker checkpoint.log parser.log.length), { parser with cursor })
  | back (cursor : Cursor) (log : DiagnosticLog) (htokens : cursor.tokens = parser.cursor.tokens)
      (hposition : cursor.position = checkpoint.position) (hlog : log.length = checkpoint.log)
      (hrecords : log.records.toList <+: parser.log.records.toList) :
      Restored parser checkpoint (none, { parser with
        cursor, log
        symbols := parser.symbols.rollback checkpoint.scopes
        tree := parser.tree.truncate checkpoint.nodes })

variable {parser : Parser} {checkpoint : Checkpoint}

theorem restore_restored (parser : Parser) (checkpoint : Checkpoint) :
    Restored parser checkpoint (parser.restore checkpoint) := by
  unfold restore Cursor.rewind DiagnosticLog.rollback
  by_cases hposition : checkpoint.position < parser.cursor.tokens.size
  · by_cases hlog : parser.log.length < checkpoint.log
    · simp only [hposition, hlog, dif_pos, if_pos]
      exact .halfway _ rfl rfl hlog
    · simp only [hposition, hlog, dif_pos, if_false]
      refine .back _ _ rfl rfl ?_ (by simpa using List.take_prefix _ _)
      rw [DiagnosticLog.length, Array.size_shrink]
      exact Nat.min_eq_left (Nat.le_of_not_lt hlog)
  · simp only [hposition, dif_neg, not_false_eq_true]
    exact .outside (Nat.le_of_not_lt hposition)

theorem Restored.failed_iff {result : Option Fatal × Parser} (h : Restored parser checkpoint result)
    (hfailed : result.1.isSome = true) :
    result.2 = parser ↔ parser.cursor.tokens.size ≤ checkpoint.position ∨ parser.position = checkpoint.position := by
  cases h with
  | outside hposition => exact iff_of_true rfl (.inl hposition)
  | halfway cursor htokens hposition hlog =>
    have hinside : ¬parser.cursor.tokens.size ≤ checkpoint.position :=
      Nat.not_le.mpr (htokens ▸ hposition ▸ cursor.position_lt)
    constructor
    · intro heq
      exact .inr ((congrArg position heq).symm.trans hposition)
    · intro hor
      have hsame : cursor = parser.cursor :=
        Cursor.ext_of_tokens htokens (hposition.trans (hor.resolve_left hinside).symm)
      rw [hsame]
  | back => cases hfailed

theorem Restored.restore_eq {result : Option Fatal × Parser} (h : Restored parser checkpoint result) :
    result.2.restore checkpoint = result := by
  have hrewind : ∀ cursor : Cursor, cursor.position = checkpoint.position →
      cursor.rewind checkpoint.position = .ok cursor := fun cursor hposition =>
    hposition ▸ Cursor.rewind_eq rfl
  cases h with
  | outside hposition =>
    simp only [restore, Cursor.rewind, Nat.not_lt.mpr hposition, dif_neg, not_false_eq_true]
  | halfway cursor htokens hposition hlog =>
    simp only [restore, hrewind cursor hposition, DiagnosticLog.rollback, hlog, if_pos]
  | back cursor log htokens hposition hlog =>
    have hrollback : log.rollback checkpoint.log = .ok log := hlog ▸ DiagnosticLog.rollback_eq List.prefix_rfl
    simp only [restore, hrewind cursor hposition, hrollback, SymbolTable.rollback_rollback, Tree.truncate_truncate]

theorem Covers.checkpoint_restore {base later : Parser} (h : later.Covers base) :
    (later.restore base.checkpoint).2.checkpoint = base.checkpoint := by
  have hsize : (later.tree.truncate base.tree.size).size = base.tree.size := by
    rw [Tree.size_truncate]
    exact Nat.min_eq_left h.tree.size_le
  rw [h.restore]
  simp only [Parser.checkpoint, hsize]
  rfl

/-- Going back to a checkpoint either fails or succeeds as told above. A failure leaves the parser as it was just in case
the checkpoint has no position in the input or that of the parser, and in no other case; going back twice is going back
once. If the checkpoint was taken earlier, and all other checkpoints gone back to since are later than it, then going back
succeeds: cursor, log, symbols and open regions are those of that time, the region counter apart, the lengths are those
of the checkpoint, and of the nodes of that time only reserved ones can have changed, by being filled. -/
theorem restore_exact (parser : Parser) (checkpoint : Checkpoint) :
    let result := parser.restore checkpoint
    Restored parser checkpoint result ∧
      (result.1.isSome = true → (result.2 = parser ↔
        parser.cursor.tokens.size ≤ checkpoint.position ∨ parser.position = checkpoint.position)) ∧
      result.2.restore checkpoint = result ∧
      ∀ marked : Parser, marked.Reachable → marked.Since parser → checkpoint = marked.checkpoint →
        result = (none, { parser with
          cursor := marked.cursor, log := marked.log
          symbols := { marked.symbols with nextRegion := parser.symbols.nextRegion }
          tree := parser.tree.truncate marked.tree.size }) ∧
        result.2.checkpoint = checkpoint ∧ result.2.tree.Fills marked.tree ∧
        (result.2.tree = marked.tree ↔ ∀ id, marked.tree.IsReserved id → parser.tree.IsReserved id) := by
  intro result
  have hrestored := parser.restore_restored checkpoint
  refine ⟨hrestored, hrestored.failed_iff, hrestored.restore_eq, ?_⟩
  rintro marked hreachable hsince rfl
  have hcovers := hsince.covers hreachable.recoverable
  have heq : result = _ := hcovers.restore
  refine ⟨heq, hcovers.checkpoint_restore, ?_, ?_⟩
  · rw [heq]
    exact hcovers.tree.truncate (Nat.le_refl _)
  · rw [heq]
    exact hcovers.tree.truncate_eq_iff

def untouched : Parser := .new identifierAlone { predefined := false }

/-- A checkpoint of a state that was abandoned: one token and one report further than the parser. -/
def abandoned : Checkpoint := (untouched.take.2.report (.ofCode .trailingText "" (.empty 0))).checkpoint

/-- An abandoned checkpoint leaves another parser behind. A checkpoint of earlier on takes back what was done since, but
the node that was filled. -/
theorem restore_exact_busyBody :
    let parser := (obey busyBody withReserved).2
    (untouched.restore abandoned).1.isSome = true ∧ (untouched.restore abandoned).2 ≠ untouched ∧
      withReserved.Reachable ∧ withReserved.Since parser ∧ (parser.restore withReserved.checkpoint).1 = none ∧
      (parser.restore withReserved.checkpoint).2.checkpoint = withReserved.checkpoint ∧
      (parser.restore withReserved.checkpoint).2.tree ≠ withReserved.tree := by
  have hfailed : (untouched.restore abandoned).1.isSome = true := by decide +kernel
  have hsince := since_obey busyBody withReserved
  obtain ⟨-, hunchanged, -, -⟩ := restore_exact untouched abandoned
  obtain ⟨-, -, -, hmarked⟩ := restore_exact (obey busyBody withReserved).2 withReserved.checkpoint
  obtain ⟨heq, hcheckpoint, -, htree⟩ := hmarked withReserved withReserved_reachable hsince rfl
  refine ⟨hfailed, fun hsame => ?_, withReserved_reachable, hsince, congrArg Prod.fst heq, hcheckpoint, fun hsame => ?_⟩
  · have hplace := (hunchanged hfailed).mp hsame
    exact absurd hplace (by decide +kernel)
  · have hkept := htree.mp hsame ⟨0⟩ ⟨by decide +kernel, by decide +kernel⟩
    exact absurd hkept.isPlaceholder (by decide +kernel)

/-- Going back fails, and the cursor has moved. -/
theorem restore_moves_cursor :
    untouched.Reachable ∧ (untouched.restore abandoned).1 = some (.invalidMarker 1 0) ∧
      untouched.position = 0 ∧ (untouched.restore abandoned).2.position = 1 :=
  ⟨.new _ _, by decide +kernel, by decide +kernel, by decide +kernel⟩

end Parser

end AdaSyntax

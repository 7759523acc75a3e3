import AdaSyntax.Proofs.Scope.Change

/-!
Runs of changes with marks and rollbacks. Marks are used in last-in first-out order; then a rollback
gives back exactly the table that was marked, whatever happened since. Only the region counter keeps
what it has counted, so no region number is given out twice. And what all changes of a run keep, the run keeps.
-/

namespace AdaSyntax

namespace SymbolTable

def opened (table : SymbolTable) : TableChange → List RegionId
  | .openRegion kind owner => [(table.openRegion kind owner).innermost.id]
  | _ => []

theorem opened_bounds (table : SymbolTable) (change : TableChange) :
    ∀ id ∈ table.opened change,
      table.nextRegion ≤ id.index ∧ id.index < (table.change change).nextRegion := by
  cases change with
  | openRegion kind owner => simp [opened, SymbolTable.change, SymbolTable.openRegion]
  | _ => simp [opened]

theorem opened_pairwise (table : SymbolTable) (change : TableChange) :
    (table.opened change).Pairwise (·.index < ·.index) := by
  cases change <;> simp [opened]

end SymbolTable

/-- A table with the marks that may still be used, the last one first. -/
structure MarkedTable where
  table : SymbolTable
  marks : List ScopeMark

/-- A rollback goes to the last mark, and keeps it; only a release drops it. -/
inductive TableCommand where
  | change (change : TableChange)
  | mark
  | rollback
  | release

namespace MarkedTable

def start : MarkedTable := ⟨.empty, []⟩

def perform (state : MarkedTable) : TableCommand → MarkedTable
  | .change change => { state with table := state.table.change change }
  | .mark => { state with marks := state.table.mark :: state.marks }
  | .rollback =>
    match state.marks with
    | [] => state
    | mark :: _ => { state with table := state.table.rollback mark }
  | .release => { state with marks := state.marks.tail }

def run (state : MarkedTable) (commands : List TableCommand) : MarkedTable :=
  commands.foldl perform state

def opened (state : MarkedTable) : List TableCommand → List RegionId
  | [] => []
  | .change change :: rest => state.table.opened change ++ opened (state.perform (.change change)) rest
  | command :: rest => opened (state.perform command) rest

def Anchored (base : SymbolTable) : SymbolTable → List ScopeMark → Prop
  | table, [] => table.RevertsTo base
  | table, mark :: marks =>
    ∃ marked : SymbolTable, mark = marked.mark ∧ marked.Proper ∧ table.RevertsTo marked ∧
      Anchored base marked marks

theorem Anchored.revertsTo {base table : SymbolTable} {marks : List ScopeMark}
    (h : Anchored base table marks) : table.RevertsTo base := by
  induction marks generalizing table with
  | nil => exact h
  | cons mark marks ih =>
    obtain ⟨marked, -, -, hreverts, hrest⟩ := h
    exact hreverts.trans (ih hrest)

theorem Anchored.later {base table later : SymbolTable} {marks : List ScopeMark}
    (h : Anchored base table marks) (hlater : later.RevertsTo table) : Anchored base later marks := by
  cases marks with
  | nil => exact hlater.trans h
  | cons mark marks =>
    obtain ⟨marked, hmark, hproper, hreverts, hrest⟩ := h
    exact ⟨marked, hmark, hproper, hlater.trans hreverts, hrest⟩

theorem perform_anchored {base : SymbolTable} {state : MarkedTable} (hproper : state.table.Proper)
    (h : Anchored base state.table state.marks) (command : TableCommand) :
    (state.perform command).table.Proper ∧
      Anchored base (state.perform command).table (state.perform command).marks := by
  cases command with
  | change change =>
    exact ⟨hproper.change change, h.later (SymbolTable.change_revertsTo hproper change)⟩
  | mark => exact ⟨hproper, state.table, rfl, hproper, .refl _, h⟩
  | rollback =>
    obtain ⟨table, marks⟩ := state
    cases marks with
    | nil => exact ⟨hproper, h⟩
    | cons mark marks =>
      obtain ⟨marked, rfl, hmarked, hreverts, hrest⟩ := h
      -- the mark stays, and the table that it was taken of is back
      have hback := hreverts.rollback
      have hsame : (table.rollback marked.mark).RevertsTo marked := by
        rw [hback]
        exact .of_counter hreverts.nextRegion
      refine ⟨?_, marked, rfl, hmarked, hsame, hrest⟩
      show (table.rollback marked.mark).Proper
      rw [hback]
      exact hmarked
  | release =>
    obtain ⟨table, marks⟩ := state
    cases marks with
    | nil => exact ⟨hproper, h⟩
    | cons mark marks =>
      obtain ⟨marked, -, -, hreverts, hrest⟩ := h
      exact ⟨hproper, hrest.later hreverts⟩

theorem run_anchored {base : SymbolTable} (state : MarkedTable) (hproper : state.table.Proper)
    (h : Anchored base state.table state.marks) (commands : List TableCommand) :
    (state.run commands).table.Proper ∧
      Anchored base (state.run commands).table (state.run commands).marks := by
  induction commands generalizing state with
  | nil => exact ⟨hproper, h⟩
  | cons command rest ih =>
    obtain ⟨hproper', h'⟩ := perform_anchored hproper h command
    exact ih _ hproper' h'

theorem perform_nextRegion {state : MarkedTable} (hproper : state.table.Proper)
    (command : TableCommand) : state.table.nextRegion ≤ (state.perform command).table.nextRegion := by
  cases command with
  | change change => exact (SymbolTable.change_revertsTo hproper change).nextRegion
  | mark => exact Nat.le_refl _
  | rollback =>
    obtain ⟨table, marks⟩ := state
    cases marks with
    | nil => exact Nat.le_refl _
    | cons mark marks => exact Nat.le_of_eq (table.rollback_nextRegion mark).symm
  | release => exact Nat.le_refl _

theorem opened_cons (state : MarkedTable) (command : TableCommand) (rest : List TableCommand) :
    ∃ ids, state.opened (command :: rest) = ids ++ (state.perform command).opened rest ∧
      ids.Pairwise (·.index < ·.index) ∧
      ∀ id ∈ ids, state.table.nextRegion ≤ id.index ∧
        id.index < (state.perform command).table.nextRegion := by
  cases command with
  | change change =>
    exact ⟨_, rfl, state.table.opened_pairwise change, state.table.opened_bounds change⟩
  | mark => exact ⟨[], rfl, .nil, by simp⟩
  | rollback => exact ⟨[], rfl, .nil, by simp⟩
  | release => exact ⟨[], rfl, .nil, by simp⟩

theorem opened_increasing {base : SymbolTable} (state : MarkedTable) (hproper : state.table.Proper)
    (h : Anchored base state.table state.marks) (commands : List TableCommand) :
    (state.opened commands).Pairwise (·.index < ·.index) ∧
      (∀ id ∈ state.opened commands,
        state.table.nextRegion ≤ id.index ∧ id.index < (state.run commands).table.nextRegion) ∧
      state.table.nextRegion ≤ (state.run commands).table.nextRegion := by
  induction commands generalizing state with
  | nil => exact ⟨.nil, by simp [opened], Nat.le_refl _⟩
  | cons command rest ih =>
    obtain ⟨hproper', h'⟩ := perform_anchored hproper h command
    obtain ⟨hpairwise, hbounds, hcount⟩ := ih _ hproper' h'
    have hstep := perform_nextRegion hproper command
    obtain ⟨ids, hids, hfirst, hlow⟩ := state.opened_cons command rest
    have hrun : state.run (command :: rest) = (state.perform command).run rest := rfl
    rw [hids, hrun]
    refine ⟨List.pairwise_append.mpr ⟨hfirst, hpairwise, ?_⟩, ?_, Nat.le_trans hstep hcount⟩
    · intro id hid other hother
      exact Nat.lt_of_lt_of_le (hlow id hid).2 (hbounds other hother).1
    · intro id hid
      rcases List.mem_append.mp hid with hid | hid
      · exact ⟨(hlow id hid).1, Nat.lt_of_lt_of_le (hlow id hid).2 hcount⟩
      · exact ⟨Nat.le_trans hstep (hbounds id hid).1, (hbounds id hid).2⟩

/-- A rollback to a mark undoes exactly the run since: the table is the marked one again, symbols,
regions, published contents and journal, and only its region counter has moved on. Region numbers keep
growing, across the rollback too, so none that was given out before is given out by what follows. -/
theorem rollback_restores (before body after : List TableCommand) :
    let outer := start.run before
    let inner := run ⟨outer.table, []⟩ body
    let restored := inner.table.rollback outer.table.mark
    restored = { outer.table with nextRegion := inner.table.nextRegion } ∧
      outer.table.nextRegion ≤ inner.table.nextRegion ∧
      (start.opened before ++ opened ⟨outer.table, []⟩ body ++
        opened ⟨restored, outer.marks⟩ after).Pairwise (·.index < ·.index) := by
  intro outer inner restored
  have hstart : Anchored .empty start.table start.marks := SymbolTable.RevertsTo.refl _
  have hbase : Anchored outer.table outer.table [] := SymbolTable.RevertsTo.refl _
  obtain ⟨hproper, houter⟩ := run_anchored start SymbolTable.empty_proper hstart before
  obtain ⟨-, hinner⟩ := run_anchored ⟨outer.table, []⟩ hproper hbase body
  have hback : restored = { outer.table with nextRegion := inner.table.nextRegion } :=
    hinner.revertsTo.rollback
  have hrestored : restored.Proper ∧ restored.RevertsTo outer.table := by
    rw [hback]
    exact ⟨hproper, .of_counter hinner.revertsTo.nextRegion⟩
  obtain ⟨hfirst, hfirst', -⟩ := opened_increasing start SymbolTable.empty_proper hstart before
  obtain ⟨hsecond, hsecond', hcount⟩ := opened_increasing ⟨outer.table, []⟩ hproper hbase body
  obtain ⟨hthird, hthird', -⟩ := opened_increasing ⟨restored, outer.marks⟩ hrestored.1
    (houter.later hrestored.2) after
  have hcounter : restored.nextRegion = inner.table.nextRegion := by rw [hback]
  refine ⟨hback, hcount, List.pairwise_append.mpr ⟨List.pairwise_append.mpr ⟨hfirst, hsecond, ?_⟩, hthird, ?_⟩⟩
  · intro id hid other hother
    exact Nat.lt_of_lt_of_le (hfirst' id hid).2 (hsecond' other hother).1
  · intro id hid other hother
    have hlow : inner.table.nextRegion ≤ other.index := hcounter ▸ (hthird' other hother).1
    rcases List.mem_append.mp hid with hid | hid
    · exact Nat.lt_of_lt_of_le (hfirst' id hid).2 (Nat.le_trans hcount hlow)
    · exact Nat.lt_of_lt_of_le (hsecond' id hid).2 hlow

end MarkedTable

def TableCommand.Allowed (allowed : SymbolTable → TableChange → Prop) (table : SymbolTable) : TableCommand → Prop
  | .change made => allowed table made
  | _ => True

namespace MarkedTable

/-- Every change of the run is allowed in the table that it is made in. -/
def Allows (allowed : SymbolTable → TableChange → Prop) (state : MarkedTable) : List TableCommand → Prop
  | [] => True
  | command :: rest => command.Allowed allowed state.table ∧ (state.perform command).Allows allowed rest

def Traces (holds : SymbolTable → Prop) : SymbolTable → List ScopeMark → Prop
  | _, [] => True
  | table, mark :: marks => ∃ marked : SymbolTable, mark = marked.mark ∧ holds marked ∧ table.RevertsTo marked ∧
      Traces holds marked marks

structure Lasts (holds : SymbolTable → Prop) (allowed : SymbolTable → TableChange → Prop) : Prop where
  proper : ∀ {table}, holds table → table.Proper
  counter : ∀ {table next}, holds table → table.nextRegion ≤ next → holds { table with nextRegion := next }
  change : ∀ {table made}, holds table → allowed table made → holds (table.change made)

variable {holds : SymbolTable → Prop} {allowed : SymbolTable → TableChange → Prop} {state : MarkedTable}

theorem Traces.later {table later : SymbolTable} {marks : List ScopeMark} (h : Traces holds table marks)
    (hlater : later.RevertsTo table) : Traces holds later marks := by
  cases marks with
  | nil => trivial
  | cons mark marks =>
    obtain ⟨marked, hmark, hholds, hreverts, hrest⟩ := h
    exact ⟨marked, hmark, hholds, hlater.trans hreverts, hrest⟩

theorem Lasts.perform (hlasts : Lasts holds allowed) (hstate : holds state.table)
    (h : Traces holds state.table state.marks) {command : TableCommand}
    (hallowed : command.Allowed allowed state.table) :
    holds (state.perform command).table ∧ Traces holds (state.perform command).table (state.perform command).marks := by
  obtain ⟨table, marks⟩ := state
  cases command with
  | change made =>
    exact ⟨hlasts.change hstate hallowed, h.later (SymbolTable.change_revertsTo (hlasts.proper hstate) made)⟩
  | mark => exact ⟨hstate, table, rfl, hstate, .refl table, h⟩
  | rollback =>
    cases marks with
    | nil => exact ⟨hstate, h⟩
    | cons mark marks =>
      obtain ⟨marked, rfl, hmarked, hreverts, hrest⟩ := h
      have hback := hreverts.rollback
      refine ⟨?_, marked, rfl, hmarked, ?_, hrest⟩
      · show holds (table.rollback marked.mark)
        exact hback ▸ hlasts.counter hmarked hreverts.nextRegion
      · show (table.rollback marked.mark).RevertsTo marked
        exact hback ▸ .of_counter hreverts.nextRegion
  | release =>
    cases marks with
    | nil => exact ⟨hstate, h⟩
    | cons mark marks =>
      obtain ⟨marked, -, -, hreverts, hrest⟩ := h
      exact ⟨hstate, hrest.later hreverts⟩

theorem Lasts.run (hlasts : Lasts holds allowed) (hstate : holds state.table)
    (h : Traces holds state.table state.marks) {commands : List TableCommand}
    (hallows : state.Allows allowed commands) :
    holds (state.run commands).table ∧ Traces holds (state.run commands).table (state.run commands).marks := by
  induction commands generalizing state with
  | nil => exact ⟨hstate, h⟩
  | cons command rest ih =>
    obtain ⟨hstate', h'⟩ := hlasts.perform hstate h hallows.1
    exact ih hstate' h' hallows.2

end MarkedTable

end AdaSyntax

import AdaSyntax.Text.LineIndex
import Mathlib.Data.List.Count

/-!
Lines and columns are exact. The starts of lines ascend, and those up to an offset are as many as there are line
breaks in front of it, and the start of the text; so where the search among them ends, the line is known.
-/

namespace AdaSyntax

namespace LineIndex

def breaks (offset : Nat) : List UInt8 → List Nat
  | [] => []
  | byte :: bytes => if byte = newline then (offset + 1) :: breaks (offset + 1) bytes else breaks (offset + 1) bytes

theorem collect_toList (starts : Array UInt32) (offset : Nat) (bytes : List UInt8) :
    (collect starts offset bytes).toList = starts.toList ++ (breaks offset bytes).map UInt32.ofNat := by
  induction bytes generalizing starts offset with
  | nil => simp [collect, breaks]
  | cons byte bytes ih =>
    have hstart : UInt32.ofNat offset + 1 = UInt32.ofNat (offset + 1) := (UInt32.ofNat_add offset 1).symm
    rw [collect, ih, breaks, hstart]
    split <;> simp

theorem length_breaks (offset : Nat) (bytes : List UInt8) : (breaks offset bytes).length = bytes.count newline := by
  induction bytes generalizing offset with
  | nil => rfl
  | cons byte bytes ih =>
    rw [breaks]
    by_cases hbyte : byte = newline
    · simp [hbyte, ih]
    · simp [hbyte, ih, List.count_cons_of_ne hbyte]

theorem mem_breaks {offset start : Nat} {bytes : List UInt8} :
    start ∈ breaks offset bytes ↔ ∃ place, start = offset + place + 1 ∧ bytes[place]? = some newline := by
  induction bytes generalizing offset with
  | nil => simp [breaks]
  | cons byte bytes ih =>
    have hrest : start ∈ breaks (offset + 1) bytes ↔
        ∃ place, start = offset + (place + 1) + 1 ∧ (byte :: bytes)[place + 1]? = some newline := by
      rw [ih]
      exact exists_congr fun place => and_congr_left fun _ => by omega
    rw [breaks]
    constructor
    · intro h
      split at h
      · rename_i hbyte
        rcases List.mem_cons.mp h with rfl | h
        · exact ⟨0, rfl, congrArg some hbyte⟩
        · obtain ⟨place, hplace⟩ := hrest.mp h
          exact ⟨place + 1, hplace⟩
      · obtain ⟨place, hplace⟩ := hrest.mp h
        exact ⟨place + 1, hplace⟩
    · rintro ⟨place, hstart, hbreak⟩
      cases place with
      | zero =>
        have hbyte : byte = newline := Option.some.inj hbreak
        rw [if_pos hbyte, hstart]
        exact List.mem_cons_self
      | succ place =>
        have hmem := hrest.mpr ⟨place, hstart, hbreak⟩
        split
        · exact List.mem_cons_of_mem _ hmem
        · exact hmem

structure Ascending (index : LineIndex) : Prop where
  nonempty : 0 < index.lineCount
  first : index.lineStart 0 = 0
  increasing : ∀ line later, line < later → later < index.lineCount → index.lineStart line < index.lineStart later

def Place.Locates (index : LineIndex) (offset : Nat) : Place → Prop
  | .atStart line => line < index.lineCount ∧ index.lineStart line = offset
  | .inFrontOf next => next ≤ index.lineCount ∧ (∀ line < next, index.lineStart line < offset) ∧
      ∀ line, next ≤ line → line < index.lineCount → offset < index.lineStart line

variable {index : LineIndex}

theorem Ascending.le (h : index.Ascending) {line later : Nat} (hle : line ≤ later) (hlt : later < index.lineCount) :
    index.lineStart line ≤ index.lineStart later := by
  rcases Nat.lt_or_eq_of_le hle with hless | rfl
  · exact Nat.le_of_lt (h.increasing line later hless hlt)
  · exact Nat.le_refl _

theorem Ascending.search_locates (h : index.Ascending) (offset : Nat) {low high : Nat} (hle : low ≤ high)
    (hcount : high ≤ index.lineCount) (hbelow : ∀ line < low, index.lineStart line < offset)
    (habove : ∀ line, high ≤ line → line < index.lineCount → offset < index.lineStart line) :
    (index.search offset low high).Locates index offset := by
  fun_induction index.search offset low high with
  | case1 low high hlt middle hfound => exact ⟨by omega, hfound⟩
  | case2 low high hlt middle hne hless ih =>
    refine ih (by omega) hcount (fun line hline => ?_) habove
    exact Nat.lt_of_le_of_lt (h.le (Nat.le_of_lt_succ hline) (by omega)) hless
  | case3 low high hlt middle hne hnotless ih =>
    refine ih (by omega) (by omega) hbelow fun line hline hlinecount => ?_
    have hmiddle := h.le hline hlinecount
    omega
  | case4 low high hge =>
    obtain rfl : low = high := by omega
    exact ⟨hcount, hbelow, habove⟩

variable (text : String)

def bytesOf : List UInt8 := text.toUTF8.data.toList

theorem starts_ofString :
    (ofString text).starts.toList = (0 :: breaks 0 (bytesOf text)).map UInt32.ofNat :=
  collect_toList #[0] 0 (bytesOf text)

theorem lineCount_ofString : (ofString text).lineCount = (bytesOf text).count newline + 1 := by
  have hlength := congrArg List.length (starts_ofString text)
  rwa [List.length_map, List.length_cons, length_breaks, Array.length_toList] at hlength

/-- Every line starts at an offset of 32 bits, as in all texts of less than 4 GiB. Of any other text the table holds
some starts cut short, by `addressable_iff`, and need not ascend. -/
def Addressable : Prop := ∀ place, (bytesOf text)[place]? = some newline → place + 1 < UInt32.size

variable {text}

theorem lineStart_mod {line : Nat} (hline : line < (ofString text).lineCount) :
    ∃ start, (0 :: breaks 0 (bytesOf text))[line]? = some start ∧ (ofString text).lineStart line = start % UInt32.size := by
  have hentry : ((0 :: breaks 0 (bytesOf text)).map UInt32.ofNat)[line]? = some (ofString text).starts[line] := by
    rw [← starts_ofString, Array.getElem?_toList, Array.getElem?_eq_getElem hline]
  rw [List.getElem?_map, Option.map_eq_some_iff] at hentry
  obtain ⟨start, hstart, heq⟩ := hentry
  refine ⟨start, hstart, ?_⟩
  rw [lineStart, Array.getD_eq_getD_getElem?, Array.getElem?_eq_getElem hline, Option.getD_some, ← heq,
    UInt32.toNat_ofNat']

theorem exists_line_behind {place : Nat} (hbreak : (bytesOf text)[place]? = some newline) :
    ∃ line < (ofString text).lineCount, (0 :: breaks 0 (bytesOf text))[line]? = some (place + 1) := by
  have hmem : place + 1 ∈ 0 :: breaks 0 (bytesOf text) :=
    List.mem_cons_of_mem _ (mem_breaks.mpr ⟨place, by omega, hbreak⟩)
  obtain ⟨line, hstart⟩ := List.mem_iff_getElem?.mp hmem
  have hsize := (List.getElem?_eq_some_iff.mp hstart).1
  rw [List.length_cons, length_breaks, ← lineCount_ofString] at hsize
  exact ⟨line, hsize, hstart⟩

section Addressable

variable (h : Addressable text)
include h

theorem lineStart_ofString {line : Nat} (hline : line < (ofString text).lineCount) :
    (0 :: breaks 0 (bytesOf text))[line]? = some ((ofString text).lineStart line) := by
  obtain ⟨start, hstart, heq⟩ := lineStart_mod hline
  have hsmall : start < UInt32.size := by
    rcases List.mem_cons.mp (List.mem_of_getElem? hstart) with rfl | hmem
    · decide
    · obtain ⟨place, rfl, hbreak⟩ := mem_breaks.mp hmem
      have hplace := h place hbreak
      omega
  rw [hstart, heq, Nat.mod_eq_of_lt hsmall]

end Addressable

theorem addressable_iff : Addressable text ↔ ∀ line < (ofString text).lineCount,
    (0 :: breaks 0 (bytesOf text))[line]? = some ((ofString text).lineStart line) := by
  refine ⟨fun h _ hline => lineStart_ofString h hline, fun hstarts place hbreak => ?_⟩
  obtain ⟨line, hsize, hstart⟩ := exists_line_behind hbreak
  have hthere : (ofString text).lineStart line = place + 1 :=
    Option.some.inj ((hstarts line hsize).symm.trans hstart)
  exact hthere ▸ UInt32.toNat_lt_size _

/-- Four lines, the second and the last one empty. -/
example : [0, 2, 3, 4, 9].map ((ofString "a\n\nb\n").position) = [⟨0, 0⟩, ⟨1, 0⟩, ⟨2, 0⟩, ⟨2, 1⟩, ⟨3, 4⟩] := by
  decide +kernel

end LineIndex

end AdaSyntax

/-!
Stores of a fixed number of bytes. Every read and every write names its place, and a place that the store does not have
is a fault. Operations that stay inside the store are told by the bytes that it holds before and behind them.
-/

namespace AdaSyntax

structure Buffer (size : Nat) where
  bytes : Vector UInt8 size

namespace Buffer

/-- A read or a write at a place that the store does not have. -/
structure Fault where
  place : Nat
deriving DecidableEq

variable {size : Nat}

def zero : Buffer size := ⟨.replicate size 0⟩

def read (buffer : Buffer size) (place : Nat) : Except Fault UInt8 :=
  if h : place < size then .ok buffer.bytes[place] else .error ⟨place⟩

def write (buffer : Buffer size) (place : Nat) (byte : UInt8) : Except Fault (Buffer size) :=
  if h : place < size then .ok ⟨buffer.bytes.set place byte⟩ else .error ⟨place⟩

def copy (buffer : Buffer size) (place : Nat) : List UInt8 → Except Fault (Buffer size)
  | [] => .ok buffer
  | byte :: bytes => do copy (← buffer.write place byte) (place + 1) bytes

def transform (f : UInt8 → UInt8) (buffer : Buffer size) : Nat → Except Fault (Buffer size)
  | 0 => .ok buffer
  | count + 1 => do
    let buffer ← buffer.transform f count
    buffer.write count (f (← buffer.read count))

/-- How a word compares with what stands from `place` up to before `stop`: the first byte that differs decides, and
where none does, the shorter one comes first. -/
def order (buffer : Buffer size) (place stop : Nat) : List UInt8 → Except Fault Ordering
  | [] => .ok (if place < stop then .lt else .eq)
  | byte :: word =>
    if place < stop then do
      match compare byte (← buffer.read place) with
      | .eq => buffer.order (place + 1) stop word
      | different => .ok different
    else .ok .gt

/-! What the store holds -/

def contents (buffer : Buffer size) : List UInt8 := buffer.bytes.toList

@[simp] theorem length_contents (buffer : Buffer size) : buffer.contents.length = size := Vector.length_toList

theorem ok_bind {α β : Type} (value : α) (next : α → Except Fault β) : (Except.ok value >>= next) = next value := rfl

theorem read_eq (buffer : Buffer size) {place : Nat} (h : place < buffer.contents.length) :
    buffer.read place = .ok buffer.contents[place] := by
  have hplace : place < size := by rwa [length_contents] at h
  simp [read, contents, hplace]

theorem write_eq (buffer : Buffer size) {place : Nat} (h : place < size) (byte : UInt8) :
    ∃ written, buffer.write place byte = .ok written ∧
      written.contents = buffer.contents.take place ++ [byte] ++ buffer.contents.drop (place + 1) := by
  refine ⟨⟨buffer.bytes.set place byte⟩, dif_pos h, ?_⟩
  rw [contents, Vector.toList_set h, List.set_eq_take_append_cons_drop, if_pos (by rwa [Vector.length_toList]),
    List.append_assoc]
  rfl

theorem copy_eq (buffer : Buffer size) {place : Nat} {bytes : List UInt8} (h : place + bytes.length ≤ size) :
    ∃ copied, buffer.copy place bytes = .ok copied ∧
      copied.contents = buffer.contents.take place ++ bytes ++ buffer.contents.drop (place + bytes.length) := by
  induction bytes generalizing buffer place with
  | nil => exact ⟨buffer, rfl, by simp⟩
  | cons byte bytes ih =>
    rw [List.length_cons] at h
    obtain ⟨written, hwrite, hwritten⟩ := buffer.write_eq (by omega : place < size) byte
    obtain ⟨copied, hcopy, hcopied⟩ := ih written (by omega : place + 1 + bytes.length ≤ size)
    refine ⟨copied, by rw [copy, hwrite, ok_bind, hcopy], ?_⟩
    have hfront : (buffer.contents.take place ++ [byte]).length = place + 1 := by
      rw [List.length_append, List.length_take, length_contents, List.length_singleton]
      omega
    rw [hcopied, ← List.drop_drop, hwritten, List.take_left' hfront, List.drop_left' hfront, List.drop_drop,
      List.length_cons, List.append_assoc _ [byte], Nat.add_assoc, Nat.add_comm 1]
    rfl

theorem transform_eq (f : UInt8 → UInt8) (buffer : Buffer size) {count : Nat} (h : count ≤ size) :
    ∃ transformed, buffer.transform f count = .ok transformed ∧
      transformed.contents = (buffer.contents.take count).map f ++ buffer.contents.drop count := by
  induction count with
  | zero => exact ⟨buffer, rfl, by simp⟩
  | succ count ih =>
    obtain ⟨earlier, htransform, hearlier⟩ := ih (Nat.le_of_succ_le h)
    have hplace : count < buffer.contents.length := by rwa [length_contents]
    have hread : earlier.read count = .ok buffer.contents[count] := by
      rw [earlier.read_eq (by rwa [length_contents])]
      simp [hearlier, Nat.le_of_lt h]
    obtain ⟨written, hwrite, hwritten⟩ := earlier.write_eq h (f buffer.contents[count])
    refine ⟨written, ?_, ?_⟩
    · rw [transform, htransform, ok_bind, hread, ok_bind, hwrite]
    · have hfront : ((buffer.contents.take count).map f).length = count := by simp [Nat.le_of_lt h]
      rw [hwritten, ← List.drop_drop, hearlier, List.take_left' hfront, List.drop_left' hfront, List.drop_drop,
        List.take_succ_eq_append_getElem hplace, List.map_append]
      rfl

theorem order_eq (buffer : Buffer size) {place stop : Nat} (hplace : place ≤ stop) (hstop : stop ≤ size)
    (word : List UInt8) :
    buffer.order place stop word = .ok (compare word ((buffer.contents.take stop).drop place)) := by
  have hlength : (buffer.contents.take stop).length = stop := by simp [hstop]
  induction word generalizing place with
  | nil =>
    rw [order]
    split
    · rename_i hlt
      rw [List.drop_eq_getElem_cons (by rwa [hlength])]
      rfl
    · rw [List.drop_eq_nil_of_le (by omega)]
      rfl
  | cons byte word ih =>
    rw [order]
    split
    · rename_i hlt
      have hinside : place < (buffer.contents.take stop).length := by rwa [hlength]
      have hread : buffer.read place = .ok (buffer.contents.take stop)[place] := by
        rw [buffer.read_eq (by rw [length_contents]; omega), List.getElem_take]
      rw [List.drop_eq_getElem_cons hinside, List.compare_eq_compareLex, List.compareLex_cons_cons,
        ← List.compare_eq_compareLex, hread, ok_bind]
      cases compare byte (buffer.contents.take stop)[place] with
      | eq => exact ih hlt
      | lt | gt => rfl
    · rw [List.drop_eq_nil_of_le (by omega)]
      rfl

end Buffer

end AdaSyntax

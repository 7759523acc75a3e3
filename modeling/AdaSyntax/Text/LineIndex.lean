/-!
Lines and columns of byte offsets. Lines and columns count from zero, a column is a number of bytes,
and an offset beyond the text belongs to the last line. Offsets have 32 bits.
-/

namespace AdaSyntax

structure Position where
  line : Nat
  column : Nat
deriving DecidableEq

/-- The offsets at which lines start, in ascending order if the text is not too long for them. -/
structure LineIndex where
  starts : Array UInt32

namespace LineIndex

def newline : UInt8 := 10

/-- Bytes are counted as far as the text reaches, and what starts behind a line break is cut to 32 bits. -/
def collect (starts : Array UInt32) (offset : Nat) : List UInt8 → Array UInt32
  | [] => starts
  | byte :: bytes =>
    collect (if byte = newline then starts.push (UInt32.ofNat offset + 1) else starts) (offset + 1) bytes

def ofString (text : String) : LineIndex := ⟨collect #[0] 0 text.toUTF8.data.toList⟩

def lineCount (index : LineIndex) : Nat := index.starts.size

def lineStart (index : LineIndex) (line : Nat) : Nat := (index.starts.getD line 0).toNat

inductive Place where
  /-- The line starts there. -/
  | atStart (line : Nat)
  /-- No line starts there; the line numbered so is the first one behind it. -/
  | inFrontOf (line : Nat)
deriving DecidableEq

/-- The place of `offset` among the lines from `low` up to before `high`, by halving. -/
def search (index : LineIndex) (offset low high : Nat) : Place :=
  if low < high then
    let middle := (low + high) / 2
    if index.lineStart middle = offset then .atStart middle
    else if index.lineStart middle < offset then index.search offset (middle + 1) high
    else index.search offset low middle
  else .inFrontOf low
termination_by high - low

def place (index : LineIndex) (offset : Nat) : Place := index.search offset 0 index.lineCount

def position (index : LineIndex) (offset : Nat) : Position :=
  let line :=
    match index.place offset with
    | .atStart line => line
    | .inFrontOf next => next - 1
  ⟨line, offset - index.lineStart line⟩

end LineIndex

end AdaSyntax

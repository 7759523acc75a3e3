import AdaSyntax.Diagnostic.Log
import AdaSyntax.Token.Basic

/-!
A read position in a token stream. The stream ends with an end marker, the position always lies
inside the stream, and the end marker cannot be consumed.
-/

namespace AdaSyntax

structure Cursor where
  tokens : Array Token
  position : Nat
  position_lt : position < tokens.size
  last_kind : tokens.back?.map (·.kind) = some .endOfFile

namespace Cursor

def ofTokens (tokens : Array Token) : Except Fatal Cursor :=
  if h : tokens.back?.map (·.kind) = some .endOfFile then
    .ok {
      tokens, position := 0, last_kind := h
      position_lt := by
        by_cases h0 : 0 < tokens.size
        · exact h0
        · simp_all }
  else .error .unterminated

def current (cursor : Cursor) : Token :=
  have := cursor.position_lt
  cursor.tokens[cursor.position]

def kind (cursor : Cursor) : TokenKind := cursor.current.kind

/-- The token at `index`, or the end marker beyond the stream. -/
def tokenAt (cursor : Cursor) (index : Nat) : Token :=
  cursor.tokens.getD (min index (cursor.tokens.size - 1)) cursor.current

def ahead (cursor : Cursor) (n : Nat) : Token := cursor.tokenAt (cursor.position + n)

def atEnd (cursor : Cursor) : Bool := cursor.kind = .endOfFile

def remaining (cursor : Cursor) : Nat := cursor.tokens.size - cursor.position

theorem succ_lt_size (cursor : Cursor) (h : cursor.kind ≠ .endOfFile) :
    cursor.position + 1 < cursor.tokens.size := by
  rcases Nat.lt_or_eq_of_le cursor.position_lt with hlt | heq
  · exact hlt
  · have hlast : cursor.tokens.size - 1 = cursor.position := by omega
    have hkind := cursor.last_kind
    simp [Array.back?, hlast, cursor.position_lt] at hkind
    exact absurd hkind h

def advance (cursor : Cursor) : Except Fatal (Token × Cursor) :=
  if h : cursor.kind = .endOfFile then .error (.endOfStream cursor.current.range.start)
  else
    .ok (cursor.current,
      { cursor with position := cursor.position + 1, position_lt := cursor.succ_lt_size h })

def rewind (cursor : Cursor) (position : Nat) : Except Fatal Cursor :=
  if h : position < cursor.tokens.size then .ok { cursor with position, position_lt := h }
  else .error (.invalidPosition position)

/-- Where the last consumed token ends, or where the first token starts if none was consumed. -/
def previousEnd (cursor : Cursor) : Nat :=
  match cursor.position with
  | 0 => cursor.current.range.start
  | n + 1 => (cursor.tokenAt n).range.stop

/-- Whether one of `kinds` comes up from `index` on, outside of parentheses opened on the way, before
the group or the element that holds `index` ends. -/
def groupHas (tokens : Array Token) (kinds : List TokenKind) (index level : Nat) : Bool :=
  if h : index < tokens.size then
    match tokens[index].kind, level with
    | .endOfFile, _ | .semicolon, _ => false
    | .leftParen, level => groupHas tokens kinds (index + 1) (level + 1)
    | .rightParen, 0 | .comma, 0 => false
    | .rightParen, level + 1 => groupHas tokens kinds (index + 1) level
    | kind, 0 => kinds.contains kind || groupHas tokens kinds (index + 1) 0
    | _, level => groupHas tokens kinds (index + 1) level
  else false
termination_by tokens.size - index

def aheadInGroup (cursor : Cursor) (offset : Nat) (kinds : List TokenKind) : Bool :=
  groupHas cursor.tokens kinds (cursor.position + offset) 0

end Cursor

end AdaSyntax

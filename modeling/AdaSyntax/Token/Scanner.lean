import AdaSyntax.Token.Lexer

/-!
The lexer around a scanner. The scanner, whichever it is, cuts a text into spans and knows nothing of
ticks and reserved words. Where it finds a character literal behind a name, the lexer answers a tick and
starts the scanner anew, one byte further on. Offsets have 32 bits, and their sums wrap around; no text is
cut inside a character.
-/

namespace AdaSyntax

/-- What a scanner tells apart; any other text is invalid. -/
inductive LexemeClass where
  | whitespace | comment | word | integer | real | character | string | arrow | doubleDot | doubleStar
  | assign | notEqual | greaterEqual | lessEqual | leftLabel | rightLabel | box | ampersand | tick
  | leftParen | rightParen | star | plus | comma | minus | dot | slash | colon | semicolon | less | equal
  | greater | bar
deriving DecidableEq

def LexemeClass.kind : LexemeClass → TokenKind
  | whitespace => .whitespace
  | comment => .comment
  | word => .identifier
  | integer => .integerLiteral
  | real => .realLiteral
  | character => .characterLiteral
  | string => .stringLiteral
  | arrow => .arrow
  | doubleDot => .doubleDot
  | doubleStar => .doubleStar
  | assign => .assign
  | notEqual => .notEqual
  | greaterEqual => .greaterEqual
  | lessEqual => .lessEqual
  | leftLabel => .leftLabel
  | rightLabel => .rightLabel
  | box => .box
  | ampersand => .ampersand
  | tick => .tick
  | leftParen => .leftParen
  | rightParen => .rightParen
  | star => .star
  | plus => .plus
  | comma => .comma
  | minus => .minus
  | dot => .dot
  | slash => .slash
  | colon => .colon
  | semicolon => .semicolon
  | less => .less
  | equal => .equal
  | greater => .greater
  | bar => .bar

def byteSize (text : List Char) : Nat := (String.ofList text).utf8ByteSize

/-- A piece of the input of a scanner, from byte `start` up to before byte `stop`. -/
structure Span where
  class? : Option LexemeClass
  start : Nat
  stop : Nat

abbrev Scanner := List Char → List Span

namespace Scanner

/-- The spans lie end to end over the text, which starts at byte `offset`, and each has whole characters, at
least one. Of what they may hold, only this is known: a tick is a quote, and a character literal starts
with one. -/
inductive Covers : Nat → List Char → List Span → Prop
  | nil {offset : Nat} : Covers offset [] []
  | cons {offset : Nat} {span : Span} {text rest : List Char} {spans : List Span} (nonempty : text ≠ [])
      (start : span.start = offset) (stop : span.stop = offset + byteSize text)
      (tick : span.class? = some .tick → text = ['\''])
      (character : span.class? = some .character → ∃ inner, text = '\'' :: inner)
      (others : Covers span.stop rest spans) : Covers offset (text ++ rest) (span :: spans)

def Lawful (scanner : Scanner) : Prop := ∀ input, Covers 0 input (scanner input)

end Scanner

structure Lexer where
  scanner : Scanner
  source : List Char
  /-- What the scanner has found and the lexer has not read yet. -/
  spans : List Span
  /-- Where the input of the scanner starts in the source. -/
  base : UInt32
  previous : Option TokenKind

namespace Lexer

inductive Fault where
  /-- A cut beyond the end of a text, inside a character, or behind the place where it should end. -/
  | badCut
  /-- More bytes than 32 bits can count. -/
  | tooLarge
deriving DecidableEq

/-- The first `length` bytes and the rest, if they end between two characters. -/
def splitBytes (length : Nat) : List Char → Except Fault (List Char × List Char)
  | [] => if length = 0 then .ok ([], []) else .error .badCut
  | c :: cs =>
    if length = 0 then .ok ([], c :: cs)
    else if length < c.utf8Size then .error .badCut
    else do
      let (first, rest) ← splitBytes (length - c.utf8Size) cs
      return (c :: first, rest)

def slice (text : List Char) (start stop : Nat) : Except Fault (List Char) := do
  if stop < start then .error .badCut
  let (_, rest) ← splitBytes start text
  let (middle, _) ← splitBytes (stop - start) rest
  return middle

def measure (text : List Char) : Except Fault UInt32 :=
  if byteSize text < UInt32.size then .ok (UInt32.ofNat (byteSize text)) else .error .tooLarge

/-- The token of this text, if it ends at an offset of 32 bits: otherwise the sum is smaller than `offset`. -/
def token (kind : TokenKind) (text : List Char) (offset : UInt32) : Except Fault Token := do
  let length ← measure text
  if h : offset ≤ offset + length then
    return { kind, text := String.ofList text, range := ⟨offset.toNat, (offset + length).toNat, h⟩ }
  else .error .tooLarge

def new (scanner : Scanner) (source : String) : Lexer :=
  { scanner, source := source.toList, spans := scanner source.toList, base := 0, previous := none }

def kindOf (class? : Option LexemeClass) (text : List Char) : TokenKind :=
  match class? with
  | some .word => Lexeme.wordKind (String.ofList text)
  | some other => other.kind
  | none => .error

def restart (lexer : Lexer) (base : UInt32) : Except Fault Lexer := do
  let (_, input) ← splitBytes base.toNat lexer.source
  return { lexer with base, spans := lexer.scanner input }

def next (lexer : Lexer) : Except Fault (Option (Token × Lexer)) :=
  match lexer.spans with
  | [] => .ok none
  | span :: spans => do
    let start := lexer.base + UInt32.ofNat span.start
    let text ← slice lexer.source start.toNat (lexer.base.toNat + span.stop)
    let restarts := span.class? = some .character ∧ Token.endsName lexer.previous
    let kind := if restarts then .tick else kindOf span.class? text
    let behind ← (if restarts then lexer.restart (start + 1) else .ok { lexer with spans })
    let text ← (if kind = .tick then slice text 0 1 else .ok text)
    let token ← token kind text start
    return some (token, if kind.isTrivia then behind else { behind with previous := some kind })

/-- All tokens up to the end, or the fault on the way. -/
inductive Yields : Lexer → Except Fault (List Token) → Prop
  | done {lexer : Lexer} (h : lexer.next = .ok none) : Yields lexer (.ok [])
  | fault {lexer : Lexer} {fault : Fault} (h : lexer.next = .error fault) : Yields lexer (.error fault)
  | step {lexer behind : Lexer} {token : Token} {outcome : Except Fault (List Token)}
      (h : lexer.next = .ok (some (token, behind))) (rest : Yields behind outcome) :
      Yields lexer (outcome.map (token :: ·))

/-- Without trivia and closed by an end marker. -/
def closed (source : String) (tokens : List Token) : Except Fault (List Token) := do
  let size ← measure source.toList
  let last ← token .endOfFile [] size
  return tokens.filter (!·.kind.isTrivia) ++ [last]

end Lexer

namespace Lexeme

def classes : List LexemeClass :=
  [.whitespace, .comment, .word, .integer, .real, .character, .string, .arrow, .doubleDot, .doubleStar, .assign,
    .notEqual, .greaterEqual, .lessEqual, .leftLabel, .rightLabel, .box, .ampersand, .tick, .leftParen, .rightParen,
    .star, .plus, .comma, .minus, .dot, .slash, .colon, .semicolon, .less, .equal, .greater, .bar]

def classOf? (kind : TokenKind) : Option LexemeClass :=
  if kind.isReserved then some .word else classes.find? (·.kind = kind)

def spans (offset : Nat) : List Char → List Span
  | [] => []
  | c :: cs =>
    let lexeme := scan false c cs
    let stop := offset + byteSize (c :: cs.take lexeme.2)
    ⟨classOf? lexeme.1, offset, stop⟩ :: spans stop (cs.drop lexeme.2)
termination_by cs => cs.length

def scanner : Scanner := spans 0

end Lexeme

end AdaSyntax

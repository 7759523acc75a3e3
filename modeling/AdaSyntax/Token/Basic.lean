import AdaSyntax.Text.Buffer
import AdaSyntax.Text.Range

/-!
Tokens: their kinds, in a fixed order that numbers them, the reserved words among these, in alphabetical
order, and each token with the text it was read from and its place. Letter case does not matter in a
reserved word, for the letters of ASCII: a text that is not too long for one is brought to small letters in
a buffer of that length, byte by byte, and looked up by halving the table.
-/

namespace AdaSyntax

inductive TokenKind where
  | whitespace | comment | identifier | integerLiteral | realLiteral | characterLiteral
  | stringLiteral | ampersand | tick | leftParen | rightParen | star | plus | comma | minus | dot
  | slash | colon | semicolon | less | equal | greater | bar | arrow | doubleDot | doubleStar
  | assign | notEqual | greaterEqual | lessEqual | leftLabel | rightLabel | box | kwAbort | kwAbs
  | kwAccept | kwAccess | kwAll | kwAnd | kwArray | kwAt | kwBegin | kwBody | kwCase | kwConstant
  | kwDeclare | kwDelay | kwDelta | kwDigits | kwDo | kwElse | kwElsif | kwEnd | kwEntry
  | kwException | kwExit | kwFor | kwFunction | kwGeneric | kwGoto | kwIf | kwIn | kwIs
  | kwLimited | kwLoop | kwMod | kwNew | kwNot | kwNull | kwOf | kwOr | kwOthers | kwOut
  | kwPackage | kwPragma | kwPrivate | kwProcedure | kwRaise | kwRange | kwRecord | kwRem
  | kwRenames | kwReturn | kwReverse | kwSelect | kwSeparate | kwSubtype | kwTask | kwTerminate
  | kwThen | kwType | kwUse | kwWhen | kwWhile | kwWith | kwXor | error | endOfFile
deriving DecidableEq, Inhabited

namespace TokenKind

def number (kind : TokenKind) : Nat := kind.ctorIdx

def isTrivia : TokenKind → Bool
  | whitespace | comment => true
  | _ => false

def isReserved (kind : TokenKind) : Bool :=
  kwAbort.number ≤ kind.number && kind.number ≤ kwXor.number

def isDelimiter (kind : TokenKind) : Bool :=
  ampersand.number ≤ kind.number && kind.number ≤ box.number

def isLiteral : TokenKind → Bool
  | integerLiteral | realLiteral | characterLiteral | stringLiteral => true
  | _ => false

end TokenKind

namespace ReservedWord

def table : Array (String × TokenKind) :=
  #[("abort", .kwAbort), ("abs", .kwAbs), ("accept", .kwAccept), ("access", .kwAccess),
    ("all", .kwAll), ("and", .kwAnd), ("array", .kwArray), ("at", .kwAt), ("begin", .kwBegin),
    ("body", .kwBody), ("case", .kwCase), ("constant", .kwConstant), ("declare", .kwDeclare),
    ("delay", .kwDelay), ("delta", .kwDelta), ("digits", .kwDigits), ("do", .kwDo),
    ("else", .kwElse), ("elsif", .kwElsif), ("end", .kwEnd), ("entry", .kwEntry),
    ("exception", .kwException), ("exit", .kwExit), ("for", .kwFor), ("function", .kwFunction),
    ("generic", .kwGeneric), ("goto", .kwGoto), ("if", .kwIf), ("in", .kwIn), ("is", .kwIs),
    ("limited", .kwLimited), ("loop", .kwLoop), ("mod", .kwMod), ("new", .kwNew), ("not", .kwNot),
    ("null", .kwNull), ("of", .kwOf), ("or", .kwOr), ("others", .kwOthers), ("out", .kwOut),
    ("package", .kwPackage), ("pragma", .kwPragma), ("private", .kwPrivate),
    ("procedure", .kwProcedure), ("raise", .kwRaise), ("range", .kwRange), ("record", .kwRecord),
    ("rem", .kwRem), ("renames", .kwRenames), ("return", .kwReturn), ("reverse", .kwReverse),
    ("select", .kwSelect), ("separate", .kwSeparate), ("subtype", .kwSubtype), ("task", .kwTask),
    ("terminate", .kwTerminate), ("then", .kwThen), ("type", .kwType), ("use", .kwUse),
    ("when", .kwWhen), ("while", .kwWhile), ("with", .kwWith), ("xor", .kwXor)]

def longest : Nat := 9

def bytesOf (text : String) : List UInt8 := text.toUTF8.data.toList

/-- Only the capital letters of ASCII change, which are single bytes. -/
def lowered (byte : UInt8) : UInt8 := if 0x41 ≤ byte && byte ≤ 0x5A then byte + 0x20 else byte

/-- Looks for the first `length` bytes of the buffer in the table from `low` up to before `high`, by halving. -/
def search (buffer : Buffer longest) (length low high : Nat) (hhigh : high ≤ table.size) :
    Except Buffer.Fault (Option TokenKind) :=
  if hlow : low < high then do
    let middle := (low + high) / 2
    have hmiddle : middle < high := by omega
    let entry := table[middle]
    match ← buffer.order 0 length (bytesOf entry.1) with
    | .eq => .ok (some entry.2)
    | .lt => search buffer length (middle + 1) high hhigh
    | .gt => search buffer length low middle (by omega)
  else .ok none
termination_by high - low

def lookup (text : String) : Except Buffer.Fault (Option TokenKind) :=
  let bytes := bytesOf text
  if longest < bytes.length then .ok none
  else do
    let copied ← Buffer.zero.copy 0 bytes
    let small ← copied.transform lowered bytes.length
    search small bytes.length 0 table.size (Nat.le_refl _)

def kind? (text : String) : Option TokenKind :=
  match lookup text with
  | .ok found => found
  | .error _ => none

def spelling? (kind : TokenKind) : Option String :=
  (table.find? (·.2 = kind)).map (·.1)

def quoted? (kind : TokenKind) : Option String :=
  (spelling? kind).map fun word => "'" ++ word ++ "'"

end ReservedWord

def TokenKind.description : TokenKind → String
  | .whitespace => "whitespace"
  | .comment => "comment"
  | .identifier => "identifier"
  | .integerLiteral => "integer literal"
  | .realLiteral => "real literal"
  | .characterLiteral => "character literal"
  | .stringLiteral => "string literal"
  | .ampersand => "'&'"
  | .tick => "'''"
  | .leftParen => "'('"
  | .rightParen => "')'"
  | .star => "'*'"
  | .plus => "'+'"
  | .comma => "','"
  | .minus => "'-'"
  | .dot => "'.'"
  | .slash => "'/'"
  | .colon => "':'"
  | .semicolon => "';'"
  | .less => "'<'"
  | .equal => "'='"
  | .greater => "'>'"
  | .bar => "'|'"
  | .arrow => "'=>'"
  | .doubleDot => "'..'"
  | .doubleStar => "'**'"
  | .assign => "':='"
  | .notEqual => "'/='"
  | .greaterEqual => "'>='"
  | .lessEqual => "'<='"
  | .leftLabel => "'<<'"
  | .rightLabel => "'>>'"
  | .box => "'<>'"
  | .error => "invalid token"
  | .endOfFile => "end of file"
  | kind => (ReservedWord.quoted? kind).getD "reserved word"

structure Token where
  kind : TokenKind
  text : String
  range : Range
deriving DecidableEq, Inhabited

namespace Token

def ofText (kind : TokenKind) (text : String) (offset : Nat) : Token :=
  { kind, text, range := .ofLength offset text.utf8ByteSize }

def endOfFile (offset : Nat) : Token := ofText .endOfFile "" offset

def description (token : Token) : String :=
  if token.kind = .identifier || token.kind.isLiteral then
    token.kind.description ++ " " ++ token.text
  else token.kind.description

end Token

end AdaSyntax

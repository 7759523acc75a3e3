import AdaSyntax.Name
import AdaSyntax.Token.Basic

/-!
Tokens of a source text. A recogniser of lexemes gets the characters behind the first one and answers how many of them
belong to the lexeme, so a lexeme always has at least its first character. Every character belongs to exactly one token:
blanks, comments and invalid text have tokens of their own. Which texts are numbers, strings and so on, the recogniser
settles in one way; `Lexer` does with any scanner, and what is proved of it does not depend on this one.
-/

namespace AdaSyntax

namespace Lexeme

def isBlank (c : Char) : Bool :=
  c = ' ' || c = '\t' || c = '\r' || c = '\n' || c = '\x0c' || c = '\x0b'

def isHexDigit (c : Char) : Bool :=
  c.isDigit || ('a' ≤ c && c ≤ 'f') || ('A' ≤ c && c ≤ 'F')

def isWordPart (c : Char) : Bool :=
  Unicode.isLetter c || Unicode.isNumber c || c = '_'

def runLength (p : Char → Bool) (cs : List Char) : Nat := (cs.takeWhile p).length

def digitsLength : List Char → Nat := runLength fun c => c.isDigit || c = '_'

def hexLength : List Char → Nat := runLength fun c => isHexDigit c || c = '_'

inductive Exponent where
  | absent
  | incomplete
  | complete (length : Nat)

def exponent (negative : Bool) : List Char → Exponent
  | [] => .absent
  | e :: cs =>
    if e ≠ 'e' && e ≠ 'E' then .absent
    else
      match cs with
      | [] => .incomplete
      | sign :: rest =>
        if sign.isDigit then .complete (2 + digitsLength rest)
        else if sign = '+' || (sign = '-' && negative) then
          match rest with
          | [] => .incomplete
          | digit :: rest =>
            if digit.isDigit then .complete (3 + digitsLength rest) else .incomplete
        else .incomplete

def exponentLength (negative : Bool) (cs : List Char) : Nat :=
  match exponent negative cs with
  | .complete length => length
  | _ => 0

/-- The part of a based literal behind its integer digits. An exponent that breaks off spoils a real
literal, but not an integer one. A scanner that never goes back takes a literal without its last sign for
an integer, though none is written so. -/
def basedTail (length : Nat) (cs : List Char) : TokenKind × Nat :=
  match cs with
  | '#' :: cs => (.integerLiteral, length + 1 + exponentLength false cs)
  | '.' :: digit :: cs =>
    if isHexDigit digit then
      let length := length + 2 + hexLength cs
      match cs.drop (hexLength cs) with
      | '#' :: cs =>
        match exponent true cs with
        | .absent => (.realLiteral, length + 1)
        | .incomplete => (.error, length + 1)
        | .complete extra => (.realLiteral, length + 1 + extra)
      | _ => (.error, length)
    else (.integerLiteral, length)
  | _ => (.integerLiteral, length)

def decimalTail (length : Nat) (cs : List Char) : TokenKind × Nat :=
  match cs with
  | '.' :: digit :: rest =>
    if digit.isDigit then
      let fraction := digitsLength rest
      (.realLiteral, length + 2 + fraction + exponentLength true (rest.drop fraction))
    else (.integerLiteral, length + exponentLength false cs)
  | _ => (.integerLiteral, length + exponentLength false cs)

def number (cs : List Char) : TokenKind × Nat :=
  let length := digitsLength cs
  let rest := cs.drop length
  match rest with
  | '#' :: digit :: based =>
    if isHexDigit digit then
      basedTail (length + 2 + hexLength based) (based.drop (hexLength based))
    else decimalTail length rest
  | _ => decimalTail length rest

/-- A string, behind its opening quote; two quotes together stand for one. Without a closing quote on
the line the whole rest of the line is the lexeme. -/
def string : List Char → TokenKind × Nat
  | '"' :: '"' :: cs => let (kind, length) := string cs; (kind, length + 2)
  | '"' :: _ => (.stringLiteral, 1)
  | '\n' :: _ => (.error, 0)
  | [] => (.error, 0)
  | _ :: cs => let (kind, length) := string cs; (kind, length + 1)

def quote (mustBeTick : Bool) : List Char → TokenKind × Nat
  | c :: '\'' :: _ => if mustBeTick || c = '\n' then (.tick, 0) else (.characterLiteral, 2)
  | _ => (.tick, 0)

def wordKind (text : String) : TokenKind :=
  match ReservedWord.kind? text with
  | some kind => kind
  | none => if isIdentifier text then .identifier else .error

def word (first : Char) (cs : List Char) : TokenKind × Nat :=
  let part := cs.takeWhile isWordPart
  (wordKind (String.ofList (first :: part)), part.length)

def compound? (first second : Char) : Option TokenKind :=
  match first, second with
  | '=', '>' => some .arrow
  | '.', '.' => some .doubleDot
  | '*', '*' => some .doubleStar
  | ':', '=' => some .assign
  | '/', '=' => some .notEqual
  | '>', '=' => some .greaterEqual
  | '<', '=' => some .lessEqual
  | '<', '<' => some .leftLabel
  | '>', '>' => some .rightLabel
  | '<', '>' => some .box
  | _, _ => none

def delimiter (first : Char) : TokenKind :=
  match first with
  | '&' => .ampersand
  | '(' => .leftParen
  | ')' => .rightParen
  | '*' => .star
  | '+' => .plus
  | ',' => .comma
  | '-' => .minus
  | '.' => .dot
  | '/' => .slash
  | ':' => .colon
  | ';' => .semicolon
  | '<' => .less
  | '=' => .equal
  | '>' => .greater
  | '|' => .bar
  | _ => .error

def punctuation (first : Char) : List Char → TokenKind × Nat
  | [] => (delimiter first, 0)
  | second :: cs =>
    if first = '-' && second = '-' then (.comment, 1 + runLength (· ≠ '\n') cs)
    else
      match compound? first second with
      | some kind => (kind, 1)
      | none => (delimiter first, 0)

/-- Kind of the lexeme that starts with `first`, and the number of characters it takes from `cs`. -/
def scan (mustBeTick : Bool) (first : Char) (cs : List Char) : TokenKind × Nat :=
  if isBlank first then (.whitespace, runLength isBlank cs)
  else if first.isDigit then number cs
  else if first = '"' then string cs
  else if first = '\'' then quote mustBeTick cs
  else if Unicode.isLetter first then word first cs
  else punctuation first cs

end Lexeme

namespace Token

/-- Behind these a quote is a tick and cannot start a character literal. -/
def endsName : Option TokenKind → Bool
  | some .identifier | some .rightParen | some .kwAll | some .stringLiteral => true
  | _ => false

/-- The tokens of `cs`, which starts at byte `offset` behind a token of kind `previous`, trivia not
counted. -/
def scan (previous : Option TokenKind) (offset : Nat) : List Char → List Token
  | [] => []
  | c :: cs =>
    let lexeme := Lexeme.scan (endsName previous) c cs
    let token := ofText lexeme.1 (String.ofList (c :: cs.take lexeme.2)) offset
    token :: scan (if lexeme.1.isTrivia then previous else some lexeme.1) token.range.stop
      (cs.drop lexeme.2)
termination_by cs => cs.length

def ofSource (source : String) : List Token := scan none 0 source.toList

def significant (source : String) : List Token :=
  (ofSource source).filter (!·.kind.isTrivia) ++ [endOfFile source.utf8ByteSize]

end Token

end AdaSyntax

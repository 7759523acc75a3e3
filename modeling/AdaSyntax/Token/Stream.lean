import AdaSyntax.Token.Cursor
import AdaSyntax.Token.Lexer

/-!
The token stream of a source text. Text that is no token is reported and left out, so it can neither
make a rule match nor keep one from matching.
-/

namespace AdaSyntax

namespace Token

def defectCode (text : String) : Code :=
  match text.toList with
  | [] => .invalidCharacter
  | c :: cs =>
    if c = '"' then .unterminatedString
    else if c.isDigit then .invalidNumber
    else if c = '_' || isIdentifier (String.ofList ((c :: cs).filter (· != '_'))) then
      .malformedIdentifier
    else .invalidCharacter

def defectMessage (text : String) : Code → String
  | .unterminatedString => Code.summary .unterminatedString
  | code => code.summary ++ " '" ++ text ++ "'"

def defect (token : Token) : Diagnostic :=
  .ofCode (defectCode token.text) (defectMessage token.text (defectCode token.text)) token.range

def wellFormed (tokens : List Token) : List Token := tokens.filter (·.kind ≠ .error)

def defects (tokens : List Token) : List Diagnostic :=
  (tokens.filter (·.kind = .error)).map defect

theorem wellFormed_significant (source : String) :
    wellFormed (significant source) =
      wellFormed ((ofSource source).filter (!·.kind.isTrivia)) ++
        [endOfFile source.utf8ByteSize] := by
  simp [wellFormed, significant, endOfFile, ofText]

end Token

def Cursor.ofSource (source : String) : Cursor where
  tokens := (Token.wellFormed (Token.significant source)).toArray
  position := 0
  position_lt := by simp [Token.wellFormed_significant]
  last_kind := by simp [Token.wellFormed_significant, Token.endOfFile, Token.ofText]

end AdaSyntax

import AdaSyntax.Text.Range

/-!
Diagnostics: a message at a place, with a code, and optionally a hint and further places. The first two
digits of a code group it: lexical, structural, declaration, expression, context clause, statement, fatal.
-/

namespace AdaSyntax

inductive Severity where
  | error | warning | hint
deriving DecidableEq, Inhabited

def Severity.text : Severity → String
  | .error => "error"
  | .warning => "warning"
  | .hint => "hint"

inductive Code where
  | invalidCharacter | unterminatedString | malformedIdentifier | invalidNumber
  | noCompilationUnit | trailingText | endMismatch | unrecognizedDeclaration
  | duplicateDeclaration | unrecognizedComponent | undeclaredTypeMark | notAType | mixedOperators
  | notAPackage | unrecognizedStatement | exitOutsideLoop | exitNotEnclosing | endOfInput
  | nestingTooDeep | internalError
deriving DecidableEq, Inhabited

namespace Code

def text : Code → String
  | invalidCharacter => "E0101"
  | unterminatedString => "E0102"
  | malformedIdentifier => "E0103"
  | invalidNumber => "E0104"
  | noCompilationUnit => "E0201"
  | trailingText => "E0202"
  | endMismatch => "E0203"
  | unrecognizedDeclaration => "E0301"
  | duplicateDeclaration => "E0302"
  | unrecognizedComponent => "E0303"
  | undeclaredTypeMark => "E0401"
  | notAType => "E0402"
  | mixedOperators => "E0403"
  | notAPackage => "E0501"
  | unrecognizedStatement => "E0601"
  | exitOutsideLoop => "E0602"
  | exitNotEnclosing => "E0603"
  | endOfInput => "E0901"
  | nestingTooDeep => "E0902"
  | internalError => "E0999"

def category : Code → String
  | invalidCharacter | unterminatedString | malformedIdentifier | invalidNumber => "lexical error"
  | noCompilationUnit | trailingText | endMismatch => "structural error"
  | unrecognizedDeclaration | duplicateDeclaration | unrecognizedComponent => "declaration error"
  | undeclaredTypeMark | notAType | mixedOperators => "expression error"
  | notAPackage => "context clause error"
  | unrecognizedStatement | exitOutsideLoop | exitNotEnclosing => "statement error"
  | endOfInput | nestingTooDeep | internalError => "fatal error"

def summary : Code → String
  | invalidCharacter => "invalid character"
  | unterminatedString => "unterminated string literal"
  | malformedIdentifier => "malformed identifier"
  | invalidNumber => "invalid numeric literal"
  | noCompilationUnit => "expected a compilation unit"
  | trailingText => "unexpected text after compilation unit"
  | endMismatch => "end designator does not match"
  | unrecognizedDeclaration => "unrecognized declarative item"
  | duplicateDeclaration => "duplicate declaration"
  | unrecognizedComponent => "unrecognized component declaration"
  | undeclaredTypeMark => "unresolved type mark"
  | notAType => "name does not denote a type"
  | mixedOperators => "mixed logical operators require parentheses"
  | notAPackage => "use clause does not name a package"
  | unrecognizedStatement => "unrecognized statement"
  | exitOutsideLoop => "exit statement outside of a loop"
  | exitNotEnclosing => "exit names something that is not an enclosing loop"
  | endOfInput => "unexpected end of file"
  | nestingTooDeep => "nesting too deep"
  | internalError => "internal parser error"

def severity : Code → Severity
  | undeclaredTypeMark => .warning
  | _ => .error

def isSyntactic : Code → Bool
  | noCompilationUnit | trailingText | unrecognizedDeclaration | unrecognizedComponent
  | unrecognizedStatement => true
  | _ => false

def isRecoverable : Code → Bool
  | endOfInput | nestingTooDeep | internalError => false
  | _ => true

end Code

structure RelatedPlace where
  message : String
  range : Range
deriving DecidableEq, Inhabited

structure Diagnostic where
  message : String
  range : Range
  code : Code
  severity : Severity
  hint : Option String
  related : List RelatedPlace
deriving DecidableEq, Inhabited

namespace Diagnostic

def ofCode (code : Code) (message : String) (range : Range) : Diagnostic :=
  { message, range, code, severity := code.severity, hint := none, related := [] }

def withHint (diagnostic : Diagnostic) (hint : String) : Diagnostic :=
  { diagnostic with hint := some hint }

def withRelated (diagnostic : Diagnostic) (message : String) (range : Range) : Diagnostic :=
  { diagnostic with related := diagnostic.related ++ [⟨message, range⟩] }

def isError (diagnostic : Diagnostic) : Bool := diagnostic.severity = .error

def render (diagnostic : Diagnostic) : String :=
  diagnostic.severity.text ++ " " ++ diagnostic.code.text ++ ": " ++ diagnostic.message ++
    match diagnostic.hint with
    | some hint => "\n  hint: " ++ hint
    | none => ""

end Diagnostic

end AdaSyntax

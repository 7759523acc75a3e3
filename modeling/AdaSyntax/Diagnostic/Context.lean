import AdaSyntax.Token.Basic

/-!
The list of items that is being parsed. It words the message about an item that nothing matched, and
its closing tokens end the list.
-/

namespace AdaSyntax

inductive Context where
  | compilation | packageSpecification | declarativePart | genericFormalPart | componentList
  | statementSequence
deriving DecidableEq, Inhabited

namespace Context

def description : Context → String
  | compilation => "at top level"
  | packageSpecification => "in package specification"
  | declarativePart => "in declarative part"
  | genericFormalPart => "in generic formal part"
  | componentList => "in record definition"
  | statementSequence => "in statement sequence"

def expected : Context → String
  | compilation => "a library unit or subunit"
  | packageSpecification | declarativePart => "a declaration"
  | genericFormalPart => "a generic formal parameter"
  | componentList => "a component declaration"
  | statementSequence => "a statement"

def closers : Context → List TokenKind
  | compilation => []
  | packageSpecification => [.kwPrivate, .kwEnd]
  | declarativePart => [.kwBegin, .kwEnd, .kwPrivate]
  | genericFormalPart => [.kwPackage, .kwProcedure, .kwFunction]
  | componentList => [.kwEnd, .kwCase, .kwWhen]
  | statementSequence => [.kwEnd, .kwElsif, .kwElse, .kwWhen, .kwException]

def isDeclarative : Context → Bool
  | packageSpecification | declarativePart | genericFormalPart => true
  | _ => false

def message (context : Context) (found expected : String) : String :=
  "unexpected " ++ found ++ " " ++ context.description ++ ": expected " ++ expected

end Context

end AdaSyntax

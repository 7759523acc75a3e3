import AdaSyntax.Unicode.Identifier
import AdaSyntax.Unicode.UpperCase

/-!
Names as the language compares them. Case does not matter in identifiers and operator symbols, so
their names are kept in upper case; a character literal is kept as it is written. Where a name is
declared it has a place, a range in a finished tree and a token position before.
-/

namespace AdaSyntax

structure Name where
  text : String
deriving DecidableEq, Inhabited

namespace Name

def upperCase (text : String) : String :=
  String.ofList (text.toList.flatMap Unicode.upperCase)

/-- The name of an identifier or operator symbol. Text without an ASCII lower-case letter is left
untouched, letters beyond ASCII included. -/
def ofText (text : String) : Name :=
  if text.toList.any Char.isLower then ⟨upperCase text⟩ else ⟨text⟩

def verbatim (text : String) : Name := ⟨text⟩

def enclosedIn (quote : Char) (text : String) : Bool :=
  text.toList.head? == some quote && text.toList.getLast? == some quote

def isCharacterLiteral (name : Name) : Bool :=
  2 < name.text.length && enclosedIn '\'' name.text

def isOperatorSymbol (name : Name) : Bool :=
  1 < name.text.length && enclosedIn '"' name.text

end Name

/-- Letters, digits and underscores after `previous`, no two underscores together and none last. -/
def continuesIdentifier (previous : Char) : List Char → Bool
  | [] => previous != '_'
  | c :: cs =>
    (if c = '_' then previous != '_' else Unicode.isIdentifierPart c) && continuesIdentifier c cs

def isIdentifier (text : String) : Bool :=
  match text.toList with
  | [] => false
  | c :: cs => Unicode.isIdentifierStart c && continuesIdentifier c cs

structure DefiningName (ρ : Type) where
  name : Name
  place : ρ
deriving DecidableEq

variable {ρ σ : Type}

def DefiningName.map (f : ρ → σ) (defining : DefiningName ρ) : DefiningName σ :=
  ⟨defining.name, f defining.place⟩

def DefiningName.list (names : List (DefiningName ρ)) : String :=
  ", ".intercalate (names.map (·.name.text))

end AdaSyntax

/-!
Structured data for exchange with other programs: numbers, texts, lists and records. The order of the
fields of a record means nothing, and a field that is missing counts as null.
-/

namespace AdaSyntax

inductive Datum where
  | null
  | flag (value : Bool)
  | number (value : Nat)
  | text (value : String)
  | list (elements : List Datum)
  | record (fields : List (String × Datum))

class ToDatum (α : Type) where
  toDatum : α → Datum

class OfDatum (α : Type) where
  /-- Reads a value, or gives nothing where the data do not have its form. -/
  ofDatum? : Datum → Option α

export ToDatum (toDatum)
export OfDatum (ofDatum?)

instance {α : Type} [ToDatum α] (value : α) : CoeT α value Datum := ⟨toDatum value⟩

instance : ToDatum Datum := ⟨id⟩

instance : OfDatum Datum := ⟨some⟩

instance : ToDatum Bool := ⟨.flag⟩

instance : OfDatum Bool where
  ofDatum?
    | .flag value => some value
    | _ => none

instance : ToDatum Nat := ⟨.number⟩

instance : OfDatum Nat where
  ofDatum?
    | .number value => some value
    | _ => none

instance : ToDatum String := ⟨.text⟩

instance : OfDatum String where
  ofDatum?
    | .text value => some value
    | _ => none

variable {α : Type}

instance [ToDatum α] : ToDatum (List α) where
  toDatum values := .list (values.map toDatum)

instance [OfDatum α] : OfDatum (List α) where
  ofDatum?
    | .list elements => elements.mapM ofDatum?
    | _ => none

instance [ToDatum α] : ToDatum (Array α) where
  toDatum values := toDatum values.toList

instance [ToDatum α] : ToDatum (Option α) where
  toDatum
    | some value => toDatum value
    | none => .null

instance [OfDatum α] : OfDatum (Option α) where
  ofDatum?
    | .null => some none
    | datum => some <$> ofDatum? datum

namespace Datum

def get (datum : Datum) (key : String) : Datum :=
  match datum with
  | record fields => (fields.lookup key).getD .null
  | _ => .null

def field [OfDatum α] (datum : Datum) (key : String) : Option α := ofDatum? (datum.get key)

def fieldD [OfDatum α] (datum : Datum) (key : String) (default : α) : Option α :=
  (datum.field key).map fun (value : Option α) => value.getD default

def case (tag : String) (fields : List (String × Datum)) : Datum := .record [(tag, .record fields)]

def wrap (tag : String) (content : Datum) : Datum := .record [(tag, content)]

def case? : Datum → Option (String × Datum)
  | text tag => some (tag, .null)
  | record [(tag, content)] => some (tag, content)
  | _ => none

end Datum

end AdaSyntax

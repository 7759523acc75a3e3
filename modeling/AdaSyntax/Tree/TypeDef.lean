import AdaSyntax.Index
import AdaSyntax.Name

/-! Type definitions, subtype indications, constraints and ranges. -/

namespace AdaSyntax

inductive TypeDef (ρ : Type) where
  | enumeration (literals : List (DefiningName ρ))
  | integer (bounds : NodeId)
  | float (digits : NodeId) (bounds : Option NodeId)
  | fixed (delta : NodeId) (bounds : Option NodeId)
  | unconstrainedArray (indexes : List NodeId) (element : NodeId)
  | constrainedArray (indexes : List NodeId) (element : NodeId)
  | record (components : List NodeId) (tail : Option NodeId)
  | variantPart (discriminant : NodeId) (variants : List NodeId)
  | variant (choices components : List NodeId) (tail : Option NodeId)
  | access (designated : NodeId)
  | derived (parent : NodeId)
  /-- An index of an unconstrained array. -/
  | indexSubtype (mark : NodeId)
  | subtypeIndication (mark : NodeId) (constraint : Option NodeId)
  | rangeConstraint (bounds : NodeId)
  | indexConstraint (ranges : List NodeId)
  | discriminantConstraint (associations : List NodeId)
  | floatingConstraint (digits : NodeId) (bounds : Option NodeId)
  | fixedConstraint (delta : NodeId) (bounds : Option NodeId)
  | range (low high : NodeId)
deriving DecidableEq

variable {ρ σ : Type}

namespace TypeDef

def map (f : ρ → σ) : TypeDef ρ → TypeDef σ
  | enumeration literals => .enumeration (literals.map (·.map f))
  | integer bounds => .integer bounds
  | float digits bounds => .float digits bounds
  | fixed delta bounds => .fixed delta bounds
  | unconstrainedArray indexes element => .unconstrainedArray indexes element
  | constrainedArray indexes element => .constrainedArray indexes element
  | record components tail => .record components tail
  | variantPart discriminant variants => .variantPart discriminant variants
  | variant choices components tail => .variant choices components tail
  | access designated => .access designated
  | derived parent => .derived parent
  | indexSubtype mark => .indexSubtype mark
  | subtypeIndication mark constraint => .subtypeIndication mark constraint
  | rangeConstraint bounds => .rangeConstraint bounds
  | indexConstraint ranges => .indexConstraint ranges
  | discriminantConstraint associations => .discriminantConstraint associations
  | floatingConstraint digits bounds => .floatingConstraint digits bounds
  | fixedConstraint delta bounds => .fixedConstraint delta bounds
  | range low high => .range low high

def children : TypeDef ρ → List NodeId
  | enumeration _ => []
  | integer bounds | rangeConstraint bounds => [bounds]
  | float accuracy bounds | floatingConstraint accuracy bounds | fixed accuracy bounds
  | fixedConstraint accuracy bounds => accuracy :: bounds.toList
  | unconstrainedArray indexes element | constrainedArray indexes element =>
    indexes ++ [element]
  | record components tail => components ++ tail.toList
  | variantPart discriminant variants => discriminant :: variants
  | variant choices components tail => choices ++ components ++ tail.toList
  | access designated => [designated]
  | derived parent => [parent]
  | indexSubtype mark => [mark]
  | subtypeIndication mark constraint => mark :: constraint.toList
  | indexConstraint ranges => ranges
  | discriminantConstraint associations => associations
  | range low high => [low, high]

def label : TypeDef ρ → String
  | enumeration .. => "EnumerationType"
  | integer .. => "IntegerType"
  | float .. => "FloatType"
  | fixed .. => "FixedType"
  | unconstrainedArray .. => "UnconstrainedArray"
  | constrainedArray .. => "ConstrainedArray"
  | record .. => "RecordType"
  | variantPart .. => "VariantPart"
  | variant .. => "Variant"
  | access .. => "AccessType"
  | derived .. => "DerivedType"
  | indexSubtype .. => "IndexSubtype"
  | subtypeIndication .. => "SubtypeIndication"
  | rangeConstraint .. => "RangeConstraint"
  | indexConstraint .. => "IndexConstraint"
  | discriminantConstraint .. => "DiscriminantConstraint"
  | floatingConstraint .. => "FloatingConstraint"
  | fixedConstraint .. => "FixedConstraint"
  | range .. => "Range"

end TypeDef

end AdaSyntax

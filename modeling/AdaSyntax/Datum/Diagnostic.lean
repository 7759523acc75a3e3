import AdaSyntax.Datum.Word
import AdaSyntax.Diagnostic.Log
import AdaSyntax.Parser.Basic
import AdaSyntax.Text.LineIndex

/-! Places, tokens and diagnostics as data. -/

namespace AdaSyntax

instance : ToDatum Range where
  toDatum range := [range.start, range.stop]

instance : OfDatum Range where
  ofDatum?
    | .list [.number start, .number stop] =>
      if h : start ≤ stop then some ⟨start, stop, h⟩ else none
    | _ => none

instance : ToDatum Position where
  toDatum position := [position.line, position.column]

instance : ToDatum Token where
  toDatum token := .list [token.kind, token.text, token.range.start, token.range.stop]

instance : OfDatum Token where
  ofDatum?
    | .list [kind, .text text, .number offset] => return .ofText (← ofDatum? kind) text offset
    | _ => none

instance : ToDatum RelatedPlace where
  toDatum place := .record [("message", place.message), ("range", place.range)]

instance : OfDatum RelatedPlace where
  ofDatum? datum := return ⟨← datum.field "message", ← datum.field "range"⟩

instance : ToDatum Diagnostic where
  toDatum diagnostic :=
    .record [("message", diagnostic.message), ("range", diagnostic.range),
      ("code", diagnostic.code), ("severity", diagnostic.severity), ("hint", diagnostic.hint),
      ("related", diagnostic.related)]

instance : OfDatum Diagnostic where
  ofDatum? datum :=
    return {
      message := ← datum.field "message"
      range := ← datum.field "range"
      code := ← datum.field "code"
      severity := ← datum.field "severity"
      hint := ← datum.field "hint"
      related := ← datum.fieldD "related" [] }

def Fatal.word : Fatal → String
  | endOfStream _ => "EndOfStream"
  | depthExceeded _ _ => "DepthExceeded"
  | invalidPosition _ => "InvalidPosition"
  | invalidMarker _ _ => "InvalidMarker"
  | invalidBackfill _ => "InvalidBackfill"
  | unterminated => "Unterminated"

instance : ToDatum Fatal where
  toDatum fatal :=
    .record [("kind", fatal.word), ("message", fatal.message), ("code", fatal.code),
      ("offset", fatal.offset?)]

instance : OfDatum Fatal where
  ofDatum? datum := do
    match ← datum.field (α := String) "kind" with
    | "EndOfStream" => return .endOfStream (← datum.field "at")
    | "DepthExceeded" => return .depthExceeded (← datum.field "limit") (← datum.field "at")
    | "InvalidPosition" => return .invalidPosition (← datum.field "pos")
    | "InvalidMarker" => return .invalidMarker (← datum.field "marker") (← datum.field "len")
    | "InvalidBackfill" => return .invalidBackfill ⟨← datum.field "node"⟩
    | "Unterminated" => return .unterminated
    | _ => none

instance : ToDatum Mismatch where
  toDatum mismatch := .list [mismatch.position, mismatch.expected]

instance : ToDatum Options where
  toDatum options :=
    .record [("max_depth", options.maxDepth), ("predefined", options.predefined),
      ("warn_unresolved_type_marks", options.warnUndeclared)]

instance : OfDatum Options where
  ofDatum? datum :=
    let usual : Options := {}
    return {
      maxDepth := ← datum.fieldD "max_depth" usual.maxDepth
      predefined := ← datum.fieldD "predefined" usual.predefined
      warnUndeclared := ← datum.fieldD "warn_unresolved_type_marks" usual.warnUndeclared }

end AdaSyntax

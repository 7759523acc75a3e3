import AdaSyntax.Diagnostic.Basic
import AdaSyntax.Index

/-!
Outcomes that end a parse at once, and the log of a parse. A construct that does not match is not among
these outcomes. The log grows at its end; an abandoned attempt cuts it back to the length it had before, so
nothing that was reported on the way is ever seen.
-/

namespace AdaSyntax

inductive Fatal where
  /-- A token is needed at the end marker. -/
  | endOfStream (offset : Nat)
  | depthExceeded (limit offset : Nat)
  /-- A position outside of the token stream. -/
  | invalidPosition (position : Nat)
  /-- A mark beyond the end of the log. -/
  | invalidMarker (marker length : Nat)
  /-- Filling a node that is not reserved. -/
  | invalidBackfill (node : NodeId)
  /-- The token stream has no end marker. -/
  | unterminated
deriving DecidableEq

namespace Fatal

def message : Fatal → String
  | endOfStream offset => "unexpected end of file at offset " ++ toString offset
  | depthExceeded limit offset =>
    "nesting exceeds the limit of " ++ toString limit ++ " at offset " ++ toString offset
  | invalidPosition position =>
    "cursor position " ++ toString position ++ " is outside the token stream"
  | invalidMarker marker length =>
    "log marker " ++ toString marker ++ " exceeds log length " ++ toString length
  | invalidBackfill node => "node " ++ toString node.index ++ " is not an unfilled placeholder"
  | unterminated => "token stream is not terminated by an end-of-file token"

def code : Fatal → Code
  | endOfStream _ => .endOfInput
  | depthExceeded _ _ => .nestingTooDeep
  | _ => .internalError

def offset? : Fatal → Option Nat
  | endOfStream offset | depthExceeded _ offset => some offset
  | _ => none

def diagnostic (fatal : Fatal) : Diagnostic :=
  .ofCode fatal.code fatal.message (.empty (fatal.offset?.getD 0))

end Fatal

structure DiagnosticLog where
  records : Array Diagnostic
deriving DecidableEq

namespace DiagnosticLog

def empty : DiagnosticLog := ⟨#[]⟩

def length (log : DiagnosticLog) : Nat := log.records.size

def report (log : DiagnosticLog) (diagnostic : Diagnostic) : DiagnosticLog :=
  ⟨log.records.push diagnostic⟩

/-- Cuts the log back to `length`, which must not exceed its own. -/
def rollback (log : DiagnosticLog) (length : Nat) : Except Fatal DiagnosticLog :=
  if log.length < length then .error (.invalidMarker length log.length)
  else .ok ⟨log.records.shrink length⟩

def errorCount (log : DiagnosticLog) : Nat := log.records.countP (·.isError)

end DiagnosticLog

end AdaSyntax

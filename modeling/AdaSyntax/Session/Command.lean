import AdaSyntax.Parser.Program
import AdaSyntax.Symbol.Basic

/-!
Commands to a parser, one for each thing it can do, and what they answer. A list of commands is a rule
written on the spot: it goes on as long as its commands match.
-/

namespace AdaSyntax

inductive Step where
  | current
  | ahead (n : Nat)
  | atAny (kinds : List TokenKind)
  | atEnd
  | aheadInGroup (offset : Nat) (kinds : List TokenKind)
  | rangeFrom (start : Nat)
  | take
  | accept (kind : TokenKind)
  | expect (kind : TokenKind)
  | expectChoice (kind : TokenKind)
  | reject (expected : String)
  | furthest
  | definingIdentifier
  | endName (expected : Name)
  | checkpoint (label : String)
  | restore (label : String)
  | isCheckpoint (label : String)
  | markPosition (label : String)
  | parse (rule : Rule)
  | attemptRule (rule : Rule)
  | firstOf (rules : List Rule)
  | recoverRules (context : Context) (code : Code) (rules : List Rule)
  | context
  /-- The item starts at a saved position, or at the current one. -/
  | reportUnrecognized (context : Context) (code : Code) (first : Option String)
  | report (diagnostic : Diagnostic)
  | note (code : Code) (message : String) (range : Range)
  | warn (code : Code) (message : String) (range : Range)
  | add (start : Nat) (payload : Payload Range)
  | reserve (start : Nat)
  | fill (id : NodeId) (start : Nat) (payload : Payload Range)
  | node (id : NodeId)
  | resolve (name : Name)
  | declare (declaration : Declaration)
  | bind (id : SymbolId)

inductive Command where
  | step (step : Step)
  | attempt (body : List Command)
  | nested (body : List Command)
  /-- An item is a run of `body`, and a node is reserved for it. -/
  | recoverItems (context : Context) (code : Code) (body : List Command)

inductive Answer where
  | nothing
  | token (token : Token)
  | flag (value : Bool)
  | range (range : Range)
  | furthest (mismatch : Option Mismatch)
  | definingName (name : DefiningName Range)
  | name (name : Option Name)
  | nodeId (id : NodeId)
  | nodeIds (ids : List NodeId)
  | node (node : Option Node)
  | context (context : Context)
  | resolution (resolution : Resolution)
  | symbolId (id : SymbolId)
  | declared (declared : Declared)

end AdaSyntax

import AdaSyntax.Grammar.Production
import AdaSyntax.Session.Command

/-!
Running commands on a parser. Every command leaves an entry in the trace, those of a body in front of
the one of the command that holds it. Saved marks and the trace are no part of the parser: an attempt
that fails takes back neither.
-/

namespace AdaSyntax

structure TraceEntry where
  command : Command
  reply : Reply Answer
  /-- In how many bodies the command stands. -/
  level : Nat
  position : Nat
  diagnostics : Nat
  nodes : Nat
  symbols : Nat
  depth : Nat

structure Session where
  parser : Parser
  checkpoints : List (String × Checkpoint) := []
  positions : List (String × Nat) := []
  trace : Array TraceEntry := #[]

namespace Session

def answer {α : Type} (session : Session) (f : α → Answer) (result : Reply α × Parser) :
    Reply Answer × Session :=
  (result.1.map f, { session with parser := result.2 })

def give (session : Session) (answer : Answer) : Reply Answer × Session :=
  (.matched answer, session)

def change (session : Session) (parser : Parser) : Reply Answer × Session :=
  (.matched .nothing, { session with parser })

/-- What runs a program answers with places of tokens; an answer has their ranges. -/
def definingName (parser : Parser) (name : DefiningName Nat) : Answer :=
  .definingName ⟨name.name, parser.place name.place⟩

def restore (session : Session) (checkpoint : Checkpoint) : Reply Answer × Session :=
  match session.parser.restore checkpoint with
  | (none, parser) => session.change parser
  | (some error, parser) => (.fatal error, { session with parser })

/-- Ends an attempt of a body. -/
def settle {α : Type} (checkpoint : Checkpoint) (result : Reply α × Session) :
    Reply α × Session :=
  let (reply, parser) := Parser.settle checkpoint (result.1, result.2.parser)
  (reply, { result.2 with parser })

def nested {α : Type} (session : Session) (body : Session → Reply α × Session) :
    Reply α × Session :=
  match session.parser.descend with
  | .error error => (.fatal error, session)
  | .ok parser =>
    let (reply, session) := body { session with parser }
    (reply, { session with parser := session.parser.ascend })

def attempt {α : Type} (session : Session) (body : Session → Reply α × Session) :
    Reply α × Session :=
  settle session.parser.checkpoint (session.nested body)

/-- An item of a list: a run of the body, and then a node that starts where the item does. -/
def item (body : Session → Reply Answer × Session) (session : Session) : Reply NodeId × Session :=
  let start := session.parser.start
  match body session with
  | (.matched _, session) =>
    let (id, parser) := session.parser.reserveNode start
    (.matched id, { session with parser })
  | (.mismatch, session) => (.mismatch, session)
  | (.fatal error, session) => (.fatal error, session)
  | (.exhausted, session) => (.exhausted, session)

def items (context : Context) (code : Code) (item : Session → Reply NodeId × Session) :
    Nat → List NodeId → Session → Reply Answer × Session
  | 0, _, session => (.exhausted, session)
  | fuel + 1, ids, session =>
    if session.parser.atListEnd context then session.give (.nodeIds ids.reverse)
    else
      let first := session.parser.position
      let outer := session.parser.furthest
      match attempt { session with parser := session.parser.forgetMismatch } item with
      | (.matched id, session) =>
        items context code item fuel (id :: ids)
          { session with parser := session.parser.mergeMismatch outer }
      | (.mismatch, session) =>
        items context code item fuel ids
          { session with parser := session.parser.dropItem context code first outer }
      | (.fatal error, session) => (.fatal error, session)
      | (.exhausted, session) => (.exhausted, session)

/-- A body may go back to a mark, so the tokens do not bound the number of items; this does. -/
def itemLimit : Nat := 4294967296

def recoverItems (session : Session) (context : Context) (code : Code)
    (body : Session → Reply Answer × Session) : Reply Answer × Session :=
  let result :=
    items context code (item body) (session.parser.cursor.remaining + itemLimit) []
      { session with parser := session.parser.pushContext context }
  (result.1, { result.2 with parser := result.2.parser.popContext })

def record (command : Command) (level : Nat) (result : Reply Answer × Session) :
    Reply Answer × Session :=
  let (reply, session) := result
  let entry : TraceEntry :=
    { command, reply, level
      position := session.parser.position
      diagnostics := session.parser.log.length
      nodes := session.parser.tree.size
      symbols := session.parser.symbols.symbols.size
      depth := session.parser.symbols.depth }
  (reply, { session with trace := session.trace.push entry })

def perform (session : Session) : Step → Reply Answer × Session
  | .current => session.give (.token session.parser.current)
  | .ahead n => session.give (.token (session.parser.cursor.ahead n))
  | .atAny kinds => session.give (.flag (session.parser.atAny kinds))
  | .atEnd => session.give (.flag session.parser.cursor.atEnd)
  | .aheadInGroup offset kinds =>
    session.give (.flag (session.parser.cursor.aheadInGroup offset kinds))
  | .rangeFrom start => session.give (.range (session.parser.rangeFrom start))
  | .take => session.answer .token session.parser.take
  | .accept kind => session.answer .flag ((Program.accept kind).execute session.parser)
  | .expect kind => session.answer .token (session.parser.expect kind)
  | .expectChoice kind => session.answer .token (session.parser.expectChoice kind)
  | .reject expected =>
    (.mismatch, { session with parser := session.parser.recordMismatch expected })
  | .furthest => session.give (.furthest session.parser.furthest)
  | .definingIdentifier =>
    session.answer (definingName session.parser) (Program.definingIdentifier.execute session.parser)
  | .endName expected => session.answer .name ((Program.endName expected).execute session.parser)
  | .checkpoint label =>
    (.matched .nothing,
      { session with checkpoints := (label, session.parser.checkpoint) :: session.checkpoints })
  | .restore label =>
    match session.checkpoints.lookup label with
    | some checkpoint => session.restore checkpoint
    | none => (.mismatch, session)
  | .isCheckpoint label =>
    session.give (.flag (session.checkpoints.lookup label = some session.parser.checkpoint))
  | .markPosition label =>
    (.matched .nothing,
      { session with positions := (label, session.parser.position) :: session.positions })
  | .parse rule => session.answer .nodeId ((Program.rule rule).execute session.parser)
  | .attemptRule rule =>
    session.answer .nodeId (session.parser.attempt (Program.rule rule).execute)
  | .firstOf rules => session.answer .nodeId ((Program.firstOf rules).execute session.parser)
  | .recoverRules context code rules =>
    session.answer .nodeIds
      ((Program.items context code (Program.firstOf rules)).execute session.parser)
  | .context => session.give (.context session.parser.context)
  | .reportUnrecognized context code first =>
    let saved := first.bind fun label => session.positions.lookup label
    let first := saved.getD session.parser.position
    session.change (session.parser.reportUnrecognized context code first)
  | .report diagnostic => session.change (session.parser.report diagnostic)
  | .note code message range => session.change (session.parser.report (.ofCode code message range))
  | .warn code message range =>
    session.change
      (session.parser.report { Diagnostic.ofCode code message range with severity := .warning })
  | .add start payload =>
    let (id, parser) := session.parser.addNode start payload
    (.matched (.nodeId id), { session with parser })
  | .reserve start =>
    let (id, parser) := session.parser.reserveNode start
    (.matched (.nodeId id), { session with parser })
  | .fill id start payload =>
    session.answer (fun _ => .nothing) (session.parser.fillNode id start payload)
  | .node id => session.give (.node (session.parser.tree.get? id))
  | .resolve name => session.give (.resolution (session.parser.symbols.resolve name))
  | .declare declaration =>
    let (id, parser) := session.parser.declare declaration
    (.matched (.symbolId id), { session with parser })
  | .bind id =>
    let (declared, parser) := session.parser.bind id
    (.matched (.declared declared), { session with parser })

mutual

def run (level : Nat) : Command → Session → Reply Answer × Session
  | .step step, session => record (.step step) level (session.perform step)
  | .attempt body, session =>
    record (.attempt body) level (session.attempt (runBody (level + 1) body))
  | .nested body, session =>
    record (.nested body) level (session.nested (runBody (level + 1) body))
  | .recoverItems context code body, session =>
    record (.recoverItems context code body) level
      (session.recoverItems context code (runBody (level + 1) body))

def runBody (level : Nat) : List Command → Session → Reply Answer × Session
  | [], session => session.give .nothing
  | command :: rest, session =>
    match run level command session with
    | (.matched _, session) => runBody level rest session
    | (reply, session) => (reply, session)

end

def runAll (commands : List Command) (session : Session) : Session :=
  commands.foldl (fun session command => (session.run 0 command).2) session

end Session

end AdaSyntax

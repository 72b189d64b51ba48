import TreeProtocol.Fault

/-!
# Events

What the library reports while it works: calls that pass through a counted builder, the sessions
that are opened and closed, and the nodes that a walk comes to. `Event.level`, `Event.message` and
`Event.fields` say how an event is written down.
-/

namespace TreeProtocol

/-- How a construction session ended. -/
inductive SessionEnd where
  /-- Its body was done. -/
  | completed
  /-- Its body failed or crashed. -/
  | aborted
  deriving DecidableEq, Inhabited

/-- A session's end as text. -/
def SessionEnd.display : SessionEnd → String
  | .completed => "Completed"
  | .aborted => "Aborted"

/-- How much attention an event asks for. -/
inductive Level where
  | trace
  | debug
  | warn
  deriving DecidableEq

/-- The name of a level. -/
def Level.name : Level → String
  | .trace => "TRACE"
  | .debug => "DEBUG"
  | .warn => "WARN"

/-- Something that happened while the library was at work. -/
inductive Event where
  /-- The right nodes of one plan are about to be supplied. -/
  | supplying (kind : Kind) (relation : Relation) (rights : Nat)
  | makeCalled (kind : Kind) (attrs : Attrs)
  | relateCalled (relation : Relation) (args : Attrs)
  | finishCalled (kind : Kind)
  | prepareCalled
  | closeCalled (ending : SessionEnd)
  | relatedCalled (relation : Relation)
  /-- A walk leaves a node out. -/
  | nodeSkipped (relation : Option String)
  /-- A walk visits a node. -/
  | nodeVisited (kind : Kind) (relation : Option String) (relations : Nat)
  | sessionOpened
  | sessionClosing (ending : SessionEnd)
  /-- A session is closed because its body crashed. -/
  | sessionUnwinding
  /-- An arena marked its length. -/
  | arenaMarked (length depth : Nat)
  /-- An arena takes back what was done since a mark. -/
  | arenaRolledBack (ending : SessionEnd) (length discarded restored : Nat)
  /-- A session failed to close after its body had failed. -/
  | closeErrorDropped (error : BuildError)
  /-- A session failed to close after its body had crashed. -/
  | closeErrorUnwinding (error : BuildError)
  deriving Inhabited

namespace Event

/-- The level of an event. -/
def level : Event → Level
  | .supplying .. | .makeCalled .. | .relateCalled .. | .finishCalled _ | .prepareCalled
  | .closeCalled _ | .relatedCalled _ | .nodeSkipped _ | .nodeVisited .. => .trace
  | .sessionOpened | .sessionClosing _ | .sessionUnwinding | .arenaMarked ..
  | .arenaRolledBack .. => .debug
  | .closeErrorDropped _ | .closeErrorUnwinding _ => .warn

/-- The message of an event. -/
def message : Event → String
  | .supplying .. => "relating"
  | .makeCalled .. => "make_node"
  | .relateCalled .. => "relate"
  | .finishCalled _ => "finish_node"
  | .prepareCalled => "prepare"
  | .closeCalled _ => "finish_session"
  | .relatedCalled _ => "node_relation"
  | .nodeSkipped _ => "peek skipped node"
  | .nodeVisited .. => "visiting node"
  | .sessionOpened => "opened construction session"
  | .sessionClosing _ => "closing construction session"
  | .sessionUnwinding => "closing construction session during unwind"
  | .arenaMarked .. => "arena session opened"
  | .arenaRolledBack .. => "rolling back arena session"
  | .closeErrorDropped _ => "session close error superseded by body error"
  | .closeErrorUnwinding _ => "construction session failed to close"

/-- A name that may be missing, as text. -/
def optionalName : Option String → String
  | none => "None"
  | some name => "Some(" ++ Text.quoted name ++ ")"

/-- The fields of an event with their texts. -/
def fields : Event → List (String × String)
  | .supplying kind relation rights =>
    [("kind", kind), ("relation", relation.display), ("rights", toString rights)]
  | .makeCalled kind attrs => [("kind", kind), ("initargs", attrs.display)]
  | .relateCalled relation args => [("relation", relation.display), ("args", args.display)]
  | .finishCalled kind => [("kind", kind)]
  | .prepareCalled | .sessionOpened | .sessionUnwinding => []
  | .closeCalled ending | .sessionClosing ending => [("outcome", ending.display)]
  | .relatedCalled relation => [("relation", relation.display)]
  | .nodeSkipped relation => [("relation", optionalName relation)]
  | .nodeVisited kind relation relations =>
    [("kind", kind), ("relation", optionalName relation), ("relations", toString relations)]
  | .arenaMarked length depth => [("mark", toString length), ("depth", toString depth)]
  | .arenaRolledBack ending length discarded restored =>
    [("outcome", ending.display), ("mark", toString length), ("discarded", toString discarded),
      ("restored", toString restored)]
  | .closeErrorDropped error => [("close_error", error.display)]
  | .closeErrorUnwinding error => [("error", error.display)]

end Event

end TreeProtocol

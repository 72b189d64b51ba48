import TreeProtocol.Construction.Builder

/-!
# Journals

A builder that notes every call, passes it on, and fails where it is told to: before a session is
opened, before or after the body of a session runs, and after a session was closed. Calls are noted
first, so a call that fails is in the journal.

A journal runs the bodies of sessions itself, without asking the inner builder.
-/

namespace TreeProtocol

/-- A call that a journal notes. -/
inductive Note where
  | make (kind : Kind)
  | relate (relation : Relation)
  | finish (kind : Kind)
  | prepare
  | bodyBegun
  /-- The body of a session was done or failed. A crash is not noted. -/
  | bodyEnded
  | close (ending : SessionEnd)
  deriving DecidableEq

/-- A note as text. -/
def Note.text : Note → String
  | .make kind => "make " ++ kind
  | .relate relation => "relate " ++ relation.display
  | .finish kind => "finish " ++ kind
  | .prepare => "prepare"
  | .bodyBegun => "wrap begin"
  | .bodyEnded => "wrap end"
  | .close ending => "close " ++ ending.display

/-- Where a journal fails, and with what errors. -/
structure Failures where
  prepare : Option BuildError := none
  beforeBody : Option BuildError := none
  /-- Takes the place of a result; an error of the body stays. -/
  afterBody : Option BuildError := none
  afterClose : Option BuildError := none

/-- Fails with an error, if there is one. -/
def Action.failIf {S : Type} : Option BuildError → Action S Unit
  | some e => fail e
  | none => pure ()

variable {W N : Type}

open TreeProtocol.Action

/-- Runs the body of a session for a journal. -/
def Failures.around {α : Type} (failures : Failures) (note : Note → Action W Unit)
    (body : Action W α) : Action W α := do
  note .bodyBegun
  failIf failures.beforeBody
  match ← body.caught with
  | .done a => do
    note .bodyEnded
    failIf failures.afterBody
    Action.pure a
  | .failed e => do
    note .bodyEnded
    fail e
  | .crashed => crash

/-- The builder that notes calls and passes them on. -/
def Builder.journaled (failures : Failures) (note : Note → Action W Unit) (inner : Builder W N) :
    Builder W N where
  make kind attrs := do
    note (.make kind)
    inner.make kind attrs
  relate relation left right args := do
    note (.relate relation)
    inner.relate relation left right args
  finish kind node := do
    note (.finish kind)
    inner.finish kind node
  prepare := do
    note .prepare
    failIf failures.prepare
    inner.prepare
  around := failures.around note
  close ending := do
    note (.close ending)
    inner.close ending
    failIf failures.afterClose

end TreeProtocol

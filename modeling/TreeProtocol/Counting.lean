import TreeProtocol.Construction.Builder
import TreeProtocol.Inspection

/-!
# Counting calls

A builder or inspector that passes every call on to another one, counts it, and reports it. A call
is counted before it is passed on, so it counts even if it fails. What the inner builder does around
the body of a session is left out, since the body works on the outer builder.
-/

namespace TreeProtocol

/-- How often each operation was called. -/
structure Calls where
  make : Nat := 0
  relate : Nat := 0
  finish : Nat := 0
  prepare : Nat := 0
  close : Nat := 0
  kind : Nat := 0
  attrs : Nat := 0
  relations : Nat := 0
  related : Nat := 0
  deriving DecidableEq, Inhabited

/-- The number of calls that only read. -/
def Calls.inspection (c : Calls) : Nat := c.kind + c.attrs + c.relations + c.related

variable {W N α : Type}

/-- Counts a call. -/
def Action.count (calls : Lens W Calls) (f : Calls → Calls) : Action W Unit :=
  Action.modify (calls.modify f)

/-- The builder that counts calls and passes them on. -/
def Builder.counted (calls : Lens W Calls) (inner : Builder W N) : Builder W N where
  make kind attrs := do
    Action.count calls fun c => { c with make := c.make + 1 }
    Action.emit (.makeCalled kind attrs)
    inner.make kind attrs
  relate relation left right args := do
    Action.count calls fun c => { c with relate := c.relate + 1 }
    Action.emit (.relateCalled relation args)
    inner.relate relation left right args
  finish kind node := do
    Action.count calls fun c => { c with finish := c.finish + 1 }
    Action.emit (.finishCalled kind)
    inner.finish kind node
  prepare := do
    Action.count calls fun c => { c with prepare := c.prepare + 1 }
    Action.emit .prepareCalled
    inner.prepare
  close ending := do
    Action.count calls fun c => { c with close := c.close + 1 }
    Action.emit (.closeCalled ending)
    inner.close ending

/-- The inspector that counts calls and passes them on. -/
def Inspector.counted (calls : Lens W Calls) (inner : Inspector W N) : Inspector W N where
  kind node := do
    Action.count calls fun c => { c with kind := c.kind + 1 }
    inner.kind node
  attrs node := do
    Action.count calls fun c => { c with attrs := c.attrs + 1 }
    inner.attrs node
  relations node := do
    Action.count calls fun c => { c with relations := c.relations + 1 }
    inner.relations node
  related relation node := do
    Action.count calls fun c => { c with related := c.related + 1 }
    Action.emit (.relatedCalled relation)
    inner.related relation node

end TreeProtocol

import TreeProtocol.Inspection

/-!
# Walks

A walk goes through the nodes that an inspector reports. At every node a visitor is asked for a
result, and the visitor decides when, whether and into which relations the walk descends; the
results of the nodes below are handed back to it.

A visitor may have a gate, which is asked before anything else happens to a node. The gate can have
the node left out, let it through, if need be with another inspector for it and all below it, or
put another node with its own kind, attributes and relations in its place. A node that is left out
or replaced is never inspected.

Visitors go by labels, so that a visitor can name the one to use further down.

The graph of nodes is not checked for cycles: a walk that nests deeper than its limit crashes.
-/

namespace TreeProtocol

/-- The way by which a walk comes to a node: a relation, and the attributes of the attachment. -/
structure Edge where
  relation : Relation
  args : Attrs
  deriving Inhabited

/-- What a gate decides about a node. -/
inductive Verdict (W N : Type) where
  /-- Leave the node out. -/
  | skip
  /-- Let the node through; an inspector given here is used for it and all below it. -/
  | proceed (inspector : Option (Inspector W N))
  /-- Visit another node in its place, with the kind, attributes and relations given here; an
  inspector given here is used for it and all below it. -/
  | replace (node : N) (kind : Kind) (attrs : Attrs) (relations : List Relation)
      (inspector : Option (Inspector W N))

/-- What a walk brings back from one relation. -/
inductive Findings (R : Type) where
  /-- For at most one right node: its result, if there is a node and it was not left out. -/
  | single (result : Option R)
  /-- For any number of right nodes: one entry for each, empty where a node was left out. -/
  | sequence (results : List (Option R))
  deriving DecidableEq

namespace Findings

variable {R : Type}

/-- The results that are there, in order. -/
def values : Findings R → List R
  | .single result => result.toList
  | .sequence results => results.filterMap id

/-- The result of a relation with at most one right node. -/
def single? : Findings R → Option R
  | .single result => result
  | .sequence _ => none

/-- The entries of a relation with any number of right nodes. -/
def sequence? : Findings R → Option (List (Option R))
  | .single _ => none
  | .sequence results => some results

end Findings

/-- A node that is visited, and what is known about it. -/
structure Site (W N : Type) where
  /-- How the walk came here; at the root there is no way. -/
  edge : Option Edge
  node : N
  kind : Kind
  relations : List Relation
  attrs : Attrs
  /-- The inspector in use here. -/
  inspector : Inspector W N

/-- Whether a site is the root of its walk. -/
def Site.isRoot {W N : Type} (s : Site W N) : Bool := s.edge.isNone

/-- Descends from a site: into the relations of the given names, or into all of them, and with the
visitor of the given label, or with the current one. -/
abbrev Descent (L W R : Type) := Option (List String) → Option L → Action W (List (Findings R))

/-- What is done at the nodes of a walk. -/
structure Visitor (L W N R : Type) where
  /-- Asked about every node first, with the inspector in use and the way to the node. -/
  gate : Option (Inspector W N → Option Edge → N → Action W (Verdict W N)) := none
  /-- Yields the result for a site. -/
  visit : Site W N → Descent L W R → Action W R

namespace Walk

variable {L W N R : Type}

open TreeProtocol.Action

/-- Visits a node that was reached by an edge, with an inspector and the visitor of a label. -/
abbrev Step (L W N R : Type) := Inspector W N → L → Option Edge → N → Action W (Option R)

/-- Descends into one relation of a site. -/
def intoRelation (step : Step L W N R) (site : Site W N) (label : L) (relation : Relation) :
    Action W (Findings R) := do
  let related ← site.inspector.related relation site.node
  if relation.cardinality.isSequence then
    let results ← forEach
      (fun (node, args) => step site.inspector label (some ⟨relation, args⟩) node) related.pairs
    Action.pure (.sequence results)
  else
    match related.pairs with
    | [] => Action.pure (.single none)
    | [(node, args)] =>
      let result ← step site.inspector label (some ⟨relation, args⟩) node
      Action.pure (.single result)
    | _ => fail (Fault.tooManyReported relation related.size)

/-- Descends into the relation of the given name, or yields an empty sequence if the site has none
of that name. -/
def intoNamed (step : Step L W N R) (site : Site W N) (label : L) (name : String) :
    Action W (Findings R) :=
  match site.relations.find? (·.name == name) with
  | some relation => intoRelation step site label relation
  | none => Action.pure (.sequence [])

/-- The descent from a site that is visited under a label. -/
def descend (step : Step L W N R) (site : Site W N) (label : L) : Descent L W R :=
  fun names other =>
    let label := other.getD label
    match names with
    | none => forEach (intoRelation step site label) site.relations
    | some names => forEach (intoNamed step site label) names

/-- The verdict of a visitor on a node; without a gate every node is let through. -/
def judge (visitor : Visitor L W N R) (inspector : Inspector W N) (edge : Option Edge) (node : N) :
    Action W (Verdict W N) :=
  match visitor.gate with
  | some gate => gate inspector edge node
  | none => Action.pure (.proceed none)

/-- Inspects a node that was let through. -/
def survey (inspector : Inspector W N) (edge : Option Edge) (node : N) : Action W (Site W N) := do
  let kind ← inspector.kind node
  let relations ← inspector.relations node
  let attrs ← inspector.attrs node
  Action.pure ⟨edge, node, kind, relations, attrs, inspector⟩

/-- Has a site visited by a visitor that is given a way to descend from it. -/
def visitWith (visitor : Visitor L W N R) (site : Site W N) (descent : Descent L W R) :
    Action W (Option R) := do
  emit (.nodeVisited site.kind (site.edge.map (·.relation.name)) site.relations.length)
  let result ← visitor.visit site descent
  Action.pure (some result)

/-- Has a site visited by the visitor of a label, with the steps for the nodes below it. -/
def visitSite (visitors : L → Visitor L W N R) (step : Step L W N R) (label : L)
    (site : Site W N) : Action W (Option R) :=
  visitWith (visitors label) site (descend step site label)

/-- Comes to a node, and asks for the verdict on it first. A node that is let through is inspected.
Then `visit` gets its site, or that of the node in its place, with the inspector that came with the
verdict. -/
def arrive (visitor : Visitor L W N R) (inspector : Inspector W N) (edge : Option Edge) (here : N)
    (visit : Option (Inspector W N) → Site W N → Action W (Option R)) : Action W (Option R) := do
  let verdict ← judge visitor inspector edge here
  match verdict with
  | .skip =>
    emit (.nodeSkipped (edge.map (·.relation.name)))
    Action.pure none
  | .proceed supplied =>
    let site ← survey (supplied.getD inspector) edge here
    visit supplied site
  | .replace node kind attrs relations supplied =>
    visit supplied ⟨edge, node, kind, relations, attrs, supplied.getD inspector⟩

/-- One level of a walk, above the levels below it. -/
def level (visitors : L → Visitor L W N R) (below : Step L W N R) : Step L W N R :=
  fun inspector label edge here =>
    arrive (visitors label) inspector edge here fun _ site => visitSite visitors below label site

/-- Visits a node and what the visitors want visited below it, to at most `limit` levels. -/
def node (visitors : L → Visitor L W N R) : (limit : Nat) → Step L W N R
  | 0 => fun _ _ _ _ => crash
  | limit + 1 => level visitors (node visitors limit)

end Walk

/-- Walks from a root: the result for the root, or none if it was left out. -/
def walk {L W N R : Type} (visitors : L → Visitor L W N R) (limit : Nat)
    (inspector : Inspector W N) (label : L) (root : N) : Action W (Option R) :=
  Walk.node visitors limit inspector label none root

end TreeProtocol

import TreeProtocol.Proofs.Walks.Agents

/-!
# Inspectors and visitors in scope

A verdict may come with an inspector, and a descent may be made with another visitor. Both hold for
all that is below, up to the next one. So what is in use at a node can be told from the way down to
it: the inspectors that were supplied and the visitors that were chosen at the nodes above.

* `Hop`, `Path` — what the nodes on the way down have for those below them;
* `Path.inspector`, `Path.label` — what was supplied and what was chosen last;
* `pathLevel`, `pathNode` — walks that hand down nothing but paths;
* `descend_congr` — a descent hands the inspector of its site and one visitor to every right node;
* `pathLevel_eq` — a level of such a walk is a level of the walk itself;
* `walk_by_paths` — so is the whole walk.
-/

namespace TreeProtocol

open TreeProtocol.Action

variable {L W N R α : Type}

/-! ## Paths -/

/-- A node on the way down, and what it has for the nodes below it. -/
structure Hop (L W N : Type) where
  /-- The inspector that came with the verdict on the node. -/
  supplied : Option (Inspector W N)
  /-- The visitor that the descent from the node was made with. -/
  chosen : Option L

/-- The way from the root down to a node, without the node itself. -/
abbrev Path (L W N : Type) := List (Hop L W N)

namespace Path

variable {above below : Path L W N} {hop : Hop L W N}

/-- What the last node that has something has, if there is one. -/
def latest (has : Hop L W N → Option α) (start : α) (path : Path L W N) : α :=
  (path.filterMap has).getLast?.getD start

/-- The inspector that was supplied last; `base` if there was none. -/
def inspector (base : Inspector W N) (path : Path L W N) : Inspector W N :=
  path.latest Hop.supplied base

/-- The visitor that was chosen last; `first` if there was none. -/
def label (first : L) (path : Path L W N) : L := path.latest Hop.chosen first

variable {has : Hop L W N → Option α} {start : α}

/-- **Nothing above counts** where something was supplied or chosen. -/
theorem latest_of_some {a : α} (something : has hop = some a)
    (nothing : ∀ hop ∈ below, has hop = none) :
    latest has start (above ++ hop :: below) = a := by
  rw [latest, List.filterMap_append, List.filterMap_cons, something]
  dsimp only
  rw [List.filterMap_eq_nil_iff.2 nothing, List.getLast?_concat]
  rfl

example : label 0 ([⟨none, some 1⟩, ⟨none, some 2⟩, ⟨none, none⟩] : Path Nat Unit Unit) = 2 := rfl

theorem latest_concat (path : Path L W N) (hop : Hop L W N) :
    latest has start (path ++ [hop]) = (has hop).getD (path.latest has start) := by
  cases something : has hop with
  | none =>
    rw [latest, List.filterMap_append, List.filterMap_cons, something]
    dsimp only
    rw [List.filterMap_nil, List.append_nil]
    rfl
  | some a => exact latest_of_some something (fun _ h => nomatch h)

theorem inspector_concat (base : Inspector W N) (path : Path L W N)
    (supplied : Option (Inspector W N)) (chosen : Option L) :
    inspector base (path ++ [⟨supplied, chosen⟩]) = supplied.getD (path.inspector base) :=
  latest_concat path _

theorem label_concat (first : L) (path : Path L W N) (supplied : Option (Inspector W N))
    (chosen : Option L) :
    label first (path ++ [⟨supplied, chosen⟩]) = chosen.getD (path.label first) :=
  latest_concat path _

end Path

/-! ## Walks by paths -/

namespace Walk

/-- Visits a node that was reached by a path and an edge. -/
abbrev PathStep (L W N R : Type) := Path L W N → Option Edge → N → Action W (Option R)

variable (visitors : L → Visitor L W N R) (base : Inspector W N) (first : L)

/-- Has a site visited by the visitor that was chosen last. To the nodes below it goes the path to
the site with one hop more; the inspector and the label that a descent hands down are left alone. -/
def pathVisit (below : PathStep L W N R) (path : Path L W N) (supplied : Option (Inspector W N))
    (site : Site W N) : Action W (Option R) :=
  visitWith (visitors (path.label first)) site fun names chosen =>
    descend (fun _ _ => below (path ++ [⟨supplied, chosen⟩])) site (path.label first) names chosen

/-- One level of a walk by paths. The gate is that of the visitor chosen last and gets the inspector
supplied last; the node is inspected, and its relations are, with the inspector supplied for the
node itself, or else with the same one. -/
def pathLevel (below : PathStep L W N R) : PathStep L W N R := fun path edge here =>
  arrive (visitors (path.label first)) (path.inspector base) edge here fun supplied site =>
    pathVisit visitors first below path supplied site

/-- Visits a node and what is to be visited below it, to at most `limit` levels, by paths. -/
def pathNode : (limit : Nat) → PathStep L W N R
  | 0 => fun _ _ _ => crash
  | limit + 1 => pathLevel visitors base first (pathNode limit)

variable {visitors base first} {step step' : Step L W N R} {site : Site W N} {label : L}

/-- **What a descent hands down**: it makes no difference what the steps below do with another
inspector than that of the site, or with another visitor than the one that the descent is made
with. -/
theorem descend_congr {other : Option L}
    (same : step site.inspector (other.getD label) = step' site.inspector (other.getD label))
    (names : Option (List String)) :
    descend step site label names other = descend step' site label names other := by
  have into : intoRelation step site (other.getD label) =
      intoRelation step' site (other.getD label) := by
    funext relation
    rw [intoRelation, intoRelation, same]
  have named : intoNamed step site (other.getD label) =
      intoNamed step' site (other.getD label) := by
    funext name
    rw [intoNamed, intoNamed, into]
  cases names with
  | none => exact congrArg (forEach · site.relations) into
  | some names => exact congrArg (forEach · names) named

variable {below : Step L W N R} {pathBelow : PathStep L W N R} {path : Path L W N}

/-- A site has the inspector that it was surveyed with. -/
theorem survey_bind_congr {inspector : Inspector W N} {edge : Option Edge} {here : N}
    {x y : Site W N → Action W α} (same : ∀ site, site.inspector = inspector → x site = y site) :
    (survey inspector edge here >>= x) = survey inspector edge here >>= y := by
  simp only [survey, bind_assoc]
  refine congrArg _ (funext fun kind => congrArg _ (funext fun relations => ?_))
  exact congrArg _ (funext fun attrs => same ⟨edge, here, kind, relations, attrs, inspector⟩ rfl)

/-- A visit by paths is a visit, at a site that has the inspector that was supplied last. -/
theorem pathVisit_eq
    (same : ∀ path, pathBelow path = below (path.inspector base) (path.label first))
    {supplied : Option (Inspector W N)}
    (inspected : site.inspector = supplied.getD (path.inspector base)) :
    pathVisit visitors first pathBelow path supplied site =
      visitSite visitors below (path.label first) site := by
  have descents : (fun names chosen =>
      descend (fun _ _ => pathBelow (path ++ [⟨supplied, chosen⟩])) site (path.label first)
        names chosen) = descend below site (path.label first) := by
    funext names chosen
    apply descend_congr
    rw [same, Path.inspector_concat, Path.label_concat, inspected]
  rw [pathVisit, visitSite, descents]

/-- **A level by paths is a level**, if the levels below are the same. The inspector that a level is
given is the one that was supplied last, its label the one that was chosen last. -/
theorem pathLevel_eq
    (same : ∀ path, pathBelow path = below (path.inspector base) (path.label first))
    (path : Path L W N) :
    pathLevel visitors base first pathBelow path =
      level visitors below (path.inspector base) (path.label first) := by
  funext edge here
  rw [pathLevel, level, arrive, arrive]
  refine congrArg _ (funext fun verdict => ?_)
  cases verdict with
  | skip => rfl
  | proceed supplied =>
    exact survey_bind_congr fun site inspected => pathVisit_eq same inspected
  | replace node kind attrs relations supplied => exact pathVisit_eq same rfl

theorem pathNode_eq (limit : Nat) (path : Path L W N) :
    pathNode visitors base first limit path =
      node visitors limit (path.inspector base) (path.label first) := by
  induction limit generalizing path with
  | zero => rfl
  | succ limit ih => rw [pathNode, node, pathLevel_eq ih]

end Walk

/-- **Scopes**. A walk does what the walk by paths does, from the root and from every node further
down; so at every node the gate gets the inspector that was supplied last on the way to it, the node
is inspected with its own or else with the same, and the visitor is the one that was chosen last on
the way. A hop counts for the nodes below it only, as it is part of no other path. -/
theorem walk_by_paths (visitors : L → Visitor L W N R) (base : Inspector W N) (first : L) :
    (∀ limit root, walk visitors limit base first root =
      Walk.pathNode visitors base first limit [] none root) ∧
    (∀ limit path edge here,
      Walk.node visitors limit (path.inspector base) (path.label first) edge here =
        Walk.pathNode visitors base first limit path edge here) ∧
    (Path.inspector base ([] : Path L W N) = base ∧ Path.label first ([] : Path L W N) = first) ∧
    ∀ (path : Path L W N) (supplied : Option (Inspector W N)) (chosen : Option L),
      Path.inspector base (path ++ [⟨supplied, chosen⟩]) = supplied.getD (path.inspector base) ∧
      Path.label first (path ++ [⟨supplied, chosen⟩]) = chosen.getD (path.label first) := by
  refine ⟨fun limit root => ?_, fun limit path edge here => ?_, ⟨rfl, rfl⟩,
    fun path supplied chosen => ⟨?_, ?_⟩⟩
  · rw [Walk.pathNode_eq]
    rfl
  · rw [Walk.pathNode_eq]
  · exact Path.inspector_concat base path supplied chosen
  · exact Path.label_concat first path supplied chosen

end TreeProtocol

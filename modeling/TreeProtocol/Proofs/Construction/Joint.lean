import TreeProtocol.Construction.Composite
import TreeProtocol.Proofs.Attachments

/-!
# Right nodes that go together

A list of relations with attributes says what is to be attached to one node. What is attached under
a name is judged by what was attached under it before, and by the cardinality that the name was
established with. Taken together this does not speak of steps any more:

* `Relation.Joint`: a name has one relation, and admits all attributes given under it.
* `Attachment.attached_iff`: one more right node is attached exactly if it goes together with those
  that are there.
* `RelationPlan.Compatible`: what plans ask of each other; `compatible_iff` reads it as `Joint`.
* `RelationPlan.compatible_of_nodup`: plans for different relations ask nothing of each other.
-/

namespace TreeProtocol

/-! ## What is asked of one node -/

namespace Relation

variable {xs : List (Relation × Attrs)} {r : Relation} {args : Attrs}

/-- The attributes that are given under a name, in order. -/
def argsUnder (xs : List (Relation × Attrs)) (name : String) : List Attrs :=
  (xs.filter (·.1.name == name)).map (·.2)

/-- A name stands for one relation, and this admits what is given under its name. -/
structure Joint (xs : List (Relation × Attrs)) : Prop where
  same : ∀ x ∈ xs, ∀ y ∈ xs, x.1.name = y.1.name → x.1 = y.1
  admitted : ∀ x ∈ xs, x.1.Admits (argsUnder xs x.1.name)

theorem eq_of_parts {r s : Relation} (name : r.name = s.name)
    (cardinality : r.cardinality = s.cardinality) : r = s := by
  obtain ⟨n, c⟩ := r
  obtain rfl : n = s.name := name
  obtain rfl : c = s.cardinality := cardinality
  rfl

theorem joint_nil : Joint [] where
  same := by simp
  admitted := by simp

theorem admits_nil (r : Relation) : r.Admits [] := (acceptAll_eq_ok_iff r []).1 rfl

theorem argsUnder_concat (name : String) :
    argsUnder (xs ++ [(r, args)]) name =
      argsUnder xs name ++ if r.name = name then [args] else [] := by
  rw [argsUnder, argsUnder, List.filter_append, List.map_append]
  by_cases h : r.name = name <;> simp [h]

theorem argsUnder_eq_nil {name : String} (h : ∀ x ∈ xs, x.1.name ≠ name) :
    argsUnder xs name = [] := by
  have hnone : xs.filter (·.1.name == name) = [] := by
    rw [List.filter_eq_nil_iff]
    exact fun x hx => by simpa using h x hx
  rw [argsUnder, hnone, List.map_nil]

/-- **One more right node**, behind those that go together. -/
theorem joint_concat :
    Joint (xs ++ [(r, args)]) ↔
      Joint xs ∧ (∀ x ∈ xs, x.1.name = r.name → x.1 = r) ∧
        r.accept (argsUnder xs r.name) args = .ok () := by
  constructor
  · intro h
    have hlast : (r, args) ∈ xs ++ [(r, args)] := List.mem_append_right _ List.mem_cons_self
    have hfront : ∀ x ∈ xs, x ∈ xs ++ [(r, args)] := fun x hx => List.mem_append_left _ hx
    refine ⟨⟨?_, ?_⟩, ?_, ?_⟩
    · exact fun x hx y hy => h.same x (hfront x hx) y (hfront y hy)
    · intro x hx
      have hadmitted := h.admitted x (hfront x hx)
      rw [argsUnder_concat] at hadmitted
      split at hadmitted
      · exact ((admits_append _).1 hadmitted).1
      · rwa [List.append_nil] at hadmitted
    · exact fun x hx => h.same x (hfront x hx) (r, args) hlast
    · have hadmitted := h.admitted (r, args) hlast
      rw [argsUnder_concat, if_pos rfl] at hadmitted
      exact ((admits_append _).1 hadmitted).2
  · rintro ⟨h, hsame, haccept⟩
    -- what stands under the name of the new relation was admitted by this very relation
    have hbefore : r.Admits (argsUnder xs r.name) := by
      by_cases hknown : ∃ x ∈ xs, x.1.name = r.name
      · obtain ⟨x, hx, hname⟩ := hknown
        have hadmitted := h.admitted x hx
        rwa [hsame x hx hname] at hadmitted
      · have hnew : ∀ x ∈ xs, x.1.name ≠ r.name := fun x hx hname => hknown ⟨x, hx, hname⟩
        rw [argsUnder_eq_nil hnew]
        exact admits_nil r
    have hafter : r.Admits (argsUnder xs r.name ++ [args]) :=
      (admits_append _).2 ⟨hbefore, haccept⟩
    constructor
    · intro x hx y hy hname
      rcases List.mem_append.1 hx with hx | hx <;> rcases List.mem_append.1 hy with hy | hy
      · exact h.same x hx y hy hname
      · rw [List.mem_singleton.1 hy] at hname ⊢
        exact hsame x hx hname
      · rw [List.mem_singleton.1 hx] at hname ⊢
        exact (hsame y hy hname.symm).symm
      · rw [List.mem_singleton.1 hx, List.mem_singleton.1 hy]
    · intro x hx
      rw [argsUnder_concat]
      rcases List.mem_append.1 hx with hx | hx
      · split
        · rename_i hname
          rw [hsame x hx hname.symm]
          exact hafter
        · rw [List.append_nil]
          exact h.admitted x hx
      · rw [List.mem_singleton.1 hx, if_pos rfl]
        exact hafter

/-- What comes first goes together by itself. -/
theorem Joint.of_append {ys : List (Relation × Attrs)} (h : Joint (xs ++ ys)) : Joint xs := by
  induction ys using List.reverseRecOn with
  | nil => rwa [List.append_nil] at h
  | append_singleton ys y ih =>
    rw [← List.append_assoc] at h
    exact ih (joint_concat.1 h).1

theorem mem_of_mem_firstNamed {rs : List Relation} (h : r ∈ firstNamed rs) : r ∈ rs := by
  induction rs with
  | nil => exact h
  | cons q more ih =>
    rw [firstNamed] at h
    rcases List.mem_cons.1 h with rfl | h
    · exact List.mem_cons_self
    · exact List.mem_cons_of_mem _ (ih (List.mem_filter.1 h).1)

end Relation

/-! ## Attaching, once more -/

/-- A right node is attached if it joins every bundle of its name, and starts one if there is
none. -/
theorem Bundle.exists_attached {N : Type} {relation : Relation} {args : Attrs} (right : N)
    {bundles : List (Bundle N)}
    (joins : ∀ b ∈ bundles, b.relation.name = relation.name →
      b.relation = relation ∧ relation.accept (b.rights.map (·.2)) args = .ok ())
    (starts : (∀ b ∈ bundles, b.relation.name ≠ relation.name) →
      relation.accept [] args = .ok ()) :
    ∃ next, Attached relation right args bundles next := by
  induction bundles with
  | nil => exact ⟨_, .started (by simp) (starts (by simp))⟩
  | cons b more ih =>
    obtain ⟨hb, hmore⟩ := List.forall_mem_cons.1 joins
    by_cases hname : b.relation.name = relation.name
    · obtain ⟨hrelation, haccept⟩ := hb hname
      obtain ⟨r, rights⟩ := b
      obtain rfl : r = relation := hrelation
      have hjoined : Attached r right args ([] ++ ⟨r, rights⟩ :: more)
          ([] ++ ⟨r, rights ++ [(right, args)]⟩ :: more) := .joined (by simp) haccept
      exact ⟨_, hjoined⟩
    · have hstarts : (∀ b ∈ more, b.relation.name ≠ relation.name) →
          relation.accept [] args = .ok () :=
        fun hnew => starts (List.forall_mem_cons.2 ⟨hname, hnew⟩)
      obtain ⟨next, hnext⟩ := ih hmore hstarts
      exact ⟨b :: next, hnext.cons hname⟩

namespace Attachment

variable {N : Type} {log : List (Attachment N)} {relation : Relation} {right : N} {args : Attrs}

/-- What was asked of the node. -/
def demands (log : List (Attachment N)) : List (Relation × Attrs) :=
  log.map fun x => (x.relation, x.args)

theorem args_under (log : List (Attachment N)) (name : String) :
    (under log name).map (·.2) = Relation.argsUnder (demands log) name := by
  rw [under, Relation.argsUnder, demands, List.filter_map, List.map_map, List.map_map]
  rfl

/-- The relation of a bundle was asked for, and so was all that is in it. -/
theorem of_mem_bundles {b : Bundle N} (hb : b ∈ bundles log) :
    (∃ x ∈ demands log, x.1 = b.relation) ∧
      b.rights.map (·.2) = Relation.argsUnder (demands log) b.relation.name := by
  obtain ⟨r, hr, rfl⟩ := List.mem_map.1 hb
  obtain ⟨x, hx, rfl⟩ := List.mem_map.1 (Relation.mem_of_mem_firstNamed hr)
  exact ⟨⟨_, List.mem_map_of_mem hx, rfl⟩, args_under log x.relation.name⟩

/-- A name that was asked for has a bundle. -/
theorem exists_mem_bundles {x : Relation × Attrs} (hx : x ∈ demands log) :
    ∃ b ∈ bundles log, b.relation.name = x.1.name := by
  obtain ⟨a, ha, rfl⟩ := List.mem_map.1 hx
  have hrelation : ∃ r ∈ log.map (·.relation), r.name = a.relation.name :=
    ⟨a.relation, List.mem_map_of_mem ha, rfl⟩
  obtain ⟨r, hr, hname⟩ := Relation.name_mem_firstNamed.2 hrelation
  exact ⟨_, List.mem_map_of_mem hr, hname⟩

/-- **A right node is attached** to what goes together exactly if it goes together with that. -/
theorem attached_iff (joint : Relation.Joint (demands log)) :
    (∃ next, Bundle.Attached relation right args (bundles log) next) ↔
      Relation.Joint (demands log ++ [(relation, args)]) := by
  rw [Relation.joint_concat]
  constructor
  · rintro ⟨next, attached⟩
    refine ⟨joint, ?_⟩
    generalize hbundles : bundles log = old at attached
    cases attached with
    | @joined before after rights others accepted =>
      have hmem : ⟨relation, rights⟩ ∈ bundles log := by
        rw [hbundles]
        exact List.mem_append_right _ List.mem_cons_self
      obtain ⟨⟨y, hy, hyrelation⟩, hargs⟩ := of_mem_bundles hmem
      constructor
      · intro x hx hname
        rw [← show y.1 = relation from hyrelation] at hname ⊢
        exact joint.same x hx y hy hname
      · rw [← hargs]
        exact accepted
    | started others accepted =>
      have hnew : ∀ x ∈ demands log, x.1.name ≠ relation.name := by
        intro x hx
        obtain ⟨b, hb, hname⟩ := exists_mem_bundles hx
        rw [hbundles] at hb
        rw [← hname]
        exact others b hb
      constructor
      · exact fun x hx hname => absurd hname (hnew x hx)
      · rw [Relation.argsUnder_eq_nil hnew]
        exact accepted
  · rintro ⟨-, hsame, haccept⟩
    apply Bundle.exists_attached right
    · intro b hb hname
      obtain ⟨⟨x, hx, hrelation⟩, hargs⟩ := of_mem_bundles hb
      rw [hargs, hname]
      rw [← hrelation] at hname ⊢
      exact ⟨hsame x hx hname, haccept⟩
    · intro hnone
      have hnew : ∀ x ∈ demands log, x.1.name ≠ relation.name := by
        intro x hx
        obtain ⟨b, hb, hname⟩ := exists_mem_bundles hx
        rw [← hname]
        exact hnone b hb
      rwa [Relation.argsUnder_eq_nil hnew] at haccept

end Attachment

/-! ## Plans -/

namespace RelationPlan

variable {W N : Type} {plans : List (RelationPlan W N)}

/-- The relation attributes of all right nodes that are planned under a name, in order. -/
def argsUnder (plans : List (RelationPlan W N)) (name : String) : List Attrs :=
  (plans.filter (·.relation.name == name)).flatMap fun p => p.rights.map (·.args)

/-- Of the plans that have right nodes, those of one name have one cardinality, and it admits the
right nodes of all of them together. -/
def Compatible (plans : List (RelationPlan W N)) : Prop :=
  ∀ p ∈ plans, p.isEmpty = false →
    (∀ q ∈ plans, q.isEmpty = false → q.relation.name = p.relation.name →
      q.relation.cardinality = p.relation.cardinality) ∧
    p.relation.Admits (argsUnder plans p.relation.name)

/-- What the plans ask of the node. -/
def demands (plans : List (RelationPlan W N)) : List (Relation × Attrs) :=
  plans.flatMap fun p => p.rights.map fun right => (p.relation, right.args)

theorem argsUnder_demands (plans : List (RelationPlan W N)) (name : String) :
    Relation.argsUnder (demands plans) name = argsUnder plans name := by
  rw [Relation.argsUnder, demands, argsUnder]
  induction plans with
  | nil => rfl
  | cons p more ih =>
    rw [List.flatMap_cons, List.filter_append, List.map_append, ih, List.filter_cons,
      List.filter_map, List.map_map]
    by_cases h : p.relation.name = name
    · simp [h, Function.comp_def]
    · simp [h, Function.comp_def]

/-- The relations that are asked for are those of the plans that have right nodes. -/
theorem mem_demands {r : Relation} :
    (∃ x ∈ demands plans, x.1 = r) ↔ ∃ p ∈ plans, p.isEmpty = false ∧ p.relation = r := by
  constructor
  · rintro ⟨x, hx, rfl⟩
    obtain ⟨p, hp, hright⟩ := List.mem_flatMap.1 hx
    obtain ⟨right, hmem, rfl⟩ := List.mem_map.1 hright
    have hfull : p.isEmpty = false := by
      rw [isEmpty, List.isEmpty_eq_false_iff]
      exact List.ne_nil_of_mem hmem
    exact ⟨p, hp, hfull, rfl⟩
  · rintro ⟨p, hp, hfull, rfl⟩
    rw [isEmpty, List.isEmpty_eq_false_iff] at hfull
    obtain ⟨right, hmem⟩ := List.exists_mem_of_ne_nil _ hfull
    exact ⟨(p.relation, right.args),
      List.mem_flatMap.2 ⟨p, hp, List.mem_map_of_mem hmem⟩, rfl⟩

/-- **Plans are compatible** exactly if what they ask goes together. -/
theorem compatible_iff : Compatible plans ↔ Relation.Joint (demands plans) := by
  constructor
  · intro h
    constructor
    · intro x hx y hy hname
      obtain ⟨p, hp, hpfull, hpx⟩ := mem_demands.1 ⟨x, hx, rfl⟩
      obtain ⟨q, hq, hqfull, hqy⟩ := mem_demands.1 ⟨y, hy, rfl⟩
      rw [← hpx, ← hqy] at hname ⊢
      exact Relation.eq_of_parts hname ((h q hq hqfull).1 p hp hpfull hname)
    · intro x hx
      obtain ⟨p, hp, hpfull, hpx⟩ := mem_demands.1 ⟨x, hx, rfl⟩
      rw [argsUnder_demands, ← hpx]
      exact (h p hp hpfull).2
  · intro h p hp hpfull
    obtain ⟨x, hx, hxp⟩ := mem_demands.2 ⟨p, hp, hpfull, rfl⟩
    constructor
    · intro q hq hqfull hname
      obtain ⟨y, hy, hyq⟩ := mem_demands.2 ⟨q, hq, hqfull, rfl⟩
      rw [← hxp, ← hyq] at hname ⊢
      rw [h.same y hy x hx hname]
    · have hadmitted := h.admitted x hx
      rwa [argsUnder_demands, hxp] at hadmitted

/-- A plan that passes its own check has right nodes that its relation admits. -/
theorem admits_of_check {p : RelationPlan W N} (h : p.check = .ok ()) :
    p.relation.Admits (p.rights.map (·.args)) := by
  rw [check] at h
  cases hr : p.relation.cardinality with
  | many => simp [Relation.Admits, hr]
  | keyed key =>
    rw [hr] at h
    exact (Relation.acceptAll_eq_ok_iff _ _).1 h
  | one =>
    rw [hr] at h
    have hsize : p.size = 1 := by
      by_contra hne
      simp [hne] at h
    simpa [Relation.Admits, hr, size] using hsize.le
  | optional =>
    rw [hr] at h
    have hsize : p.size ≤ 1 := by
      by_contra hne
      simp [hne] at h
    simpa [Relation.Admits, hr, size] using hsize

/-- With distinct names a plan is the only one of its name. -/
theorem filter_name (names : (plans.map (·.relation.name)).Nodup) {p : RelationPlan W N}
    (hp : p ∈ plans) : plans.filter (·.relation.name == p.relation.name) = [p] := by
  induction plans with
  | nil => cases hp
  | cons q more ih =>
    rw [List.map_cons, List.nodup_cons] at names
    have hother : ∀ o ∈ more, o.relation.name ≠ q.relation.name := by
      intro o ho heq
      exact names.1 (List.mem_map.2 ⟨o, ho, heq⟩)
    rcases List.mem_cons.1 hp with rfl | hmore
    · have hnone : more.filter (·.relation.name == p.relation.name) = [] := by
        rw [List.filter_eq_nil_iff]
        exact fun o ho => by simpa using hother o ho
      rw [List.filter_cons_of_pos (by simp), hnone]
    · rw [List.filter_cons_of_neg (by simpa using (hother p hmore).symm), ih names.2 hmore]

/-- **Plans for different relations** are compatible if each is right by itself. -/
theorem compatible_of_nodup (names : (plans.map (·.relation.name)).Nodup)
    (checked : ∀ p ∈ plans, p.check = .ok ()) : Compatible plans := by
  intro p hp _
  have hsame : ∀ q ∈ plans, q.relation.name = p.relation.name → q = p :=
    fun q hq hname => List.inj_on_of_nodup_map names hq hp hname
  constructor
  · intro q hq _ hname
    rw [hsame q hq hname]
  · rw [argsUnder, filter_name names hp, List.flatMap_singleton]
    exact admits_of_check (checked p hp)

end RelationPlan

end TreeProtocol

import TreeProtocol.Bundle

/-!
# The bundles of a node

What `Bundle.attach` does when it accepts a right node (`Attached`), and the representation
invariant that it keeps (`WellFormed`): relation names differ, no bundle is empty, and the relation
attributes of every bundle could have been accepted one after the other.

* `attach_eq_ok_iff` — an accepted right node joins the bundle of its relation or starts a new one;
* `Attached.wellFormed` — the invariant is kept;
* `rightsUnder_length` — under the invariant, counting the right nodes of a name by its first bundle
  counts all of them.
-/

namespace TreeProtocol

/-- With distinct keys, every member of a list is found by its key. -/
theorem find?_of_nodup {α : Type} {key : α → String} {xs : List α} (h : (xs.map key).Nodup) {x : α}
    (hx : x ∈ xs) : xs.find? (key · == key x) = some x := by
  induction xs with
  | nil => cases hx
  | cons y more ih =>
    rw [List.map_cons, List.nodup_cons] at h
    rw [List.find?_cons]
    rcases List.mem_cons.1 hx with rfl | hmem
    · simp
    · have hne : (key y == key x) = false := by
        rw [beq_eq_false_iff_ne]
        intro heq
        exact h.1 (List.mem_map.2 ⟨x, hmem, heq.symm⟩)
      rw [hne]
      exact ih h.2 hmem

/-! ## Accepting several right nodes -/

namespace Relation

theorem acceptAll_cons (r : Relation) (existing more : List Attrs) (args : Attrs) :
    r.acceptAll existing (args :: more) = .ok () ↔
      r.accept existing args = .ok () ∧ r.acceptAll (existing ++ [args]) more = .ok () := by
  rw [acceptAll]
  cases r.accept existing args <;> simp

/-- The first that is refused decides. -/
theorem acceptAll_append_cons (r : Relation) (existing xs ys : List Attrs) (y : Attrs) :
    r.acceptAll existing (xs ++ y :: ys) =
      match r.acceptAll existing xs with
      | .error e => .error e
      | .ok () =>
        match r.accept (existing ++ xs) y with
        | .error e => .error e
        | .ok () => r.acceptAll (existing ++ xs ++ [y]) ys := by
  induction xs generalizing existing with
  | nil =>
    cases haccept : r.accept existing y with
    | error e => simp only [List.nil_append, List.append_nil, acceptAll, haccept]
    | ok u => simp only [List.nil_append, List.append_nil, acceptAll, haccept]
  | cons x xs ih =>
    rw [List.cons_append, acceptAll, acceptAll]
    cases r.accept existing x with
    | error e => rfl
    | ok u =>
      dsimp only
      rw [ih, List.append_assoc, List.singleton_append]

theorem acceptAll_append (r : Relation) (existing xs : List Attrs) (args : Attrs) :
    r.acceptAll existing (xs ++ [args]) = .ok () ↔
      r.acceptAll existing xs = .ok () ∧ r.accept (existing ++ xs) args = .ok () := by
  rw [acceptAll_append_cons]
  cases r.acceptAll existing xs with
  | error e => simp
  | ok u => cases r.accept (existing ++ xs) args <;> simp [acceptAll]

/-- A relation for one right node accepts nothing behind another one. -/
theorem accept_single_append {r : Relation} (hr : r.cardinality = .one ∨ r.cardinality = .optional)
    (existing : List Attrs) (x y : Attrs) : ¬ r.accept (existing ++ [x]) y = .ok () := by
  intro h
  have hok := accept_single hr (existing ++ [x]) y
  rw [h] at hok
  cases existing <;> cases hok

theorem acceptAll_single {r : Relation} (hr : r.cardinality = .one ∨ r.cardinality = .optional)
    {xs : List Attrs} (h : r.acceptAll [] xs = .ok ()) : xs.length ≤ 1 := by
  cases xs with
  | nil => exact Nat.zero_le 1
  | cons x more =>
    cases more with
    | nil => exact Nat.le_refl 1
    | cons y more =>
      obtain ⟨-, hmore⟩ := (r.acceptAll_cons ..).1 h
      obtain ⟨hsecond, -⟩ := (r.acceptAll_cons ..).1 hmore
      exact absurd hsecond (accept_single_append hr [] x y)

end Relation

namespace Bundle

variable {N : Type} {relation : Relation} {right : N} {args : Attrs}

/-! ## Attaching a right node -/

/-- What the bundles become when a right node is attached: it joins the bundle of its relation,
which must then have been established with the same cardinality, or it starts a bundle. -/
inductive Attached (relation : Relation) (right : N) (args : Attrs) :
    List (Bundle N) → List (Bundle N) → Prop
  | joined {before after : List (Bundle N)} {rights : List (N × Attrs)}
      (others : ∀ b ∈ before, b.relation.name ≠ relation.name)
      (accepted : relation.accept (rights.map (·.2)) args = .ok ()) :
      Attached relation right args (before ++ ⟨relation, rights⟩ :: after)
        (before ++ ⟨relation, rights ++ [(right, args)]⟩ :: after)
  | started {bundles : List (Bundle N)}
      (others : ∀ b ∈ bundles, b.relation.name ≠ relation.name)
      (accepted : relation.accept [] args = .ok ()) :
      Attached relation right args bundles (bundles ++ [⟨relation, [(right, args)]⟩])

/-- A bundle in front with another name does not matter. -/
theorem Attached.cons {bundles next : List (Bundle N)}
    (h : Attached relation right args bundles next) {b : Bundle N}
    (hb : b.relation.name ≠ relation.name) :
    Attached relation right args (b :: bundles) (b :: next) := by
  cases h with
  | @joined before after rights others accepted =>
    have hall : ∀ o ∈ b :: before, o.relation.name ≠ relation.name :=
      List.forall_mem_cons.2 ⟨hb, others⟩
    exact Attached.joined hall accepted
  | started others accepted =>
    exact Attached.started (List.forall_mem_cons.2 ⟨hb, others⟩) accepted

theorem attach_attached {span : Option Span} {bundles next : List (Bundle N)}
    (h : attach relation right args span bundles = .ok next) :
    Attached relation right args bundles next := by
  induction bundles generalizing next with
  | nil =>
    rw [attach, start] at h
    cases haccept : relation.accept [] args with
    | error e =>
      rw [haccept] at h
      exact nomatch h
    | ok u =>
      rw [haccept] at h
      rw [← Except.ok.inj h]
      exact Attached.started (fun b hb => nomatch hb) haccept
  | cons b more ih =>
    rw [attach] at h
    split at h
    · rename_i hname
      rw [extend] at h
      split at h
      · rename_i hcard
        cases haccept : relation.accept (b.rights.map (·.2)) args with
        | error e =>
          rw [haccept] at h
          exact nomatch h
        | ok u =>
          rw [haccept] at h
          rw [← Except.ok.inj h]
          obtain ⟨⟨name, cardinality⟩, rights⟩ := b
          obtain rfl : name = relation.name := hname
          obtain rfl : cardinality = relation.cardinality := hcard
          have hnone : ∀ o ∈ ([] : List (Bundle N)), o.relation.name ≠ relation.name :=
            fun o ho => nomatch ho
          exact Attached.joined hnone haccept
      · exact nomatch h
    · rename_i hname
      cases hrest : attach relation right args span more with
      | error e =>
        rw [hrest] at h
        exact nomatch h
      | ok rest =>
        rw [hrest] at h
        rw [← Except.ok.inj h]
        exact (ih hrest).cons hname

theorem start_eq_ok (h : relation.accept [] args = .ok ()) :
    start relation right args = .ok ⟨relation, [(right, args)]⟩ := by
  rw [start, h]

theorem extend_eq_ok {rights : List (N × Attrs)} {span : Option Span}
    (h : relation.accept (rights.map (·.2)) args = .ok ()) :
    extend ⟨relation, rights⟩ relation right args span =
      .ok ⟨relation, rights ++ [(right, args)]⟩ := by
  rw [extend, if_pos rfl]
  dsimp only
  rw [h]

/-- Bundles of other names are passed by. -/
theorem attach_append_of_ne {before : List (Bundle N)}
    (others : ∀ b ∈ before, b.relation.name ≠ relation.name) (span : Option Span)
    (rest : List (Bundle N)) :
    attach relation right args span (before ++ rest) =
      (attach relation right args span rest).map (before ++ ·) := by
  induction before with
  | nil =>
    rw [List.nil_append]
    cases attach relation right args span rest <;> rfl
  | cons b before ih =>
    obtain ⟨hb, hmore⟩ := List.forall_mem_cons.1 others
    rw [List.cons_append, attach, if_neg hb, ih hmore]
    cases attach relation right args span rest <;> rfl

theorem attach_of_there {before after : List (Bundle N)} {b : Bundle N}
    (others : ∀ b ∈ before, b.relation.name ≠ relation.name) (hb : b.relation.name = relation.name)
    (span : Option Span) :
    attach relation right args span (before ++ b :: after) =
      (b.extend relation right args span).map fun b => before ++ b :: after := by
  rw [attach_append_of_ne others, attach, if_pos hb]
  cases b.extend relation right args span <;> rfl

theorem attach_of_new {bundles : List (Bundle N)}
    (others : ∀ b ∈ bundles, b.relation.name ≠ relation.name) (span : Option Span) :
    attach relation right args span bundles =
      (start relation right args).map fun b => bundles ++ [b] := by
  have past : attach relation right args span (bundles ++ []) = _ :=
    attach_append_of_ne others span []
  rw [List.append_nil] at past
  rw [past, attach]
  cases start relation right args <;> rfl

theorem Attached.attach_eq {span : Option Span} {bundles next : List (Bundle N)}
    (h : Attached relation right args bundles next) :
    attach relation right args span bundles = .ok next := by
  cases h with
  | joined others accepted =>
    rw [attach_of_there others rfl, extend_eq_ok accepted]
    rfl
  | started others accepted =>
    rw [attach_of_new others, start_eq_ok accepted]
    rfl

/-- **What attaching does**, exactly. -/
theorem attach_eq_ok_iff (span : Option Span) {bundles next : List (Bundle N)} :
    attach relation right args span bundles = .ok next ↔
      Attached relation right args bundles next :=
  ⟨attach_attached, Attached.attach_eq⟩

/-- A right node that is there afterwards was there before or is the one that was attached. -/
theorem Attached.mem {bundles next : List (Bundle N)}
    (h : Attached relation right args bundles next) {b : Bundle N} (hb : b ∈ next)
    {r : N × Attrs} (hr : r ∈ b.rights) : (∃ b' ∈ bundles, r ∈ b'.rights) ∨ r = (right, args) := by
  cases h with
  | @joined before after rights others accepted =>
    rcases List.mem_append.1 hb with hbefore | hrest
    · exact .inl ⟨b, List.mem_append_left _ hbefore, hr⟩
    · rcases List.mem_cons.1 hrest with rfl | hafter
      · rcases List.mem_append.1 hr with hold | hnew
        · exact .inl ⟨⟨relation, rights⟩, List.mem_append_right _ List.mem_cons_self, hold⟩
        · exact .inr (List.mem_singleton.1 hnew)
      · exact .inl ⟨b, List.mem_append_right _ (List.mem_cons_of_mem _ hafter), hr⟩
  | started others accepted =>
    rcases List.mem_append.1 hb with hold | hnew
    · exact .inl ⟨b, hold, hr⟩
    · rw [List.mem_singleton.1 hnew] at hr
      exact .inr (List.mem_singleton.1 hr)

/-- A relation that is there afterwards was there before or is the one that was attached. -/
theorem Attached.relation_mem {bundles next : List (Bundle N)}
    (h : Attached relation right args bundles next) {b : Bundle N} (hb : b ∈ next) :
    (∃ b' ∈ bundles, b'.relation = b.relation) ∨ b.relation = relation := by
  cases h with
  | joined others accepted =>
    rcases List.mem_append.1 hb with hbefore | hrest
    · exact .inl ⟨b, List.mem_append_left _ hbefore, rfl⟩
    · rcases List.mem_cons.1 hrest with rfl | hafter
      · exact .inr rfl
      · exact .inl ⟨b, List.mem_append_right _ (List.mem_cons_of_mem _ hafter), rfl⟩
  | started others accepted =>
    rcases List.mem_append.1 hb with hold | hnew
    · exact .inl ⟨b, hold, rfl⟩
    · rw [List.mem_singleton.1 hnew]
      exact .inr rfl

/-! ## The representation invariant -/

/-- Bundles as construction makes them. -/
structure WellFormed (bundles : List (Bundle N)) : Prop where
  names : (bundles.map (·.relation.name)).Nodup
  filled : ∀ b ∈ bundles, b.rights ≠ []
  accepted : ∀ b ∈ bundles, b.relation.acceptAll [] (b.rights.map (·.2)) = .ok ()

theorem wellFormed_nil : WellFormed ([] : List (Bundle N)) where
  names := List.nodup_nil
  filled := fun _ hb => nomatch hb
  accepted := fun _ hb => nomatch hb

/-- **Attaching keeps the invariant.** -/
theorem Attached.wellFormed {bundles next : List (Bundle N)}
    (h : Attached relation right args bundles next) (hw : WellFormed bundles) :
    WellFormed next := by
  cases h with
  | @joined before after rights others accepted =>
    have hold : relation.acceptAll [] (rights.map (·.2)) = .ok () :=
      hw.accepted ⟨relation, rights⟩ (List.mem_append_right _ List.mem_cons_self)
    refine ⟨?_, ?_, ?_⟩
    · have hnames := hw.names
      rw [List.map_append, List.map_cons] at hnames ⊢
      exact hnames
    · intro b hb
      rcases List.mem_append.1 hb with hbefore | hrest
      · exact hw.filled b (List.mem_append_left _ hbefore)
      · rcases List.mem_cons.1 hrest with rfl | hafter
        · exact List.append_ne_nil_of_right_ne_nil _ (List.cons_ne_nil _ _)
        · exact hw.filled b (List.mem_append_right _ (List.mem_cons_of_mem _ hafter))
    · intro b hb
      rcases List.mem_append.1 hb with hbefore | hrest
      · exact hw.accepted b (List.mem_append_left _ hbefore)
      · rcases List.mem_cons.1 hrest with rfl | hafter
        · rw [List.map_append]
          exact (relation.acceptAll_append [] _ args).2 ⟨hold, accepted⟩
        · exact hw.accepted b (List.mem_append_right _ (List.mem_cons_of_mem _ hafter))
  | started others accepted =>
    refine ⟨?_, ?_, ?_⟩
    · rw [List.map_append]
      refine List.nodup_append.2 ⟨hw.names, List.pairwise_singleton _ _, ?_⟩
      intro name hname other hother
      obtain ⟨b, hb, rfl⟩ := List.mem_map.1 hname
      rw [List.mem_singleton.1 hother]
      exact others b hb
    · intro b hb
      rcases List.mem_append.1 hb with hold | hnew
      · exact hw.filled b hold
      · rw [List.mem_singleton.1 hnew]
        exact List.cons_ne_nil _ _
    · intro b hb
      rcases List.mem_append.1 hb with hold | hnew
      · exact hw.accepted b hold
      · rw [List.mem_singleton.1 hnew]
        show relation.acceptAll [] [args] = .ok ()
        exact (relation.acceptAll_append [] [] args).2 ⟨rfl, accepted⟩

/-! ## All right nodes of a name -/

/-- The right nodes of all bundles of a name. -/
def rightsUnder (bundles : List (Bundle N)) (name : String) : List (N × Attrs) :=
  (bundles.filter (·.relation.name == name)).flatMap (·.rights)

theorem find?_mem {bundles : List (Bundle N)} {name : String} {b : Bundle N}
    (h : find? bundles name = some b) : b ∈ bundles ∧ b.relation.name = name :=
  ⟨List.mem_of_find?_eq_some h, by simpa using List.find?_some h⟩

/-- With distinct names, every bundle is found by its name. -/
theorem find?_of_mem {bundles : List (Bundle N)} (h : (bundles.map (·.relation.name)).Nodup)
    {b : Bundle N} (hb : b ∈ bundles) : find? bundles b.relation.name = some b :=
  find?_of_nodup h hb

/-- With distinct names, the first bundle of a name is the only one. -/
theorem filter_eq_find? {bundles : List (Bundle N)}
    (h : (bundles.map (·.relation.name)).Nodup) (name : String) :
    bundles.filter (·.relation.name == name) = (find? bundles name).toList := by
  induction bundles with
  | nil => rfl
  | cons b more ih =>
    rw [List.map_cons, List.nodup_cons] at h
    rw [find?, List.find?_cons]
    by_cases hb : b.relation.name = name
    · have hnone : more.filter (·.relation.name == name) = [] := by
        rw [List.filter_eq_nil_iff]
        intro o ho heq
        refine h.1 (List.mem_map.2 ⟨o, ho, ?_⟩)
        rw [hb]
        exact eq_of_beq heq
      rw [List.filter_cons_of_pos (by simpa using hb), hnone]
      simp only [hb, beq_self_eq_true, Option.toList_some]
    · have hne : (b.relation.name == name) = false := by simpa using hb
      rw [List.filter_cons_of_neg (by simp [hb]), ih h.2, hne, find?]

theorem WellFormed.rightsUnder_length {bundles : List (Bundle N)} (h : WellFormed bundles)
    (name : String) : (rightsUnder bundles name).length = count bundles name := by
  rw [rightsUnder, filter_eq_find? h.names, count]
  cases find? bundles name with
  | none => rfl
  | some b =>
    rw [Option.toList_some, List.flatMap_singleton]
    rfl

end Bundle

end TreeProtocol

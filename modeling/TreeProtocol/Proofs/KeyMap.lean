import TreeProtocol.KeyMap

/-!
# Maps in key order: membership and runs of updates

What a map answers is what its entries say (`find?_eq_some_iff`), a map made from a sorted list has
that list for its entries (`entries_ofList`), one made from entries under different keys has these
entries in another order (`ofList_perm`), and two loops over the entries of a map are read off the
map itself:

* `foldl_set_getElem?` — writing all entries into a list puts each value at the position that its
  key names, and leaves the other positions alone;
* `foldl_insertIfNew_find?` — taking over the entries below a limit, where nothing is bound yet.
-/

namespace TreeProtocol.KeyMap

variable {K V : Type} [Ord K]

/-- In a sorted list the entries behind the first one have other keys than it. -/
theorem findEntry_of_head {k : K} {v : V} {rest : List (K × V)}
    (h : ((k, v) :: rest).Pairwise fun a b => compare a.1 b.1 = .lt) : findEntry k rest = none :=
  findEntry_eq_none (List.pairwise_cons.1 h).1

variable [Std.LawfulEqOrd K]

theorem findEntry_mem {k : K} {v : V} {es : List (K × V)} (h : findEntry k es = some v) :
    (k, v) ∈ es := by
  induction es with
  | nil => simp [findEntry] at h
  | cons p rest ih =>
    obtain ⟨l, w⟩ := p
    rw [findEntry] at h
    split at h
    · rename_i heq
      have hk : k = l := Std.LawfulEqOrd.eq_of_compare heq
      rw [hk, ← Option.some.inj h]
      exact List.mem_cons_self
    · exact List.mem_cons_of_mem _ (ih h)

theorem findEntry_of_mem {k : K} {v : V} {es : List (K × V)}
    (hs : es.Pairwise fun a b => compare a.1 b.1 = .lt) (h : (k, v) ∈ es) :
    findEntry k es = some v := by
  induction es with
  | nil => exact absurd h List.not_mem_nil
  | cons p rest ih =>
    obtain ⟨l, w⟩ := p
    rw [findEntry]
    rcases List.mem_cons.1 h with heq | hrest
    · rw [if_pos (by rw [(Prod.mk.inj heq).1]; exact Std.ReflOrd.compare_self),
        (Prod.mk.inj heq).2]
    · have hlt : compare l k = .lt := (List.pairwise_cons.1 hs).1 _ hrest
      have hne : compare k l ≠ .eq := by
        intro heq
        rw [Std.LawfulEqOrd.eq_of_compare heq, Std.ReflOrd.compare_self] at hlt
        exact Ordering.noConfusion hlt
      rw [if_neg hne]
      exact ih (List.pairwise_cons.1 hs).2 hrest

/-- Putting an entry at its place only adds it, if its key is new. -/
theorem insertEntry_perm {k : K} {v : V} {es : List (K × V)} (h : ∀ e ∈ es, e.1 ≠ k) :
    (insertEntry k v es).Perm ((k, v) :: es) := by
  induction es with
  | nil => rfl
  | cons p rest ih =>
    obtain ⟨hp, hrest⟩ := List.forall_mem_cons.1 h
    simp only [insertEntry]
    split
    · rfl
    · rename_i heq
      exact absurd (Std.LawfulEqOrd.eq_of_compare heq).symm hp
    · exact ((ih hrest).cons p).trans (List.Perm.swap (k, v) p rest)

/-- **The answers of a map are its entries.** -/
theorem find?_eq_some_iff (m : KeyMap K V) (k : K) (v : V) :
    m.find? k = some v ↔ (k, v) ∈ m.entries :=
  ⟨findEntry_mem, findEntry_of_mem m.sorted⟩

/-- Bindings of different keys may be made in either order. -/
theorem insertIfNew_comm [Std.TransOrd K] [DecidableEq K] {k l : K} (h : k ≠ l) (m : KeyMap K V)
    (v w : V) :
    (m.insertIfNew l w).insertIfNew k v = (m.insertIfNew k v).insertIfNew l w := by
  apply ext_find?
  intro j
  simp only [find?_insertIfNew, if_neg h, if_neg (Ne.symm h)]
  by_cases hk : k = j
  · rw [if_pos hk, if_neg fun hl => h (hk.trans hl.symm), if_pos hk]
  · rw [if_neg hk, if_neg hk]

/-! ### Maps from lists -/

section Lists

variable [Std.TransOrd K]

/-- Of sorted entries no two are under one key, so all of them are found. -/
theorem foldl_insert_find? [DecidableEq K] {es : List (K × V)}
    (hs : es.Pairwise fun a b => compare a.1 b.1 = .lt) (m : KeyMap K V) (k : K) :
    (es.foldl (fun m e => m.insert e.1 e.2) m).find? k = (findEntry k es).or (m.find? k) := by
  induction es generalizing m with
  | nil => simp [findEntry]
  | cons p rest ih =>
    obtain ⟨l, v⟩ := p
    rw [List.foldl_cons, ih (List.pairwise_cons.1 hs).2, find?_insert, findEntry]
    by_cases hk : l = k
    · subst hk
      have hnone : findEntry l rest = none := findEntry_of_head hs
      simp [hnone]
    · rw [if_neg hk, if_neg (show ¬ compare k l = .eq by simpa using Ne.symm hk)]

/-- A map is made from its entries. -/
theorem ofList_entries [DecidableEq K] (m : KeyMap K V) : ofList m.entries = m := by
  apply ext_find?
  intro k
  rw [ofList, foldl_insert_find? m.sorted, find?_empty, Option.or_none]
  rfl

/-- A sorted list is the list of the entries of the map made from it. -/
theorem entries_ofList [DecidableEq K] {es : List (K × V)}
    (hs : es.Pairwise fun a b => compare a.1 b.1 = .lt) : (ofList es).entries = es :=
  congrArg entries (ofList_entries ⟨es, hs⟩)

/-- A map made from entries under different keys has just these entries. -/
theorem ofList_perm {es : List (K × V)} (h : (es.map (·.1)).Nodup) :
    (ofList es).entries.Perm es := by
  have hrun : ∀ (es : List (K × V)) (m : KeyMap K V), (es.map (·.1)).Nodup →
      (∀ e ∈ es, ∀ d ∈ m.entries, d.1 ≠ e.1) →
      (es.foldl (fun m e => m.insert e.1 e.2) m).entries.Perm (m.entries ++ es) := by
    intro es
    induction es with
    | nil =>
      intro m _ _
      rw [List.append_nil]
      rfl
    | cons p rest ih =>
      intro m hkeys hnew
      obtain ⟨hp, hrest⟩ := List.forall_mem_cons.1 hnew
      rw [List.map_cons, List.nodup_cons] at hkeys
      have hapart : ∀ e ∈ rest, ∀ d ∈ (m.insert p.1 p.2).entries, d.1 ≠ e.1 := by
        intro e he d hd heq
        rcases mem_insertEntry hd with rfl | hd
        · have heq : p.1 = e.1 := heq
          exact hkeys.1 (heq ▸ List.mem_map_of_mem he)
        · exact hrest e he d hd heq
      have hinsert : (m.insert p.1 p.2).entries.Perm (p :: m.entries) := insertEntry_perm hp
      refine (ih _ hkeys.2 hapart).trans ?_
      exact (hinsert.append_right rest).trans List.perm_middle.symm
  have hempty : ∀ e ∈ es, ∀ d ∈ (∅ : KeyMap K V).entries, d.1 ≠ e.1 := fun _ _ _ hd =>
    absurd hd List.not_mem_nil
  exact hrun es ∅ h hempty

/-- A map made from a list has no entries but those of the list. -/
theorem mem_of_mem_ofList {e : K × V} {es : List (K × V)} (h : e ∈ (ofList es).entries) :
    e ∈ es := by
  have hrun : ∀ (es : List (K × V)) (m : KeyMap K V),
      e ∈ (es.foldl (fun m e => m.insert e.1 e.2) m).entries → e ∈ m.entries ∨ e ∈ es := by
    intro es
    induction es with
    | nil => exact fun m hm => .inl hm
    | cons p rest ih =>
      intro m hm
      rcases ih _ hm with hm | hrest
      · rcases mem_insertEntry hm with rfl | hm
        · exact .inr List.mem_cons_self
        · exact .inl hm
      · exact .inr (List.mem_cons_of_mem _ hrest)
  exact (hrun es ∅ h).resolve_left List.not_mem_nil

end Lists

/-! ### Maps from positions -/

/-- Each position holds the value of its entry if it has one. Distinct keys matter: of two entries
under one key the last would be written and the first be found. -/
theorem foldl_set_getElem? {es : List (Nat × V)}
    (hs : es.Pairwise fun a b => compare a.1 b.1 = .lt) (xs : List V) (i : Nat) :
    (es.foldl (fun xs e => xs.set e.1 e.2) xs)[i]? =
      xs[i]?.map fun x => (findEntry i es).getD x := by
  induction es generalizing xs with
  | nil => simp [findEntry]
  | cons p rest ih =>
    obtain ⟨k, v⟩ := p
    rw [List.foldl_cons, ih (List.pairwise_cons.1 hs).2, findEntry]
    by_cases hk : i = k
    · subst hk
      have hnone : findEntry i rest = none := findEntry_of_head hs
      rw [hnone, List.getElem?_set_self']
      cases xs[i]? <;> simp
    · rw [List.getElem?_set_ne (Ne.symm hk), if_neg (by simpa using hk)]

/-- An entry that is taken over counts unless its key is bound before; of several entries under one
key the first counts. -/
theorem foldl_insertIfNew_find? (n : Nat) (es : List (Nat × V)) (m : KeyMap Nat V) (k : Nat) :
    (es.foldl (fun m e => if e.1 < n then m.insertIfNew e.1 e.2 else m) m).find? k =
      (m.find? k).or (if k < n then findEntry k es else none) := by
  induction es generalizing m with
  | nil => simp [findEntry]
  | cons p rest ih =>
    obtain ⟨j, v⟩ := p
    rw [List.foldl_cons, ih, findEntry]
    by_cases hj : j < n
    · rw [if_pos hj, find?_insertIfNew]
      by_cases hk : j = k
      · subst hk
        rw [if_pos rfl, if_pos hj, if_pos hj]
        cases m.find? j <;> simp
      · rw [if_neg hk, if_neg (show ¬ compare k j = .eq by simpa using Ne.symm hk)]
    · rw [if_neg hj]
      by_cases hk : k < n
      · have hne : k ≠ j := by omega
        rw [if_pos hk, if_pos hk, if_neg (show ¬ compare k j = .eq by simpa using hne)]
      · rw [if_neg hk, if_neg hk]

end TreeProtocol.KeyMap

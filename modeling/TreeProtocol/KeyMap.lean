/-!
# Maps in key order

A map from keys to values, kept as the list of its entries in strictly increasing order of the
keys. The order makes the list unique, so maps with the same bindings are equal (`ext_find?`).

* `find?_insert`, `find?_erase`: what a changed map answers.
* `keys_pairwise`: the keys come in strictly increasing order.
-/

namespace TreeProtocol

open Std (TransOrd LawfulEqOrd)

/-- A map with its entries in strictly increasing order of the keys. -/
structure KeyMap (K V : Type) [Ord K] where
  entries : List (K × V)
  sorted : entries.Pairwise fun a b => compare a.1 b.1 = .lt

namespace KeyMap

variable {K V : Type} [Ord K]

/-! ### Entry lists -/

/-- Puts an entry at its place in a sorted list, instead of one with the same key. -/
def insertEntry (k : K) (v : V) : List (K × V) → List (K × V)
  | [] => [(k, v)]
  | (l, w) :: rest =>
    match compare k l with
    | .lt => (k, v) :: (l, w) :: rest
    | .eq => (k, v) :: rest
    | .gt => (l, w) :: insertEntry k v rest

/-- The value under a key in a list of entries. -/
def findEntry (k : K) : List (K × V) → Option V
  | [] => none
  | (l, w) :: rest => if compare k l = .eq then some w else findEntry k rest

theorem mem_insertEntry {k : K} {v : V} {e : K × V} {es : List (K × V)}
    (h : e ∈ insertEntry k v es) : e = (k, v) ∨ e ∈ es := by
  induction es with
  | nil => simpa [insertEntry] using h
  | cons p rest ih =>
    obtain ⟨l, w⟩ := p
    simp only [insertEntry] at h
    split at h <;> grind

section Lawful

variable [TransOrd K] [LawfulEqOrd K]

theorem insertEntry_pairwise (k : K) (v : V) {es : List (K × V)}
    (h : es.Pairwise fun a b => compare a.1 b.1 = .lt) :
    (insertEntry k v es).Pairwise fun a b => compare a.1 b.1 = .lt := by
  induction es with
  | nil => simp [insertEntry]
  | cons p rest ih =>
    obtain ⟨l, w⟩ := p
    rw [List.pairwise_cons] at h
    simp only [insertEntry]
    split
    · next hlt =>
      refine List.pairwise_cons.2 ⟨fun e he => ?_, List.pairwise_cons.2 h⟩
      rcases List.mem_cons.1 he with rfl | he
      · exact hlt
      · exact Std.TransCmp.lt_trans hlt (h.1 e he)
    · next heq =>
      have hk : k = l := LawfulEqOrd.eq_of_compare heq
      subst hk
      exact List.pairwise_cons.2 h
    · next hgt =>
      refine List.pairwise_cons.2 ⟨fun e he => ?_, ih h.2⟩
      rcases mem_insertEntry he with rfl | he
      · exact Std.OrientedCmp.lt_of_gt hgt
      · exact h.1 e he

omit [TransOrd K] in
theorem findEntry_insertEntry [DecidableEq K] (k l : K) (v : V) (es : List (K × V)) :
    findEntry l (insertEntry k v es) = if k = l then some v else findEntry l es := by
  induction es with
  | nil =>
    by_cases h : k = l
    · subst h; simp [insertEntry, findEntry]
    · simp [insertEntry, findEntry, h, Ne.symm h]
  | cons p rest ih =>
    obtain ⟨m, w⟩ := p
    simp only [insertEntry]
    split
    · next hlt =>
      by_cases h : k = l
      · subst h; simp [findEntry]
      · simp [findEntry, h, Ne.symm h]
    · next heq =>
      have hk : k = m := LawfulEqOrd.eq_of_compare heq
      subst hk
      by_cases h : k = l
      · subst h; simp [findEntry]
      · simp [findEntry, h, Ne.symm h]
    · next hgt =>
      have hne : k ≠ m := by rintro rfl; simp at hgt
      by_cases h : l = m
      · subst h; simp [findEntry, hne]
      · simp [findEntry, h, ih]

omit [TransOrd K] [LawfulEqOrd K] in
theorem findEntry_eq_none {k : K} {es : List (K × V)}
    (h : ∀ e ∈ es, compare k e.1 = .lt) : findEntry k es = none := by
  induction es with
  | nil => rfl
  | cons p rest ih =>
    have hp := h p (by simp)
    simp only [findEntry, hp]
    simpa using ih fun e he => h e (by simp [he])

theorem eq_of_findEntry_eq {es fs : List (K × V)}
    (hes : es.Pairwise fun a b => compare a.1 b.1 = .lt)
    (hfs : fs.Pairwise fun a b => compare a.1 b.1 = .lt)
    (h : ∀ k, findEntry k es = findEntry k fs) : es = fs := by
  induction es generalizing fs with
  | nil =>
    cases fs with
    | nil => rfl
    | cons q fs => have := h q.1; simp [findEntry] at this
  | cons p es ih =>
    cases fs with
    | nil => have := h p.1; simp [findEntry] at this
    | cons q fs =>
      obtain ⟨k, v⟩ := p
      obtain ⟨l, w⟩ := q
      rw [List.pairwise_cons] at hes hfs
      have hkl : k = l := by
        rcases hc : compare k l with _ | _ | _
        · have h1 := h k
          have : findEntry k ((l, w) :: fs) = none := findEntry_eq_none fun e he => by
            rcases List.mem_cons.1 he with rfl | he
            · exact hc
            · exact Std.TransCmp.lt_trans hc (hfs.1 e he)
          rw [this] at h1
          simp [findEntry] at h1
        · exact LawfulEqOrd.eq_of_compare hc
        · have h1 := h l
          have hc' : compare l k = .lt := Std.OrientedCmp.lt_of_gt hc
          have : findEntry l ((k, v) :: es) = none := findEntry_eq_none fun e he => by
            rcases List.mem_cons.1 he with rfl | he
            · exact hc'
            · exact Std.TransCmp.lt_trans hc' (hes.1 e he)
          rw [this] at h1
          simp [findEntry] at h1
      subst hkl
      have hvw := h k
      simp [findEntry] at hvw
      subst hvw
      congr 1
      refine ih hes.2 hfs.2 fun m => ?_
      rcases Classical.em (m = k) with hm | hm
      · subst hm
        rw [findEntry_eq_none hes.1, findEntry_eq_none hfs.1]
      · simpa [findEntry, hm] using h m

end Lawful

/-! ### Maps -/

/-- The map without entries. -/
def empty : KeyMap K V := ⟨[], .nil⟩

instance : EmptyCollection (KeyMap K V) := ⟨empty⟩
instance : Inhabited (KeyMap K V) := ⟨empty⟩

/-- The value under a key. -/
def find? (m : KeyMap K V) (k : K) : Option V := findEntry k m.entries

/-- Whether there is a value under a key. -/
def contains (m : KeyMap K V) (k : K) : Bool := (m.find? k).isSome

/-- The keys in increasing order. -/
def keys (m : KeyMap K V) : List K := m.entries.map (·.1)

/-- The number of entries. -/
def size (m : KeyMap K V) : Nat := m.entries.length

/-- Whether there is no entry. -/
def isEmpty (m : KeyMap K V) : Bool := m.entries.isEmpty

/-- The map without the entry under a key. -/
def erase (m : KeyMap K V) (k : K) : KeyMap K V :=
  ⟨m.entries.filter fun e => compare k e.1 != .eq, m.sorted.filter _⟩

instance [DecidableEq K] [DecidableEq V] : DecidableEq (KeyMap K V) := fun a b =>
  decidable_of_iff (a.entries = b.entries) (by cases a; cases b; simp)

variable [TransOrd K] [LawfulEqOrd K]

/-- Binds a key, instead of what was bound to it before. -/
def insert (m : KeyMap K V) (k : K) (v : V) : KeyMap K V :=
  ⟨insertEntry k v m.entries, insertEntry_pairwise k v m.sorted⟩

/-- Binds a key unless it is bound already. -/
def insertIfNew (m : KeyMap K V) (k : K) (v : V) : KeyMap K V :=
  if m.contains k then m else m.insert k v

/-- The map with the given bindings; of several under one key the last one counts. -/
def ofList (es : List (K × V)) : KeyMap K V :=
  es.foldl (fun m e => m.insert e.1 e.2) ∅

omit [TransOrd K] [LawfulEqOrd K] in
@[simp] theorem find?_empty (k : K) : (∅ : KeyMap K V).find? k = none := rfl

theorem find?_insert [DecidableEq K] (m : KeyMap K V) (k l : K) (v : V) :
    (m.insert k v).find? l = if k = l then some v else m.find? l :=
  findEntry_insertEntry k l v m.entries

theorem find?_insertIfNew [DecidableEq K] (m : KeyMap K V) (k l : K) (v : V) :
    (m.insertIfNew k v).find? l = if k = l then some ((m.find? k).getD v) else m.find? l := by
  unfold insertIfNew contains
  by_cases hk : k = l
  · subst hk
    cases h : m.find? k <;> simp [h, find?_insert]
  · cases h : m.find? k <;> simp [hk, find?_insert]

theorem ext_find? {m n : KeyMap K V} (h : ∀ k, m.find? k = n.find? k) : m = n := by
  have he := eq_of_findEntry_eq m.sorted n.sorted h
  cases m; cases n
  simpa using he

omit [TransOrd K] [LawfulEqOrd K] in
theorem keys_pairwise (m : KeyMap K V) : m.keys.Pairwise fun a b => compare a b = .lt :=
  List.pairwise_map.2 m.sorted

omit [TransOrd K] in
theorem find?_erase [DecidableEq K] (m : KeyMap K V) (k l : K) :
    (m.erase k).find? l = if k = l then none else m.find? l := by
  have key : ∀ es : List (K × V), findEntry l (es.filter fun e => compare k e.1 != .eq) =
      if k = l then none else findEntry l es := by
    intro es
    induction es with
    | nil => simp [findEntry]
    | cons p rest ih =>
      obtain ⟨j, v⟩ := p
      by_cases hkj : k = j
      · subst hkj
        by_cases hkl : k = l
        · subst hkl; simpa [findEntry] using ih
        · simp [findEntry, hkl, Ne.symm hkl] at ih ⊢; exact ih
      · by_cases hkl : k = l
        · subst hkl
          simp [findEntry, hkj] at ih ⊢; exact ih
        · simp only [hkl, if_false] at ih ⊢
          simp [findEntry, hkj, ih]
  exact key m.entries

example : (ofList [("b", 1), ("a", 2), ("b", 3)]).entries = [("a", 2), ("b", 3)] := by
  decide +kernel

end KeyMap

end TreeProtocol

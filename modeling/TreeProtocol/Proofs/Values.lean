import TreeProtocol.Proofs.Keys
import TreeProtocol.Proofs.KeyMap

/-!
# Values and what occurs in them

A list holds values and a map holds values under keys, to any depth. Properties of a whole value are
properties of all that occurs in it:

* `Value.induction` — what passes from the parts of a value to the value holds of every value;
* `Value.Everywhere` — a property that holds of a value, of its parts, of their parts and so on;
* `Value.AllFinite` — no number in the value is a not-a-number or an infinity;
* `Value.Regular` — every map in the value lists its entries in the order of their keys, which is
  how maps are built;
* `Value.Distinct` — the entries of the maps may come in any order, but no key comes twice;
* `Value.normal` — the value with the entries of its maps in order; it is the value itself if that
  is regular (`normal_of_regular`), and has the same numbers in it if no key comes twice
  (`allFinite_normal`).
-/

namespace TreeProtocol

/-- The numbers that are not finite are the not-a-numbers and the two infinities. -/
theorem Binary64.isFinite_iff (x : Binary64) :
    x.isFinite = true ↔ x.isNaN = false ∧ ∀ sign, x ≠ .infinity sign := by
  constructor
  · intro h
    have hexponent : x.exponent ≠ 2047 := by simpa [isFinite] using h
    refine ⟨by simp [isNaN, hexponent], ?_⟩
    rintro sign rfl
    exact hexponent rfl
  · rintro ⟨hnan, hinf⟩
    simp only [isFinite, bne_iff_ne, ne_eq]
    intro hexponent
    have hfraction : x.fraction = 0 := by simpa [isNaN, hexponent] using hnan
    apply hinf x.negative
    obtain ⟨negative, exponent, fraction⟩ := x
    cases hexponent
    cases hfraction
    rfl

namespace Value

/-! ## Induction -/

/-- The values right below a value: the items of a list and the values of a map. -/
def parts : Value → List Value
  | .list items => items
  | .map entries => entries.map (·.2)
  | _ => []

theorem sizeOf_part_lt {v x : Value} (hx : x ∈ v.parts) : sizeOf x < sizeOf v := by
  cases v with
  | list items =>
    have hitem := List.sizeOf_lt_of_mem (show x ∈ items from hx)
    simp only [Value.list.sizeOf_spec]
    omega
  | map entries =>
    obtain ⟨⟨key, y⟩, hentry, rfl⟩ := List.mem_map.1 (show x ∈ entries.map (·.2) from hx)
    have hsize := List.sizeOf_lt_of_mem hentry
    simp only [Value.map.sizeOf_spec, Prod.mk.sizeOf_spec] at hsize ⊢
    omega
  | _ => cases hx

/-- **Induction over values**, with the parts of a value as its predecessors. -/
@[elab_as_elim]
theorem induction {P : Value → Prop} (step : ∀ v : Value, (∀ x ∈ v.parts, P x) → P v)
    (v : Value) : P v :=
  step v fun x hx =>
    have := sizeOf_part_lt hx
    induction step x
termination_by sizeOf v

/-! ## Properties of all that occurs in a value -/

/-- A property holds of a value, of its parts, of their parts and so on. -/
inductive Everywhere (P : Value → Prop) : Value → Prop where
  | intro {v : Value} (here : P v) (below : ∀ x ∈ v.parts, Everywhere P x) : Everywhere P v

theorem everywhere_iff {P : Value → Prop} {v : Value} :
    Everywhere P v ↔ P v ∧ ∀ x ∈ v.parts, Everywhere P x :=
  ⟨fun ⟨here, below⟩ => ⟨here, below⟩, fun ⟨here, below⟩ => .intro here below⟩

theorem everywhere_leaf {P : Value → Prop} {v : Value} (hparts : v.parts = []) (here : P v) :
    Everywhere P v := by
  rw [everywhere_iff, hparts]
  exact ⟨here, nofun⟩

/-- No number in the value is a not-a-number or an infinity. -/
def AllFinite : Value → Prop :=
  Everywhere fun part => ∀ x, part = .number x → x.isNaN = false ∧ ∀ sign, x ≠ .infinity sign

/-- Every map in the value lists its entries in the order of their keys. -/
def Regular : Value → Prop :=
  Everywhere fun part => ∀ es, part = .map es → es.Pairwise fun a b => compare a.1 b.1 = .lt

/-- No map in the value binds a key twice. -/
def Distinct : Value → Prop :=
  Everywhere fun part => ∀ es, part = .map es → (es.map (·.1)).Nodup

/-! ### Finite numbers -/

theorem allFinite_iff {v : Value} :
    v.AllFinite ↔
      (∀ x, v = .number x → x.isNaN = false ∧ ∀ sign, x ≠ .infinity sign) ∧
        ∀ x ∈ v.parts, x.AllFinite :=
  everywhere_iff

theorem allFinite_leaf {v : Value} (hparts : v.parts = []) (h : ∀ x, v ≠ number x) :
    v.AllFinite :=
  everywhere_leaf hparts fun x hx => absurd hx (h x)

theorem allFinite_number (x : Binary64) : (number x).AllFinite ↔ x.isFinite = true := by
  rw [allFinite_iff, Binary64.isFinite_iff]
  simp [parts]

theorem allFinite_list (xs : List Value) : (list xs).AllFinite ↔ ∀ x ∈ xs, x.AllFinite := by
  rw [allFinite_iff]
  simp [parts]

theorem allFinite_map (es : List (String × Value)) :
    (map es).AllFinite ↔ ∀ e ∈ es, e.2.AllFinite := by
  rw [allFinite_iff, parts, List.forall_mem_map]
  simp

theorem itemsHoldNaN_eq_any (xs : List Value) : itemsHoldNaN xs = xs.any holdsNaN := by
  induction xs with
  | nil => rfl
  | cons x xs ih => rw [itemsHoldNaN, ih, List.any_cons]

theorem entriesHoldNaN_eq_any (es : List (String × Value)) :
    entriesHoldNaN es = es.any (·.2.holdsNaN) := by
  induction es with
  | nil => rfl
  | cons e es ih => rw [entriesHoldNaN, ih, List.any_cons]

theorem holdsNaN_of_allFinite {v : Value} (h : v.AllFinite) : v.holdsNaN = false := by
  induction v using Value.induction with
  | step v ih =>
    cases v with
    | number x =>
      rw [allFinite_number, Binary64.isFinite_iff] at h
      exact h.1
    | list xs =>
      rw [allFinite_list] at h
      rw [holdsNaN, itemsHoldNaN_eq_any, List.any_eq_false]
      exact fun x hx => by simp [ih x hx (h x hx)]
    | map es =>
      rw [allFinite_map] at h
      rw [holdsNaN, entriesHoldNaN_eq_any, List.any_eq_false]
      exact fun e he => by simp [ih e.2 (List.mem_map_of_mem he) (h e he)]
    | _ => rfl

/-- A value with nothing but finite numbers equals itself. -/
theorem eqv_of_allFinite {v : Value} (h : v.AllFinite) : v.eqv v = true := by
  rw [eqv_self, holdsNaN_of_allFinite h]
  rfl

/-! ### The keys of maps -/

theorem regular_iff {v : Value} :
    v.Regular ↔
      (∀ es, v = .map es → es.Pairwise fun a b => compare a.1 b.1 = .lt) ∧
        ∀ x ∈ v.parts, x.Regular :=
  everywhere_iff

theorem regular_leaf {v : Value} (hparts : v.parts = []) (h : ∀ es, v ≠ map es) : v.Regular :=
  everywhere_leaf hparts fun es hes => absurd hes (h es)

theorem regular_list (xs : List Value) : (list xs).Regular ↔ ∀ x ∈ xs, x.Regular := by
  rw [regular_iff]
  simp [parts]

theorem regular_map (es : List (String × Value)) :
    (map es).Regular ↔
      (es.Pairwise fun a b => compare a.1 b.1 = .lt) ∧ ∀ e ∈ es, e.2.Regular := by
  rw [regular_iff, parts, List.forall_mem_map]
  simp

/-- A map is regular by the way it is built, whatever the order of the entries that it is built
from. -/
theorem regular_ofEntries {es : List (String × Value)} (h : ∀ e ∈ es, e.2.Regular) :
    (ofEntries es).Regular :=
  (regular_map _).2
    ⟨(KeyMap.ofList es).sorted, fun e he => h e (KeyMap.mem_of_mem_ofList he)⟩

theorem distinct_iff {v : Value} :
    v.Distinct ↔
      (∀ es, v = .map es → (es.map (·.1)).Nodup) ∧ ∀ x ∈ v.parts, x.Distinct :=
  everywhere_iff

theorem distinct_list (xs : List Value) : (list xs).Distinct ↔ ∀ x ∈ xs, x.Distinct := by
  rw [distinct_iff]
  simp [parts]

theorem distinct_map (es : List (String × Value)) :
    (map es).Distinct ↔ (es.map (·.1)).Nodup ∧ ∀ e ∈ es, e.2.Distinct := by
  rw [distinct_iff, parts, List.forall_mem_map]
  simp

/-! ## Normal forms -/

mutual

/-- The value with the entries of every map in it in the order of their keys. -/
def normal : Value → Value
  | .list items => .list (normalItems items)
  | .map entries => ofEntries (normalEntries entries)
  | v => v

/-- The normal forms of the items of a list. -/
def normalItems : List Value → List Value
  | [] => []
  | x :: xs => normal x :: normalItems xs

/-- The entries of a map with the normal forms of their values, in the order given. -/
def normalEntries : List (String × Value) → List (String × Value)
  | [] => []
  | (k, x) :: es => (k, normal x) :: normalEntries es

end

theorem normalItems_eq_map (xs : List Value) : normalItems xs = xs.map normal := by
  induction xs with
  | nil => rfl
  | cons x xs ih => rw [normalItems, ih, List.map_cons]

theorem normalEntries_eq_map (es : List (String × Value)) :
    normalEntries es = es.map fun e => (e.1, e.2.normal) := by
  induction es with
  | nil => rfl
  | cons e es ih => rw [normalEntries, ih, List.map_cons]

/-- **A regular value is its own normal form.** -/
theorem normal_of_regular {v : Value} (h : v.Regular) : v.normal = v := by
  induction v using Value.induction with
  | step v ih =>
    cases v with
    | list xs =>
      rw [regular_list] at h
      have hsame : ∀ x ∈ xs, x.normal = x := fun x hx => ih x hx (h x hx)
      rw [normal, normalItems_eq_map, List.map_congr_left hsame, List.map_id']
    | map es =>
      rw [regular_map] at h
      have hsame : ∀ e ∈ es, (e.1, e.2.normal) = e := fun e he => by
        rw [ih e.2 (List.mem_map_of_mem he) (h.2 e he)]
      rw [normal, normalEntries_eq_map, List.map_congr_left hsame, List.map_id', ofEntries,
        KeyMap.entries_ofList h.1]
    | _ => rfl

/-- **The normal form has the same numbers in it**, unless an entry is lost because its key comes
again. -/
theorem allFinite_normal {v : Value} (h : v.Distinct) : v.normal.AllFinite ↔ v.AllFinite := by
  induction v using Value.induction with
  | step v ih =>
    cases v with
    | list xs =>
      rw [distinct_list] at h
      rw [normal, normalItems_eq_map, allFinite_list, allFinite_list, List.forall_mem_map]
      exact forall₂_congr fun x hx => ih x hx (h x hx)
    | map es =>
      rw [distinct_map] at h
      have hkeys : ((es.map fun e => (e.1, e.2.normal)).map (·.1)).Nodup := by
        rw [List.map_map]
        exact h.1
      have hperm := KeyMap.ofList_perm hkeys
      rw [normal, normalEntries_eq_map, ofEntries, allFinite_map, allFinite_map]
      simp only [hperm.mem_iff, List.forall_mem_map]
      exact forall₂_congr fun e he => ih e.2 (List.mem_map_of_mem he) (h.2 e he)
    | _ => rfl

end Value

/-! ## Attributes -/

namespace Attrs

/-- No number in the attributes is a not-a-number or an infinity. -/
def AllFinite (a : Attrs) : Prop := ∀ p ∈ a.pairs, p.2.AllFinite

/-- Every map in the attributes lists its entries in the order of their keys. -/
def Regular (a : Attrs) : Prop := ∀ p ∈ a.pairs, p.2.Regular

/-- No map in the attributes binds a key twice. -/
def Distinct (a : Attrs) : Prop := ∀ p ∈ a.pairs, p.2.Distinct

/-- The attributes with the entries of every map in them in the order of their keys. The pairs stay
where they are. -/
def normal (a : Attrs) : Attrs := ⟨a.pairs.map fun p => (p.1, p.2.normal)⟩

theorem eqv_of_allFinite {a : Attrs} (h : a.AllFinite) : a.eqv a = true := by
  have hnone : Value.entriesHoldNaN a.pairs = false := by
    rw [Value.entriesHoldNaN_eq_any, List.any_eq_false]
    exact fun p hp => by simp [Value.holdsNaN_of_allFinite (h p hp)]
  rw [eqv, Value.eqvEntries_self, hnone]
  rfl

theorem normal_of_regular {a : Attrs} (h : a.Regular) : a.normal = a := by
  have hsame : ∀ p ∈ a.pairs, (p.1, p.2.normal) = p := fun p hp => by
    rw [Value.normal_of_regular (h p hp)]
  rw [normal, List.map_congr_left hsame, List.map_id']

theorem allFinite_normal {a : Attrs} (h : a.Distinct) : a.normal.AllFinite ↔ a.AllFinite := by
  rw [AllFinite, normal, List.forall_mem_map]
  exact forall₂_congr fun p hp => Value.allFinite_normal (h p hp)

end Attrs

end TreeProtocol

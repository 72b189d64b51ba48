import TreeProtocol.Json.Values
import TreeProtocol.Proofs.Schema.Documents
import TreeProtocol.Proofs.Values

/-!
# Values that are written and read

The document of a value is read back part by part: a list from the documents of its items, a map
from those of its values. So one number without a form in documents, however deep it lies, keeps
the whole value from being read, and nothing else does.

* `map_mapM_map_eq_some_iff`: a list is read back exactly if all of its items are.
* `Value.ofJson?_toJson_eq_some_iff`: what the document of a value is read as, whatever the order of
  the entries in its maps.
* `Value.regular_of_ofJson?`: what is read has its maps in order, whatever the document.
* `values_read_back`: values and attributes read back exactly if all their numbers are finite.
-/

namespace TreeProtocol

/-! ## Lists -/

/-- If each item is read back as something exactly if it fits, then so is the list. -/
theorem mapM_map_eq_some_iff {α β γ : Type} {encode : α → β} {decode : β → Option γ}
    {Fits : α → Prop} {back : α → γ} {xs : List α}
    (h : ∀ x ∈ xs, ∀ y, decode (encode x) = some y ↔ Fits x ∧ y = back x) (ys : List γ) :
    (xs.map encode).mapM decode = some ys ↔ (∀ x ∈ xs, Fits x) ∧ ys = xs.map back := by
  induction xs generalizing ys with
  | nil => simp [eq_comm]
  | cons x xs ih =>
    obtain ⟨hx, hxs⟩ := List.forall_mem_cons.1 h
    simp only [List.map_cons, List.mapM_cons, Option.bind_eq_bind, Option.bind_eq_some_iff, hx,
      ih hxs, Option.pure_def, Option.some.injEq, List.forall_mem_cons]
    constructor
    · rintro ⟨y, ⟨hfits, rfl⟩, ys, ⟨hall, rfl⟩, rfl⟩
      exact ⟨⟨hfits, hall⟩, rfl⟩
    · rintro ⟨⟨hfits, hall⟩, rfl⟩
      exact ⟨back x, ⟨hfits, rfl⟩, xs.map back, ⟨hall, rfl⟩, rfl⟩

/-- The same for what is made of the list. -/
theorem map_mapM_map_eq_some_iff {α β γ δ : Type} {encode : α → β} {decode : β → Option γ}
    {Fits : α → Prop} {back : α → γ} {xs : List α}
    (h : ∀ x ∈ xs, ∀ y, decode (encode x) = some y ↔ Fits x ∧ y = back x) (make : List γ → δ)
    (w : δ) :
    ((xs.map encode).mapM decode).map make = some w ↔
      (∀ x ∈ xs, Fits x) ∧ w = make (xs.map back) := by
  simp only [Option.map_eq_some_iff, mapM_map_eq_some_iff h]
  constructor
  · rintro ⟨ys, ⟨hall, rfl⟩, rfl⟩
    exact ⟨hall, rfl⟩
  · rintro ⟨hall, rfl⟩
    exact ⟨xs.map back, ⟨hall, rfl⟩, rfl⟩

/-- A span always reads back. -/
theorem Span.ofJson?_toJson (s : Span) : ofJson? s.toJson = some s := by
  have hfields : s.toJson.fields? ["start", "end"] =
      some [some (.natural s.start.toNat), some (.natural s.stop.toNat)] := rfl
  rw [ofJson?, hfields]
  simp [Record.required, Json.word?, Json.natural]

/-! ## Values -/

namespace Value

theorem itemsToJson_eq_map (xs : List Value) : itemsToJson xs = xs.map toJson := by
  induction xs with
  | nil => rfl
  | cons x xs ih => rw [itemsToJson, ih, List.map_cons]

theorem entriesToJson_eq_map (es : List (String × Value)) :
    entriesToJson es = es.map fun e => (e.1, e.2.toJson) := by
  induction es with
  | nil => rfl
  | cons e es ih => rw [entriesToJson, ih, List.map_cons]

theorem itemsOfJson?_eq_mapM (js : List Json) : itemsOfJson? js = js.mapM ofJson? := by
  induction js with
  | nil => rfl
  | cons j js ih =>
    rw [itemsOfJson?, ih, List.mapM_cons]
    rfl

theorem entriesOfJson?_eq_mapM (ms : List (String × Json)) :
    entriesOfJson? ms = ms.mapM (Json.readMember ofJson?) := by
  induction ms with
  | nil => rfl
  | cons m ms ih =>
    rw [entriesOfJson?, ih, List.mapM_cons, Json.readMember]
    cases ofJson? m.2 <;> rfl

/-! ### What is written -/

theorem ofJson?_number (x : Binary64) :
    ofJson? (number x).toJson = if x.isFinite then some (number x) else none := by
  rw [toJson, ofJson?, numberToJson]
  split <;> simp [ofTagged?, Numeral.toBinary64]

theorem ofJson?_list (xs : List Value) :
    ofJson? (list xs).toJson = ((xs.map toJson).mapM ofJson?).map .list := by
  rw [toJson, itemsToJson_eq_map, ofJson?, ofTagged?, if_pos rfl, itemsOfJson?_eq_mapM]

theorem ofJson?_map (es : List (String × Value)) :
    ofJson? (map es).toJson =
      ((es.map fun e => (e.1, e.2.toJson)).mapM (Json.readMember ofJson?)).map ofEntries := by
  rw [toJson, entriesToJson_eq_map, ofJson?, ofTagged?, if_pos rfl, entriesOfJson?_eq_mapM]

theorem ofJson?_bounds (s : Span) : ofJson? (bounds s).toJson = some (bounds s) := by
  have htag : ¬ "Bounds" = "Map" := by decide
  rw [toJson, ofJson?, Span.toJson, ofTagged?, if_neg htag, if_pos rfl, ← Span.toJson,
    Span.ofJson?_toJson, Option.map_some]

theorem reads_leaf {v : Value} (hread : ofJson? v.toJson = some v) (hparts : v.parts = [])
    (hnumber : ∀ x, v ≠ number x) (hnormal : v.normal = v) (w : Value) :
    ofJson? v.toJson = some w ↔ v.AllFinite ∧ w = v.normal := by
  rw [hread, hnormal, Option.some.injEq, and_iff_right (allFinite_leaf hparts hnumber), eq_comm]

/-- An entry keeps its key, so it reads back if its value does. -/
theorem readMember_eq_some_iff {e : String × Value}
    (h : ∀ y, ofJson? e.2.toJson = some y ↔ e.2.AllFinite ∧ y = e.2.normal)
    (f : String × Value) :
    Json.readMember ofJson? (e.1, e.2.toJson) = some f ↔
      e.2.AllFinite ∧ f = (e.1, e.2.normal) := by
  rw [Json.readMember_eq_some_iff, h, Prod.ext_iff]
  constructor
  · rintro ⟨hkey, hfinite, hback⟩
    exact ⟨hfinite, hkey.symm, hback⟩
  · rintro ⟨hfinite, hkey, hback⟩
    exact ⟨hkey.symm, hfinite, hback⟩

/-- **What the document of a value is read as.** The maps may list their entries in any order: they
are read as maps in order. -/
theorem ofJson?_toJson_eq_some_iff (v w : Value) :
    ofJson? v.toJson = some w ↔ v.AllFinite ∧ w = v.normal := by
  induction v using Value.induction generalizing w with
  | step v ih =>
    cases v with
    | nil => exact reads_leaf rfl rfl (by simp) rfl w
    | text s => exact reads_leaf rfl rfl (by simp) rfl w
    | bool b => exact reads_leaf rfl rfl (by simp) rfl w
    | bounds s => exact reads_leaf (ofJson?_bounds s) rfl (by simp) rfl w
    | number x =>
      rw [ofJson?_number, Option.ite_none_right_eq_some, Option.some.injEq, ← allFinite_number,
        @eq_comm _ (number x)]
      rfl
    | list xs =>
      have hitem : ∀ x ∈ xs, ∀ y, ofJson? x.toJson = some y ↔ x.AllFinite ∧ y = x.normal :=
        fun x hx y => ih x hx y
      rw [ofJson?_list, map_mapM_map_eq_some_iff hitem, allFinite_list, normal,
        normalItems_eq_map]
    | map es =>
      have hentry : ∀ e ∈ es, ∀ f, Json.readMember ofJson? (e.1, e.2.toJson) = some f ↔
          e.2.AllFinite ∧ f = (e.1, e.2.normal) :=
        fun e he => readMember_eq_some_iff fun y => ih e.2 (List.mem_map_of_mem he) y
      rw [ofJson?_map, map_mapM_map_eq_some_iff hentry, allFinite_map, normal,
        normalEntries_eq_map]

/-! ### What is read -/

theorem regular_of_tag {c : Prop} [Decidable c] {u v : Value} (hu : u.Regular)
    (h : (if c then some u else none) = some v) : v.Regular := by
  rw [Option.ite_none_right_eq_some] at h
  cases h.2
  exact hu

mutual

/-- **What is read is regular**, whatever the order of the members in the document, and also if keys
come again. -/
theorem regular_of_ofJson? : ∀ {j : Json} {v : Value}, ofJson? j = some v → v.Regular
  | .text s, v, h =>
    regular_of_tag (u := .nil) (regular_leaf rfl nofun) (by rwa [ofJson?] at h)
  | .object [(tag, content)], v, h => regular_of_ofTagged? (by rwa [ofJson?] at h)

theorem regular_of_ofTagged? :
    ∀ {tag : String} {j : Json} {v : Value}, ofTagged? tag j = some v → v.Regular
  | tag, .null, v, h =>
    regular_of_tag (u := .nil) (regular_leaf rfl nofun) (by rwa [ofTagged?] at h)
  | tag, .number n, v, h =>
    regular_of_tag (u := .number n.toBinary64) (regular_leaf rfl nofun) (by rwa [ofTagged?] at h)
  | tag, .text s, v, h =>
    regular_of_tag (u := .text s) (regular_leaf rfl nofun) (by rwa [ofTagged?] at h)
  | tag, .bool b, v, h =>
    regular_of_tag (u := .bool b) (regular_leaf rfl nofun) (by rwa [ofTagged?] at h)
  | tag, .array items, v, h => by
    rw [ofTagged?] at h
    split_ifs at h
    · obtain ⟨xs, hxs, rfl⟩ := Option.map_eq_some_iff.1 h
      exact (regular_list xs).2 (regular_of_itemsOfJson? hxs)
    · obtain ⟨s, -, rfl⟩ := Option.map_eq_some_iff.1 h
      exact regular_leaf rfl nofun
  | tag, .object members, v, h => by
    rw [ofTagged?] at h
    split_ifs at h
    · obtain ⟨es, hes, rfl⟩ := Option.map_eq_some_iff.1 h
      exact regular_ofEntries (regular_of_entriesOfJson? hes)
    · obtain ⟨s, -, rfl⟩ := Option.map_eq_some_iff.1 h
      exact regular_leaf rfl nofun

theorem regular_of_itemsOfJson? :
    ∀ {js : List Json} {xs : List Value}, itemsOfJson? js = some xs → ∀ x ∈ xs, x.Regular
  | [], xs, h => by
    cases h
    exact nofun
  | j :: js, xs, h => by
    rw [itemsOfJson?] at h
    obtain ⟨x, hx, h⟩ := Option.bind_eq_some_iff.1 h
    obtain ⟨rest, hrest, h⟩ := Option.bind_eq_some_iff.1 h
    cases h
    exact List.forall_mem_cons.2 ⟨regular_of_ofJson? hx, regular_of_itemsOfJson? hrest⟩

theorem regular_of_entriesOfJson? :
    ∀ {ms : List (String × Json)} {es : List (String × Value)},
      entriesOfJson? ms = some es → ∀ e ∈ es, e.2.Regular
  | [], es, h => by
    cases h
    exact nofun
  | (k, j) :: ms, es, h => by
    rw [entriesOfJson?] at h
    obtain ⟨x, hx, h⟩ := Option.bind_eq_some_iff.1 h
    obtain ⟨rest, hrest, h⟩ := Option.bind_eq_some_iff.1 h
    cases h
    exact List.forall_mem_cons.2 ⟨regular_of_ofJson? hx, regular_of_entriesOfJson? hrest⟩

end

end Value

/-! ## Attributes -/

namespace Attrs

theorem ofJson?_toJson_eq_some_iff (a b : Attrs) :
    ofJson? a.toJson = some b ↔ a.AllFinite ∧ b = a.normal := by
  have hpair : ∀ p ∈ a.pairs, ∀ q, pairOfJson? (pairToJson p) = some q ↔
      p.2.AllFinite ∧ q = (p.1, p.2.normal) :=
    fun p _ => Value.readMember_eq_some_iff (Value.ofJson?_toJson_eq_some_iff p.2)
  exact map_mapM_map_eq_some_iff hpair Attrs.mk b

end Attrs

/-! ## Writing and reading -/

/-- Where reading what was written yields the normal form of whatever is finite, a normal form reads
back as something equal exactly if it is finite, and so does everything else with this normal
form. -/
theorem reads_back {α : Type} {encode : α → Json} {decode : Json → Option α}
    {eqv : α → α → Bool} {Finite Distinct : α → Prop} {normal : α → α}
    (hread : ∀ x y, decode (encode x) = some y ↔ Finite x ∧ y = normal x)
    (heqv : ∀ {x}, Finite x → eqv x x = true)
    (hnormal : ∀ {x}, Distinct x → (Finite (normal x) ↔ Finite x)) {x : α} (hx : normal x = x) :
    ((∃ y, decode (encode x) = some y ∧ eqv y x = true) ↔ Finite x) ∧
      (Finite x → decode (encode x) = some x) ∧
      (¬ Finite x → decode (encode x) = none) ∧
      ∀ y, Distinct y → normal y = x → decode (encode y) = decode (encode x) := by
  have hback : Finite x → decode (encode x) = some x := fun hfinite =>
    (hread x x).2 ⟨hfinite, hx.symm⟩
  refine ⟨⟨?_, fun hfinite => ⟨x, hback hfinite, heqv hfinite⟩⟩, hback, ?_, ?_⟩
  · rintro ⟨y, hy, -⟩
    exact ((hread x y).1 hy).1
  · intro hinfinite
    rw [Option.eq_none_iff_forall_ne_some]
    exact fun y hy => hinfinite ((hread x y).1 hy).1
  · intro y hdistinct hy
    ext z
    rw [hread, hread, hx, ← hnormal hdistinct, hy]

/-- **Values and their documents.** A value, and the attributes of a node or of a relation, read
back from their document as something equal exactly if no number anywhere in them is a not-a-number
or an infinity. What is read then is the same, pair by pair and entry by entry; otherwise nothing is
read at all. The order in which the document lists the entries of maps makes no difference. -/
theorem values_read_back :
    (∀ v : Value, v.Regular →
      ((∃ w, Value.ofJson? v.toJson = some w ∧ w.eqv v = true) ↔ v.AllFinite) ∧
        (v.AllFinite → Value.ofJson? v.toJson = some v) ∧
        (¬ v.AllFinite → Value.ofJson? v.toJson = none) ∧
        ∀ w : Value, w.Distinct → w.normal = v → Value.ofJson? w.toJson = Value.ofJson? v.toJson) ∧
      ∀ a : Attrs, a.Regular →
        ((∃ b, Attrs.ofJson? a.toJson = some b ∧ b.eqv a = true) ↔ a.AllFinite) ∧
          (a.AllFinite → Attrs.ofJson? a.toJson = some a) ∧
          (¬ a.AllFinite → Attrs.ofJson? a.toJson = none) ∧
          ∀ b : Attrs, b.Distinct → b.normal = a →
            Attrs.ofJson? b.toJson = Attrs.ofJson? a.toJson := by
  constructor
  · intro v regular
    exact reads_back Value.ofJson?_toJson_eq_some_iff Value.eqv_of_allFinite Value.allFinite_normal
      (Value.normal_of_regular regular)
  · intro a regular
    exact reads_back Attrs.ofJson?_toJson_eq_some_iff Attrs.eqv_of_allFinite Attrs.allFinite_normal
      (Attrs.normal_of_regular regular)

/-- Two entries of a map, the second one with a number and a span from the greatest position to the
least inside. One key is the name of a type, and so is the text. -/
def measures (x : Binary64) : List (String × Value) :=
  [("", .text "Nil"), ("Number", .list [.number x, .bounds ⟨18446744073709551615, 0⟩])]

theorem measures_regular (x : Binary64) : (Value.map (measures x)).Regular := by
  have horder : compare "" "Number" = .lt := by decide +kernel
  have htext : ∀ s, (Value.text s).Regular := fun s => Value.regular_leaf rfl nofun
  have hnumber : (Value.number x).Regular := Value.regular_leaf rfl nofun
  have hbounds : ∀ s, (Value.bounds s).Regular := fun s => Value.regular_leaf rfl nofun
  simp [measures, Value.regular_map, Value.regular_list, horder, htext, hnumber, hbounds]

theorem measures_reverse_distinct (x : Binary64) :
    (Value.map (measures x).reverse).Distinct := by
  have htext : ∀ s, (Value.text s).Distinct := fun s => Value.everywhere_leaf rfl nofun
  have hnumber : (Value.number x).Distinct := Value.everywhere_leaf rfl nofun
  have hbounds : ∀ s, (Value.bounds s).Distinct := fun s => Value.everywhere_leaf rfl nofun
  simp [measures, Value.distinct_map, Value.distinct_list, htext, hnumber, hbounds]

theorem measures_allFinite_iff (x : Binary64) :
    (Value.map (measures x)).AllFinite ↔ x.isFinite = true := by
  have htext : ∀ s, (Value.text s).AllFinite := fun s => Value.allFinite_leaf rfl (by simp)
  have hbounds : ∀ s, (Value.bounds s).AllFinite := fun s => Value.allFinite_leaf rfl (by simp)
  simp [measures, Value.allFinite_map, Value.allFinite_list, Value.allFinite_number, htext, hbounds]

/-- A negative zero reads back with its sign, also if the map lists its entries the other way round
and under a keyword that comes twice. A not-a-number does not. -/
theorem values_read_back_measures :
    Value.ofJson? (Value.map (measures (.zero true)).reverse).toJson =
        some (.map (measures (.zero true))) ∧
      Value.ofJson? (Value.map (measures .nan)).toJson = none ∧
      Attrs.ofJson? (Attrs.toJson
          ⟨[("size", .map (measures (.zero true))), ("size", .map (measures (.zero true)))]⟩) =
        some ⟨[("size", .map (measures (.zero true))), ("size", .map (measures (.zero true)))]⟩ := by
  have hregular := measures_regular (.zero true)
  have hfinite := (measures_allFinite_iff (.zero true)).2 rfl
  have hnan : ¬ (Value.map (measures .nan)).AllFinite := by
    rw [measures_allFinite_iff]
    decide
  have hnormal : (Value.map (measures (.zero true)).reverse).normal =
      .map (measures (.zero true)) := rfl
  obtain ⟨-, hback, -, hreverse⟩ := values_read_back.1 _ hregular
  refine ⟨?_, (values_read_back.1 _ (measures_regular .nan)).2.2.1 hnan, ?_⟩
  · rw [hreverse _ (measures_reverse_distinct _) hnormal, hback hfinite]
  · refine (values_read_back.2 _ ?_).2.1 ?_
    · simp [Attrs.Regular, hregular]
    · simp [Attrs.AllFinite, hfinite]

end TreeProtocol

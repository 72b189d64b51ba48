import Mathlib.Data.List.DropRight
import TreeProtocol.Admission

/-!
# The text of a cardinality

A cardinality is written in its long form and read with blanks trimmed off, around the text and
around the key. What is written therefore reads back exactly when the key is not changed by
trimming and is not empty. Every cardinality that was read is of that kind.

* `Text.trim_eq_self_iff`: trimming changes a text exactly if a blank stands at one of its ends.
* `Text.core_iff`: what trimming leaves of a text, told by the blanks in front of it and behind it.
* `parse?_text_keyed`: what the text of a keyed cardinality is read as.
* `parse?_eq_some_iff`: the texts that are read as a cardinality, by their spelling.
* `parse?_text_eq_some_iff`: the cardinalities that survive being written and read.
* `canonical_of_parse?`: reading yields no others.
* `readable_texts`: which texts are accepted, and what becomes of a cardinality that is written.
-/

namespace TreeProtocol

namespace Text

variable {s : List Char}

/-- No blank stands at either end of the text. -/
structure Bare (s : List Char) : Prop where
  front : ∀ c, s.head? = some c → isBlank c = false
  back : ∀ c, s.getLast? = some c → isBlank c = false

theorem bare_reverse (h : Bare s) : Bare s.reverse where
  front := by simpa using h.back
  back := by simpa using h.front

/-- Where trimming the front stops, no blank stands. -/
theorem head?_trimFront {c : Char} (h : (trimFront s).head? = some c) : isBlank c = false := by
  have hstop := List.head?_dropWhile_not isBlank s
  rw [show s.dropWhile isBlank = trimFront s from rfl, h] at hstop
  simpa using hstop

theorem trimFront_of_bare (h : Bare s) : trimFront s = s := by
  cases s with
  | nil => rfl
  | cons c s => exact List.dropWhile_cons_of_neg (by simp [h.front c rfl])

/-- Trimming the back of a text only shortens it, so a text that begins without a blank still does
so. -/
theorem trim_prefix (s : List Char) : trim s <+: trimFront s := by
  have hsuffix : trimFront (trimFront s).reverse <:+ (trimFront s).reverse :=
    List.dropWhile_suffix isBlank
  simpa [trim] using List.reverse_prefix.2 hsuffix

/-- A trimmed text has no blank at its ends. -/
theorem bare_trim (s : List Char) : Bare (trim s) where
  front c hc := by
    obtain ⟨rest, hrest⟩ := trim_prefix s
    have hhead : (trimFront s).head? = some c := by
      rw [← hrest, List.head?_append, hc]
      rfl
    exact head?_trimFront hhead
  back c hc := by
    have hhead : (trimFront (trimFront s).reverse).head? = some c := by
      rw [← hc, trim, List.getLast?_reverse]
    exact head?_trimFront hhead

theorem trim_of_bare (h : Bare s) : trim s = s := by
  rw [trim, trimFront_of_bare h, trimFront_of_bare (bare_reverse h), List.reverse_reverse]

/-- **Trimming leaves alone the texts without a blank at either end, and no others.** -/
theorem trim_eq_self_iff : trim s = s ↔ Bare s := by
  constructor
  · intro h
    rw [← h]
    exact bare_trim s
  · exact trim_of_bare

instance (s : List Char) : Decidable (Bare s) := decidable_of_iff _ trim_eq_self_iff

/-- The text `body` is what stands between the blanks around `s`. -/
structure Core (s body : List Char) : Prop where
  bare : Bare body
  blanks : ∃ front back, s = front ++ body ++ back ∧ (∀ c ∈ front, isBlank c = true) ∧
    ∀ c ∈ back, isBlank c = true

theorem trimFront_blanks {front : List Char} (h : ∀ c ∈ front, isBlank c = true)
    (s : List Char) : trimFront (front ++ s) = trimFront s :=
  List.dropWhile_append_of_pos h

theorem trim_blanks {front body back : List Char} (hfront : ∀ c ∈ front, isBlank c = true)
    (hback : ∀ c ∈ back, isBlank c = true) (h : Bare body) :
    trim (front ++ body ++ back) = body := by
  rw [trim, List.append_assoc, trimFront_blanks hfront]
  cases body with
  | nil =>
    -- nothing stops the trimming from the front, so the blanks behind go with it
    rw [List.nil_append, ← List.append_nil back, trimFront_blanks hback]
    rfl
  | cons c rest =>
    have hstop : trimFront (c :: rest ++ back) = c :: rest ++ back :=
      List.dropWhile_cons_of_neg (by simp [h.front c rfl])
    have hreverse : ∀ d ∈ back.reverse, isBlank d = true := by simpa using hback
    rw [hstop, List.reverse_append, trimFront_blanks hreverse,
      trimFront_of_bare (bare_reverse h), List.reverse_reverse]

/-- **Trimming leaves what stands between the blanks.** -/
theorem core_iff {body : List Char} : Core s body ↔ trim s = body := by
  constructor
  · rintro ⟨hbare, front, back, rfl, hfront, hback⟩
    exact trim_blanks hfront hback hbare
  · rintro rfl
    refine ⟨bare_trim s, s.takeWhile isBlank, (trimFront s).rtakeWhile isBlank, ?_, ?_, ?_⟩
    · have hback : trim s ++ (trimFront s).rtakeWhile isBlank = trimFront s :=
        List.rdropWhile_append_rtakeWhile
      rw [List.append_assoc, hback]
      exact List.takeWhile_append_dropWhile.symm
    · exact fun c hc => List.mem_takeWhile_imp hc
    · exact fun c hc => List.mem_rtakeWhile_imp hc

theorem core_self (h : Bare s) : Core s s := core_iff.2 (trim_of_bare h)

theorem core_trim (s : String) : Core s.toList (String.ofList (trim s.toList)).toList := by
  rw [String.toList_ofList]
  exact core_iff.2 rfl

/-- Nothing is left of a text exactly if it is blank throughout. -/
theorem trim_eq_nil_iff : trim s = [] ↔ ∀ c ∈ s, isBlank c = true := by
  constructor
  · intro h
    obtain ⟨-, front, back, rfl, hfront, hback⟩ := core_iff.2 h
    intro c hc
    rw [List.append_nil, List.mem_append] at hc
    exact hc.elim (hfront c) (hback c)
  · intro h
    have hnil : Bare [] := ⟨nofun, nofun⟩
    exact core_iff.1 ⟨hnil, s, [], by simp, h, nofun⟩

end Text

namespace Cardinality

/-- A cardinality that its own text stands for: the key, if there is one, is not empty and has no
blank at its ends. -/
def Canonical : Cardinality → Prop
  | .keyed key => key ≠ "" ∧ Text.Bare key.toList
  | _ => True

/-- What stands between the opening and the parenthesis at the end is read as the key. -/
theorem readKey?_closed (key : List Char) :
    readKey? (keyedOpening ++ key ++ [')']) =
      if (Text.trim key).isEmpty then none else some (Text.trim key) := by
  have hopen : keyedOpening.isPrefixOf (keyedOpening ++ key ++ [')']) = true := by
    rw [List.isPrefixOf_iff_prefix, List.append_assoc]
    exact List.prefix_append _ _
  have hclosed : (keyedOpening ++ key ++ [')']).getLast? = some ')' := List.getLast?_concat
  have hkey : ((keyedOpening ++ key ++ [')']).drop keyedOpening.length).dropLast = key := by
    rw [List.append_assoc, List.drop_left, List.dropLast_concat]
  rw [readKey?, hopen, hclosed, hkey]
  simp

/-- The text of a keyed cardinality is read with the key trimmed, and not at all if nothing is left
of the key. -/
theorem parse?_text_keyed (key : String) :
    parse? (keyed key).text =
      if (Text.trim key.toList).isEmpty then none
      else some (.keyed (String.ofList (Text.trim key.toList))) := by
  have htext : (keyed key).text.toList = keyedOpening ++ key.toList ++ [')'] := by
    simp [text, keyedOpening]
  have hbare : Text.Bare (keyedOpening ++ key.toList ++ [')']) := by
    constructor
    · intro c hc
      have hk : c = 'k' := by simpa [keyedOpening] using hc.symm
      rw [hk]
      decide
    · intro c hc
      have hp : c = ')' := by simpa using hc.symm
      rw [hp]
      decide
  rw [parse?, htext, Text.trim_of_bare hbare, readKey?_closed]
  simp only [keyedOpening, List.cons_append, List.cons.injEq, Char.reduceEq, false_and, or_self,
    if_false]
  split <;> rfl

/-! ### The texts that are read -/

/-- The texts that name a cardinality without a key, in their long and in their short form. -/
def plainTexts : List (String × Cardinality) :=
  [("optional", .optional), ("?", .optional), ("one", .one), ("1", .one), ("many", .many),
    ("*", .many)]

/-- How a cardinality is spelled, blanks around the text apart. The key is taken from all that
stands between the opening and the last parenthesis, so it may hold parentheses of its own. -/
inductive Spells : String → Cardinality → Prop where
  | plain {text : String} {c : Cardinality} (listed : (text, c) ∈ plainTexts) : Spells text c
  | keyed {inside key : String} (core : Text.Core inside.toList key.toList) (named : key ≠ "") :
      Spells ("keyed(" ++ inside ++ ")") (.keyed key)

/-- Blanks around a text do not matter. -/
theorem parse?_of_core {s body : String} (h : Text.Core s.toList body.toList) :
    parse? s = parse? body := by
  have hbody : Text.trim body.toList = body.toList := Text.trim_of_bare h.bare
  rw [parse?, parse?, Text.core_iff.1 h, hbody]

theorem parse?_keyed {inside key : String} (core : Text.Core inside.toList key.toList)
    (named : key ≠ "") : parse? (keyed inside).text = some (.keyed key) := by
  rw [parse?_text_keyed, Text.core_iff.1 core, if_neg (by simpa using named), String.ofList_toList]

theorem parse?_of_spells {body : String} {c : Cardinality} (h : Spells body c) :
    parse? body = some c := by
  cases h with
  | plain listed =>
    have hall : ∀ e ∈ plainTexts, parse? e.1 = some e.2 := by decide +kernel
    exact hall (_, _) listed
  | keyed core named => exact parse?_keyed core named

/-- A text from which a key is read has the opening at its front and a parenthesis at its end. -/
theorem exists_inside_of_readKey? {s key : List Char} (h : readKey? s = some key) :
    ∃ inside, s = keyedOpening ++ inside ++ [')'] := by
  rw [readKey?, Option.ite_none_right_eq_some] at h
  obtain ⟨hshape, -⟩ := h
  simp only [Bool.and_eq_true, beq_iff_eq, decide_eq_true_eq, List.isPrefixOf_iff_prefix] at hshape
  obtain ⟨⟨⟨rest, rfl⟩, hlast⟩, hlong⟩ := hshape
  have hrest : rest ≠ [] := by
    rintro rfl
    simp at hlong
  rw [List.getLast?_append_of_ne_nil _ hrest] at hlast
  obtain ⟨inside, rfl⟩ := List.getLast?_eq_some_iff.1 hlast
  exact ⟨inside, (List.append_assoc _ _ _).symm⟩

theorem spells_of_readKey? {body key : List Char} (h : readKey? body = some key) :
    Spells (String.ofList body) (.keyed (String.ofList key)) := by
  obtain ⟨inside, rfl⟩ := exists_inside_of_readKey? h
  rw [readKey?_closed, Option.ite_none_left_eq_some, Option.some.injEq] at h
  obtain ⟨hnamed, rfl⟩ := h
  have htext : String.ofList (keyedOpening ++ inside ++ [')']) =
      "keyed(" ++ String.ofList inside ++ ")" := by
    rw [String.ofList_append, String.ofList_append]
    rfl
  rw [htext]
  apply Spells.keyed
  · simpa using Text.core_trim (String.ofList inside)
  · simpa using hnamed

/-- **A text is read as the cardinality that it spells**, blanks around the text apart. -/
theorem parse?_eq_some_iff {s : String} {c : Cardinality} :
    parse? s = some c ↔ ∃ body : String, Text.Core s.toList body.toList ∧ Spells body c := by
  constructor
  · intro h
    refine ⟨_, Text.core_trim s, ?_⟩
    rw [parse?] at h
    split_ifs at h with hoptional hone hmany
    · cases h
      rcases hoptional with htext | htext <;> rw [htext] <;> exact .plain (by decide)
    · cases h
      rcases hone with htext | htext <;> rw [htext] <;> exact .plain (by decide)
    · cases h
      rcases hmany with htext | htext <;> rw [htext] <;> exact .plain (by decide)
    · obtain ⟨key, hkey, rfl⟩ := Option.map_eq_some_iff.1 h
      exact spells_of_readKey? hkey
  · rintro ⟨body, hcore, hspells⟩
    rw [parse?_of_core hcore, parse?_of_spells hspells]

/-- A text that is not blank throughout has a core that is not empty. -/
theorem exists_core {inside : String} (h : ∃ x ∈ inside.toList, Text.isBlank x = false) :
    ∃ key : String, Text.Core inside.toList key.toList ∧ key ≠ "" := by
  refine ⟨_, Text.core_trim inside, ?_⟩
  intro hempty
  obtain ⟨x, hx, hshown⟩ := h
  have hnil : Text.trim inside.toList = [] := by simpa using hempty
  rw [Text.trim_eq_nil_iff.1 hnil x hx] at hshown
  cases hshown

theorem exists_shown_of_core {inside key : String} (core : Text.Core inside.toList key.toList)
    (named : key ≠ "") : ∃ x ∈ inside.toList, Text.isBlank x = false := by
  by_contra hblank
  simp only [not_exists, not_and, Bool.not_eq_false] at hblank
  have hkey : key.toList = [] := by
    rw [← Text.core_iff.1 core]
    exact Text.trim_eq_nil_iff.2 hblank
  exact named (by simpa using hkey)

/-- The texts that spell some cardinality. -/
theorem exists_spells_iff {body : String} :
    (∃ c, Spells body c) ↔ body ∈ plainTexts.map (·.1) ∨
      ∃ inside : String, body = "keyed(" ++ inside ++ ")" ∧
        ∃ x ∈ inside.toList, Text.isBlank x = false := by
  constructor
  · rintro ⟨c, h⟩
    cases h with
    | plain listed => exact .inl (List.mem_map_of_mem listed)
    | keyed core named => exact .inr ⟨_, rfl, exists_shown_of_core core named⟩
  · rintro (hplain | ⟨inside, rfl, hshown⟩)
    · obtain ⟨e, listed, rfl⟩ := List.mem_map.1 hplain
      exact ⟨e.2, .plain listed⟩
    · obtain ⟨key, core, named⟩ := exists_core hshown
      exact ⟨.keyed key, .keyed core named⟩

theorem read_eq_ok_iff {s : String} {c : Cardinality} : read s = .ok c ↔ parse? s = some c := by
  rw [read]
  cases parse? s <;> simp

theorem exists_error_iff {s : String} : (∃ e, read s = .error e) ↔ parse? s = none := by
  rw [read]
  cases parse? s <;> simp

/-! ### The texts that are written -/

theorem canonical_of_spells {body : String} {c : Cardinality} (h : Spells body c) :
    c.Canonical := by
  cases h with
  | plain listed =>
    have hall : ∀ e ∈ plainTexts, e.2.Canonical := by simp [plainTexts, Canonical]
    exact hall (_, _) listed
  | keyed core named => exact ⟨named, core.bare⟩

/-- **Every cardinality that is read is canonical.** -/
theorem canonical_of_parse? {s : String} {c : Cardinality} (h : parse? s = some c) :
    c.Canonical := by
  obtain ⟨body, -, hspells⟩ := parse?_eq_some_iff.1 h
  exact canonical_of_spells hspells

/-- **A cardinality reads back from its text exactly if it is canonical.** -/
theorem parse?_text_eq_some_iff (c : Cardinality) : parse? c.text = some c ↔ c.Canonical := by
  constructor
  · exact canonical_of_parse?
  · intro h
    cases c with
    | optional => decide +kernel
    | one => decide +kernel
    | many => decide +kernel
    | keyed key => exact parse?_keyed (Text.core_self h.2) h.1

/-- The text of a cardinality is refused exactly if there is a key and nothing else than blanks in
it. -/
theorem parse?_text_eq_none_iff (c : Cardinality) :
    parse? c.text = none ↔ ∃ key, c = .keyed key ∧ ∀ x ∈ key.toList, Text.isBlank x = true := by
  cases c with
  | optional => exact iff_of_false (by decide +kernel) (by simp)
  | one => exact iff_of_false (by decide +kernel) (by simp)
  | many => exact iff_of_false (by decide +kernel) (by simp)
  | keyed key =>
    rw [parse?_text_keyed]
    simp [Text.trim_eq_nil_iff]

theorem canonical_iff (c : Cardinality) :
    c.Canonical ↔ ∀ key, c = .keyed key → key ≠ "" ∧ Text.Bare key.toList := by
  cases c <;> simp [Canonical]

/-- **Which texts are cardinalities, and which cardinalities come back from their text.** Without
the blanks around it, an accepted text is one of six words and marks, or has something else than
blanks between `keyed(` and the last parenthesis; what was read from it is read again from its own
text. The text of any cardinality is read as that cardinality if there is no key or the key has no
blanks to lose, is refused if the key has nothing but blanks, and is read with the trimmed key
otherwise. -/
theorem readable_texts :
    (∀ s : String, (∃ c, read s = .ok c) ↔
        ∃ body : String, Text.Core s.toList body.toList ∧
          (body ∈ ["optional", "?", "one", "1", "many", "*"] ∨
            ∃ inside : String, body = "keyed(" ++ inside ++ ")" ∧
              ∃ x ∈ inside.toList, Text.isBlank x = false)) ∧
      (∀ s c, read s = .ok c → read c.text = .ok c) ∧
      ∀ c : Cardinality,
        (read c.text = .ok c ↔ ∀ key, c = .keyed key → key ≠ "" ∧ Text.Bare key.toList) ∧
          ((∃ e, read c.text = .error e) ↔
            ∃ key, c = .keyed key ∧ ∀ x ∈ key.toList, Text.isBlank x = true) ∧
          ∀ key, c = .keyed key → (∃ x ∈ key.toList, Text.isBlank x = false) →
            ∃ trimmed : String, Text.Core key.toList trimmed.toList ∧
              read c.text = .ok (.keyed trimmed) := by
  refine ⟨fun s => ?_, fun s c h => ?_, fun c => ⟨?_, ?_, ?_⟩⟩
  · simp only [read_eq_ok_iff, parse?_eq_some_iff]
    rw [exists_comm]
    apply exists_congr
    intro body
    rw [exists_and_left, exists_spells_iff]
    rfl
  · have hcanonical : c.Canonical := canonical_of_parse? (read_eq_ok_iff.1 h)
    exact read_eq_ok_iff.2 ((parse?_text_eq_some_iff c).2 hcanonical)
  · rw [read_eq_ok_iff, parse?_text_eq_some_iff, canonical_iff]
  · rw [exists_error_iff, parse?_text_eq_none_iff]
  · rintro key rfl hshown
    obtain ⟨trimmed, core, named⟩ := exists_core hshown
    exact ⟨trimmed, core, read_eq_ok_iff.2 (parse?_keyed core named)⟩

/-- A key with a parenthesis, in a text with blanks, and a key that is the name of another
cardinality. -/
theorem readable_texts_parenthesis :
    read " keyed( a) ) \n" = .ok (.keyed "a)") ∧
      read (keyed "a)").text = .ok (.keyed "a)") ∧
      ∃ trimmed : String, Text.Core "\t one".toList trimmed.toList ∧
        read (keyed "\t one").text = .ok (.keyed trimmed) := by
  have hread : read " keyed( a) ) \n" = .ok (.keyed "a)") :=
    read_eq_ok_iff.2 (by decide +kernel)
  have hshown : ∃ x ∈ "\t one".toList, Text.isBlank x = false := ⟨'o', by decide, by decide⟩
  exact ⟨hread, readable_texts.2.1 _ _ hread,
    (readable_texts.2.2 (.keyed "\t one")).2.2 _ rfl hshown⟩

end Cardinality

end TreeProtocol

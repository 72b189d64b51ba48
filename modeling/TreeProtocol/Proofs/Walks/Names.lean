import TreeProtocol.Proofs.Arena.Grounding
import TreeProtocol.Proofs.Walks.Agents

/-!
# Descents by name

A visit may descend into all relations of its site or into those that it names. Names are looked up
in the relations that were reported, so the two agree only as far as no two relations share a name,
and as far as it makes no difference how often and in which order right nodes are visited.

* `ByName` — descents by name bring back what the descent into all relations has in that place;
* `Walk.exists_byName` — a site with well-formed bundles descends by name;
* `Visitor.Pure`, `Walk.node_pure` — walks of pure visitors have results and change nothing;
* `names_agree` — it is so for trees that can be obtained and for arenas that are reached.
-/

namespace TreeProtocol

open TreeProtocol.Action

variable {L W N R : Type}

/-- What stands for a name: what stands for the relation of that name among all relations, or
nothing if there is none. -/
structure EntryFor (relations : List Relation) (all : List (Findings R)) (name : String)
    (findings : Findings R) : Prop where
  reported : ∀ (i : Nat) (relation : Relation), relations[i]? = some relation →
    relation.name = name → all[i]? = some findings
  unknown : (∀ relation ∈ relations, relation.name ≠ name) → findings = .sequence []

/-- The descent into all relations has the results `all`, one for each. The descent into the
relations of some names has one result for each name, in the order of the names. -/
structure ByName (descent : Option (List String) → Action W (List (Findings R)))
    (relations : List Relation) (w : W) (all : List (Findings R)) : Prop where
  every : (descent none).Yields w all
  length : all.length = relations.length
  named : ∀ names, ∃ found, (descent (some names)).Yields w found ∧
    List.Forall₂ (EntryFor relations all) names found
  inOrder : (descent (some (relations.map (·.name)))).Yields w all

/-- The site is one of the view: it knows what the view answers about its node. -/
structure Site.Read (view : W → View N) (w : W) (site : Site W N) : Prop where
  inspector : site.inspector = .reading view
  kind : (view w).kind site.node = .ok site.kind
  attrs : (view w).attrs site.node = .ok site.attrs
  relations : (view w).relations site.node = .ok site.relations

namespace Walk

variable {step : Step L W N R} {site : Site W N} {label : L} {view : W → View N} {w : W}

/-- Visits of the right nodes of the site have results and change nothing. -/
def RightsPure (step : Step L W N R) (site : Site W N) (label : L) (w : W) : Prop :=
  ∀ relation ∈ site.relations, ∀ related,
    (site.inspector.related relation site.node).Yields w related → ∀ r ∈ related.pairs,
      ∃ result, (step site.inspector label (some ⟨relation, r.2⟩) r.1).Yields w result

/-- **Looking relations up by their names.** If every relation has a result by itself and no two of
them share a name, all descents are told by these results. -/
theorem byName_of_into {entry : Relation → Findings R} {other : Option L}
    (names : (site.relations.map (·.name)).Nodup)
    (into : ∀ relation ∈ site.relations,
      (intoRelation step site (other.getD label) relation).Yields w (entry relation)) :
    ByName (descend step site label · other) site.relations w (site.relations.map entry) := by
  have named : ∀ asked : List String, (descend step site label (some asked) other).Yields w
      (asked.map fun name =>
        (site.relations.find? (·.name == name)).elim (.sequence []) entry) := by
    intro asked
    refine yields_forEach fun name _ => ?_
    rw [intoNamed]
    cases found : site.relations.find? (·.name == name) with
    | none => exact yields_pure _ w
    | some relation => exact into relation (List.mem_of_find?_eq_some found)
  refine ⟨yields_forEach into, List.length_map _, fun asked => ⟨_, named asked, ?_⟩, ?_⟩
  · rw [List.forall₂_map_right_iff, List.forall₂_same]
    intro name _
    refine ⟨fun i relation there same => ?_, fun unknown => ?_⟩
    · rw [← same, find?_of_nodup names (List.mem_of_getElem? there), List.getElem?_map, there]
      rfl
    · rw [List.find?_eq_none.2 fun relation h => by rw [beq_iff_eq]; exact unknown relation h]
      rfl
  · have all : (site.relations.map (·.name)).map (fun name =>
        (site.relations.find? (·.name == name)).elim (.sequence []) entry) =
          site.relations.map entry := by
      rw [List.map_map]
      refine List.map_congr_left fun relation h => ?_
      show (site.relations.find? (·.name == relation.name)).elim _ entry = entry relation
      rw [find?_of_nodup names h]
      rfl
    rw [← all]
    exact named _

/-- **A site with well-formed bundles descends by name**, if visits of its right nodes have results
and change nothing. -/
theorem exists_byName {bundles : List (Bundle N)} (wellFormed : Bundle.WellFormed bundles)
    (relations : site.relations = Bundle.relations bundles)
    (related : ∀ b ∈ bundles, (site.inspector.related b.relation site.node).Yields w ⟨b.rights⟩)
    (label : L) {other : Option L} (rightsPure : RightsPure step site (other.getD label) w) :
    ∃ all, ByName (descend step site label · other) site.relations w all := by
  have into : ∀ relation ∈ site.relations, ∃ findings,
      (intoRelation step site (other.getD label) relation).Yields w findings := by
    intro relation there
    have here := there
    rw [relations] at here
    obtain ⟨b, hb, rfl⟩ := List.mem_map.1 here
    have results : ∀ r ∈ b.rights, ∃ result, (step site.inspector (other.getD label)
        (some ⟨b.relation, r.2⟩) r.1).Yields w result :=
      fun r hr => rightsPure b.relation there ⟨b.rights⟩ (related b hb) r hr
    choose! result yields using results
    exact ⟨_, intoRelation_yields_results (related b hb) (wellFormed.allows hb) _ yields⟩
  have : Nonempty (Findings R) := ⟨.sequence []⟩
  choose! entry yields using into
  refine ⟨_, byName_of_into ?_ yields⟩
  rw [relations, Bundle.relations, List.map_map]
  exact wellFormed.names

end Walk

/-! ## Pure visitors -/

/-- At `w` the visitor never fails and changes nothing, if descents do not. Its gate lets nodes
through as they are, or leaves them out. -/
structure Visitor.Pure (view : W → View N) (w : W) (visitor : Visitor L W N R) : Prop where
  gate : ∀ gate ∈ visitor.gate, ∀ (edge : Option Edge) (n : N) (t : Tree), (view w).Shows n t →
    (gate (.reading view) edge n).Yields w .skip ∨
      (gate (.reading view) edge n).Yields w (.proceed none)
  visit : ∀ (site : Site W N) (t : Tree) (descent : Descent L W R), site.Read view w →
    (view w).Shows site.node t → (∀ names other, ∃ found, (descent names other).Yields w found) →
    ∃ result, (visitor.visit site descent).Yields w result

namespace Walk

variable {visitors : L → Visitor L W N R} {view : W → View N} {w : W} {site : Site W N}

/-- What the inspector of a site of the view answers, and the trees of the right nodes. -/
theorem exists_bundles {t : Tree} (read : site.Read view w) (shows : (view w).Shows site.node t)
    (sound : t.Sound) :
    ∃ bundles : List (Bundle N), Bundle.WellFormed bundles ∧
      site.relations = Bundle.relations bundles ∧
      (∀ b ∈ bundles, (site.inspector.related b.relation site.node).Yields w ⟨b.rights⟩) ∧
      ∀ b ∈ bundles, ∀ r ∈ b.rights, ∃ t' : Tree, (view w).Shows r.1 t' ∧ t'.Sound ∧
        t'.height < t.height := by
  obtain ⟨edge, n, kind, relations, attrs, inspector⟩ := site
  cases shows with
  | node tree kindOf attrsOf relationsOf relatedOf rights =>
    refine ⟨_, (Bundle.wellFormed_map tree).1 sound.wellFormed,
      Except.ok.inj (read.relations.symm.trans relationsOf), fun b hb => ?_, fun b hb r hr => ?_⟩
    · rw [read.inspector]
      exact Inspector.reading_related (relatedOf b hb)
    · have hb' : b.map tree ∈ List.map (Bundle.map tree) _ := List.mem_map_of_mem hb
      have hr' : (tree r.1, r.2) ∈ (b.map tree).rights := List.mem_map_of_mem hr
      exact ⟨tree r.1, rights b hb r hr, sound.right hb' hr', Tree.height_lt hb' hr'⟩

/-- Visits of the right nodes of a site are pure if all visits of lower trees are. -/
theorem rightsPure_of_lower {step : Step L W N R} {t : Tree} (read : site.Read view w)
    (shows : (view w).Shows site.node t) (sound : t.Sound)
    (lower : ∀ (n : N) (t' : Tree), (view w).Shows n t' → t'.Sound → t'.height < t.height →
      ∀ label edge, ∃ result, (step (.reading view) label edge n).Yields w result) (label : L) :
    RightsPure step site label w := by
  obtain ⟨bundles, -, relations, related, below⟩ := exists_bundles read shows sound
  intro relation there answer answers r hr
  rw [relations] at there
  obtain ⟨b, hb, rfl⟩ := List.mem_map.1 there
  have same : answer = ⟨b.rights⟩ :=
    Outcome.done.inj (answers.1.symm.trans (related b hb).1)
  rw [same] at hr
  obtain ⟨t', shown, sound', less⟩ := below b hb r hr
  rw [read.inspector]
  exact lower r.1 t' shown sound' less label _

theorem descend_pure {step : Step L W N R} {t : Tree} (read : site.Read view w)
    (shows : (view w).Shows site.node t) (sound : t.Sound)
    (rightsPure : ∀ label, RightsPure step site label w) (label : L) (names : Option (List String))
    (other : Option L) : ∃ found, (descend step site label names other).Yields w found := by
  obtain ⟨bundles, wellFormed, relations, related, -⟩ := exists_bundles read shows sound
  obtain ⟨all, byName⟩ := exists_byName wellFormed relations related label
    (rightsPure (other.getD label))
  cases names with
  | none => exact ⟨all, byName.every⟩
  | some names =>
    obtain ⟨found, yields, -⟩ := byName.named names
    exact ⟨found, yields⟩

theorem judge_pure {visitor : Visitor L W N R} (pure : visitor.Pure view w) {n : N} {t : Tree}
    (shows : (view w).Shows n t) (edge : Option Edge) :
    (judge visitor (.reading view) edge n).Yields w .skip ∨
      (judge visitor (.reading view) edge n).Yields w (.proceed none) := by
  cases gate : visitor.gate with
  | none =>
    rw [judge_ungated gate]
    exact .inr (yields_pure _ w)
  | some asked =>
    rw [judge_gated gate]
    exact pure.gate asked gate edge n t shows

theorem exists_read {n : N} {t : Tree} (shows : (view w).Shows n t) (edge : Option Edge) :
    ∃ site : Site W N, (survey (.reading view) edge n).Yields w site ∧ site.node = n ∧
      site.Read view w := by
  cases shows with
  | @node _ kind attrs bundles tree kindOf attrsOf relationsOf _ _ =>
    refine ⟨⟨edge, n, kind, Bundle.relations bundles, attrs, .reading view⟩, ?_, rfl,
      ⟨rfl, kindOf, attrsOf, relationsOf⟩⟩
    refine (Inspector.reading_kind kindOf).bind ?_
    refine (Inspector.reading_relations relationsOf).bind ?_
    exact (Inspector.reading_attrs attrsOf).bind (yields_pure _ w)

/-- **Walks of pure visitors have results and change nothing.** Induction on the limit of the walk,
which has to be as high as the tree that is shown. -/
theorem node_pure (pure : ∀ label, (visitors label).Pure view w) {limit : Nat} {n : N} {t : Tree}
    (shows : (view w).Shows n t) (sound : t.Sound) (hlimit : t.height ≤ limit) (label : L)
    (edge : Option Edge) :
    ∃ result, (node visitors limit (.reading view) label edge n).Yields w result := by
  induction limit generalizing n t label edge with
  | zero => exact absurd hlimit (Nat.not_le.2 t.height_pos)
  | succ limit ih =>
    rw [node, level, arrive]
    rcases judge_pure (pure label) shows edge with skips | proceeds
    · exact ⟨none, skips.bind (.emit_bind _ (yields_pure none w))⟩
    · obtain ⟨site, surveyed, rfl, read⟩ := exists_read shows edge
      have lower : ∀ (n : N) (t' : Tree), (view w).Shows n t' → t'.Sound → t'.height < t.height →
          ∀ label edge, ∃ result,
            (node visitors limit (.reading view) label edge n).Yields w result :=
        fun n t' shown sound' less => ih shown sound' (by omega)
      have descents := descend_pure read shows sound (rightsPure_of_lower read shows sound lower)
        label
      obtain ⟨result, visits⟩ := (pure label).visit site t _ read shows descents
      exact ⟨some result, proceeds.bind (surveyed.bind
        (.emit_bind _ (visits.bind (yields_pure _ w))))⟩

end Walk

/-! ## Trees and arenas -/

/-- At the node of the view, descents by name agree with the descent into all relations, as far as
visits of the right nodes have results and change nothing; and these do if the visitors are pure and
the limit is no lower than the depth below the node. -/
def NamesAgree (view : W → View N) (w : W) (n : N) (depth : Nat) : Prop :=
  ∀ (L R : Type) (visitors : L → Visitor L W N R) (limit : Nat) (site : Site W N) (label : L)
    (other : Option L), site.node = n → site.Read view w →
    (Walk.RightsPure (Walk.node visitors limit) site (other.getD label) w →
      ∃ all, ByName (Walk.descend (Walk.node visitors limit) site label · other) site.relations w
        all) ∧
    ((∀ label, (visitors label).Pure view w) → depth ≤ limit + 1 →
      Walk.RightsPure (Walk.node visitors limit) site (other.getD label) w)

theorem namesAgree_of_shows (view : W → View N) (w : W) {n : N} {t : Tree}
    (shows : (view w).Shows n t) (sound : t.Sound) {depth : Nat} (hdepth : t.height ≤ depth) :
    NamesAgree view w n depth := by
  rintro L R visitors limit site label other rfl read
  refine ⟨fun rightsPure => ?_, fun pure hlimit => ?_⟩
  · obtain ⟨bundles, wellFormed, relations, related, -⟩ := Walk.exists_bundles read shows sound
    exact Walk.exists_byName wellFormed relations related label rightsPure
  · refine Walk.rightsPure_of_lower read shows sound (fun n t' shown sound' less => ?_) _
    exact Walk.node_pure pure shown sound' (by omega)

/-- **Descents by name agree with the descent into all relations** at every tree that can be
obtained and at every node of an arena that is reached and has no cycle below the node. -/
theorem names_agree :
    (∀ (W : Type) (w : W) (t : Tree), t.Obtained →
      NamesAgree (fun _ : W => Tree.view) w t t.height) ∧
    ∀ (schema : Option Schema) (calls : List (Call Handle)) (n : Handle),
      n.index < (Arena.reached schema calls).size →
      (Arena.reached schema calls).AcyclicBelow n →
      ∀ (W : Type) (place : Lens W Arena) (w : W), place.get w = Arena.reached schema calls →
        NamesAgree (fun w => (place.get w).view) w n (Arena.reached schema calls).size := by
  refine ⟨fun W w t obtained => ?_, fun schema calls n there acyclic W place w held => ?_⟩
  · exact namesAgree_of_shows _ w (Tree.shows_self obtained.sound) obtained.sound (Nat.le_refl _)
  · obtain ⟨t, unfolds⟩ :=
      (Arena.exists_unfolds_iff (Arena.reached_closed schema calls)).2 ⟨there, acyclic⟩
    have sound := unfolds.sound (Arena.reached_wellFormed schema calls)
    have shows : (place.get w).view.Shows n t := held ▸ unfolds.shows sound
    exact namesAgree_of_shows _ w shows sound unfolds.height_le

/-- Lists kinds from the root down, and leaves out what is related as `first`. -/
def kindsBelow : Visitor Unit W N (List Kind) where
  gate := some fun _ edge _ => Action.pure
    (if edge.any (·.relation.name == "first") then .skip else .proceed none)
  visit site descent := do
    let findings ← descent none none
    Action.pure (site.kind :: (findings.flatMap Findings.values).flatten)

theorem kindsBelow_pure (view : W → View N) (w : W) : (kindsBelow (W := W)).Pure view w where
  gate := by
    rintro gate ⟨⟩ edge n t -
    dsimp only
    cases edge.any (·.relation.name == "first") with
    | true => exact .inl (yields_pure _ w)
    | false => exact .inr (yields_pure _ w)
  visit := by
    intro site t descent _ _ descents
    obtain ⟨found, yields⟩ := descents none none
    exact ⟨_, yields.bind (yields_pure _ w)⟩

/-- The pair of `Arena.pairCalls` as a site. -/
def pairSite : Site Arena Handle :=
  ⟨none, ⟨1⟩, "pair", [⟨"items", .many⟩, ⟨"first", .one⟩], ∅, Arena.inspector Lens.whole⟩

theorem names_agree_pair :
    (Arena.reached none Arena.pairCalls).AcyclicBelow ⟨1⟩ ∧
    ∃ all found,
      ByName (Walk.descend (Walk.node (fun _ => kindsBelow) 1) pairSite () · none)
        pairSite.relations (Arena.reached none Arena.pairCalls) all ∧
      (Walk.descend (Walk.node (fun _ => kindsBelow) 1) pairSite ()
        (some ["first", "last", "items", "first"]) none).Yields
          (Arena.reached none Arena.pairCalls) found ∧
      all = [.sequence [some ["literal"], some ["literal"]], .single none] ∧
      found = [.single none, .sequence [], .sequence [some ["literal"], some ["literal"]],
        .single none] := by
  obtain ⟨agree, pure⟩ := names_agree.2 none Arena.pairCalls ⟨1⟩ (by decide)
    Arena.acyclicBelow_pair Arena Lens.whole _ rfl Unit (List Kind) (fun _ => kindsBelow) 1 pairSite
    () none rfl ⟨rfl, rfl, rfl, rfl⟩
  obtain ⟨all, byName⟩ := agree (pure (fun _ => kindsBelow_pure _ _) (by decide))
  obtain ⟨found, yields, -⟩ := byName.named ["first", "last", "items", "first"]
  exact ⟨Arena.acyclicBelow_pair, all, found, byName, yields,
    Outcome.done.inj (byName.every.1.symm.trans rfl), Outcome.done.inj (yields.1.symm.trans rfl)⟩

end TreeProtocol

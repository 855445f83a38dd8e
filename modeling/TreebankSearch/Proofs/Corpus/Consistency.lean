import TreebankSearch.Proofs.Corpus.Plan

/-!
# Consistent catalogs

A list of corpora makes a catalog just if it is consistent: ids and components are distinct, and whatever
names components of a corpus names some that it has. Every corpus and every shard is then found under its
own name, and nothing else is. A list that is refused is refused for its first fault: that of the first
corpus that has one, and there the first in the order in which the parts of a corpus are checked.
-/

namespace TreebankSearch

theorem exists_of_firstRepeated? {seen xs : List String} {x : String}
    (h : firstRepeated? seen xs = some x) : ∃ before after, xs = before ++ x :: after ∧
      firstRepeated? seen before = none ∧ (x ∈ seen ∨ x ∈ before) := by
  induction xs generalizing seen with
  | nil => cases h
  | cons y xs ih =>
    unfold firstRepeated? at h
    split at h
    · next hy =>
      cases h
      exact ⟨[], xs, rfl, rfl, .inl hy⟩
    · next hy =>
      obtain ⟨before, after, rfl, hbefore, hx⟩ := ih h
      refine ⟨y :: before, after, rfl, ?_, ?_⟩
      · rw [firstRepeated?, if_neg hy, hbefore]
      · simpa only [List.mem_cons, or_assoc, or_left_comm] using hx

namespace Corpus

variable {corpus : Corpus} {error : CatalogError}

def Knows (corpus : Corpus) (components : List String) : Prop :=
  ∀ component ∈ components, component ∈ corpus.components

structure Consistent (corpus : Corpus) : Prop where
  distinct : corpus.components.Nodup
  grouped : ∀ group ∈ corpus.groups, corpus.Knows group.components
  listed : ∀ index ∈ corpus.index, ∀ entry ∈ index.entries, corpus.Knows entry.2

def FirstUnknown (corpus : Corpus) (named : List String) (component : String) : Prop :=
  ∃ before after, named = before ++ component :: after ∧ corpus.Knows before ∧
    component ∉ corpus.components

/-- The faults of a corpus, each under the condition that the checks before its own are passed: that of
the shards, then that of each group, then that of the index. -/
inductive Faulty (corpus : Corpus) : CatalogError → Prop
  | repeated {before after : List String} {component : String}
      (h : corpus.components = before ++ component :: after) (hbefore : before.Nodup)
      (hm : component ∈ before) : Faulty corpus (.duplicateComponent corpus.id component)
  | grouped {before after : List ComponentGroup} {group : ComponentGroup} {component : String}
      (hdistinct : corpus.components.Nodup) (h : corpus.groups = before ++ group :: after)
      (hbefore : ∀ earlier ∈ before, corpus.Knows earlier.components)
      (hunknown : corpus.FirstUnknown group.components component) :
      Faulty corpus (.unknownComponent corpus.id (.group group.id) component)
  | listed {index : ShapeIndex} {signature component : String} {components : List String}
      (hdistinct : corpus.components.Nodup)
      (hgroups : ∀ group ∈ corpus.groups, corpus.Knows group.components)
      (hindex : corpus.index = some index) (h : (signature, components) ∈ index.entries)
      (hunknown : corpus.FirstUnknown components component) :
      Faulty corpus (.unknownComponent corpus.id (.shape signature) component)

theorem find?_unknown_eq_none_iff {named : List String} :
    named.find? (· ∉ corpus.components) = none ↔ corpus.Knows named := by
  simp [Knows]

theorem firstUnknown_of_find? {named : List String} {component : String}
    (h : named.find? (· ∉ corpus.components) = some component) :
    corpus.FirstUnknown named component := by
  obtain ⟨hunknown, before, after, rfl, hbefore⟩ := List.find?_eq_some_iff_append.1 h
  exact ⟨before, after, rfl, fun earlier hm => by simpa using hbefore earlier hm,
    by simpa using hunknown⟩

theorem unknownMention?_eq (corpus : Corpus) : corpus.unknownMention? =
    (corpus.groups.findSome? fun group =>
      (group.components.find? (· ∉ corpus.components)).map fun component =>
        (.group group.id, component)).or
    ((corpus.index.getD .empty).entries.findSome? fun entry =>
      (entry.2.find? (· ∉ corpus.components)).map fun component => (.shape entry.1, component)) := by
  rw [unknownMention?, mentions, List.findSome?_append, List.findSome?_map, List.findSome?_map]
  rfl

theorem unknownMention?_eq_none_iff : corpus.unknownMention? = none ↔
    (∀ group ∈ corpus.groups, corpus.Knows group.components) ∧
      ∀ index ∈ corpus.index, ∀ entry ∈ index.entries, corpus.Knows entry.2 := by
  simp only [unknownMention?_eq, Option.or_eq_none_iff, List.findSome?_eq_none_iff,
    Option.map_eq_none_iff, find?_unknown_eq_none_iff]
  refine and_congr_right fun _ => ?_
  cases corpus.index with
  | none => simp [Table.empty]
  | some index => simp

theorem fault?_eq_none_iff : corpus.fault? = none ↔ corpus.Consistent := by
  unfold fault?
  cases hrepeated : firstRepeated? [] corpus.components with
  | some component =>
    refine iff_of_false (Option.some_ne_none _) fun h => ?_
    rw [firstRepeated?_eq_none_iff.2 ⟨h.distinct, fun _ _ => List.not_mem_nil⟩] at hrepeated
    cases hrepeated
  | none =>
    rw [Option.map_eq_none_iff, unknownMention?_eq_none_iff]
    constructor
    · rintro ⟨hgroups, hindex⟩
      exact ⟨(firstRepeated?_eq_none_iff.1 hrepeated).1, hgroups, hindex⟩
    · rintro ⟨-, hgroups, hindex⟩
      exact ⟨hgroups, hindex⟩

theorem faulty_of_fault? (h : corpus.fault? = some error) : corpus.Faulty error := by
  unfold fault? at h
  split at h
  · next component hrepeated =>
    cases h
    obtain ⟨before, after, he, hbefore, hm⟩ := exists_of_firstRepeated? hrepeated
    exact .repeated he (firstRepeated?_eq_none_iff.1 hbefore).1
      (hm.resolve_left List.not_mem_nil)
  · next hrepeated =>
    have hdistinct := (firstRepeated?_eq_none_iff.1 hrepeated).1
    obtain ⟨⟨mention, component⟩, hmention, rfl⟩ := Option.map_eq_some_iff.1 h
    rw [unknownMention?_eq, Option.or_eq_some_iff] at hmention
    rcases hmention with hgroup | ⟨hgroups, hentry⟩
    · obtain ⟨before, group, after, he, hfound, hbefore⟩ := List.findSome?_eq_some_iff.1 hgroup
      obtain ⟨_, hunknown, hpair⟩ := Option.map_eq_some_iff.1 hfound
      cases hpair
      refine .grouped hdistinct he (fun earlier hm => ?_) (firstUnknown_of_find? hunknown)
      exact find?_unknown_eq_none_iff.1 (Option.map_eq_none_iff.1 (hbefore earlier hm))
    · obtain ⟨⟨signature, components⟩, hm, hfound⟩ := List.exists_of_findSome?_eq_some hentry
      obtain ⟨_, hunknown, hpair⟩ := Option.map_eq_some_iff.1 hfound
      cases hpair
      have hknown : ∀ group ∈ corpus.groups, corpus.Knows group.components := fun group hm =>
        find?_unknown_eq_none_iff.1
          (Option.map_eq_none_iff.1 (List.findSome?_eq_none_iff.1 hgroups group hm))
      cases hindex : corpus.index with
      | none =>
        rw [hindex] at hm
        exact absurd hm List.not_mem_nil
      | some index =>
        rw [hindex] at hm
        exact .listed hdistinct hknown hindex hm (firstUnknown_of_find? hunknown)

structure FindsShards (corpus : Corpus) : Prop where
  found : ∀ component ∈ corpus.components, ∃ shard, corpus.shard? component = some shard ∧
    corpus.shards.filter (·.component = component) = [shard]
  unknown : ∀ component, component ∉ corpus.components → corpus.shard? component = none

theorem findsShards_of_distinct (h : corpus.components.Nodup) : corpus.FindsShards := by
  constructor
  · intro component hm
    obtain ⟨shard, hs, rfl⟩ := List.mem_map.1 hm
    exact ⟨shard, shard?_of_mem h hs, filter_key_eq h hs⟩
  · intro component hm
    refine List.find?_eq_none.2 fun shard hs he => hm ?_
    exact of_decide_eq_true he ▸ List.mem_map_of_mem hs

end Corpus

namespace Catalog

variable {limits : Limits} {corpora : List Corpus} {catalog : Catalog} {error : CatalogError}

structure Consistent (limits : Limits) (corpora : List Corpus) : Prop where
  flush : 0 < limits.flush
  distinct : (corpora.map (·.id)).Nodup
  corpora : ∀ corpus ∈ corpora, corpus.Consistent

/-- The faults of a catalog. That of a corpus is the fault of the catalog if the corpora before it make a
consistent one, and the id of a corpus is looked at after its parts. -/
inductive Faulty (limits : Limits) (corpora : List Corpus) : CatalogError → Prop
  | flush (h : limits.flush = 0) : Faulty limits corpora .zeroFlush
  | corpus {before after : List Corpus} {corpus : Corpus} {error : CatalogError}
      (h : corpora = before ++ corpus :: after) (hbefore : Consistent limits before)
      (herror : corpus.Faulty error) : Faulty limits corpora error
  | repeated {before after : List Corpus} {corpus : Corpus}
      (h : corpora = before ++ corpus :: after) (hbefore : Consistent limits before)
      (hcorpus : corpus.Consistent) (hm : corpus.id ∈ before.map (·.id)) :
      Faulty limits corpora (.duplicateCorpus corpus.id)

theorem fault?_eq_none_iff {seen : List String} : fault? seen corpora = none ↔
    ((corpora.map (·.id)).Nodup ∧ ∀ corpus ∈ corpora, corpus.id ∉ seen) ∧
      ∀ corpus ∈ corpora, corpus.Consistent := by
  induction corpora generalizing seen with
  | nil => simp [fault?]
  | cons first corpora ih =>
    unfold fault?
    split
    · next fault hfault =>
      refine iff_of_false (Option.some_ne_none _) fun h => ?_
      rw [Corpus.fault?_eq_none_iff.2 (h.2 first List.mem_cons_self)] at hfault
      cases hfault
    · next hfault =>
      split
      · next hseen =>
        exact iff_of_false (Option.some_ne_none _) fun h => h.1.2 first List.mem_cons_self hseen
      · next hseen =>
        have hfirst := Corpus.fault?_eq_none_iff.1 hfault
        rw [ih]
        simp only [List.map_cons, List.nodup_cons, List.mem_map, List.mem_cons]
        grind

theorem exists_of_fault? {seen : List String} (h : fault? seen corpora = some error) :
    ∃ before corpus after, corpora = before ++ corpus :: after ∧ fault? seen before = none ∧
      (corpus.Faulty error ∨ corpus.Consistent ∧ (corpus.id ∈ seen ∨ corpus.id ∈ before.map (·.id)) ∧
        error = .duplicateCorpus corpus.id) := by
  induction corpora generalizing seen with
  | nil => cases h
  | cons first corpora ih =>
    unfold fault? at h
    split at h
    · next fault hfault =>
      cases h
      exact ⟨[], first, corpora, rfl, rfl, .inl (Corpus.faulty_of_fault? hfault)⟩
    · next hfault =>
      split at h
      · next hseen =>
        cases h
        exact ⟨[], first, corpora, rfl, rfl,
          .inr ⟨Corpus.fault?_eq_none_iff.1 hfault, .inl hseen, rfl⟩⟩
      · next hseen =>
        obtain ⟨before, corpus, after, rfl, hbefore, hcorpus⟩ := ih h
        refine ⟨first :: before, corpus, after, rfl, ?_, hcorpus.imp_right ?_⟩
        · rw [fault?, hfault]
          simp only [if_neg hseen, hbefore]
        · rintro ⟨hconsistent, hid, rfl⟩
          refine ⟨hconsistent, ?_, rfl⟩
          simpa only [List.map_cons, List.mem_cons, or_assoc, or_left_comm] using hid

structure FindsCorpora (catalog : Catalog) (corpora : List Corpus) : Prop where
  found : ∀ corpus ∈ corpora, catalog.corpus corpus.id = .ok corpus ∧
    corpora.filter (·.id = corpus.id) = [corpus]
  unknown : ∀ id, (∀ corpus ∈ corpora, corpus.id ≠ id) →
    catalog.corpus id = .error (.unknownCorpus id)

theorem build_eq_ok_iff :
    build limits corpora = .ok catalog ↔ Consistent limits corpora ∧ catalog = ⟨limits, corpora⟩ := by
  unfold build
  split
  · next hflush =>
    refine iff_of_false nofun fun h => ?_
    exact absurd hflush (Nat.ne_of_gt h.1.flush)
  · next hflush =>
    split
    · next fault hfault =>
      refine iff_of_false nofun fun ⟨h, _⟩ => ?_
      rw [fault?_eq_none_iff.2 ⟨⟨h.distinct, fun _ _ => List.not_mem_nil⟩, h.corpora⟩] at hfault
      cases hfault
    · next hfault =>
      obtain ⟨⟨hdistinct, -⟩, hcorpora⟩ := fault?_eq_none_iff.1 hfault
      have h : Consistent limits corpora := ⟨Nat.pos_of_ne_zero hflush, hdistinct, hcorpora⟩
      rw [Except.ok.injEq, eq_comm]
      exact (and_iff_right h).symm

theorem faulty_of_build (h : build limits corpora = .error error) : Faulty limits corpora error := by
  unfold build at h
  split at h
  · next hflush =>
    cases h
    exact .flush hflush
  · next hflush =>
    split at h
    · next hfault =>
      cases h
      obtain ⟨before, corpus, after, he, hbefore, hcorpus⟩ := exists_of_fault? hfault
      obtain ⟨⟨hdistinct, -⟩, hcorpora⟩ := fault?_eq_none_iff.1 hbefore
      have hconsistent : Consistent limits before :=
        ⟨Nat.pos_of_ne_zero hflush, hdistinct, hcorpora⟩
      rcases hcorpus with herror | ⟨hc, hm, rfl⟩
      · exact .corpus he hconsistent herror
      · exact .repeated he hconsistent hc (hm.resolve_left List.not_mem_nil)
    · cases h

theorem findsCorpora_of_consistent (h : Consistent limits corpora) :
    FindsCorpora ⟨limits, corpora⟩ corpora := by
  constructor
  · intro corpus hm
    have hfilter := filter_key_eq h.distinct hm
    refine ⟨?_, hfilter⟩
    have hfind : corpora.find? (·.id = corpus.id) = some corpus := by
      rw [← List.head?_filter, hfilter, List.head?_cons]
    simp only [Catalog.corpus, corpus?, hfind]
  · intro id hid
    have hfind : corpora.find? (·.id = id) = none := by
      simpa using hid
    simp only [Catalog.corpus, corpus?, hfind]

/-- A catalog is built just if its limits and corpora are consistent. In such a catalog each corpus is
found by its id and each shard by its component, and there is no other of that name. Otherwise the error
is the first fault. -/
theorem build_ok_iff_consistent (limits : Limits) (corpora : List Corpus) :
    ((∃ catalog, build limits corpora = .ok catalog) ↔ Consistent limits corpora) ∧
    (∀ catalog, build limits corpora = .ok catalog → catalog.limits = limits ∧
      catalog.FindsCorpora corpora ∧ ∀ corpus ∈ corpora, corpus.FindsShards) ∧
    ∀ error, build limits corpora = .error error → Faulty limits corpora error := by
  refine ⟨⟨?_, ?_⟩, ?_, ?_⟩
  · rintro ⟨catalog, h⟩
    exact (build_eq_ok_iff.1 h).1
  · intro h
    exact ⟨⟨limits, corpora⟩, build_eq_ok_iff.2 ⟨h, rfl⟩⟩
  · intro catalog h
    obtain ⟨hconsistent, rfl⟩ := build_eq_ok_iff.1 h
    exact ⟨rfl, findsCorpora_of_consistent hconsistent, fun corpus hm =>
      Corpus.findsShards_of_distinct (hconsistent.corpora corpus hm).distinct⟩
  · intro error h
    exact faulty_of_build h

def sampleConsistent : Corpus where
  id := "c"
  shards := [⟨"db", 1, "A", none⟩, ⟨"db", 1, "B", none⟩]
  groups := [⟨"g", "", ["B", "A"]⟩]
  multiple := true
  metadata := []
  index := some ⟨[("np", ["A"])]⟩

def sampleInconsistent : Corpus where
  id := "c"
  shards := [⟨"db", 1, "A", none⟩]
  groups := [⟨"g", "", ["A"]⟩, ⟨"h", "", ["A", "Y", "Z"]⟩]
  multiple := true
  metadata := []
  index := some ⟨[("np", ["X"])]⟩

theorem build_ok_iff_consistent_sample :
    (∃ catalog, build {} [sampleConsistent] = .ok catalog ∧
      catalog.FindsCorpora [sampleConsistent] ∧ sampleConsistent.FindsShards) ∧
    build {} [sampleConsistent, sampleInconsistent] =
      .error (.unknownComponent "c" (.group "h") "Y") ∧
    Faulty {} [sampleConsistent, sampleInconsistent] (.unknownComponent "c" (.group "h") "Y") := by
  have hok : build {} [sampleConsistent] = .ok ⟨{}, [sampleConsistent]⟩ := rfl
  have herror : build {} [sampleConsistent, sampleInconsistent] =
      .error (.unknownComponent "c" (.group "h") "Y") := rfl
  obtain ⟨-, hfound, -⟩ := build_ok_iff_consistent {} [sampleConsistent]
  obtain ⟨-, hcorpora, hshards⟩ := hfound _ hok
  obtain ⟨-, -, hfaulty⟩ := build_ok_iff_consistent {} [sampleConsistent, sampleInconsistent]
  exact ⟨⟨_, hok, hcorpora, hshards _ List.mem_cons_self⟩, herror, hfaulty _ herror⟩

end Catalog
end TreebankSearch

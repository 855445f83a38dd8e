import TreebankSearch.Proofs.Filter.Attach
import TreebankSearch.Proofs.Pattern.LastBracket

/-!
# Filters from parameters

A parameter comes from outside, and its value is any text. A single value and the bounds of dates always
stay in their clause. The bounds of other ranges are written outside of literals, where they are read
as part of the pattern: such a filter is one predicate, made of one piece of text, just if its clause
is balanced and has no space outside of its inner brackets.
-/

namespace TreebankSearch

namespace Pattern

/-- Balanced text without space outside of its brackets and literals. -/
def Unbroken (s : List Char) : Prop :=
  ∃ ts, Lexed s ts ∧ ∀ c, Token.char c ∈ ts → isSpace c = false

theorem readVerbatim_eq_nil_iff {ts : List Token} :
    (readVerbatim ts).2 = [] ↔ ∀ c, Token.char c ∈ ts → isSpace c = false := by
  fun_induction readVerbatim ts with
  | case1 => simp
  | case2 c ts hc =>
    constructor
    · intro h
      cases h
    · intro h
      rw [h c List.mem_cons_self] at hc
      cases hc
  | case3 c ts hc text rest heq ih =>
    rw [heq] at ih
    rw [ih]
    constructor
    · intro h d hd
      rcases List.mem_cons.1 hd with he | hd
      · cases he
        simpa using hc
      · exact h d hd
    · exact fun h d hd => h d (List.mem_cons_of_mem _ hd)
  | case4 t ts hne text rest heq ih =>
    rw [heq] at ih
    rw [ih]
    constructor
    · intro h d hd
      rcases List.mem_cons.1 hd with rfl | hd
      · exact absurd rfl (hne d)
      · exact h d hd
    · exact fun h d hd => h d (List.mem_cons_of_mem _ hd)

theorem readTerms_eq_nil {ts : List Token} (h : readTerms ts = .ok []) :
    ∃ gap, Spaces gap ∧ ts = gap.map .char := by
  obtain ⟨gap, hg, hts⟩ := eq_skipSpace ts
  cases hs : skipSpace ts with
  | nil =>
    rw [hs, List.append_nil] at hts
    exact ⟨gap, hg, hts⟩
  | cons t rest =>
    rw [readTerms_of_cons hs] at h
    cases hfirst : (readTerm (t :: rest)).1 with
    | error error => rw [hfirst] at h; cases h
    | ok first =>
      rw [hfirst] at h
      cases hmore : readTerms (readTerm (t :: rest)).2 with
      | error error => rw [hmore] at h; cases h
      | ok more => rw [hmore] at h; cases h

theorem eq_nil_of_suffix {cs : List Char} {b : Bracket} {ts us : List Token}
    (hl : Lexed (cs ++ [b.closing]) ts) (hs : us <:+ ts) (h : readTerms us = .ok []) : us = [] := by
  obtain ⟨gap, hg, rfl⟩ := readTerms_eq_nil h
  obtain ⟨front, rfl⟩ := hs
  obtain ⟨s₁, s₂, hcs, _, h₂⟩ := hl.of_append
  rw [h₂.of_chars] at hcs
  rw [eq_nil_of_concat hg hcs]
  rfl

end Pattern

namespace Filter

open Pattern

/-- A clause is read as one text just if it is of one piece. -/
theorem lexed_entryText_iff {field condition : String} :
    (∃ clause ts, Lexed (entryText field condition).toList ts ∧
        readTerms ts = .ok [.verbatim clause]) ↔
      Unbroken (entryText field condition).toList := by
  rw [toList_entryText]
  have hopen : ∀ ts, Lexed (entriesPath ++ '[' :: ((entryTest field condition).toList ++ [']'])) ts →
      ∃ inner terms us, ts = entriesPath.map .char ++ .enclosed .square inner terms :: us := by
    intro ts hl
    obtain ⟨vs, rfl, hv⟩ := Lexed.of_plain plain_entriesPath hl
    obtain ⟨inner, is, _, us, _, rfl, _, _⟩ := Lexed.of_opening (b := .square) hv
    exact ⟨inner, _, us, rfl⟩
  constructor
  · rintro ⟨clause, ts, hl, hr⟩
    obtain ⟨inner, terms, us, rfl⟩ := hopen ts hl
    rw [readTerms_entries] at hr
    have hend : readTerms (readVerbatim us).2 = .ok [] := by
      cases hm : readTerms (readVerbatim us).2 with
      | error error => rw [hm] at hr; cases hr
      | ok more => rw [hm] at hr; cases hr; rfl
    have hsuffix : (readVerbatim us).2 <:+
        entriesPath.map .char ++ .enclosed .square inner terms :: us :=
      (suffix_readVerbatim us).trans ((List.suffix_cons _ _).trans (List.suffix_append _ _))
    have hnil : (readVerbatim us).2 = [] := by
      rw [← List.cons_append, ← List.append_assoc] at hl
      exact eq_nil_of_suffix (b := .square) hl hsuffix hend
    refine ⟨_, hl, ?_⟩
    intro c hc
    rcases List.mem_append.1 hc with hc | hc
    · obtain ⟨_, hd, he⟩ := List.mem_map.1 hc
      cases he
      exact isSpace_entriesPath c hd
    · rcases List.mem_cons.1 hc with he | hc
      · cases he
      · exact readVerbatim_eq_nil_iff.1 hnil c hc
  · rintro ⟨ts, hl, hspace⟩
    obtain ⟨inner, terms, us, rfl⟩ := hopen ts hl
    have hnil : (readVerbatim us).2 = [] := readVerbatim_eq_nil_iff.2 fun c hc =>
      hspace c (List.mem_append_right _ (List.mem_cons_of_mem _ hc))
    have hend : readTerms [] = .ok [] := readTerms_of_nil rfl
    have hread := readTerms_entries inner terms us
    rw [hnil, hend] at hread
    exact ⟨_, _, hl, hread⟩

theorem ofParameter?_cases {schema : MetadataSchema} {field value : String} {f : Filter}
    (h : ofParameter? schema field value = some f) :
    f = .single field value ∨ ∃ min max kind, f = .range field min max kind := by
  obtain ⟨declaration, _, rfl⟩ := Option.map_eq_some_iff.1 h
  split
  · exact .inl rfl
  · exact .inr ⟨_, _, _, rfl⟩

theorem unbroken_of_balanced {f : Filter} {field condition : String}
    (h : f.clause = entryClause field condition) (hc : Balanced condition.toList) :
    Unbroken f.content.toList := by
  rw [content_of_entryClause h]
  exact lexed_entryText_iff.1 ⟨_, lexed_entryText field hc⟩

theorem parse_attach_iff {text field condition : String} {p : Pattern} {f : Filter}
    (hp : Pattern.parse text = .ok p) (h : f.clause = entryClause field condition) :
    (∃ q clause, Pattern.parse (attach text [f]) = .ok q ∧
        q.root.brackets = p.root.brackets ++ [[.verbatim clause]]) ↔
      Unbroken f.content.toList := by
  have hattach : attach text [f] = text ++ ("[" ++ f.content ++ "]") := by
    rw [attach, clauses, List.map_singleton, ← clause_eq]
    simp
  rw [hattach, content_of_entryClause h, ← lexed_entryText_iff, exists_comm]
  exact exists_congr fun clause => parse_bracket_iff hp

/-- The filter of a parameter behind a pattern is read as one more predicate of the root, made of one piece
of text, just if its clause is of one piece. This is always so for single values and for dates; for a
range of another kind it is so if the comparison with the bounds is balanced. -/
theorem parse_attach_parameter {schema : MetadataSchema} {text field value : String} {p : Pattern}
    {f : Filter} (hp : Pattern.parse text = .ok p) (hf : ofParameter? schema field value = some f) :
    ((∃ q clause, Pattern.parse (attach text [f]) = .ok q ∧
        q.root.brackets = p.root.brackets ++ [[.verbatim clause]]) ↔
      Unbroken f.content.toList) ∧
    ((∀ min max, f = .range field min max .int → Balanced (rangeTest min max .int).toList) →
      Unbroken f.content.toList) := by
  rcases ofParameter?_cases hf with rfl | ⟨min, max, kind, rfl⟩
  · refine ⟨parse_attach_iff hp rfl, fun _ => ?_⟩
    exact unbroken_of_balanced rfl (balanced_valueTest value)
  · refine ⟨parse_attach_iff hp rfl, fun hint => ?_⟩
    cases kind with
    | int => exact unbroken_of_balanced rfl (hint min max rfl)
    | date =>
      exact unbroken_of_balanced rfl (balanced_boundsTest balanced_dateExpression
        (.chars (plain_dateDigits min)) (.chars (plain_dateDigits max)))

def sampleSchema : MetadataSchema := [⟨"year", .int, .slider⟩, ⟨"genre", .text, .checkbox⟩]

theorem parse_node : Pattern.parse "//node" = .ok ⟨2, ⟨[]⟩⟩ :=
  parse_eq_ok_iff.2 ⟨[], ['/', '/'], [], [], [], by decide, by decide, by simp, rfl, by decide, .nil,
    breaks_nil _, rfl⟩

theorem parse_attach_parameter_sample :
    ∃ f, Pattern.parse "//node" = .ok ⟨2, ⟨[]⟩⟩ ∧
      ofParameter? sampleSchema "genre" "(a b*c)" = some f ∧
      ∃ q clause, Pattern.parse (attach "//node" [f]) = .ok q ∧
        q.root.brackets = [] ++ [[.verbatim clause]] := by
  have hf : ofParameter? sampleSchema "genre" "(a b*c)" = some (.range "genre" "(a b" "c)" .int) := by
    decide
  have hinner : Balanced "a b and @value<=c".toList := .chars (plain_of_all rfl)
  have hfront : Balanced "@value>=".toList := .chars (plain_of_all rfl)
  have hbalanced : Balanced (rangeTest "(a b" "c)" .int).toList := hfront.append (.bracket .round hinner .nil)
  obtain ⟨hiff, hunbroken⟩ := parse_attach_parameter parse_node hf
  refine ⟨_, parse_node, hf, hiff.2 (hunbroken ?_)⟩
  intro min max he
  cases he
  exact hbalanced

def injection : Filter := .range "year" "1]][node[@cat='" "'" .int

/-- Bounds that are not balanced can add a predicate of their own to the pattern. -/
theorem parse_attach_injection :
    ofParameter? sampleSchema "year" "1]][node[@cat='*'" = some injection ∧
      Pattern.parse "//node" = .ok ⟨2, ⟨[]⟩⟩ ∧
      Pattern.parse (attach "//node" [injection]) = .ok ⟨2, ⟨[
        [.verbatim "ancestor::alpino_ds/metadata/meta[@name=\"year\" and @value>=1]"],
        [.child [[.attr ⟨"cat", some (.eq, " and @value<=")⟩]]]]⟩⟩ ∧
      ¬ ∃ q clause, Pattern.parse (attach "//node" [injection]) = .ok q ∧
        q.root.brackets = [] ++ [[.verbatim clause]] := by
  have hcondition : Balanced "@value>=1".toList := .chars (plain_of_all rfl)
  obtain ⟨ts, hl, hr⟩ := lexed_entryText "year" hcondition
  have none : Spaces [] := by decide
  have hchild : Spelled (.content [.child [[.attr ⟨"cat", some (.eq, " and @value<=")⟩]]]) _ :=
    .content none (.single (.child (.bracket none (.content none (.single
      (.comparison .eq .single (by decide) none none (by decide))) none) .noBrackets))) none
  obtain ⟨us, hlu, hru⟩ := hchild.reads
  have hlex := hl.bracket .square (hlu.enclosed .square)
  rw [hr, hru] at hlex
  have hgroups : Lexed (clauses [injection]).toList _ :=
    Eq.subst (motive := fun s => Lexed s _) (by decide) hlex
  have hparse : Pattern.parse (attach "//node" [injection]) = .ok ⟨2, ⟨[
      [.verbatim "ancestor::alpino_ds/metadata/meta[@name=\"year\" and @value>=1]"],
      [.child [[.attr ⟨"cat", some (.eq, " and @value<=")⟩]]]]⟩⟩ :=
    parse_append parse_node hgroups (breaks_enclosed _ _ _ _ _) rfl
  refine ⟨by decide, parse_node, hparse, ?_⟩
  rintro ⟨q, clause, hq, he⟩
  rw [hparse] at hq
  cases hq
  cases he

end Filter
end TreebankSearch

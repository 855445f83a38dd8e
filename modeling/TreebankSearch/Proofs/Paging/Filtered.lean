import TreebankSearch.Proofs.Filter.Attach
import TreebankSearch.Proofs.Paging.QueryPattern
import TreebankSearch.Proofs.Pattern.Unmarked

/-!
# The filters of a session

A session starts with two patterns, one with the filters of the request behind it and one without. Marks are
carried out in either text as a whole. No mark occurs in the clause of a filter, whatever its texts are,
unless the user wrote the clause: the quotes of a mark would have to be those of a literal, and no
literal stands behind the name that a mark has. So the two patterns differ by the clauses, as they are.
-/

namespace TreebankSearch

namespace Filter

open CaseMark Pattern

theorem unmarked_test (name value : String) (hn : '"' ∉ name.toList) (hl : name.toList.length < 17) :
    Text.occursIn caseMark (name ++ ("\"" ++ escape value ++ "\"")).toList = false := by
  have h := occursIn_literal hn hl (mark_not_mem_escape value)
  rw [String.toList_append, String.toList_append, String.toList_append]
  exact h

theorem unmarked_valueTest (value : String) :
    Text.occursIn caseMark (valueTest value).toList = false := by
  have h : valueTest value = "@value=" ++ ("\"" ++ escape value ++ "\"") := by
    rw [valueTest, ← String.append_assoc, ← String.append_assoc]
    rfl
  rw [h]
  exact unmarked_test _ value (by decide) (by decide)

theorem unmarked_alternatives {texts : List String}
    (h : ∀ text ∈ texts, Text.occursIn caseMark text.toList = false) :
    Text.occursIn caseMark (" or ".intercalate texts).toList = false := by
  induction texts with
  | nil => rfl
  | cons text texts ih =>
    obtain ⟨htext, htexts⟩ := List.forall_mem_cons.1 h
    cases texts with
    | nil => simpa using htext
    | cons next texts =>
      have hor : Text.occursIn caseMark ['o', 'r'] = false := by decide
      have hsplit : (" or ".intercalate (text :: next :: texts)).toList =
          text.toList ++ ' ' :: (['o', 'r'] ++ ' ' :: (" or ".intercalate (next :: texts)).toList) := by
        rw [String.intercalate_cons_cons, String.toList_append, String.toList_append,
          List.append_assoc]
        rfl
      rw [hsplit, Text.occursIn_append_cons (by decide), Text.occursIn_append_cons (by decide), htext, hor,
        ih htexts]
      rfl

theorem quote_not_mem_rangeTest (min max : String) (kind : RangeKind) :
    '"' ∉ (rangeTest min max kind).toList := by
  have hdigits : ∀ text, '"' ∉ (dateDigits text).toList := by
    intro text hm
    cases plain_dateDigits text _ hm
  have hbounds : ∀ {expression min max : String}, '"' ∉ expression.toList → '"' ∉ min.toList →
      '"' ∉ max.toList → '"' ∉ (boundsTest expression min max).toList := by
    intro expression min max he hmin hmax
    simp [boundsTest, he, hmin, hmax]
  cases kind with
  | date => exact hbounds (by decide) (hdigits min) (hdigits max)
  | int => exact hbounds (by decide) (mark_not_mem_escape min) (mark_not_mem_escape max)

theorem exists_unmarked {f : Filter} (h : ∀ predicate, f ≠ .raw predicate) : ∃ field condition,
    f.clause = entryClause field condition ∧ Text.occursIn caseMark condition.toList = false := by
  cases f with
  | single field value => exact ⟨field, _, rfl, unmarked_valueTest value⟩
  | range field min max kind =>
    exact ⟨field, _, rfl, occursIn_of_no_quote (quote_not_mem_rangeTest min max kind)⟩
  | multiple field values =>
    have hvalues : ∀ text ∈ values.map valueTest, Text.occursIn caseMark text.toList = false := by
      intro text hm
      obtain ⟨value, _, rfl⟩ := List.mem_map.1 hm
      exact unmarked_valueTest value
    refine ⟨field, _, rfl, ?_⟩
    have hsplit : ("(" ++ " or ".intercalate (values.map valueTest) ++ ")").toList =
        '(' :: ((" or ".intercalate (values.map valueTest)).toList ++ ')' :: []) := by
      rw [String.toList_append, String.toList_append]
      rfl
    rw [hsplit, occursIn_cons (after?_caseMark_of_ne (by decide) _), Text.occursIn_append_cons (by decide),
      unmarked_alternatives hvalues]
    rfl
  | raw predicate => exact absurd rfl (h predicate)

theorem unmarked_entryTest (field : String) {condition : String}
    (h : Text.occursIn caseMark condition.toList = false) :
    Text.occursIn caseMark (entryTest field condition).toList = false := by
  have hname := unmarked_test "@name=" field (by decide) (by decide)
  have hand : Text.occursIn caseMark ['a', 'n', 'd'] = false := by decide
  have hsplit : (entryTest field condition).toList =
      ("@name=" ++ ("\"" ++ escape field ++ "\"")).toList ++
        ' ' :: (['a', 'n', 'd'] ++ ' ' :: condition.toList) := by
    rw [entryTest, String.toList_append, String.toList_append, List.append_assoc]
    rfl
  rw [hsplit, Text.occursIn_append_cons (by decide), Text.occursIn_append_cons (by decide), hname, hand, h]
  rfl

theorem unmarked_content {f : Filter} (h : ∀ predicate, f ≠ .raw predicate) :
    Text.occursIn caseMark f.content.toList = false := by
  obtain ⟨field, condition, hclause, hcondition⟩ := exists_unmarked h
  have hentries : Text.occursIn caseMark entriesPath = false := by decide
  rw [content_of_entryClause hclause, toList_entryText, Text.occursIn_append_cons (by decide),
    Text.occursIn_append_cons (by decide), hentries, unmarked_entryTest field hcondition]
  rfl

theorem unmarked_clauses {fs : List Filter} (h : ∀ predicate, .raw predicate ∉ fs) :
    Text.occursIn caseMark (clauses fs).toList = false := by
  induction fs with
  | nil => rfl
  | cons f fs ih =>
    have hf : ∀ predicate, f ≠ .raw predicate := by
      intro predicate he
      exact h predicate (he ▸ List.mem_cons_self)
    have hfs := ih fun predicate hm => h predicate (List.mem_cons_of_mem f hm)
    rw [toList_clauses_cons, occursIn_cons (after?_caseMark_of_ne (by decide) _),
      Text.occursIn_append_cons (by decide), unmarked_content hf, hfs]
    rfl

theorem last_clauses (fs : List Filter) :
    ∀ c ∈ (clauses fs).toList.getLast?, Text.isBlank c = false := by
  induction fs with
  | nil => exact nofun
  | cons f fs ih =>
    rw [toList_clauses_cons, List.append_cons, ← List.cons_append, ← List.cons_append]
    exact Text.last_append (Text.last_concat ('[' :: f.content.toList) (by decide)) ih

/-- Filters are attached to a pattern that is normalized, or to the text that is to be: it is the same. -/
theorem normalize_attach (axis : Axis) {text : String} (h : parse text ≠ .error .malformed)
    (hb : ∀ c ∈ text.toList.getLast?, Text.isBlank c = false) {fs : List Filter}
    (hfs : ∀ predicate, .raw predicate ∉ fs) :
    normalize axis (attach text fs) = attach (normalize axis text) fs :=
  normalize_append axis h hb (unmarked_clauses hfs) (last_clauses fs)

end Filter

namespace Catalog

/-- A session starts with the pattern of its request in normal form, and with the clauses of those filters
behind it, as they are, that the corpus has fields for. -/
theorem start_attach {catalog : Catalog} {request : Request} {p : Pattern} {s : Session}
    (hp : Pattern.parse request.pattern = .ok p)
    (hb : ∀ c ∈ request.pattern.toList.getLast?, Text.isBlank c = false)
    (hf : ∀ predicate, .raw predicate ∉ request.filters) (hs : catalog.start request = .ok s) :
    ∃ corpus, catalog.corpus? request.corpus = some corpus ∧
      s.originalPattern = Pattern.normalize s.axis request.pattern ∧
      s.pattern = s.originalPattern ++
        Filter.clauses (Filter.declared corpus.metadata request.filters) := by
  obtain ⟨corpus, limit, plan, hc, _, _, rfl⟩ := start_eq_ok_iff.1 hs
  have hne : Pattern.parse request.pattern ≠ .error .malformed := by
    rw [hp]
    exact nofun
  have hdeclared : ∀ predicate, .raw predicate ∉ Filter.declared corpus.metadata request.filters :=
    fun predicate hm => hf predicate (List.mem_filter.1 hm).1
  exact ⟨corpus, hc, rfl, Filter.normalize_attach plan.axis hne hb hdeclared⟩

theorem start_attach_sample : ∃ s,
    Pattern.parse sampleNounPhrase.pattern = .ok sampleTree ∧
    (∀ c ∈ sampleNounPhrase.pattern.toList.getLast?, Text.isBlank c = false) ∧
    (∀ predicate, .raw predicate ∉ sampleNounPhrase.filters) ∧
    sampleCatalog.start sampleNounPhrase = .ok s ∧
    s.pattern = s.originalPattern ++ Filter.clauses [.single "genre" "x]node[@caseinsensitive="] := by
  have hb : ∀ c ∈ sampleNounPhrase.pattern.toList.getLast?, Text.isBlank c = false :=
    Text.last_concat " ///node[@cat=\"np\" and node".toList (by decide)
  have hf : ∀ predicate, .raw predicate ∉ sampleNounPhrase.filters := by simp [sampleNounPhrase]
  obtain ⟨corpus, hc, _, hs⟩ := start_attach parse_sampleNounPhrase hb hf start_sampleNounPhrase
  cases hc
  exact ⟨_, parse_sampleNounPhrase, hb, hf, start_sampleNounPhrase, hs⟩

end Catalog
end TreebankSearch

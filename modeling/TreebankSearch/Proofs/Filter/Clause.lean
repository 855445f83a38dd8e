import TreebankSearch.Filter.Basic
import TreebankSearch.Proofs.Pattern.Accepted

/-!
# Clauses of filters

The clause of a filter is one bracket, whatever the texts in the filter are: escaping keeps the values of
fields inside of their literals. Bounds of dates have only their digits written. Bounds of integers are
written outside of literals, and have to be free of brackets and apostrophes.
-/

namespace TreebankSearch.Filter

open Pattern

/-- A filter whose texts cannot end the bracket that they are written in. -/
def Safe : Filter → Prop
  | .single _ _ => True
  | .multiple _ _ => True
  | .range _ _ _ .date => True
  | .range _ min max .int => ∀ c ∈ min.toList ++ max.toList, c ∉ ['[', ']', '(', ')', '\'']
  | .raw _ => False

def content (f : Filter) : String := String.ofList (f.clause.toList.drop 1).dropLast

theorem mark_not_mem_escape (text : String) : Quote.double.mark ∉ (escape text).toList := by
  rw [escape, String.toList_ofList]
  intro hm
  obtain ⟨c, _, hc⟩ := List.mem_flatMap.1 hm
  unfold escapeChar at hc
  split at hc
  · exact absurd hc (by decide)
  · exact absurd hc (by decide)
  · next hne => exact hne (List.mem_singleton.1 hc).symm

theorem plain_escape {text : String}
    (h : ∀ c ∈ text.toList, c ∉ ['[', ']', '(', ')', '\'']) :
    ∀ c ∈ (escape text).toList, Delimiter.ofChar c = .plain := by
  rw [escape, String.toList_ofList]
  intro d hd
  obtain ⟨c, hm, hc⟩ := List.mem_flatMap.1 hd
  have hsafe := h c hm
  have hreference : ∀ e ∈ "&amp;&quot;".toList, Delimiter.ofChar e = .plain :=
    plain_of_all rfl
  unfold escapeChar at hc
  split at hc
  · exact hreference d (List.mem_append_left ['&', 'q', 'u', 'o', 't', ';'] hc)
  · exact hreference d (List.mem_append_right ['&', 'a', 'm', 'p', ';'] hc)
  · next hamp hquote =>
    rw [List.mem_singleton.1 hc]
    simp only [List.mem_cons, List.not_mem_nil, or_false, not_or] at hsafe
    obtain ⟨h₁, h₂, h₃, h₄, h₅⟩ := hsafe
    unfold Delimiter.ofChar
    split
    · exact absurd rfl h₅
    · exact absurd rfl hquote
    · exact absurd rfl h₁
    · exact absurd rfl h₂
    · exact absurd rfl h₃
    · exact absurd rfl h₄
    · rfl

theorem plain_dateDigits (text : String) :
    ∀ c ∈ (dateDigits text).toList, Delimiter.ofChar c = .plain := by
  rw [dateDigits, String.toList_ofList]
  intro c hc
  have hd := (List.mem_filter.1 hc).2
  exact ofChar_of_isNameChar (by simp [isNameChar, Char.isAlphanum, hd])

def entryTest (field condition : String) : String :=
  "@name=" ++ ("\"" ++ escape field ++ "\"") ++ " and " ++ condition

theorem entryClause_eq (field condition : String) :
    entryClause field condition =
      "[" ++ (entries ++ ("[" ++ entryTest field condition ++ "]")) ++ "]" := by
  have hopen : "[@name=\"" = "[" ++ ("@name=" ++ "\"") := rfl
  have hand : "\" and " = "\"" ++ " and " := rfl
  have hclose : "]]" = "]" ++ "]" := rfl
  simp only [entryClause, entryTest, hopen, hand, hclose, String.append_assoc]

theorem content_of_clause {f : Filter} {inner : String} (h : f.clause = "[" ++ inner ++ "]") :
    f.content = inner := by
  have hl : f.clause.toList = '[' :: (inner.toList ++ [']']) := by
    rw [h, String.toList_append, String.toList_append]
    rfl
  rw [content, hl, List.drop_one, List.tail_cons, List.dropLast_concat, String.ofList_toList]

theorem clause_eq (f : Filter) : f.clause = "[" ++ f.content ++ "]" := by
  have hinner : ∃ inner, f.clause = "[" ++ inner ++ "]" := by
    cases f with
    | single field value => exact ⟨_, entryClause_eq field _⟩
    | range field min max kind => exact ⟨_, entryClause_eq field _⟩
    | multiple field values => exact ⟨_, entryClause_eq field _⟩
    | raw predicate => exact ⟨predicate, rfl⟩
  obtain ⟨inner, h⟩ := hinner
  rw [content_of_clause h, h]

theorem balanced_literal (text : String) : Balanced ("\"" ++ escape text ++ "\"").toList := by
  have h := (Lexed.quoted .double (mark_not_mem_escape text)).balanced
  rw [String.toList_append, String.toList_append]
  exact h

theorem balanced_valueTest (value : String) : Balanced (valueTest value).toList := by
  have h : valueTest value = "@value=" ++ ("\"" ++ escape value ++ "\"") := by
    rw [valueTest, ← String.append_assoc, ← String.append_assoc]
    rfl
  have hname : Balanced "@value=".toList := .chars (plain_of_all rfl)
  rw [h, String.toList_append]
  exact hname.append (balanced_literal value)

theorem balanced_boundsTest {expression min max : String} (he : Balanced expression.toList)
    (hmin : Balanced min.toList) (hmax : Balanced max.toList) :
    Balanced (boundsTest expression min max).toList := by
  have hge : Balanced ">=".toList := .chars (plain_of_all rfl)
  have hand : Balanced " and ".toList := .chars (plain_of_all rfl)
  have hle : Balanced "<=".toList := .chars (plain_of_all rfl)
  simp only [boundsTest, String.toList_append]
  exact ((((he.append hge).append hmin).append hand).append he).append hle |>.append hmax

theorem balanced_dateExpression : Balanced "number(translate(@value,'-',''))".toList := by
  have hvalue : Balanced "@value,".toList := .chars (plain_of_all rfl)
  have hdash : Quote.single.mark ∉ ['-'] := by decide
  have hnothing : Quote.single.mark ∉ [] := List.not_mem_nil
  have hcomma : Delimiter.ofChar ',' = .plain := rfl
  have hargs := hvalue.append (.literal .single hdash (.plain hcomma (.literal .single hnothing .nil)))
  have htranslate : Balanced "translate".toList := .chars (plain_of_all rfl)
  have hcall := htranslate.append (.bracket .round hargs .nil)
  have hnumber : Balanced "number".toList := .chars (plain_of_all rfl)
  exact hnumber.append (.bracket .round hcall .nil)

theorem balanced_intercalate {separator : String} (hs : Balanced separator.toList)
    {texts : List String} (ht : ∀ text ∈ texts, Balanced text.toList) :
    Balanced (separator.intercalate texts).toList := by
  induction texts with
  | nil => exact .nil
  | cons text texts ih =>
    obtain ⟨htext, ht⟩ := List.forall_mem_cons.1 ht
    cases texts with
    | nil => simpa using htext
    | cons next texts =>
      rw [String.intercalate_cons_cons, String.toList_append, String.toList_append]
      exact (htext.append hs).append (ih ht)

theorem exists_condition {f : Filter} (h : f.Safe) : ∃ field condition,
    f.clause = entryClause field condition ∧ Balanced condition.toList := by
  match f with
  | .single field value => exact ⟨field, _, rfl, balanced_valueTest value⟩
  | .multiple field values =>
    have hor : Balanced " or ".toList := .chars (plain_of_all rfl)
    have hvalues : ∀ text ∈ values.map valueTest, Balanced text.toList := by
      intro text hm
      obtain ⟨value, _, rfl⟩ := List.mem_map.1 hm
      exact balanced_valueTest value
    refine ⟨field, _, rfl, ?_⟩
    rw [String.toList_append, String.toList_append]
    exact .bracket .round (balanced_intercalate hor hvalues) .nil
  | .range field min max .date =>
    exact ⟨field, _, rfl, balanced_boundsTest balanced_dateExpression
      (.chars (plain_dateDigits min)) (.chars (plain_dateDigits max))⟩
  | .range field min max .int =>
    have hvalue : Balanced "@value".toList := .chars (plain_of_all rfl)
    have hmin := plain_escape fun c hc => h c (List.mem_append_left _ hc)
    have hmax := plain_escape fun c hc => h c (List.mem_append_right _ hc)
    exact ⟨field, _, rfl, balanced_boundsTest hvalue (.chars hmin) (.chars hmax)⟩

theorem balanced_entryTest (field : String) {condition : String} (h : Balanced condition.toList) :
    Balanced (entryTest field condition).toList := by
  have hname : Balanced "@name=".toList := .chars (plain_of_all rfl)
  have hand : Balanced " and ".toList := .chars (plain_of_all rfl)
  simp only [entryTest, String.toList_append]
  exact ((hname.append (by simpa using balanced_literal field)).append hand).append h

end TreebankSearch.Filter

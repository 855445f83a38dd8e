import TreebankSearch.Proofs.Pattern.Fault
import TreebankSearch.Proofs.Pattern.Grammar

/-!
# The language of patterns

Which texts are patterns: slashes, the word `node` and groups `[..]` of balanced text, with space between
them. Whatever stands in a group is a list of terms. So a text of this form is read, unless a number in
it is too large for a count, and any other text is malformed.
-/

namespace TreebankSearch.Pattern

inductive Groups : List Char → Prop
  | nil : Groups []
  | space {c : Char} {s : List Char} : isSpace c = true → Groups s → Groups (c :: s)
  | group {inner s : List Char} :
      Balanced inner → Groups s → Groups ('[' :: (inner ++ ']' :: s))

/-- Space, slashes, space, the word `node`, and groups. -/
def Accepted (s : List Char) : Prop :=
  ∃ front slashes gap groups : List Char,
    s = front ++ (slashes ++ (gap ++ (['n', 'o', 'd', 'e'] ++ groups))) ∧
    Spaces front ∧ (∀ c ∈ slashes, c = '/') ∧ Spaces gap ∧ Groups groups

theorem Groups.lexed {s : List Char} (h : Groups s) :
    ∃ ts, Lexed s ts ∧ (readBrackets ts).2 = [] ∧ Breaks isNameChar ts := by
  induction h with
  | nil => exact ⟨[], .nil, rfl, breaks_nil _⟩
  | @space c s hc _ ih =>
    obtain ⟨ts, hl, hr, _⟩ := ih
    exact ⟨.char c :: ts, .plain (ofChar_of_isSpace hc) hl, by rw [readBrackets, if_pos hc, hr],
      breaks_char (isNameChar_of_isSpace hc) ts⟩
  | @group inner s hi _ ih =>
    obtain ⟨ts, hl, hr, _⟩ := ih
    obtain ⟨is, hi⟩ := hi.lexed
    exact ⟨_, hi.bracket .square hl, hr, breaks_enclosed _ _ _ _ _⟩

theorem groups_of_lexed {s : List Char} {ts : List Token} (h : Lexed s ts)
    (hr : (readBrackets ts).2 = []) : Groups s := by
  fun_induction readBrackets ts generalizing s with
  | case1 c ts hc ih =>
    cases h with
    | plain _ h => exact .space hc (ih h hr)
  | case2 => cases hr
  | case3 inner terms ts more rest heq ih =>
    rw [heq] at ih
    cases h with
    | bracket _ hi h => exact .group hi.balanced (ih h hr)
  | case4 ts =>
    cases hr
    cases h
    exact .nil

theorem lexed_slashes {slashes : List Char} (h : ∀ c ∈ slashes, c = '/') :
    Lexed slashes (slashes.map .char) :=
  .chars fun c hc => by rw [h c hc]; rfl

theorem lexed_spaces {s : List Char} (h : Spaces s) : Lexed s (s.map .char) :=
  .chars fun c hc => ofChar_of_isSpace (h c hc)

theorem lexed_name {name : List Char} (h : ∀ c ∈ name, isNameChar c = true) :
    Lexed name (name.map .char) :=
  .chars fun c hc => ofChar_of_isNameChar (h c hc)

theorem lexed_node : Lexed ['n', 'o', 'd', 'e'] (['n', 'o', 'd', 'e'].map .char) :=
  lexed_name (List.all_eq_true.1 rfl)

theorem nodeTest?_append {ts : List Token} (h : Breaks isNameChar ts) :
    nodeTest? (['n', 'o', 'd', 'e'].map .char ++ ts) =
      some ((readBrackets ts).1.map NodeTest.mk, (readBrackets ts).2) := by
  rw [nodeTest?, afterKeyword?_append _ h]
  rfl

theorem spanChars_node {front slashes gap : List Char} (hf : Spaces front)
    (hs : ∀ c ∈ slashes, c = '/') (hg : Spaces gap) (ts : List Token) :
    ∃ rest, spanChars (· = '/') (skipSpace (front.map .char ++ (slashes.map .char ++
        (gap.map .char ++ (['n', 'o', 'd', 'e'].map .char ++ ts))))) = (slashes, rest) ∧
      skipSpace rest = ['n', 'o', 'd', 'e'].map .char ++ ts := by
  have hn : Breaks isSpace (['n', 'o', 'd', 'e'].map .char ++ ts) := breaks_char rfl _
  rw [skipSpace_append hf]
  cases slashes with
  | nil =>
    refine ⟨_, ?_, skipSpace_of_breaks hn⟩
    rw [List.map_nil, List.nil_append, skipSpace_append hg, skipSpace_of_breaks hn]
    exact spanChars_of_breaks (breaks_char rfl _)
  | cons c slashes =>
    have hslash : Breaks isSpace ((c :: slashes).map .char ++
        (gap.map .char ++ (['n', 'o', 'd', 'e'].map .char ++ ts))) := by
      rw [hs c List.mem_cons_self]
      exact breaks_char rfl _
    have hgap : Breaks (fun c => decide (c = '/'))
        (gap.map .char ++ (['n', 'o', 'd', 'e'].map .char ++ ts)) := by
      cases gap with
      | nil => exact breaks_char rfl _
      | cons d gap =>
        refine breaks_char (decide_eq_false ?_) _
        rintro rfl
        exact absurd (hg '/' List.mem_cons_self) (by decide)
    rw [skipSpace_of_breaks hslash]
    refine ⟨_, spanChars_append (fun d hd => decide_eq_true (hs d hd)) hgap, ?_⟩
    rw [skipSpace_append hg, skipSpace_of_breaks hn]

theorem ofTokens_append {front slashes gap : List Char} (hf : Spaces front)
    (hs : ∀ c ∈ slashes, c = '/') (hg : Spaces gap) {ts : List Token} (ht : Breaks isNameChar ts)
    (hr : (readBrackets ts).2 = []) :
    ofTokens (front.map .char ++ (slashes.map .char ++
        (gap.map .char ++ (['n', 'o', 'd', 'e'].map .char ++ ts)))) =
      ((readBrackets ts).1.map NodeTest.mk).map (Pattern.mk slashes.length) := by
  obtain ⟨rest, hspan, hskip⟩ := spanChars_node hf hs hg ts
  rw [ofTokens, hspan]
  simp only [hskip, nodeTest?_append ht, hr]

theorem ofTokens_of_left {front slashes gap : List Char} (hf : Spaces front)
    (hs : ∀ c ∈ slashes, c = '/') (hg : Spaces gap) {ts : List Token} (ht : Breaks isNameChar ts)
    (hr : (readBrackets ts).2 ≠ []) :
    ofTokens (front.map .char ++ (slashes.map .char ++
        (gap.map .char ++ (['n', 'o', 'd', 'e'].map .char ++ ts)))) = .error .malformed := by
  obtain ⟨rest, hspan, hskip⟩ := spanChars_node hf hs hg ts
  obtain ⟨t, left, hleft⟩ := List.exists_cons_of_ne_nil hr
  rw [ofTokens, hspan]
  simp only [hskip, nodeTest?_append ht, hleft]

theorem parse_of_form {text : String} {front slashes gap groups : List Char}
    (htext : text.toList = front ++ (slashes ++ (gap ++ (['n', 'o', 'd', 'e'] ++ groups))))
    (hf : Spaces front) (hs : ∀ c ∈ slashes, c = '/') (hg : Spaces gap) (hgr : Groups groups) :
    ∃ root : Except PatternError NodeTest,
      Pattern.parse text = root.map (Pattern.mk slashes.length) ∧ Faults text.toList root := by
  obtain ⟨ts, hl, hr, hb⟩ := hgr.lexed
  have hlex := (lexed_spaces hf).append ((lexed_slashes hs).append
    ((lexed_spaces hg).append (lexed_node.append hl)))
  rw [← htext] at hlex
  refine ⟨(readBrackets ts).1.map NodeTest.mk, ?_, ?_⟩
  · rw [parse_of_lexed hlex, ofTokens_append hf hs hg hb hr]
  · refine (faults_readBrackets (hlex.within.suffix ?_)).map _
    simp only [← List.append_assoc]
    exact List.suffix_append _ _

theorem Accepted.parse {text : String} (h : Accepted text.toList) :
    ∃ (n : Nat) (root : Except PatternError NodeTest),
      Pattern.parse text = root.map (Pattern.mk n) ∧ Faults text.toList root := by
  obtain ⟨front, slashes, gap, groups, htext, hf, hs, hg, hgr⟩ := h
  exact ⟨slashes.length, parse_of_form htext hf hs hg hgr⟩

theorem accepted_of_parse {text : String} (h : parse text ≠ .error .malformed) :
    Accepted text.toList := by
  obtain ⟨ts, hl⟩ := lexed_of_parse h
  rw [parse_of_lexed hl] at h
  generalize text.toList = s at hl ⊢
  obtain ⟨front, hf, hts⟩ := eq_skipSpace ts
  cases hspan : spanChars (· = '/') (skipSpace ts) with
  | mk slashes rest =>
    obtain ⟨hs, hslash, _⟩ := eq_of_spanChars hspan
    obtain ⟨gap, hg, hrest⟩ := eq_skipSpace rest
    rw [ofTokens, hspan] at h
    simp only at h
    split at h
    · next root hn =>
      obtain ⟨groups, hk, hn⟩ := Option.bind_eq_some_iff.1 hn
      have hw := (eq_of_afterKeyword? hk).1
      have hr : (readBrackets groups).2 = [] := (Prod.mk.inj (Option.some.inj hn)).2
      rw [hts, hs, hrest, hw] at hl
      obtain ⟨s₁, _, rfl, h₁, hl⟩ := hl.of_append
      obtain ⟨s₂, _, rfl, h₂, hl⟩ := hl.of_append
      obtain ⟨s₃, _, rfl, h₃, hl⟩ := hl.of_append
      obtain ⟨s₄, s₅, rfl, h₄, hl⟩ := hl.of_append
      rw [h₁.of_chars, h₂.of_chars, h₃.of_chars, h₄.of_chars]
      exact ⟨front, slashes, gap, s₅, rfl, hf, fun c hc => by simpa using hslash c hc, hg,
        groups_of_lexed hl hr⟩
    · exact absurd rfl h

/-- The grammar has an answer for every text. The texts that are refused as malformed are those that do not
have the form of a pattern. A text of the form is read, or else names a count that is too large. -/
theorem parse_malformed_iff (text : String) :
    (∃ answer, Grammar.pattern text.toList = some answer) ∧
      (parse text = .error .malformed ↔ ¬ Accepted text.toList) ∧
      (parse text = .error .malformed ∨ (∃ pattern, parse text = .ok pattern) ∨
        ∃ digits, parse text = .error (.countTooLarge (String.ofList digits)) ∧
          digits <:+: text.toList ∧ (∀ c ∈ digits, c.isDigit = true) ∧
          UInt64.size ≤ Nat.ofDigitChars 10 digits 0) := by
  have hanswer : ∃ answer, Grammar.pattern text.toList = some answer := by
    obtain ⟨r, ts, hu, hr⟩ := exists_upto text.toList
    obtain ⟨answer, ha, _⟩ := hu.pattern hr
    exact ⟨answer, ha⟩
  have hform : Accepted text.toList → (∃ pattern, parse text = .ok pattern) ∨
      ∃ digits, parse text = .error (.countTooLarge (String.ofList digits)) ∧
        digits <:+: text.toList ∧ (∀ c ∈ digits, c.isDigit = true) ∧
        UInt64.size ≤ Nat.ofDigitChars 10 digits 0 := by
    intro h
    obtain ⟨n, root, hparse, hroot⟩ := h.parse
    rw [hparse]
    cases root with
    | ok root => exact .inl ⟨_, rfl⟩
    | error error =>
      obtain ⟨digits, rfl, hd⟩ := hroot error rfl
      exact .inr ⟨digits, rfl, hd⟩
  refine ⟨hanswer, ⟨fun h ha => ?_, fun h => ?_⟩, ?_⟩
  · rcases hform ha with ⟨_, hp⟩ | ⟨_, hp, _⟩
    · rw [hp] at h
      cases h
    · rw [hp] at h
      cases h
  · exact Classical.byContradiction fun hm => h (accepted_of_parse hm)
  · by_cases h : parse text = .error .malformed
    · exact .inl h
    · exact .inr (hform (accepted_of_parse h))

end TreebankSearch.Pattern

import TreebankSearch.Proofs.Pattern.Extension

/-!
# A bracket behind a pattern

When a bracket is written behind a pattern, its content may be read as what it was meant to be, but it may
also end the bracket early, or leave it open. The first is the case just if the content is balanced by
itself: a balanced text that starts with a balanced one goes on with a balanced one.
-/

namespace TreebankSearch.Pattern

variable {s t : List Char} {ts us : List Token}

theorem Lexed.upto_append {r : List Char} (hs : Lexed s ts) (ht : Upto r t us) :
    Upto r (s ++ t) (ts ++ us) := by
  obtain ⟨a, rfl, ha⟩ := ht.lexed
  rw [← List.append_assoc]
  exact Upto.append (hs.append ha) r

theorem Balanced.of_append (hs : Balanced s) (h : Balanced (s ++ t)) : Balanced t := by
  obtain ⟨ts, hs⟩ := hs.lexed
  obtain ⟨vs, h⟩ := h.lexed
  obtain ⟨r, us, hu, hr⟩ := exists_upto t
  -- the grammar gets as far in the whole text as it gets in `t`, which has to be its end
  have hfar : Grammar.Input.balanced (s ++ t) = some r := (hs.upto_append hu).balanced hr
  have hend : Grammar.Input.balanced (s ++ t) = some [] := by
    have hv := (Upto.append h []).balanced .nil
    rwa [List.append_nil] at hv
  rw [hfar] at hend
  cases hend
  obtain ⟨a, rfl, ha⟩ := hu.lexed
  rw [List.append_nil]
  exact ha.balanced

theorem Lexed.of_opening {b : Bracket} (h : Lexed (b.opening :: s) ts) :
    ∃ inner is rest us, s = inner ++ b.closing :: rest ∧
      ts = .enclosed b inner (readTerms is) :: us ∧ Lexed inner is ∧ Lexed rest us := by
  generalize htext : b.opening :: s = text at h
  cases h with
  | nil => cases htext
  | plain hc _ =>
    rw [← (List.cons.inj htext).1] at hc
    exact absurd hc (Delimiter.opening_ne_plain b)
  | literal q _ _ =>
    have hd := congrArg Delimiter.ofChar (List.cons.inj htext).1
    rw [Delimiter.ofChar_opening, Delimiter.ofChar_mark] at hd
    cases hd
  | bracket b' hi hr =>
    obtain ⟨hb, rfl⟩ := List.cons.inj htext
    have hd := congrArg Delimiter.ofChar hb
    rw [Delimiter.ofChar_opening, Delimiter.ofChar_opening] at hd
    cases hd
    exact ⟨_, _, _, _, rfl, rfl, hi, hr⟩

theorem Lexed.of_plain {cs : List Char} (hc : ∀ c ∈ cs, Delimiter.ofChar c = .plain)
    (h : Lexed (cs ++ t) ts) : ∃ us, ts = cs.map .char ++ us ∧ Lexed t us := by
  induction cs generalizing ts with
  | nil => exact ⟨ts, rfl, h⟩
  | cons c cs ih =>
    obtain ⟨hfirst, hc⟩ := List.forall_mem_cons.1 hc
    rw [List.cons_append] at h
    generalize htext : c :: (cs ++ t) = text at h
    cases h with
    | nil => cases htext
    | plain _ h =>
      obtain ⟨rfl, rfl⟩ := List.cons.inj htext
      obtain ⟨us, rfl, hu⟩ := ih hc h
      exact ⟨us, rfl, hu⟩
    | literal q =>
      rw [(List.cons.inj htext).1] at hfirst
      exact absurd hfirst (Delimiter.mark_ne_plain q)
    | bracket b =>
      rw [(List.cons.inj htext).1] at hfirst
      exact absurd hfirst (Delimiter.opening_ne_plain b)

theorem eq_nil_of_concat {a cs gap : List Char} {b : Bracket} (hg : Spaces gap)
    (h : a ++ [b.closing] = cs ++ gap) : gap = [] := by
  rcases List.eq_nil_or_concat gap with rfl | ⟨init, c, rfl⟩
  · rfl
  · rw [List.concat_eq_append] at h hg
    rw [← List.append_assoc] at h
    obtain ⟨_, hc⟩ := List.append_inj' h rfl
    have hs := hg c (List.mem_append_right _ List.mem_cons_self)
    rw [← (List.cons.inj hc).1] at hs
    cases b <;> exact absurd hs (by decide)

theorem readBrackets_eq_nil (h : readBrackets ts = (.ok [], [])) :
    ∃ gap, Spaces gap ∧ ts = gap.map .char := by
  fun_induction readBrackets ts with
  | case1 c ts hc ih =>
    obtain ⟨gap, hg, rfl⟩ := ih h
    exact ⟨c :: gap, List.forall_mem_cons.2 ⟨hc, hg⟩, rfl⟩
  | case2 => cases h
  | case3 inner terms ts more rest heq ih =>
    cases terms with
    | error error => cases h
    | ok terms => cases more <;> cases h
  | case4 ts =>
    cases h
    exact ⟨[], fun _ hm => absurd hm List.not_mem_nil, rfl⟩

theorem eq_of_readBrackets_single {inner : List Char} {found : Except PatternError (List Term)}
    {terms : List Term} (h : readBrackets (.enclosed .square inner found :: ts) = (.ok [terms], [])) :
    found = .ok terms ∧ ∃ gap, Spaces gap ∧ ts = gap.map .char := by
  rw [readBrackets] at h
  rcases hts : readBrackets ts with ⟨more, rest⟩
  rw [hts] at h
  obtain ⟨hread, rfl⟩ := Prod.mk.inj h
  cases found with
  | error error => cases hread
  | ok first =>
    cases more with
    | error error => cases hread
    | ok more =>
      cases hread
      exact ⟨rfl, readBrackets_eq_nil hts⟩

theorem readBrackets_of_parse {text behind : String} {p q : Pattern} (h : parse text = .ok p)
    (hq : parse (text ++ behind) = .ok q) (hl : Lexed behind.toList us) (hb : Breaks isNameChar us) :
    ∃ more, readBrackets us = (.ok more, []) ∧ q.root.brackets = p.root.brackets ++ more := by
  obtain ⟨front, slashes, gap, groups, ts, htext, hf, hs, _, hg, hlo, hbo, hro⟩ :=
    parse_eq_ok_iff.1 h
  have hlex := (lexed_spaces hf).append ((lexed_slashes hs).append
    ((lexed_spaces hg).append (lexed_node.append (hlo.append hl))))
  have hwhole : (text ++ behind).toList =
      front ++ (slashes ++ (gap ++ (['n', 'o', 'd', 'e'] ++ (groups ++ behind.toList)))) := by
    rw [String.toList_append, htext]
    simp only [List.append_assoc]
  rw [← hwhole] at hlex
  rw [parse_of_lexed hlex] at hq
  have happend := readBrackets_append hro us
  by_cases hleft : (readBrackets (ts ++ us)).2 = []
  · rw [ofTokens_append hf hs hg (hbo.append hb) hleft] at hq
    rw [happend] at hq hleft
    rcases hr : readBrackets us with ⟨more, rest⟩
    rw [hr] at hq hleft
    cases more with
    | error error => cases hq
    | ok more =>
      cases hq
      exact ⟨more, congrArg (Prod.mk _) hleft, rfl⟩
  · rw [ofTokens_of_left hf hs hg (hbo.append hb) hleft] at hq
    cases hq

/-- A bracket behind a pattern is read as one more predicate just if its content is balanced and is read
as the terms of this predicate. -/
theorem parse_bracket_iff {text inner : String} {p : Pattern} (h : parse text = .ok p)
    {terms : List Term} :
    (∃ q, parse (text ++ ("[" ++ inner ++ "]")) = .ok q ∧
        q.root.brackets = p.root.brackets ++ [terms]) ↔
      ∃ ts, Lexed inner.toList ts ∧ readTerms ts = .ok terms := by
  have hbehind : ("[" ++ inner ++ "]").toList =
      Bracket.opening .square :: (inner.toList ++ [Bracket.closing .square]) := by
    rw [String.toList_append, String.toList_append]
    rfl
  constructor
  · rintro ⟨q, hq, hbrackets⟩
    have hwhole : Balanced (text.toList ++ ("[" ++ inner ++ "]").toList) := by
      obtain ⟨ts, hl⟩ := lexed_of_parse (by rw [hq]; exact fun he => nomatch he)
      rw [String.toList_append] at hl
      exact hl.balanced
    have hfront : Balanced text.toList := by
      obtain ⟨ts, hl⟩ := lexed_of_parse (by rw [h]; exact fun he => nomatch he)
      exact hl.balanced
    obtain ⟨us, hl⟩ := (hfront.of_append hwhole).lexed
    have hopen := hl
    rw [hbehind] at hopen
    obtain ⟨content, is, rest, vs, hcontent, rfl, hi, hrest⟩ := hopen.of_opening
    obtain ⟨more, hmore, he⟩ := readBrackets_of_parse h hq hl (breaks_enclosed _ _ _ _ _)
    rw [hbrackets] at he
    cases List.append_cancel_left he
    obtain ⟨hread, gap, hg, rfl⟩ := eq_of_readBrackets_single hmore
    rw [hrest.of_chars, List.append_cons content] at hcontent
    rw [eq_nil_of_concat hg hcontent, List.append_nil] at hcontent
    rw [List.append_cancel_right hcontent]
    exact ⟨is, hi, hread⟩
  · rintro ⟨ts, hl, hr⟩
    have hb := hl.enclosed .square
    rw [← hbehind, hr] at hb
    exact ⟨_, parse_append h hb (breaks_enclosed _ _ _ _ _) rfl, rfl⟩

end TreebankSearch.Pattern

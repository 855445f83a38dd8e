import TreebankSearch.Proofs.Pattern.Axis
import TreebankSearch.Proofs.Pattern.Closing
import TreebankSearch.Proofs.Pattern.Normal
import TreebankSearch.Proofs.Pattern.Segment

/-!
# Text behind a pattern

A pattern that is read ends with the bracket of a group, or it holds no mark at all. No segment goes on
beyond such a bracket, and without a mark no segment changes. So if the text behind a pattern holds no
mark, then its brackets play no part: the pattern is normalized as it is alone, and the text stays.
-/

namespace TreebankSearch

namespace CaseMark

theorem occursIn_of_no_quote {s : List Char} (h : '"' ∉ s) : Text.occursIn caseMark s = false := by
  rw [Bool.eq_false_iff]
  intro hs
  obtain ⟨a, b, rfl⟩ := Text.occursIn_iff.1 hs
  apply h
  have hquote : '"' ∈ caseMark := by decide
  exact List.mem_append_left b (List.mem_append_right a hquote)

theorem occursIn_literal {front value : List Char} (hf : '"' ∉ front) (hl : front.length < 17)
    (hv : '"' ∉ value) : Text.occursIn caseMark (front ++ '"' :: (value ++ ['"'])) = false := by
  rw [Bool.eq_false_iff]
  intro hs
  obtain ⟨a, b, he⟩ := Text.occursIn_iff.1 hs
  -- the mark has both of the quotes, so that its name stands before the first one
  have hcount := congrArg (List.count '"') he
  have hmark : caseMark.count '"' = 2 := by decide
  simp only [List.count_append, List.count_cons_self, List.count_nil, hmark,
    List.count_eq_zero.2 hf, List.count_eq_zero.2 hv] at hcount
  have ha : '"' ∉ a := List.count_eq_zero.1 (by omega)
  have hsplit : a ++ caseMark ++ b =
      (a ++ "@caseinsensitive=".toList) ++ '"' :: ("yes".toList ++ '"' :: b) := by
    have hname : caseMark = "@caseinsensitive=".toList ++ '"' :: ("yes".toList ++ ['"']) := by decide
    rw [hname]
    simp only [List.append_assoc, List.cons_append, List.nil_append]
  have hname : '"' ∉ a ++ "@caseinsensitive=".toList := by
    rw [List.mem_append, not_or]
    exact ⟨ha, by decide⟩
  obtain ⟨rfl, _, _⟩ := append_cons_inj hf hname (he.trans hsplit)
  rw [List.length_append] at hl
  have : "@caseinsensitive=".toList.length = 17 := by decide
  omega

theorem closeSegment_unmarked {segment : List Char} (h : Text.occursIn caseMark segment = false)
    (rest : List Char) : closeSegment segment rest = (nodeOpen ++ segment, rest) := by
  simp [closeSegment, h]

theorem carryOut_unmarked {s : List Char} (h : Text.occursIn caseMark s = false) : carryOut s = s := by
  fun_induction carryOut s with
  | case1 s after hopen _ ih =>
    obtain rfl := Text.after?_eq_some_iff.1 hopen
    have hsplit := splitSegment_append after
    have hsegment := Text.occursIn_of_part (s := (splitSegment after).1)
      ⟨nodeOpen, (splitSegment after).2, by rw [List.append_assoc, hsplit]⟩ h
    have hrest := Text.occursIn_of_part (s := (splitSegment after).2)
      ⟨nodeOpen ++ (splitSegment after).1, [], by rw [List.append_nil, List.append_assoc, hsplit]⟩ h
    rw [closeNext, closeSegment_unmarked hsegment] at ih ⊢
    rw [ih hrest, List.append_assoc, hsplit]
  | case2 => rfl
  | case3 c rest _ ih =>
    rw [ih (Text.occursIn_of_part ⟨[c], [], by simp⟩ h)]

theorem closeSegment_append (segment : List Char) {rest : List Char} (hr : rest ≠ [])
    (more : List Char) : closeSegment segment (rest ++ more) =
      ((closeSegment segment rest).1, (closeSegment segment rest).2 ++ more) := by
  obtain ⟨c, rest, rfl⟩ := List.exists_cons_of_ne_nil hr
  cases hm : Text.occursIn caseMark segment with
  | false => rw [closeSegment_unmarked hm, closeSegment_unmarked hm]
  | true =>
    by_cases hc : c = ']'
    · subst hc
      cases hb : (rewriteSegment segment).all Text.isBlank <;> simp [closeSegment, hm, hb]
    · simp [closeSegment, hm, hc]

theorem closeNext_append (a rest : List Char) :
    closeNext (a ++ ']' :: rest) =
      ((closeNext (a ++ [']'])).1, (closeNext (a ++ [']'])).2 ++ rest) := by
  have hne : (splitSegment a).2 ++ [']'] ≠ [] := List.append_ne_nil_of_right_ne_nil _ (List.cons_ne_nil _ _)
  rw [closeNext, closeNext, (closes_bracket rest).splitSegment_append, (closes_bracket []).splitSegment_append,
    ← closeSegment_append _ hne, List.append_assoc]
  rfl

theorem closeNext_suffix (after : List Char) : (closeNext after).2 <:+ after := by
  have hsplit : (splitSegment after).2 <:+ after := ⟨_, splitSegment_append after⟩
  rcases closeSegment_cases (splitSegment after).1 (splitSegment after).2 with
    ⟨segment, hclose, _⟩ | ⟨more, hrest, hclose, _⟩
  · rw [closeNext, hclose]
    exact hsplit
  · rw [closeNext, hclose]
    rw [hrest] at hsplit
    exact (List.suffix_cons ']' more).trans hsplit

theorem getLast?_of_suffix {s t : List Char} (h : s <:+ t) {c : Char} (hc : c ∈ s.getLast?) :
    c ∈ t.getLast? := by
  obtain ⟨front, rfl⟩ := h
  rw [List.getLast?_append, Option.mem_def.1 hc]
  rfl

theorem exists_append_bracket {s : List Char} (hne : s ≠ []) (h : ∀ c ∈ s.getLast?, c = ']') :
    ∃ a, s = a ++ [']'] := by
  obtain ⟨a, c, rfl⟩ := (List.eq_nil_or_concat s).resolve_left hne
  rw [List.concat_eq_append] at h ⊢
  obtain rfl := h c (by simp)
  exact ⟨a, rfl⟩

/-- What ends with a bracket is carried out by itself, and what follows the bracket as well. -/
theorem carryOut_append_of_last {s : List Char} (h : ∀ c ∈ s.getLast?, c = ']') (rest : List Char) :
    carryOut (s ++ rest) = carryOut s ++ carryOut rest := by
  fun_induction carryOut s with
  | case1 s after hopen _ ih =>
    obtain rfl := Text.after?_eq_some_iff.1 hopen
    have hne : after ≠ [] := by
      rintro rfl
      exact absurd (h '[' rfl) (by decide)
    have hafter := List.suffix_append nodeOpen after
    obtain ⟨a, rfl⟩ := exists_append_bracket hne fun c hc => h c (getLast?_of_suffix hafter hc)
    have hsuffix := (closeNext_suffix (a ++ [']'])).trans hafter
    have hrest := ih fun c hc => h c (getLast?_of_suffix hsuffix hc)
    rw [List.append_assoc, List.append_assoc, List.singleton_append, carryOut_nodeOpen,
      closeNext_append, hrest, List.append_assoc]
  | case2 => rfl
  | case3 c s hopen ih =>
    have hrest := ih fun d hd => h d (getLast?_of_suffix (List.suffix_cons c s) hd)
    obtain ⟨a, ha⟩ := exists_append_bracket (List.cons_ne_nil c s) h
    have hnone : ∀ rest, Text.after? nodeOpen (a ++ ']' :: rest) = none := by
      have hafter := Text.after?_append_of_not_mem (w := nodeOpen) (c := ']') (by decide) a
      rw [ha, hafter [], Option.map_eq_none_iff] at hopen
      intro rest
      rw [hafter, hopen]
      rfl
    have hcons : carryOut (c :: (s ++ rest)) = c :: carryOut (s ++ rest) := by
      apply carryOut_cons
      rw [← List.cons_append, ha, List.append_assoc]
      exact hnone rest
    rw [List.cons_append, hcons, hrest]
    rfl

end CaseMark

namespace Axis

theorem exists_dropWhile_append_cons {p : Char → Bool} {c : Char} (hc : p c = false) (s : List Char) :
    ∃ front, front <:+ s ∧ ∀ t, (s ++ c :: t).dropWhile p = front ++ c :: t := by
  induction s with
  | nil =>
    exact ⟨[], List.nil_suffix, fun t => List.dropWhile_cons_of_neg (ne_true_of_eq_false hc)⟩
  | cons d s ih =>
    by_cases hd : p d = true
    · obtain ⟨front, hs, hf⟩ := ih
      refine ⟨front, hs.trans (List.suffix_cons d s), fun t => ?_⟩
      rw [List.cons_append, List.dropWhile_cons_of_pos hd, hf]
    · exact ⟨d :: s, List.suffix_refl _, fun t => List.dropWhile_cons_of_neg hd⟩

theorem exists_strip_append_cons {c : Char} (hb : Text.isBlank c = false) (hc : c ≠ '/')
    (s : List Char) : ∃ front, front <:+ s ∧ ∀ t : List Char,
      (∀ d ∈ t.getLast?, Text.isBlank d = false) → strip (s ++ c :: t) = front ++ c :: t := by
  obtain ⟨start, hs, hstart⟩ := exists_dropWhile_append_cons hb s
  obtain ⟨front, hf, hfront⟩ :=
    exists_dropWhile_append_cons (p := (decide <| · = '/')) (decide_eq_false hc) start
  refine ⟨front, hf.trans hs, fun t ht => ?_⟩
  have hlast : ∀ d ∈ (start ++ c :: t).getLast?, Text.isBlank d = false := by
    rw [List.append_cons]
    exact Text.last_append (Text.last_concat start hb) ht
  rw [strip, Text.trim, Text.trimStart, hstart, Text.trimEnd_eq_self hlast, hfront]

end Axis

namespace Pattern

open CaseMark

theorem Accepted.exists_last {s : List Char} (h : Accepted s)
    (hb : ∀ c ∈ s.getLast?, Text.isBlank c = false) :
    (∃ init, s = init ++ ['e'] ∧ '@' ∉ s) ∨ ∃ init, s = init ++ [']'] := by
  obtain ⟨front, slashes, gap, groups, rfl, hf, hs, hg, hgr⟩ := h
  obtain ⟨groups, back, rfl, _, hback, hend⟩ := hgr.exists_trimmed
  have hnone : back = [] := by
    rcases back.eq_nil_or_concat with rfl | ⟨init, c, rfl⟩
    · rfl
    · rw [List.concat_eq_append] at hb hback
      have hlast : c ∈ (front ++ (slashes ++ (gap ++ (['n', 'o', 'd', 'e'] ++
          (groups ++ (init ++ [c])))))).getLast? := by
        simp only [← List.append_assoc, List.getLast?_concat, Option.mem_def]
      have hc := hback.blank c (by simp)
      rw [hb c hlast] at hc
      cases hc
  subst hnone
  rcases hend with rfl | ⟨init, rfl⟩
  · refine .inl ⟨front ++ (slashes ++ (gap ++ ['n', 'o', 'd'])), by simp, ?_⟩
    have hslashes : '@' ∉ slashes := fun hm => absurd (hs '@' hm) (by decide)
    simp [hf.ne (c := '@') rfl, hg.ne (c := '@') rfl, hslashes]
  · exact .inr ⟨front ++ (slashes ++ (gap ++ (['n', 'o', 'd', 'e'] ++ init))), by simp⟩

/-- Text without a mark behind a pattern stays as it is, and what becomes of the pattern does not depend
on it. -/
theorem normalize_append (axis : Axis) {text more : String} (h : parse text ≠ .error .malformed)
    (hb : ∀ c ∈ text.toList.getLast?, Text.isBlank c = false)
    (hm : Text.occursIn caseMark more.toList = false)
    (hl : ∀ c ∈ more.toList.getLast?, Text.isBlank c = false) :
    normalize axis (text ++ more) = normalize axis text ++ more := by
  apply String.toList_injective
  rw [String.toList_append, toList_normalize, toList_normalize, bareText, bareText,
    String.toList_append]
  have hnil : ∀ c ∈ ([] : List Char).getLast?, Text.isBlank c = false := nofun
  rcases (accepted_of_parse h).exists_last hb with ⟨init, he, hat⟩ | ⟨init, he⟩
  · obtain ⟨front, hsuffix, hstrip⟩ :=
      Axis.exists_strip_append_cons (c := 'e') (by decide) (by decide) init
    have hfront : '@' ∉ front ++ ['e'] := by
      rw [List.mem_append, not_or]
      refine ⟨fun hm => hat ?_, by decide⟩
      rw [he]
      exact List.mem_append_left _ (hsuffix.mem hm)
    have hunmarked : ∀ t : List Char, Text.occursIn caseMark t = false →
        Text.occursIn caseMark (front ++ 'e' :: t) = false := by
      intro t ht
      rw [List.append_cons, occursIn_append hfront]
      exact ht
    rw [he, List.append_assoc, List.singleton_append, hstrip [] hnil, hstrip _ hl,
      carryOut_unmarked (hunmarked [] rfl), carryOut_unmarked (hunmarked _ hm)]
    simp only [List.append_assoc, List.cons_append, List.nil_append]
  · obtain ⟨front, _, hstrip⟩ :=
      Axis.exists_strip_append_cons (c := ']') (by decide) (by decide) init
    have hcarry := carryOut_append_of_last (s := front ++ [']']) (by simp) more.toList
    rw [carryOut_unmarked hm, List.append_assoc, List.singleton_append] at hcarry
    rw [he, List.append_assoc, List.singleton_append, hstrip [] hnil, hstrip _ hl, hcarry,
      List.append_assoc]

end Pattern
end TreebankSearch

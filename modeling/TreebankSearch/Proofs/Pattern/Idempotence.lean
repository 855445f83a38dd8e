import Mathlib.Logic.Function.Iterate
import TreebankSearch.Proofs.Pattern.Leading
import TreebankSearch.Proofs.Pattern.Pieces
import TreebankSearch.Proofs.Pattern.Rewriting

/-!
# Normalizing again

What a normalized text is when it is normalized once more. A segment that holds a mark comes out with fewer
quotes than it had, so that such a text is not a normal form of its own, and any other text is. A normalized
text can still have such a segment: a node that loses its first bracket comes to stand before the next one,
and a text can become a mark when another one goes from within it.
-/

namespace TreebankSearch

namespace CaseMark

variable {s before segment rest : List Char} {inWord : Bool}

/-- A segment that holds a mark is left in the text. -/
def Unsettled (s : List Char) : Prop :=
  ∃ before segment rest, IsSegment s before segment rest ∧ Text.occursIn caseMark segment = true

/-- What a segment with a mark becomes is not blank, if a bracket closes it, and holds no mark. -/
def Lasting (s : List Char) : Prop :=
  ∀ before segment rest, IsSegment s before segment rest → Text.occursIn caseMark segment = true →
    (rest.head? = some ']' → (rewriteSegment segment).all Text.isBlank = false) ∧
      Text.occursIn caseMark (rewriteSegment segment) = false

theorem count_of_afterMark? (h : afterMark? inWord s = some rest) :
    s.count '"' = rest.count '"' + 2 := by
  have hinWord : ∃ last, isWord last = inWord := by
    cases inWord with
    | false => exact ⟨none, rfl⟩
    | true => exact ⟨some 'a', by decide +kernel⟩
  obtain ⟨last, rfl⟩ := hinWord
  obtain ⟨part, rfl, hpart⟩ := afterMark?_eq_some_iff.1 h
  have hmark : caseMark.count '"' = 2 := by decide
  have hblank : ∀ gap : List Char, (∀ c ∈ gap, Text.isBlank c = true) → gap.count '"' = 0 := fun gap hgap =>
    List.count_eq_zero.2 (blanks_no_quote hgap)
  have hand : ['a', 'n', 'd'].count '"' = 0 := by decide
  rw [List.count_append, Nat.add_comm]
  congr 1
  cases hpart with
  | joined hgap _ hgap' =>
    rw [List.count_append, List.count_append, List.count_append, hblank _ hgap, hblank _ hgap'.2, hand, hmark]
  | first hgap hgap' =>
    rw [List.count_append, List.count_append, List.count_append, hblank _ hgap.2, hblank _ hgap', hand, hmark]
  | alone => exact hmark

theorem after?_caseMark_of_afterMark? (h : afterMark? inWord s = none) : Text.after? caseMark s = none := by
  unfold afterMark? at h
  split at h
  · cases h
  split at h
  · cases h
  · exact h

theorem count_dropMarks (inWord : Bool) (s : List Char) :
    (dropMarks inWord s).count '"' + (if Text.occursIn caseMark s = true then 2 else 0) ≤ s.count '"' := by
  fun_induction dropMarks inWord s with
  | case1 inWord s rest h _ ih =>
    have hcount := count_of_afterMark? h
    split <;> omega
  | case2 => exact Nat.le_refl _
  | case3 inWord c s h ih =>
    have hoccurs : Text.occursIn caseMark (c :: s) = Text.occursIn caseMark s := by
      rw [Text.occursIn, after?_caseMark_of_afterMark? h]
      rfl
    rw [hoccurs, List.count_cons, List.count_cons]
    omega

theorem TestRule.count_quote {last : Option Char} {part rest new : List Char}
    (h : TestRule last part rest new) : new.count '"' = part.count '"' := by
  have hplain : ∀ name ∈ lexicalNames, name.count '"' = 0 := by decide
  have hcall : "lower-case(@".toList.count '"' = 0 := by decide
  cases h with
  | @test _ name value _ hname _ hquote =>
    have hlower : (Text.lower value).count '"' = 0 := List.count_eq_zero.2 fun hm => by
      rcases Text.eq_or_le_of_mem_lower hm with h | h
      · exact hquote h
      · exact absurd h (by decide)
    have hvalue : value.count '"' = 0 := List.count_eq_zero.2 hquote
    generalize "lower-case(@".toList = call at hcall ⊢
    simp [hcall, hplain name hname, hlower, hvalue]

theorem count_lowerTests (s : List Char) : (lowerTests s).count '"' = s.count '"' := by
  fun_induction lowerTests s with
  | case1 s test rest h _ ih =>
    obtain ⟨part, rfl, htest⟩ := (TestRule.foundBy.found none).1 h
    rw [List.count_append, List.count_append, ih, htest.count_quote]
  | case2 => rfl
  | case3 c s h ih => rw [List.count_cons, List.count_cons, ih]

theorem count_rewriteSegment (segment : List Char) : (rewriteSegment segment).count '"' +
    (if Text.occursIn caseMark segment = true then 2 else 0) ≤ segment.count '"' := by
  rw [rewriteSegment, count_lowerTests]
  exact count_dropMarks false segment

theorem count_nodeOpen : nodeOpen.count '"' = 0 := by decide

theorem count_closeSegment (segment rest : List Char) :
    (closeSegment segment rest).1.count '"' + (closeSegment segment rest).2.count '"' +
      (if Text.occursIn caseMark segment = true ∧ rest ≠ [] then 2 else 0) ≤
    segment.count '"' + rest.count '"' := by
  have hrewritten := count_rewriteSegment segment
  unfold closeSegment
  split
  · next h =>
    rw [Bool.or_eq_true, List.isEmpty_iff, Bool.not_eq_true'] at h
    have hstays : ¬ (Text.occursIn caseMark segment = true ∧ rest ≠ []) := by
      rintro ⟨hmark, hne⟩
      rcases h with h | h
      · exact hne h
      · rw [hmark] at h
        cases h
    rw [if_neg hstays]
    dsimp only
    rw [List.count_append, count_nodeOpen]
    omega
  · next h =>
    rw [Bool.or_eq_true, not_or, List.isEmpty_iff, Bool.not_eq_true', Bool.not_eq_false] at h
    rw [if_pos h.2] at hrewritten
    rw [if_pos ⟨h.2, h.1⟩]
    have hkept : (nodeOpen ++ rewriteSegment segment).count '"' + rest.count '"' + 2 ≤
        segment.count '"' + rest.count '"' := by
      rw [List.count_append, count_nodeOpen]
      omega
    dsimp only
    split
    · split
      · have hnode : nodeOpen.dropLast.count '"' = 0 := by decide
        simp only [hnode, List.count_cons]
        omega
      · exact hkept
    · exact hkept

theorem count_carryOut (s : List Char) : (carryOut s).count '"' ≤ s.count '"' := by
  fun_induction carryOut s with
  | case1 s after h _ ih =>
    have hsplit := congrArg (List.count '"') (splitSegment_append after)
    have hclose := count_closeSegment (splitSegment after).1 (splitSegment after).2
    rw [Text.after?_eq_some_iff.1 h, List.count_append, List.count_append, count_nodeOpen]
    rw [List.count_append] at hsplit
    rw [closeNext] at ih ⊢
    omega
  | case2 => exact Nat.le_refl _
  | case3 c s h ih =>
    rw [List.count_cons, List.count_cons]
    omega

/-- Where a segment holds a mark, a text has fewer quotes when its marks have been carried out. -/
theorem Unsettled.count_carryOut (h : Unsettled s) : (carryOut s).count '"' + 2 ≤ s.count '"' := by
  obtain ⟨before, segment, rest, hs, hmark⟩ := h
  obtain ⟨front, hfront, hcarry⟩ := hs.exists_carryOut
  have hbefore := CaseMark.count_carryOut (before ++ nodeOpen)
  have hclose := count_closeSegment segment rest
  have hrest := CaseMark.count_carryOut (closeSegment segment rest).2
  rw [hfront] at hbefore
  rw [if_pos ⟨hmark, hs.closed.ne_nil⟩] at hclose
  rw [hcarry, hs.text]
  simp only [List.count_append, count_nodeOpen] at hbefore ⊢
  omega

theorem Unsettled.of_part (h : Unsettled s) (front back : List Char) : Unsettled (front ++ (s ++ back)) := by
  obtain ⟨before, segment, rest, hs, hmark⟩ := h
  exact ⟨_, segment, _, hs.of_part front back, hmark⟩

theorem carryOut_of_settled (h : ¬ Unsettled s) : carryOut s = s := by
  fun_induction carryOut s with
  | case1 s after hopen _ ih =>
    obtain rfl := Text.after?_eq_some_iff.1 hopen
    have hsplit := splitSegment_append after
    have hclose : closeNext after = (nodeOpen ++ (splitSegment after).1, (splitSegment after).2) := by
      by_cases hend : (splitSegment after).2 = []
      · simp [closeNext, closeSegment, hend]
      · refine closeSegment_unmarked ?_ _
        rw [Bool.eq_false_iff]
        intro hmark
        exact h ⟨[], _, _, isSegment_of_splitSegment [] hend, hmark⟩
    rw [hclose] at ih ⊢
    have hrest : carryOut (splitSegment after).2 = (splitSegment after).2 := ih fun hs => by
      have hpart := hs.of_part (nodeOpen ++ (splitSegment after).1) []
      rw [List.append_nil, List.append_assoc, hsplit] at hpart
      exact h hpart
    rw [hrest, List.append_assoc, hsplit]
  | case2 => rfl
  | case3 c s _ ih =>
    rw [ih fun hs => h (by simpa using hs.of_part [c] [])]

/-- The texts that stay as they are when their marks are carried out. -/
theorem carryOut_eq_self_iff : carryOut s = s ↔ ¬ Unsettled s := by
  refine ⟨fun h hs => ?_, carryOut_of_settled⟩
  have hcount := hs.count_carryOut
  rw [h] at hcount
  omega

theorem Lasting.of_part {front back : List Char} (h : Lasting (front ++ (s ++ back))) : Lasting s := by
  intro before segment rest hs hmark
  obtain ⟨hblank, hnew⟩ := h _ segment _ (hs.of_part front back) hmark
  refine ⟨fun hhead => hblank ?_, hnew⟩
  rw [List.head?_append, hhead]
  rfl

theorem carryOut_append_closing_of_unmarked {w t : List Char} (hw : Text.occursIn caseMark w = false)
    (ht : Closes t) : carryOut (w ++ t) = w ++ carryOut t := by
  fun_induction carryOut w with
  | case1 w after hopen _ ih =>
    obtain rfl := Text.after?_eq_some_iff.1 hopen
    have hsplit := splitSegment_append after
    have hsegment := Text.occursIn_of_part (s := (splitSegment after).1)
      ⟨nodeOpen, (splitSegment after).2, by rw [List.append_assoc, hsplit]⟩ hw
    have hrest := Text.occursIn_of_part (s := (splitSegment after).2)
      ⟨nodeOpen ++ (splitSegment after).1, [], by rw [List.append_nil, List.append_assoc, hsplit]⟩ hw
    rw [closeNext, closeSegment_unmarked hsegment] at ih
    rw [List.append_assoc, carryOut_nodeOpen, closeNext, ht.splitSegment_append,
      closeSegment_unmarked hsegment, ih hrest, List.append_assoc, List.append_assoc,
      ← List.append_assoc _ _ (carryOut t), hsplit]
  | case2 => rfl
  | case3 c w hopen ih =>
    have hnone : Text.after? nodeOpen (c :: (w ++ t)) = none := by rw [ht.after?_append, hopen]; rfl
    rw [List.cons_append, carryOut_cons hnone, ih (Text.occursIn_of_part (List.suffix_cons c w).isInfix hw)]
    rfl

theorem after?_carryOut {w : List Char} (hw : 'n' ∉ w) (s : List Char) :
    Text.after? w (carryOut s) = (Text.after? w s).map carryOut := by
  induction w generalizing s with
  | nil => rfl
  | cons c w ih =>
    rw [List.mem_cons, not_or] at hw
    cases s with
    | nil =>
      rw [carryOut_nil]
      rfl
    | cons d s =>
      by_cases hcd : c = d
      · subst hcd
        rw [carryOut_cons_of_ne (Ne.symm hw.1), Text.after?, Text.after?, if_pos rfl, if_pos rfl, ih hw.2]
      · have hhead := head?_carryOut (d :: s)
        obtain ⟨s', hs'⟩ := List.head?_eq_some_iff.1 hhead
        rw [hs', Text.after?, Text.after?, if_neg hcd, if_neg hcd]
        rfl

theorem Lasting.exists_closeNext {after : List Char} (h : Lasting (nodeOpen ++ after)) :
    ∃ segment', closeNext after = (nodeOpen ++ segment', (splitSegment after).2) ∧
      ((splitSegment after).2 = [] ∧ segment' = after ∨ Text.occursIn caseMark segment' = false) := by
  have hsplit := splitSegment_append after
  by_cases hend : (splitSegment after).2 = []
  · rw [hend, List.append_nil] at hsplit
    exact ⟨_, by simp [closeNext, closeSegment, hend], .inl ⟨hend, hsplit⟩⟩
  cases hmark : Text.occursIn caseMark (splitSegment after).1 with
  | false => exact ⟨_, closeSegment_unmarked hmark _, .inr hmark⟩
  | true =>
    obtain ⟨hblank, hnew⟩ := h [] _ _ (isSegment_of_splitSegment [] hend) hmark
    exact ⟨_, closeSegment_kept hmark hend hblank, .inr hnew⟩

theorem Lasting.closes_carryOut (h : Lasting s) (hs : Closes s) : Closes (carryOut s) := by
  rcases hs with hs | ⟨after, rfl⟩
  · exact .inl ((head?_carryOut s).trans hs)
  · obtain ⟨segment', hclose, _⟩ := h.exists_closeNext
    rw [carryOut_nodeOpen, hclose, List.append_assoc]
    exact closes_nodeOpen _

theorem Lasting.carryOut_carryOut (h : Lasting s) : carryOut (carryOut s) = carryOut s := by
  fun_induction carryOut s with
  | case1 s after hopen _ ih =>
    obtain rfl := Text.after?_eq_some_iff.1 hopen
    obtain ⟨segment', hclose, hsegment⟩ := h.exists_closeNext
    rw [hclose] at ih ⊢
    rcases hsegment with ⟨hend, rfl⟩ | hunmarked
    · rw [hend, carryOut_nil, List.append_nil, carryOut_nodeOpen, hclose, hend, carryOut_nil, List.append_nil]
    · have hrest : Lasting (splitSegment after).2 := by
        have hpart := h
        rw [← splitSegment_append after, ← List.append_assoc, ← List.append_nil (splitSegment after).2] at hpart
        exact hpart.of_part
      have hopened : Text.occursIn caseMark (nodeOpen ++ segment') = false :=
        (occursIn_append (by decide) segment').trans hunmarked
      rcases (splitSegment_spec after).2.2 with hend | hcloses
      · rw [hend, carryOut_nil, List.append_nil, carryOut_unmarked hopened]
      · rw [carryOut_append_closing_of_unmarked hopened (hrest.closes_carryOut hcloses), ih hrest]
  | case2 => exact carryOut_nil
  | case3 c s hopen ih =>
    have hpart : Lasting ([c] ++ (s ++ [])) := by simpa using h
    have hs : Lasting s := hpart.of_part
    have hnone : Text.after? nodeOpen (c :: carryOut s) = none := by
      rw [nodeOpen, Text.after?] at hopen ⊢
      split at hopen
      · next hc =>
        rw [if_pos hc, after?_carryOut (by decide), hopen]
        rfl
      · next hc => rw [if_neg hc]
    rw [carryOut_cons hnone, ih hs]

theorem lasting_of_cut {front : List Char} {pieces : List (List Char)} (h : Cut s front pieces)
    (hpieces : ∀ piece ∈ pieces, Text.occursIn caseMark (piece.takeWhile (· ≠ ']')) = true →
      (rewriteSegment (piece.takeWhile (· ≠ ']'))).all Text.isBlank = false ∧
        Text.occursIn caseMark (rewriteSegment (piece.takeWhile (· ≠ ']'))) = false) : Lasting s := by
  intro before segment rest hs hmark
  obtain ⟨piece, hpiece, rfl⟩ := hs.exists_piece h
  obtain ⟨hblank, hnew⟩ := hpieces piece hpiece hmark
  exact ⟨fun _ => hblank, hnew⟩

theorem exists_iterate_carryOut (s : List Char) :
    ∃ n, 2 * n ≤ s.count '"' ∧ carryOut (carryOut^[n] s) = carryOut^[n] s := by
  induction hn : s.count '"' using Nat.strong_induction_on generalizing s with
  | _ n ih =>
    by_cases hs : Unsettled s
    · have hcount := hs.count_carryOut
      obtain ⟨m, hm, hstable⟩ := ih _ (by omega) (carryOut s) rfl
      exact ⟨m + 1, by omega, hstable⟩
    · exact ⟨0, Nat.zero_le _, carryOut_of_settled hs⟩

end CaseMark

namespace Axis

theorem strip_isInfix (s : List Char) : strip s <:+: s := by
  have hend : Text.trim s <+: Text.trimStart s := by
    rw [← List.reverse_suffix, Text.trim, Text.trimEnd, List.reverse_reverse]
    exact List.dropWhile_suffix _
  exact (List.dropWhile_suffix _).isInfix.trans
    (hend.isInfix.trans (List.dropWhile_suffix (l := s) Text.isBlank).isInfix)

end Axis

namespace Pattern

open CaseMark

theorem toList_normalize_normalize (axis : Axis) (text : String) :
    (normalize axis (normalize axis text)).toList = carryOut (normalize axis text).toList := by
  rw [normalize, place_normalize, resolve, String.toList_ofList]

/-- A text has a normal form that stays as it is just if no segment with a mark is left in it, and so it does
if its segments with marks last. -/
theorem normalize_normalize_iff (axis : Axis) (text : String) :
    (normalize axis (normalize axis text) = normalize axis text ↔
      ¬ Unsettled (normalize axis text).toList) ∧
    (Lasting text.toList → normalize axis (normalize axis text) = normalize axis text) := by
  rw [← String.toList_inj, toList_normalize_normalize, carryOut_eq_self_iff]
  refine ⟨Iff.rfl, fun h => ?_⟩
  have hn : 'n' ∉ axis.slashes := by cases axis <;> decide
  obtain ⟨front, back, htext⟩ := Axis.strip_isInfix text.toList
  have hstrip : Lasting (Axis.strip text.toList) := by
    rw [← htext, List.append_assoc] at h
    exact h.of_part
  rw [← carryOut_eq_self_iff, toList_normalize, carryOut_append_of_not_mem hn, bareText,
    hstrip.carryOut_carryOut]

def lasting : String := "//node[@cat=\"np\" and node[@caseinsensitive=\"yes\" and @word=\"De\"]]"

theorem normalize_normalize_lasting : Lasting lasting.toList ∧
    normalize .root lasting = "/node[@cat=\"np\" and node[lower-case(@word)=\"de\"]]" ∧
    normalize .root (normalize .root lasting) = normalize .root lasting := by
  have hcut : Cut lasting.toList ['/', '/'] [(lasting.toList.drop 7).take 14, lasting.toList.drop 26] :=
    ⟨by decide +kernel, by decide +kernel⟩
  have hlasting : Lasting lasting.toList := lasting_of_cut hcut (by decide +kernel)
  exact ⟨hlasting, by decide +kernel, (normalize_normalize_iff .root lasting).2 hlasting⟩

def emptiedBracket : String :=
  "//node[@caseinsensitive=\"yes\"][@word=\"X\" and @caseinsensitive=\"yes\"]"

/-- The first bracket goes, and the mark in the second one is carried out only when the text is normalized
again. -/
theorem normalize_emptiedBracket :
    parse emptiedBracket = .ok ⟨2, ⟨[[.requiring "caseinsensitive" "yes"],
      [.requiring "word" "X", .connective .and, .requiring "caseinsensitive" "yes"]]⟩⟩ ∧
    normalize .anywhere emptiedBracket = "//node[@word=\"X\" and @caseinsensitive=\"yes\"]" ∧
    normalize .anywhere (normalize .anywhere emptiedBracket) = "//node[lower-case(@word)=\"x\"]" ∧
    normalize .anywhere (normalize .anywhere emptiedBracket) ≠ normalize .anywhere emptiedBracket := by
  have none : Spaces [] := by decide
  have one : Spaces [' '] := by decide
  have hmark : Spelled (.operand (.requiring "caseinsensitive" "yes")) _ :=
    .comparison .eq .double (by decide) none none (by decide)
  have hword : Spelled (.operand (.requiring "word" "X")) _ :=
    .comparison .eq .double (by decide) none none (by decide)
  have hs : Spells ⟨2, ⟨[[.requiring "caseinsensitive" "yes"],
      [.requiring "word" "X", .connective .and, .requiring "caseinsensitive" "yes"]]⟩⟩
      emptiedBracket.toList :=
    ⟨[], [], _, [], none, none, .bracket none (.content none (.single hmark) none)
      (.bracket none (.content none
        (.join .and hword one (by decide) one (by decide) (.single hmark)) none) .noBrackets), none,
      by decide⟩
  have hfirst : normalize .anywhere emptiedBracket = "//node[@word=\"X\" and @caseinsensitive=\"yes\"]" := by
    decide +kernel
  have hsecond : normalize .anywhere "//node[@word=\"X\" and @caseinsensitive=\"yes\"]" =
      "//node[lower-case(@word)=\"x\"]" := by decide +kernel
  rw [hfirst, hsecond]
  exact ⟨hs.parse, rfl, rfl, by decide⟩

theorem toList_iterate_normalize (axis : Axis) (text : String) (n : Nat) :
    ((normalize axis)^[n + 1] text).toList = carryOut^[n] (normalize axis text).toList := by
  induction n with
  | zero => rfl
  | succ n ih =>
    rw [Function.iterate_succ_apply', Function.iterate_succ_apply' carryOut, ← ih,
      Function.iterate_succ_apply', toList_normalize_normalize]

/-- A text comes to stay, since each pass that changes a normalized text takes two quotes from it. -/
theorem exists_normalize_iterate (axis : Axis) (text : String) :
    ∃ n, 2 * n ≤ text.toList.count '"' ∧
      normalize axis ((normalize axis)^[n + 1] text) = (normalize axis)^[n + 1] text := by
  obtain ⟨n, hn, hstable⟩ := exists_iterate_carryOut (normalize axis text).toList
  refine ⟨n, ?_, ?_⟩
  · have hslashes : axis.slashes.count '"' = 0 := by cases axis <;> rfl
    have hcarry := count_carryOut (Axis.strip text.toList)
    have hstrip := (Axis.strip_isInfix text.toList).sublist.count_le '"'
    rw [toList_normalize, List.count_append, hslashes, bareText] at hn
    omega
  · apply String.toList_injective
    rw [← Function.iterate_succ_apply' (normalize axis), toList_iterate_normalize, toList_iterate_normalize,
      Function.iterate_succ_apply', hstable]

end Pattern
end TreebankSearch

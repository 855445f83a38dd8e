import TreebankSearch.Pattern.Normal
import TreebankSearch.Proofs.Pattern.CaseMark
import TreebankSearch.Proofs.Text.Basic

/-!
# Change of axis

A pattern is normalized for the pass that it is first sent in, and placed under the axis of the current
pass with every query. This gives what normalization for the current pass would have given, whatever the
text is: carrying out marks lets no slash come to the front and no blank to the end, so that placing the
text again takes away the slashes of the axis and nothing else.
-/

namespace TreebankSearch

namespace CaseMark

theorem head?_closeNext (after : List Char) : (closeNext after).1.head? = some 'n' := by
  rcases closeSegment_cases (splitSegment after).1 (splitSegment after).2 with
    ⟨segment, hclose, _⟩ | ⟨more, _, hclose, _⟩
  · rw [closeNext, hclose]
    rfl
  · rw [closeNext, hclose]
    rfl

theorem head?_carryOut (s : List Char) : (carryOut s).head? = s.head? := by
  fun_induction carryOut s with
  | case1 s after h _ _ =>
    rw [Text.after?_eq_some_iff.1 h, List.head?_append, head?_closeNext]
    rfl
  | case2 => rfl
  | case3 => rfl

/-- A text keeps its last character, unless it comes to end with the word of a node. -/
def EndsLike (s t : List Char) : Prop := t.getLast? = s.getLast? ∨ t.getLast? = some 'e'

theorem EndsLike.append {s t : List Char} (h : EndsLike s t) (hs : s ≠ []) (front front' : List Char) :
    EndsLike (front ++ s) (front' ++ t) := by
  obtain ⟨c, hc⟩ := Option.isSome_iff_exists.1 (List.getLast?_isSome.2 hs)
  unfold EndsLike at h ⊢
  rw [hc] at h
  rw [List.getLast?_append, List.getLast?_append, hc]
  rcases h with h | h
  · left
    rw [h]
    rfl
  · right
    rw [h]
    rfl

theorem endsLike_carryOut (s : List Char) : EndsLike s (carryOut s) := by
  fun_induction carryOut s with
  | case1 s after h _ ih =>
    have hs : s = nodeOpen ++ (splitSegment after).1 ++ (splitSegment after).2 := by
      rw [Text.after?_eq_some_iff.1 h, List.append_assoc, splitSegment_append]
    rw [hs]
    unfold closeNext at ih ⊢
    generalize (splitSegment after).1 = segment at ih ⊢
    cases hrest : (splitSegment after).2 with
    | nil =>
      -- a segment that runs to the end of the text is left as it is
      have hclose : closeSegment segment [] = (nodeOpen ++ segment, []) := rfl
      rw [hclose, carryOut_nil]
      exact .inl rfl
    | cons c rest =>
      rw [hrest] at ih
      rcases closeSegment_cases segment (c :: rest) with
        ⟨segment', hclose, _⟩ | ⟨more, hmore, hclose, _⟩
      · rw [hclose] at ih ⊢
        exact ih.append (List.cons_ne_nil c rest) _ _
      · cases hmore
        rw [hclose] at ih ⊢
        cases rest with
        | nil =>
          rw [carryOut_nil]
          exact .inr rfl
        | cons d rest =>
          have hlast := ih.append (List.cons_ne_nil d rest) (nodeOpen ++ segment ++ [']'])
            nodeOpen.dropLast
          simpa using hlast
  | case2 => exact .inl rfl
  | case3 c rest h ih =>
    cases rest with
    | nil =>
      rw [carryOut_nil]
      exact .inl rfl
    | cons d rest => exact ih.append (List.cons_ne_nil d rest) [c] [c]

end CaseMark

namespace Axis

structure Stripped (s : List Char) : Prop where
  head : s.head? ≠ some '/'
  last : ∀ c ∈ s.getLast?, Text.isBlank c = false

theorem stripped_strip (s : List Char) : Stripped (strip s) where
  head := by
    intro hc
    have hd := List.head?_dropWhile_not (· = '/') (Text.trim s)
    rw [strip] at hc
    rw [hc] at hd
    exact absurd hd (by decide)
  last := by
    intro c hc
    obtain ⟨front, hfront⟩ := List.dropWhile_suffix (l := Text.trim s) (· = '/')
    apply Text.last_trimEnd (Text.trimStart s)
    rw [← Text.trim, ← hfront, List.getLast?_append]
    rw [strip] at hc
    rw [Option.mem_def.1 hc]
    rfl

/-- Under an axis, a stripped text is found again. -/
theorem Stripped.strip_attached {s : List Char} (h : Stripped s) (axis : Axis) :
    strip (axis.slashes ++ s) = s := by
  have hlast : ∀ c ∈ (axis.slashes ++ s).getLast?, Text.isBlank c = false := by
    refine Text.last_append ?_ h.last
    cases axis with
    | anywhere => exact Text.last_concat ['/'] (by decide)
    | root => exact Text.last_concat [] (by decide)
  have htrim : Text.trim (axis.slashes ++ s) = axis.slashes ++ s := by
    have hstart : Text.trimStart (axis.slashes ++ s) = axis.slashes ++ s := by
      cases axis <;> exact Text.trimStart_cons (by decide) _
    rw [Text.trim, hstart, Text.trimEnd_eq_self hlast]
  have hslashes : ∀ c ∈ axis.slashes, decide (c = '/') = true := by
    cases axis <;> simp [slashes]
  rw [strip, htrim, List.dropWhile_append_of_pos hslashes]
  cases s with
  | nil => rfl
  | cons c s =>
    apply List.dropWhile_cons_of_neg
    intro hc
    exact h.head (congrArg some (of_decide_eq_true hc))

theorem Stripped.carryOut {s : List Char} (h : Stripped s) : Stripped (CaseMark.carryOut s) where
  head := by
    rw [CaseMark.head?_carryOut]
    exact h.head
  last := by
    intro c hc
    rcases CaseMark.endsLike_carryOut s with hs | he
    · exact h.last c (hs ▸ hc)
    · rw [he] at hc
      cases hc
      decide

end Axis

namespace Pattern

def bareText (pattern : String) : List Char := CaseMark.carryOut (Axis.strip pattern.toList)

theorem stripped_bareText (pattern : String) : Axis.Stripped (bareText pattern) :=
  (Axis.stripped_strip pattern.toList).carryOut

theorem toList_normalize (axis : Axis) (pattern : String) :
    (normalize axis pattern).toList = axis.slashes ++ bareText pattern := by
  have hn : 'n' ∉ axis.slashes := by cases axis <;> decide
  rw [normalize, CaseMark.resolve, String.toList_ofList, Axis.toList_place, Axis.attach,
    CaseMark.carryOut_append_of_not_mem hn]
  rfl

/-- A normalized pattern that is placed under an axis is the pattern normalized for that axis. -/
theorem place_normalize (axis other : Axis) (pattern : String) :
    other.place (normalize axis pattern) = normalize other pattern := by
  apply String.toList_injective
  rw [Axis.toList_place, Axis.attach, toList_normalize, toList_normalize,
    (stripped_bareText pattern).strip_attached]

end Pattern
end TreebankSearch

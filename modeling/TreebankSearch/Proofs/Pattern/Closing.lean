import TreebankSearch.Proofs.Pattern.CaseMark

/-!
# Where segments end

A segment starts behind a `node[` and goes on to the next closing bracket or the next `node[`. The text
from such a place on plays no part in where the segments before it start and end.
-/

namespace TreebankSearch.CaseMark

variable {s t w before segment rest after : List Char}

def Closes (t : List Char) : Prop := t.head? = some ']' ∨ nodeOpen <+: t

theorem closes_bracket (t : List Char) : Closes (']' :: t) := .inl rfl

theorem closes_nodeOpen (t : List Char) : Closes (nodeOpen ++ t) := .inr (List.prefix_append _ t)

theorem Closes.append (h : Closes t) (more : List Char) : Closes (t ++ more) := by
  rcases h with h | h
  · obtain ⟨t, rfl⟩ := List.head?_eq_some_iff.1 h
    exact closes_bracket _
  · exact .inr (h.trans (List.prefix_append t more))

theorem Closes.ne_nil (h : Closes t) : t ≠ [] := by
  rintro rfl
  rcases h with h | h
  · cases h
  · exact absurd (List.prefix_nil.1 h) (by decide)

theorem Closes.after?_append (h : Closes t) (c : Char) (w : List Char) :
    Text.after? nodeOpen (c :: (w ++ t)) = (Text.after? nodeOpen (c :: w)).map (· ++ t) := by
  rcases h with h | ⟨t, rfl⟩
  · obtain ⟨t, rfl⟩ := List.head?_eq_some_iff.1 h
    exact Text.after?_append_of_not_mem (by decide) (c :: w) t
  · have hinner := Text.after?_append_of_not_mem (c := 'n') (w := ['o', 'd', 'e', '[']) (by decide) w
      (['o', 'd', 'e', '['] ++ t)
    rw [nodeOpen, Text.after?, Text.after?]
    split
    · exact hinner
    · rfl

theorem Closes.splitSegment (h : Closes t) : splitSegment t = ([], t) := by
  rcases h with h | ⟨t, rfl⟩
  · obtain ⟨t, rfl⟩ := List.head?_eq_some_iff.1 h
    rfl
  · have hafter := Text.after?_append nodeOpen t
    rw [nodeOpen, List.cons_append] at hafter ⊢
    rw [CaseMark.splitSegment, nodeOpen, hafter, if_pos (by simp)]

theorem Closes.splitSegment_append (h : Closes t) (s : List Char) : CaseMark.splitSegment (s ++ t) =
    ((CaseMark.splitSegment s).1, (CaseMark.splitSegment s).2 ++ t) := by
  induction s with
  | nil => exact h.splitSegment
  | cons c s ih =>
    rw [List.cons_append, CaseMark.splitSegment, CaseMark.splitSegment, h.after?_append, Option.isSome_map]
    split
    · rfl
    · rw [ih]

structure IsSegment (s before segment rest : List Char) : Prop where
  text : s = before ++ (nodeOpen ++ (segment ++ rest))
  closing : ']' ∉ segment
  opening : Text.occursIn nodeOpen segment = false
  closed : Closes rest

theorem IsSegment.of_part (h : IsSegment s before segment rest) (front back : List Char) :
    IsSegment (front ++ (s ++ back)) (front ++ before) segment (rest ++ back) where
  text := by rw [h.text]; simp only [List.append_assoc]
  closing := h.closing
  opening := h.opening
  closed := h.closed.append back

theorem splitSegment_spec (after : List Char) :
    ']' ∉ (splitSegment after).1 ∧ Text.occursIn nodeOpen (splitSegment after).1 = false ∧
      ((splitSegment after).2 = [] ∨ Closes (splitSegment after).2) := by
  fun_induction splitSegment after with
  | case1 => exact ⟨List.not_mem_nil, rfl, .inl rfl⟩
  | case2 c s h =>
    refine ⟨List.not_mem_nil, rfl, .inr ?_⟩
    rw [Bool.or_eq_true] at h
    rcases h with hc | hopen
    · rw [of_decide_eq_true hc]
      exact closes_bracket s
    · obtain ⟨t, ht⟩ := Option.isSome_iff_exists.1 hopen
      rw [Text.after?_eq_some_iff.1 ht]
      exact closes_nodeOpen t
  | case3 c s h segment rest hsplit ih =>
    rw [hsplit] at ih
    obtain ⟨hclosing, hopening, hend⟩ := ih
    rw [Bool.or_eq_true, not_or, decide_eq_true_eq, Bool.not_eq_true, Option.isSome_eq_false_iff,
      Option.isNone_iff_eq_none] at h
    refine ⟨?_, ?_, hend⟩
    · rw [List.mem_cons, not_or]
      exact ⟨Ne.symm h.1, hclosing⟩
    · have hnone : Text.after? nodeOpen (c :: segment) = none := by
        rw [Option.eq_none_iff_forall_ne_some]
        intro more hmore
        have htext := splitSegment_append s
        rw [hsplit] at htext
        have hwhole : Text.after? nodeOpen (c :: s) = some (more ++ rest) := by
          rw [Text.after?_eq_some_iff, ← htext, ← List.append_assoc, ← Text.after?_eq_some_iff.1 hmore]
          rfl
        rw [h.2] at hwhole
        cases hwhole
      rw [Text.occursIn, hnone, hopening]
      rfl

theorem isSegment_of_splitSegment (before : List Char) (h : (splitSegment after).2 ≠ []) :
    IsSegment (before ++ (nodeOpen ++ after)) before (splitSegment after).1 (splitSegment after).2 where
  text := by rw [splitSegment_append]
  closing := (splitSegment_spec after).1
  opening := (splitSegment_spec after).2.1
  closed := (splitSegment_spec after).2.2.resolve_left h

theorem splitSegment_eq_self (hclosing : ']' ∉ s) (hopening : Text.occursIn nodeOpen s = false) :
    splitSegment s = (s, []) := by
  induction s with
  | nil => rfl
  | cons c s ih =>
    rw [List.mem_cons, not_or] at hclosing
    rw [Text.occursIn, Bool.or_eq_false_iff] at hopening
    rw [splitSegment, hopening.1, ih hclosing.2 hopening.2, if_neg (by simp [Ne.symm hclosing.1])]

theorem IsSegment.splitSegment (h : IsSegment s before segment rest) :
    splitSegment (segment ++ rest) = (segment, rest) := by
  rw [h.closed.splitSegment_append, splitSegment_eq_self h.closing h.opening]
  rfl

/-- A segment with a mark keeps its bracket if anything is left of it. -/
theorem closeSegment_kept (hmark : Text.occursIn caseMark segment = true) (hrest : rest ≠ [])
    (hblank : rest.head? = some ']' → (rewriteSegment segment).all Text.isBlank = false) :
    closeSegment segment rest = (nodeOpen ++ rewriteSegment segment, rest) := by
  have hempty : rest.isEmpty = false := by simpa using hrest
  rw [closeSegment, hmark, hempty, if_neg (by decide)]
  dsimp only
  split
  · next more =>
    rw [hblank rfl, if_neg (by decide)]
  · rfl

end TreebankSearch.CaseMark

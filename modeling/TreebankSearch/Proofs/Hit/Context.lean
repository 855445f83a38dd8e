import TreebankSearch.Hit.Basic

/-!
# The context of a hit

Where a sentence with context is taken apart: at the last opening mark that has a closing one behind it,
and at the next closing mark. A sentence without such marks is all hit, whatever else is in it.
-/

namespace TreebankSearch.Highlight

variable {s before body after before' body' after' : List Char}

theorem splitBefore?_eq_none_iff {w : List Char} :
    splitBefore? w s = none ↔ Text.occursIn w s = false := by
  induction s with
  | nil => cases w <;> simp [splitBefore?, Text.occursIn]
  | cons c s ih =>
    rw [splitBefore?, Text.occursIn]
    by_cases h : (Text.after? w (c :: s)).isSome = true
    · simp [h]
    · simp [h, ih]

theorem of_splitBefore? {w : List Char} (h : splitBefore? w s = some (before, after)) :
    s = before ++ after ∧ w <+: after ∧ ∀ x y, s = x ++ w ++ y → before.length ≤ x.length := by
  induction s generalizing before with
  | nil =>
    rw [splitBefore?] at h
    split at h
    · next hw =>
      cases h
      rw [List.isEmpty_iff.1 hw]
      exact ⟨rfl, List.nil_prefix, fun _ _ _ => Nat.zero_le _⟩
    · cases h
  | cons c s ih =>
    rw [splitBefore?] at h
    split at h
    · next hw =>
      cases h
      obtain ⟨rest, hr⟩ := Option.isSome_iff_exists.1 hw
      exact ⟨rfl, ⟨rest, (Text.after?_eq_some_iff.1 hr).symm⟩, fun _ _ _ => Nat.zero_le _⟩
    · next hw =>
      obtain ⟨⟨front, rest⟩, hs, he⟩ := Option.map_eq_some_iff.1 h
      cases he
      obtain ⟨rfl, hprefix, hfirst⟩ := ih hs
      refine ⟨rfl, hprefix, fun x y hx => ?_⟩
      cases x with
      | nil => exact absurd (Option.isSome_of_eq_some (Text.after?_eq_some_iff.2 hx)) hw
      | cons d x =>
        rw [List.length_cons, List.length_cons]
        exact Nat.succ_le_succ (hfirst x y (List.cons.inj hx).2)

def HasContext (s : List Char) : Prop :=
  ∃ x y, s = x ++ "<em>".toList ++ y ∧ Text.occursIn "</em>".toList y = true

/-- The parts of a sentence with context: the last opening mark that has a closing one behind it ends
`before`, and the next closing mark starts `after`. -/
structure Context (s before body after : List Char) : Prop where
  text : s = before ++ (body ++ after)
  opened : "<em>".toList <:+ before
  closed : "</em>".toList <+: after
  last : ∀ x y, s = x ++ "<em>".toList ++ y → Text.occursIn "</em>".toList y = true →
    (x ++ "<em>".toList).length ≤ before.length
  next : ∀ x y, body ++ after = x ++ "</em>".toList ++ y → body.length ≤ x.length

theorem Context.unique (h : Context s before body after) (h' : Context s before' body' after') :
    before = before' ∧ body = body' ∧ after = after' := by
  have hle : ∀ {b m a b' m' a' : List Char}, Context s b m a → Context s b' m' a' →
      b.length ≤ b'.length := by
    intro b m a b' m' a' h h'
    obtain ⟨x, rfl⟩ := h.opened
    obtain ⟨y, rfl⟩ := h.closed
    exact h'.last x _ h.text (Text.occursIn_iff.2 ⟨m, y, by simp⟩)
  obtain ⟨rfl, hrest⟩ := List.append_inj (h.text.symm.trans h'.text)
    (Nat.le_antisymm (hle h h') (hle h' h))
  have hbody : body.length = body'.length := by
    obtain ⟨y, rfl⟩ := h.closed
    obtain ⟨y', rfl⟩ := h'.closed
    apply Nat.le_antisymm
    · exact h.next body' y' (by rw [hrest, List.append_assoc])
    · exact h'.next body y (by rw [← hrest, List.append_assoc])
  exact ⟨rfl, List.append_inj hrest hbody⟩

theorem Context.hasContext (h : Context s before body after) : HasContext s := by
  obtain ⟨x, rfl⟩ := h.opened
  obtain ⟨y, rfl⟩ := h.closed
  exact ⟨x, _, h.text, Text.occursIn_iff.2 ⟨body, y, by simp⟩⟩

theorem Context.cons {c : Char} (h : Context s before body after) :
    Context (c :: s) (c :: before) body after where
  text := congrArg (c :: ·) h.text
  opened := h.opened.trans (List.suffix_cons c before)
  closed := h.closed
  next := h.next
  last x y hx hy := by
    cases x with
    | nil =>
      rw [List.nil_append, List.length_cons]
      exact Nat.le_succ_of_le h.opened.length_le
    | cons d x =>
      rw [List.cons_append, List.length_cons, List.length_cons]
      exact Nat.succ_le_succ (h.last x y (List.cons.inj hx).2 hy)

theorem hasContext_cons {c : Char} : HasContext (c :: s) ↔
    HasContext s ∨ ∃ y, Text.after? contextOpen (c :: s) = some y ∧
      Text.occursIn contextClose y = true := by
  constructor
  · rintro ⟨_ | ⟨d, x⟩, y, hs, hy⟩
    · exact .inr ⟨y, Text.after?_eq_some_iff.2 hs, hy⟩
    · exact .inl ⟨x, y, (List.cons.inj hs).2, hy⟩
  · rintro (⟨x, y, rfl, hy⟩ | ⟨y, hs, hy⟩)
    · exact ⟨c :: x, y, rfl, hy⟩
    · exact ⟨[], y, Text.after?_eq_some_iff.1 hs, hy⟩

theorem splitContext?_eq_none_iff : splitContext? s = none ↔ ¬ HasContext s := by
  induction s with
  | nil =>
    have hnone : ¬ HasContext [] := by
      rintro ⟨x, y, hs, -⟩
      simp at hs
    simp [splitContext?, hnone]
  | cons c s ih =>
    rw [splitContext?, hasContext_cons]
    cases hs : splitContext? s with
    | some parts =>
      rw [hs] at ih
      have hcontext : HasContext s := Classical.not_not.1 (mt ih.2 (by simp))
      simp [hcontext]
    | none =>
      cases hopen : Text.after? contextOpen (c :: s) with
      | none => simp [ih.1 hs]
      | some y =>
        cases hclose : splitBefore? contextClose y with
        | none => simp [ih.1 hs, hclose, splitBefore?_eq_none_iff.1 hclose]
        | some parts =>
          have hoccurs : Text.occursIn contextClose y = true := by
            rw [← Bool.not_eq_false, ← splitBefore?_eq_none_iff, hclose]
            exact Option.some_ne_none parts
          simp [hclose, hoccurs]

theorem context_of_splitContext? (h : splitContext? s = some (before, body, after)) :
    Context s before body after := by
  induction s generalizing before with
  | nil => cases h
  | cons c s ih =>
    rw [splitContext?] at h
    split at h
    · next hs =>
      cases h
      exact (ih hs).cons
    · next hs =>
      obtain ⟨y, hopen, h⟩ := Option.bind_eq_some_iff.1 h
      obtain ⟨⟨front, rest⟩, hclose, he⟩ := Option.bind_eq_some_iff.1 h
      cases he
      obtain ⟨rfl, hprefix, hfirst⟩ := of_splitBefore? hclose
      have hopened := Text.after?_eq_some_iff.1 hopen
      refine ⟨hopened, List.suffix_refl _, hprefix, fun x y hx hy => ?_, hfirst⟩
      cases x with
      | nil => exact Nat.le_refl _
      | cons d x => exact absurd ⟨x, y, (List.cons.inj hx).2, hy⟩ (splitContext?_eq_none_iff.1 hs)

/-- How a sentence is laid out: its hit, and what stands on both sides of it. -/
inductive Layout (s : List Char) : List Char → List Char → List Char → Prop
  | plain (h : ¬ HasContext s) : Layout s [] s []
  | context {before body after : List Char} (h : Context s before body after) :
      Layout s (before ++ [' ']) body (' ' :: after)

/-- The words of the hit are marked, and nothing else of the sentence is. -/
theorem exists_layout (text : String) : ∃ front hit back, Layout text.toList front hit back ∧
    ∀ starts tag, (sentence text starts tag).toList =
      front ++ (markWords starts tag.toList hit ++ back) := by
  unfold sentence
  cases h : splitContext? text.toList with
  | none => exact ⟨[], _, [], .plain (splitContext?_eq_none_iff.1 h), fun _ _ => by simp⟩
  | some parts =>
    obtain ⟨before, body, after⟩ := parts
    exact ⟨_, _, _, .context (context_of_splitContext? h), fun _ _ => by simp⟩

end TreebankSearch.Highlight

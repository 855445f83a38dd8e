import TreebankSearch.Text.Basic
import TreebankSearch.Text.Delimiter

/-!
# Blanks and occurrences

What is taken off a text at its ends: blanks, and none of them is a delimiter. And where a text is cut at
a character, a word cannot occur across the cut if the character is not in the word, or if it is only the
first character or only the last character of the word.
-/

namespace TreebankSearch

namespace Text

variable {gap : List Char}

theorem plain_of_isBlank {c : Char} (h : isBlank c = true) : Delimiter.ofChar c = .plain := by
  unfold Delimiter.ofChar
  split <;> first | rfl | exact absurd h (by decide)

theorem isBlank_of_isDigit {c : Char} (h : c.isDigit = true) : isBlank c = false := by
  have hrange : 48 ≤ c.toNat ∧ c.toNat ≤ 57 := by
    simp only [Char.isDigit, Bool.and_eq_true, decide_eq_true_eq, UInt32.le_iff_toNat_le] at h
    exact h
  have hapart : (blanks.ranges.all fun blank => blank.2 < 48 || 57 < blank.1) = true := by
    decide
  rw [isBlank, CharSet.contains, List.any_eq_false]
  intro blank hm
  have h := List.all_eq_true.1 hapart blank hm
  simp only [Bool.and_eq_true, Bool.or_eq_true, decide_eq_true_eq] at h ⊢
  omega

theorem eq_trimStart (s : List Char) :
    ∃ gap, s = gap ++ trimStart s ∧ ∀ c ∈ gap, isBlank c = true :=
  ⟨s.takeWhile isBlank, List.takeWhile_append_dropWhile.symm,
    List.all_eq_true.1 List.all_takeWhile⟩

theorem trimStart_append (h : ∀ c ∈ gap, isBlank c = true) (s : List Char) :
    trimStart (gap ++ s) = trimStart s := List.dropWhile_append_of_pos h

theorem trimStart_cons {c : Char} (h : isBlank c = false) (s : List Char) :
    trimStart (c :: s) = c :: s := List.dropWhile_cons_of_neg (ne_true_of_eq_false h)

theorem trimStart_space (s : List Char) : trimStart (' ' :: s) = trimStart s :=
  List.dropWhile_cons_of_pos (by decide)

theorem trimEnd_append (s : List Char) (h : ∀ c ∈ gap, isBlank c = true) :
    trimEnd (s ++ gap) = trimEnd s := by
  rw [trimEnd, List.reverse_append,
    List.dropWhile_append_of_pos fun c hc => h c (List.mem_reverse.1 hc)]
  rfl

theorem trimEnd_concat (s : List Char) {c : Char} (h : isBlank c = false) :
    trimEnd (s ++ [c]) = s ++ [c] := by
  rw [trimEnd, List.reverse_append, List.reverse_singleton, List.singleton_append,
    List.dropWhile_cons_of_neg (ne_true_of_eq_false h), List.reverse_cons, List.reverse_reverse]

theorem trimEnd_eq_self {s : List Char} (h : ∀ c ∈ s.getLast?, isBlank c = false) : trimEnd s = s := by
  rcases s.eq_nil_or_concat with rfl | ⟨init, c, rfl⟩
  · rfl
  · rw [List.concat_eq_append] at h ⊢
    apply trimEnd_concat
    exact h c (by simp)

theorem last_append {s t : List Char} (hs : ∀ c ∈ s.getLast?, isBlank c = false)
    (ht : ∀ c ∈ t.getLast?, isBlank c = false) : ∀ c ∈ (s ++ t).getLast?, isBlank c = false := by
  intro c hc
  rw [List.getLast?_append] at hc
  cases hl : t.getLast? with
  | none =>
    rw [hl] at hc
    exact hs c hc
  | some d =>
    rw [hl] at hc
    obtain rfl : d = c := Option.some.inj hc
    exact ht d hl

theorem last_concat (s : List Char) {c : Char} (h : isBlank c = false) :
    ∀ d ∈ (s ++ [c]).getLast?, isBlank d = false := by
  intro d hd
  rw [List.getLast?_concat] at hd
  obtain rfl : c = d := Option.some.inj hd
  exact h

theorem last_trimEnd (s : List Char) : ∀ c ∈ (trimEnd s).getLast?, isBlank c = false := by
  intro c hc
  have hd := List.head?_dropWhile_not isBlank s.reverse
  rw [trimEnd, List.getLast?_reverse] at hc
  rw [Option.mem_def.1 hc] at hd
  exact hd

end Text

theorem append_cons_inj {c d : Char} {u w x y : List Char} (hd : d ∉ u) (hc : c ∉ w)
    (h : u ++ c :: x = w ++ d :: y) : u = w ∧ c = d ∧ x = y := by
  induction u generalizing w with
  | nil =>
    cases w with
    | nil => exact ⟨rfl, List.cons.inj h⟩
    | cons e w => exact absurd (List.cons.inj h).1 fun he => hc (he ▸ List.mem_cons_self)
  | cons e u ih =>
    cases w with
    | nil => exact absurd (List.cons.inj h).1 fun he => hd (he ▸ List.mem_cons_self)
    | cons f w =>
      obtain ⟨rfl, ht⟩ := List.cons.inj h
      obtain ⟨rfl, hcd, hxy⟩ := ih (mt (List.mem_cons_of_mem e) hd) (mt (List.mem_cons_of_mem e) hc) ht
      exact ⟨rfl, hcd, hxy⟩

theorem prefix_of_append_cons_eq {c : Char} {part rest s y : List Char} (hc : c ∉ part)
    (h : s ++ c :: y = part ++ rest) : ∃ more, s = part ++ more := by
  rcases List.append_eq_append_iff.1 h with ⟨more, rfl, hmore⟩ | ⟨more, rfl, -⟩
  · cases more with
    | nil => exact ⟨[], by simp⟩
    | cons d more =>
      obtain ⟨rfl, -⟩ := List.cons.inj hmore
      exact absurd (List.mem_append_right s List.mem_cons_self) hc
  · exact ⟨more, rfl⟩

namespace Text

variable {c d : Char} {w s t : List Char}

theorem after?_append_of_not_mem (hc : c ∉ w) (s rest : List Char) :
    after? w (s ++ c :: rest) = (after? w s).map (· ++ c :: rest) := by
  induction w generalizing s with
  | nil => rfl
  | cons d w ih =>
    rw [List.mem_cons, not_or] at hc
    cases s with
    | nil => exact if_neg (Ne.symm hc.1)
    | cons e s =>
      rw [List.cons_append, after?, after?]
      split
      · exact ih hc.2 s
      · rfl

theorem takeWhile_ne_append (h : c ∉ s) (rest : List Char) :
    (s ++ c :: rest).takeWhile (· ≠ c) = s ∧ (s ++ c :: rest).dropWhile (· ≠ c) = c :: rest := by
  have hs : ∀ d ∈ s, decide (d ≠ c) = true := fun d hd => decide_eq_true fun he => h (he ▸ hd)
  rw [List.takeWhile_append_of_pos hs, List.dropWhile_append_of_pos hs]
  simp

theorem takeWhile_ne_self (h : c ∉ s) : s.takeWhile (· ≠ c) = s ∧ s.dropWhile (· ≠ c) = [] := by
  have hs : ∀ d ∈ s, decide (d ≠ c) = true := fun d hd => decide_eq_true fun he => h (he ▸ hd)
  have htake := @List.takeWhile_append_of_pos _ _ s [] hs
  have hdrop := @List.dropWhile_append_of_pos _ _ s [] hs
  rw [List.append_nil] at htake hdrop
  exact ⟨htake.trans (List.append_nil s), hdrop⟩

theorem not_mem_or_eq_append (c : Char) (s : List Char) :
    c ∉ s ∨ ∃ front rest, s = front ++ c :: rest ∧ c ∉ front := by
  by_cases h : c ∈ s
  · obtain ⟨front, rest, he, hfront⟩ := List.eq_append_cons_of_mem h
    exact .inr ⟨front, rest, he, hfront⟩
  · exact .inl h

theorem occursIn_of_part (h : s <:+: t) (ht : occursIn w t = false) : occursIn w s = false := by
  rw [Bool.eq_false_iff]
  intro hs
  obtain ⟨front, back, rfl⟩ := h
  obtain ⟨a, b, rfl⟩ := occursIn_iff.1 hs
  have hw : occursIn w (front ++ (a ++ w ++ b) ++ back) = true :=
    occursIn_iff.2 ⟨front ++ a, b ++ back, by simp⟩
  rw [hw] at ht
  cases ht

/-- A word that does not hold the character `c` occurs on one side of it. -/
theorem occursIn_append_cons (hc : c ∉ w) (a b : List Char) :
    occursIn w (a ++ c :: b) = (occursIn w a || occursIn w b) := by
  induction a with
  | nil =>
    have hafter : after? w (c :: b) = (after? w []).map (· ++ c :: b) :=
      after?_append_of_not_mem hc [] b
    change ((after? w (c :: b)).isSome || _) = _
    rw [hafter]
    cases w <;> rfl
  | cons d a ih =>
    have hafter : after? w (d :: (a ++ c :: b)) = (after? w (d :: a)).map (· ++ c :: b) :=
      after?_append_of_not_mem hc (d :: a) b
    rw [List.cons_append, occursIn, occursIn, hafter, ih, Option.isSome_map, Bool.or_assoc]

theorem occursIn_cons_of_ne (h : c ≠ d) (w s : List Char) :
    occursIn (c :: w) (d :: s) = occursIn (c :: w) s := by
  rw [occursIn, after?, if_neg h]
  rfl

theorem occursIn_first (hc : c ∉ w) (a b : List Char) :
    occursIn (c :: w) (a ++ c :: b) = (occursIn (c :: w) a || occursIn (c :: w) (c :: b)) := by
  induction a with
  | nil => rfl
  | cons d a ih =>
    rw [List.cons_append, occursIn, occursIn, after?, after?, after?_append_of_not_mem hc, ih,
      Bool.or_assoc]
    split
    · rw [Option.isSome_map]
    · rfl

theorem occursIn_reverse (w s : List Char) : occursIn w.reverse s.reverse = occursIn w s := by
  have himp : ∀ w s, occursIn w s = true → occursIn w.reverse s.reverse = true := by
    intro w s h
    obtain ⟨a, b, rfl⟩ := occursIn_iff.1 h
    exact occursIn_iff.2 ⟨b.reverse, a.reverse, by simp⟩
  rw [Bool.eq_iff_iff]
  exact ⟨fun h => by simpa using himp _ _ h, himp w s⟩

theorem occursIn_concat_of_ne (h : c ≠ d) (w s : List Char) :
    occursIn (w ++ [c]) (s ++ [d]) = occursIn (w ++ [c]) s := by
  rw [← occursIn_reverse, ← occursIn_reverse _ s, List.reverse_concat, List.reverse_concat]
  exact occursIn_cons_of_ne h _ _

theorem occursIn_last (hc : c ∉ w) (a b : List Char) :
    occursIn (w ++ [c]) (a ++ c :: b) = (occursIn (w ++ [c]) (a ++ [c]) || occursIn (w ++ [c]) b) := by
  have hfirst := occursIn_first (w := w.reverse) (mt List.mem_reverse.1 hc) b.reverse a.reverse
  have hwhole : (a ++ c :: b).reverse = b.reverse ++ c :: a.reverse := by simp
  rw [← occursIn_reverse, ← occursIn_reverse _ (a ++ [c]), ← occursIn_reverse _ b, hwhole,
    List.reverse_concat, List.reverse_concat, hfirst, Bool.or_comm]

end Text
end TreebankSearch

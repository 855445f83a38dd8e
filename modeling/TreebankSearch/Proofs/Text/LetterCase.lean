import TreebankSearch.Text.Delimiter
import TreebankSearch.Text.LetterCase

/-!
# Lower case and signs

Lower case is about letters: a sign below `A`, or between `Z` and the letters beyond ASCII, is its own
lower-case form, and the form of any other character has nothing below `a` in it. So a delimiter neither
goes away nor comes about.
-/

namespace TreebankSearch.Text
namespace LetterCase

def Shift.lowers (s : Shift) : Bool :=
  0x41 ≤ s.first && (s.last ≤ 0x5A || 0xC0 ≤ s.first) && 0x61 ≤ s.first + s.shift &&
    (s.last + s.shift < 0xD800 || (0xE000 ≤ s.first + s.shift && s.last + s.shift < 0x110000))

theorem lowers_lowerShifts : lowerShifts.all Shift.lowers = true := by decide +kernel

theorem image_of_lowers {s : Shift} (hs : s.lowers = true) {n m : Nat} (h : s.image? n = some m) :
    (0x41 ≤ n ∧ (n ≤ 0x5A ∨ 0xC0 ≤ n)) ∧ 0x61 ≤ m ∧ m.isValidChar := by
  unfold Shift.image? at h
  split at h
  · next hn =>
    cases h
    simp only [Shift.lowers, Bool.and_eq_true, Bool.or_eq_true, decide_eq_true_eq] at hs
    obtain ⟨⟨⟨h₁, h₂⟩, h₃⟩, h₄⟩ := hs
    refine ⟨by omega, by omega, ?_⟩
    unfold Nat.isValidChar
    omega
  · cases h

theorem image_of_lowerShifts {n m : Nat} (h : firstImage? lowerShifts n = some m) :
    (0x41 ≤ n ∧ (n ≤ 0x5A ∨ 0xC0 ≤ n)) ∧ 0x61 ≤ m ∧ m.isValidChar := by
  obtain ⟨s, hs, hm⟩ := List.exists_of_findSome?_eq_some h
  exact image_of_lowers (List.all_eq_true.1 lowers_lowerShifts s hs) hm

theorem lowerChar_of_sign {c : Char} (h : c.toNat < 0x41 ∨ 0x5A < c.toNat ∧ c.toNat < 0xC0) :
    lowerChar c = [c] := by
  unfold lowerChar
  rw [if_neg]
  · cases hi : firstImage? lowerShifts c.toNat with
    | none => rfl
    | some n =>
      have := (image_of_lowerShifts hi).1
      omega
  · rintro rfl
    revert h
    decide

theorem eq_or_le_of_mem_lowerChar {c d : Char} (h : d ∈ lowerChar c) : d = c ∨ 0x61 ≤ d.toNat := by
  unfold lowerChar at h
  split at h
  · right
    rcases List.mem_cons.1 h with rfl | h
    · decide
    · obtain rfl := List.mem_singleton.1 h
      decide
  · cases hi : firstImage? lowerShifts c.toNat with
    | none =>
      rw [hi] at h
      exact .inl (List.mem_singleton.1 h)
    | some n =>
      rw [hi] at h
      obtain rfl := List.mem_singleton.1 h
      obtain ⟨_, hle, hv⟩ := image_of_lowerShifts hi
      right
      rw [Char.ofNat, dif_pos hv]
      exact hle

theorem eq_or_le_of_mem_lowerAfter {before s : List Char} {d : Char} (h : d ∈ lowerAfter before s) :
    d ∈ s ∨ 0x61 ≤ d.toNat := by
  induction s generalizing before with
  | nil => cases h
  | cons c s ih =>
    rw [lowerAfter] at h
    rcases List.mem_append.1 h with h | h
    · split at h
      · right
        split at h
        · rw [List.mem_singleton.1 h]
          decide
        · rw [List.mem_singleton.1 h]
          decide
      · rcases eq_or_le_of_mem_lowerChar h with rfl | hle
        · exact .inl List.mem_cons_self
        · exact .inr hle
    · exact (ih h).imp_left (List.mem_cons_of_mem c)

end LetterCase

theorem eq_or_le_of_mem_lower {s : List Char} {d : Char} (h : d ∈ lower s) :
    d ∈ s ∨ 0x61 ≤ d.toNat :=
  LetterCase.eq_or_le_of_mem_lowerAfter h

theorem sign_of_delimiter {c : Char} (h : Delimiter.ofChar c ≠ .plain) :
    c.toNat < 0x41 ∨ 0x5A < c.toNat ∧ c.toNat < 0x61 := by
  unfold Delimiter.ofChar at h
  split at h <;> first | decide | exact absurd rfl h

theorem plain_of_le {c : Char} (h : 0x61 ≤ c.toNat) : Delimiter.ofChar c = .plain := by
  by_cases hc : Delimiter.ofChar c = .plain
  · exact hc
  · have := sign_of_delimiter hc
    omega

end TreebankSearch.Text

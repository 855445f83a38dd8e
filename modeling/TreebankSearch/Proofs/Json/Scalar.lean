import TreebankSearch.Json.Basic
import TreebankSearch.Json.Reader

/-!
# String literals and numerals in JSON

A written string literal is read back as the text that was written: every escape is undone, and the
first quote outside of an escape is the closing one. The numeral of a natural number is a number by the
rules of the notation, and it is read back as that natural number. A number consists of the characters
that a run of them is cut at.
-/

namespace TreebankSearch.Json

theorem hexDigit?_hexDigit {n : Nat} (h : n < 16) : hexDigit? (hexDigit n) = some n := by
  have all : ∀ m : Fin 16, hexDigit? (hexDigit m) = some m.val := by decide
  exact all ⟨n, h⟩

theorem hexNumber?_hexDigit {n : Nat} (h : n < 256) :
    hexNumber? '0' '0' (hexDigit (n / 16)) (hexDigit (n % 16)) = some n := by
  have h₁ := hexDigit?_hexDigit (n := n / 16) (by omega)
  have h₂ := hexDigit?_hexDigit (n := n % 16) (by omega)
  have h₀ : hexDigit? '0' = some 0 := by decide
  have hn : ((0 * 16 + 0) * 16 + n / 16) * 16 + n % 16 = n := by omega
  simp only [hexNumber?, h₀, h₁, h₂, Option.bind_eq_bind, Option.bind_some, hn]
  rfl

theorem readLiteral?_escape {e c : Char} (he : escaped? e = some c) (hu : e ≠ 'u')
    (rest : List (Option Char)) :
    readLiteral? (some '\\' :: some e :: rest) =
      (readLiteral? rest).map fun r => (.char c :: r.1, r.2) := by
  rw [readLiteral?.eq_def]
  split
  · next heq => cases heq
  · next heq => cases heq
  · next heq => cases heq
  · next heq => cases heq; exact absurd rfl hu
  · next heq => cases heq; rw [he]
  · next h heq => cases heq; exact absurd rfl (h e rest rfl)

theorem readLiteral?_plain {c : Char} (hq : c ≠ '"') (hb : c ≠ '\\') (hc : ¬ c.toNat < 0x20)
    (rest : List (Option Char)) :
    readLiteral? (some c :: rest) = (readLiteral? rest).map fun r => (.char c :: r.1, r.2) := by
  rw [readLiteral?.eq_def]
  split
  · next heq => cases heq
  · next heq => cases heq
  · next heq => cases heq; exact absurd rfl hq
  · next heq => cases heq; exact absurd rfl hb
  · next heq => cases heq; exact absurd rfl hb
  · next heq => cases heq; rw [if_neg (by simp [hb, hc])]

theorem readLiteral?_hex {c : Char} (hc : c.toNat < 0x20) (rest : List (Option Char)) :
    readLiteral? (some '\\' :: some 'u' :: some '0' :: some '0' ::
        some (hexDigit (c.toNat / 16)) :: some (hexDigit (c.toNat % 16)) :: rest) =
      (readLiteral? rest).map fun r => (.char c :: r.1, r.2) := by
  have hu : Glyph.ofUnit c.toNat = .char c := by
    rw [Glyph.ofUnit, if_neg (by omega), Char.ofNat_toNat]
  rw [readLiteral?, hexNumber?_hexDigit (by omega)]
  simp only [hu]

theorem readLiteral?_writeChar (c : Char) (rest : List (Option Char)) :
    readLiteral? ((writeChar c).map some ++ rest) =
      (readLiteral? rest).map fun r => (.char c :: r.1, r.2) := by
  unfold writeChar
  split
  · next h => subst h; exact readLiteral?_escape rfl (by decide) rest
  split
  · next h => subst h; exact readLiteral?_escape rfl (by decide) rest
  split
  · next h => subst h; exact readLiteral?_escape rfl (by decide) rest
  split
  · next h => subst h; exact readLiteral?_escape rfl (by decide) rest
  split
  · next h => subst h; exact readLiteral?_escape rfl (by decide) rest
  split
  · next h => subst h; exact readLiteral?_escape rfl (by decide) rest
  split
  · next h => subst h; exact readLiteral?_escape rfl (by decide) rest
  split
  · next h => exact readLiteral?_hex h rest
  · next hq hb _ _ _ _ _ hc => exact readLiteral?_plain hq hb hc rest

theorem readLiteral?_write (text : List Char) (rest : List (Option Char)) :
    readLiteral? ((text.flatMap writeChar ++ ['"']).map some ++ rest) =
      some (text.map .char, rest) := by
  induction text with
  | nil => rfl
  | cons c text ih =>
    rw [List.flatMap_cons, List.append_assoc, List.map_append, List.append_assoc,
      readLiteral?_writeChar, ih]
    rfl

theorem spell?_char (text : List Char) : Glyph.spell? (text.map .char) = some text := by
  induction text with
  | nil => rfl
  | cons c text ih => rw [List.map_cons, Glyph.spell?, ih]; rfl

theorem isDigit_of_mem_toDigits {n : Nat} {c : Char} (h : c ∈ Nat.toDigits 10 n) :
    c.isDigit = true :=
  Nat.isDigit_of_mem_toDigits (by decide) (by decide) h

theorem toList_ofNat (n : Nat) : (toString n).toList = Nat.toDigits 10 n :=
  Nat.toList_repr

theorem head_toDigits (n : Nat) (hn : 0 < n) :
    ∃ d rest, Nat.toDigits 10 n = d :: rest ∧ d ≠ '0' := by
  induction n using Nat.strongRecOn with
  | ind n ih =>
    by_cases h : n < 10
    · refine ⟨_, [], Nat.toDigits_of_lt_base h, ?_⟩
      have all : ∀ m : Fin 10, 0 < m.val → Nat.digitChar m ≠ '0' := by decide
      exact all ⟨n, h⟩ hn
    · obtain ⟨d, rest, he, hd⟩ := ih (n / 10) (by omega) (by omega)
      refine ⟨d, rest ++ [Nat.digitChar (n % 10)], ?_, hd⟩
      rw [Nat.toDigits_of_base_le (by decide) (by omega), he]
      rfl

theorem isNumber_toDigits (n : Nat) : isNumber (Nat.toDigits 10 n) = true := by
  have hall : ∀ c ∈ Nat.toDigits 10 n, c.isDigit = true := fun c => isDigit_of_mem_toDigits
  rcases Nat.eq_zero_or_pos n with rfl | hn
  · decide
  · obtain ⟨d, rest, he, hd⟩ := head_toDigits n hn
    rw [he] at hall ⊢
    have hm : d ≠ '-' := by
      rintro rfl
      exact absurd (hall '-' List.mem_cons_self) (by decide)
    have htake := @List.takeWhile_append_of_pos _ _ _ [] hall
    have hdrop := @List.dropWhile_append_of_pos _ _ _ [] hall
    rw [List.append_nil] at htake hdrop
    unfold isNumber
    split
    · next heq => cases heq; exact absurd rfl hm
    · unfold isUnsigned
      split
      · next heq => cases heq; exact absurd rfl hd
      · rw [htake, hdrop]
        rfl

theorem isNumberChar_of_isDigit {c : Char} (h : c.isDigit = true) : isNumberChar c = true := by
  simp [isNumberChar, h]

theorem isNumberChar_of_isExponent {text : List Char} (h : isExponent text = true) :
    ∀ c ∈ text, isNumberChar c = true := by
  have digits : ∀ {e : Char} {ds : List Char},
      ((e = 'e' || e = 'E') && !ds.isEmpty && ds.all Char.isDigit) = true →
      isNumberChar e = true ∧ ∀ c ∈ ds, isNumberChar c = true := by
    intro e ds h
    rw [Bool.and_eq_true, Bool.and_eq_true, Bool.or_eq_true, decide_eq_true_iff,
      decide_eq_true_iff] at h
    refine ⟨?_, fun c hc => isNumberChar_of_isDigit (List.all_eq_true.1 h.2 c hc)⟩
    rcases h.1.1 with rfl | rfl <;> rfl
  unfold isExponent at h
  split at h
  · exact fun c hc => absurd hc List.not_mem_nil
  · obtain ⟨he, hd⟩ := digits h
    exact List.forall_mem_cons.2 ⟨he, List.forall_mem_cons.2 ⟨rfl, hd⟩⟩
  · obtain ⟨he, hd⟩ := digits h
    exact List.forall_mem_cons.2 ⟨he, List.forall_mem_cons.2 ⟨rfl, hd⟩⟩
  · obtain ⟨he, hd⟩ := digits h
    exact List.forall_mem_cons.2 ⟨he, hd⟩

theorem isNumberChar_of_dropWhile {text : List Char}
    (h : ∀ c ∈ text.dropWhile Char.isDigit, isNumberChar c = true) :
    ∀ c ∈ text, isNumberChar c = true := by
  intro c hc
  rw [← List.takeWhile_append_dropWhile (p := Char.isDigit) (l := text), List.mem_append] at hc
  rcases hc with hc | hc
  · exact isNumberChar_of_isDigit (List.all_eq_true.1 List.all_takeWhile c hc)
  · exact h c hc

theorem isNumberChar_of_isFraction {text : List Char} (h : isFraction text = true) :
    ∀ c ∈ text, isNumberChar c = true := by
  unfold isFraction at h
  split at h
  · rw [Bool.and_eq_true] at h
    exact List.forall_mem_cons.2
      ⟨rfl, isNumberChar_of_dropWhile (isNumberChar_of_isExponent h.2)⟩
  · exact isNumberChar_of_isExponent h

theorem isNumberChar_of_isUnsigned {text : List Char} (h : isUnsigned text = true) :
    ∀ c ∈ text, isNumberChar c = true := by
  unfold isUnsigned at h
  split at h
  · exact List.forall_mem_cons.2 ⟨rfl, isNumberChar_of_isFraction h⟩
  · rw [Bool.and_eq_true] at h
    exact isNumberChar_of_dropWhile (isNumberChar_of_isFraction h.2)

theorem isNumberChar_of_isNumber {text : List Char} (h : isNumber text = true) :
    ∀ c ∈ text, isNumberChar c = true := by
  unfold isNumber at h
  split at h
  · exact List.forall_mem_cons.2 ⟨rfl, isNumberChar_of_isUnsigned h⟩
  · exact isNumberChar_of_isUnsigned h

theorem start_of_isNumberChar {c : Char} (h : isNumberChar c = true) :
    isSpace c = false ∧ punctuation? c = none ∧ c ≠ '"' := by
  have hne : ∀ d : Char, isNumberChar d = false → c ≠ d := by
    rintro d hd rfl
    rw [hd] at h
    cases h
  refine ⟨?_, ?_, hne _ rfl⟩
  · simp only [isSpace, Bool.or_eq_false_iff, decide_eq_false_iff_not]
    exact ⟨⟨⟨hne _ rfl, hne _ rfl⟩, hne _ rfl⟩, hne _ rfl⟩
  · unfold punctuation?
    split
    · exact absurd rfl (hne _ rfl)
    · exact absurd rfl (hne _ rfl)
    · exact absurd rfl (hne _ rfl)
    · exact absurd rfl (hne _ rfl)
    · exact absurd rfl (hne _ rfl)
    · exact absurd rfl (hne _ rfl)
    · rfl

theorem nat?_ofNat {bound n : Nat} (h : n ≤ bound) : nat? bound (ofNat n) = some n := by
  have hall : (Nat.toDigits 10 n).all Char.isDigit = true :=
    List.all_eq_true.2 fun c => isDigit_of_mem_toDigits
  simp only [ofNat, nat?, toList_ofNat, hall, ↓reduceIte, Nat.ofDigitChars_ten_toDigits, h]

end TreebankSearch.Json

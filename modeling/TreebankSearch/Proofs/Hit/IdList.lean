import Mathlib.Data.List.Basic
import Mathlib.Data.List.TakeWhile
import TreebankSearch.Hit.Basic
import TreebankSearch.Proofs.Text.Basic

/-!
# Lists of numbers and their entries

A list is written by putting a dash between its entries. Of the numbers among these it is read back
as those that fit 64 bits, in their order and as often as they stand there. No entry has an effect on what
becomes of another one.
-/

namespace TreebankSearch

theorem Text.trim_append {front s back : List Char} (hfront : ∀ c ∈ front, Text.isBlank c = true)
    (hback : ∀ c ∈ back, Text.isBlank c = true) (hs : s ≠ [])
    (hhead : ∀ c ∈ s.head?, Text.isBlank c = false) (hlast : ∀ c ∈ s.getLast?, Text.isBlank c = false) :
    Text.trim (front ++ (s ++ back)) = s := by
  obtain ⟨c, rest, rfl⟩ := List.exists_cons_of_ne_nil hs
  rw [Text.trim, Text.trimStart_append hfront, List.cons_append,
    Text.trimStart_cons (hhead c rfl), ← List.cons_append, Text.trimEnd_append _ hback,
    Text.trimEnd_eq_self hlast]

namespace IdList

/-- An entry of a list: the digits of a number, with zeros before them and blanks around them, or some text
of another kind. -/
inductive Entry where
  | number (front : List Char) (zeros n : Nat) (back : List Char)
  | junk (text : List Char)

namespace Entry

def text : Entry → List Char
  | .number front zeros n back => front ++ (List.replicate zeros '0' ++ Nat.toDigits 10 n ++ back)
  | .junk text => text

/-- No dash is in the entry, and text of another kind does not start like a number. -/
def Valid : Entry → Prop
  | .number front _ _ back =>
    (∀ c ∈ front, Text.isBlank c = true) ∧ ∀ c ∈ back, Text.isBlank c = true
  | .junk text => '-' ∉ text ∧ ∀ c ∈ (Text.trim text).head?, c.isDigit = false ∧ c ≠ '+'

instance (entry : Entry) : Decidable entry.Valid :=
  match entry with
  | .number front _ _ back =>
    decidable_of_iff (front.all Text.isBlank = true ∧ back.all Text.isBlank = true)
      (and_congr List.all_eq_true List.all_eq_true)
  | .junk text =>
    decidable_of_iff
      ('-' ∉ text ∧ ((Text.trim text).head?.all fun c => decide (c.isDigit = false ∧ c ≠ '+')) = true)
      (and_congr_right fun _ => by simp [Option.all_eq_true, Option.mem_def])

def id? : Entry → Option Nat
  | .number _ _ n _ => if n < UInt64.size then some n else none
  | .junk _ => none

end Entry

variable {entry : Entry} {digits : List Char}

theorem isDigit_zeros_toDigits (zeros n : Nat) :
    ∀ c ∈ List.replicate zeros '0' ++ Nat.toDigits 10 n, c.isDigit = true := by
  intro c hc
  rcases List.mem_append.1 hc with hc | hc
  · rw [List.eq_of_mem_replicate hc]
    rfl
  · exact Nat.isDigit_of_mem_toDigits (by decide) (by decide) hc

theorem ofDigitChars_zeros (zeros : Nat) (digits : List Char) :
    Nat.ofDigitChars 10 (List.replicate zeros '0' ++ digits) 0 = Nat.ofDigitChars 10 digits 0 := by
  induction zeros with
  | zero => rfl
  | succ zeros ih => exact ih

theorem number?_cons {c : Char} (hc : c ≠ '+') (rest : List Char) : number? (c :: rest) =
    if c.isDigit = true ∧ Nat.ofDigitChars 10 ((c :: rest).takeWhile Char.isDigit) 0 ≤ maxId
      then some (Nat.ofDigitChars 10 ((c :: rest).takeWhile Char.isDigit) 0) else none := by
  unfold number?
  split
  next signed more heq =>
  split at heq
  · next he => exact absurd (List.cons.inj he).1 hc
  · cases heq
    cases hdigit : c.isDigit <;> simp [hdigit]

theorem number?_digits (hne : digits ≠ []) (h : ∀ c ∈ digits, c.isDigit = true) :
    number? digits = if Nat.ofDigitChars 10 digits 0 ≤ maxId
      then some (Nat.ofDigitChars 10 digits 0) else none := by
  obtain ⟨c, rest, rfl⟩ := List.exists_cons_of_ne_nil hne
  have hplus : c ≠ '+' := by
    rintro rfl
    exact absurd (h '+' List.mem_cons_self) (by decide)
  have htake : (c :: rest).takeWhile Char.isDigit = c :: rest := List.takeWhile_eq_self_iff.2 h
  rw [number?_cons hplus, htake]
  simp only [h c List.mem_cons_self, true_and]

theorem number?_junk {item : List Char} (h : ∀ c ∈ item.head?, c.isDigit = false ∧ c ≠ '+') :
    number? item = none := by
  cases item with
  | nil => rfl
  | cons c rest =>
    obtain ⟨hdigit, hplus⟩ := h c rfl
    rw [number?_cons hplus, hdigit, if_neg fun h => absurd h.1 (by decide)]

theorem Entry.Valid.number?_trim (h : entry.Valid) : number? (Text.trim entry.text) = entry.id? := by
  cases entry with
  | junk text => exact number?_junk h.2
  | number front zeros n back =>
    have hdigits := isDigit_zeros_toDigits zeros n
    have hne : List.replicate zeros '0' ++ Nat.toDigits 10 n ≠ [] := by simp
    have hend : ∀ c ∈ List.replicate zeros '0' ++ Nat.toDigits 10 n, Text.isBlank c = false :=
      fun c hc => Text.isBlank_of_isDigit (hdigits c hc)
    have htrim : Text.trim (Entry.number front zeros n back).text =
        List.replicate zeros '0' ++ Nat.toDigits 10 n :=
      Text.trim_append h.1 h.2 hne (fun c hc => hend c (List.mem_of_head? hc))
        fun c hc => hend c (List.mem_of_getLast? hc)
    have hvalue : Nat.ofDigitChars 10 (List.replicate zeros '0' ++ Nat.toDigits 10 n) 0 = n := by
      rw [ofDigitChars_zeros, Nat.ofDigitChars_ten_toDigits]
    have hmax : n ≤ maxId ↔ n < UInt64.size := Nat.le_sub_one_iff_lt (by decide)
    rw [htrim, number?_digits hne hdigits, hvalue]
    simp only [Entry.id?, hmax]

theorem Entry.Valid.dash_not_mem (h : entry.Valid) : '-' ∉ entry.text := by
  cases entry with
  | junk text => exact h.1
  | number front zeros n back =>
    have hblank : ∀ {gap : List Char}, (∀ c ∈ gap, Text.isBlank c = true) → '-' ∉ gap :=
      fun hgap hm => absurd (hgap '-' hm) (by decide)
    have hdigits : '-' ∉ List.replicate zeros '0' ++ Nat.toDigits 10 n := fun hm =>
      absurd (isDigit_zeros_toDigits zeros n '-' hm) (by decide)
    rw [Entry.text, List.mem_append, List.mem_append, not_or, not_or]
    exact ⟨hblank h.1, hdigits, hblank h.2⟩

/-- A list is read as the numbers of its entries, in their order and with repeats. -/
theorem read_entries (entries : List Entry) (h : ∀ entry ∈ entries, entry.Valid) :
    read (String.ofList (['-'].intercalate (entries.map Entry.text))) =
      entries.filterMap Entry.id? := by
  rw [read, String.toList_ofList]
  cases entries with
  | nil => rfl
  | cons first entries =>
    have hdash : ∀ text ∈ (first :: entries).map Entry.text, '-' ∉ text := by
      intro text hm
      obtain ⟨entry, he, rfl⟩ := List.mem_map.1 hm
      exact (h entry he).dash_not_mem
    rw [List.splitOn_intercalate '-' hdash (List.cons_ne_nil _ _), List.filterMap_map]
    exact List.filterMap_congr fun entry he => (h entry he).number?_trim

def sampleEntries : List Entry :=
  [.number ['\t', '\u00a0'] 2 7 ['\u2003'], .junk [' ', 'x', '1'], .number [] 30 18446744073709551615 [],
    .number [] 0 18446744073709551616 [], .junk [], .number [] 0 7 []]

theorem read_entries_sample : (∀ entry ∈ sampleEntries, entry.Valid) ∧
    read (String.ofList (['-'].intercalate (sampleEntries.map Entry.text))) =
      [7, 18446744073709551615, 7] := by
  have hvalid : ∀ entry ∈ sampleEntries, entry.Valid := by decide
  exact ⟨hvalid, read_entries sampleEntries hvalid⟩

end IdList
end TreebankSearch

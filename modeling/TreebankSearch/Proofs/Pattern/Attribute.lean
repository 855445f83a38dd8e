import TreebankSearch.Proofs.Pattern.Token

/-!
# Attribute tests

The part of a bracket that tests one attribute: `@name`, or `@name`, a comparison operator and a
literal, with space between the parts as one likes.
-/

namespace TreebankSearch.Pattern

def readComparison? (ts : List Token) : Option (Comparison × List Token) :=
  [.ne, .le, .ge, .eq, .lt, .gt].findSome? fun op : Comparison =>
    (afterWord? op.symbol.toList ts).map fun rest => (op, rest)

theorem after_of_readComparison? {ts rest : List Token} {op : Comparison}
    (h : readComparison? ts = some (op, rest)) : After rest ts := by
  obtain ⟨op, _, h⟩ := List.exists_of_findSome?_eq_some h
  obtain ⟨rest, hw, he⟩ := Option.map_eq_some_iff.1 h
  cases he
  exact after_of_afterWord? hw (by cases op <;> decide)

def readFraction? (ts : List Token) : Option (List Char × List Token) := do
  readRun? Char.isDigit (← afterWord? ['.'] ts)

theorem after_of_readFraction? {ts rest : List Token} {digits : List Char}
    (h : readFraction? ts = some (digits, rest)) : After rest ts := by
  obtain ⟨more, hw, hr⟩ := Option.bind_eq_some_iff.1 h
  exact (after_of_readRun? hr).trans_suffix (after_of_afterWord? hw (by decide)).1

def readUnsigned? (ts : List Token) : Option (List Char × List Token) := do
  let (whole, ts) ← readRun? Char.isDigit ts
  match readFraction? ts with
  | some (fraction, rest) => some (whole ++ '.' :: fraction, rest)
  | none => some (whole, ts)

theorem after_of_readUnsigned? {ts rest : List Token} {number : List Char}
    (h : readUnsigned? ts = some (number, rest)) : After rest ts := by
  obtain ⟨⟨whole, more⟩, hw, h⟩ := Option.bind_eq_some_iff.1 h
  have ha := after_of_readRun? hw
  simp only at h
  split at h
  · next hf =>
    cases h
    exact (after_of_readFraction? hf).trans_suffix ha.1
  · cases h
    exact ha

def readNumber? (ts : List Token) : Option (List Char × List Token) :=
  match afterWord? ['-'] ts with
  | some ts => (readUnsigned? ts).map fun (number, rest) => ('-' :: number, rest)
  | none => readUnsigned? ts

theorem after_of_readNumber? {ts rest : List Token} {number : List Char}
    (h : readNumber? ts = some (number, rest)) : After rest ts := by
  unfold readNumber? at h
  split at h
  · next hw =>
    obtain ⟨⟨digits, more⟩, hn, he⟩ := Option.map_eq_some_iff.1 h
    cases he
    exact (after_of_readUnsigned? hn).trans_suffix (after_of_afterWord? hw (by decide)).1
  · exact after_of_readUnsigned? h

def readLiteral? : List Token → Option (List Char × List Token)
  | .quoted _ body :: ts => some (body, ts)
  | ts => readNumber? ts

theorem after_of_readLiteral? {ts rest : List Token} {value : List Char}
    (h : readLiteral? ts = some (value, rest)) : After rest ts := by
  unfold readLiteral? at h
  split at h
  · cases h
    exact .cons _ List.suffix_rfl
  · exact after_of_readNumber? h

def readRequirement? (ts : List Token) : Option ((Comparison × String) × List Token) := do
  let (op, ts) ← readComparison? ts
  let (value, rest) ← readLiteral? (skipSpace ts)
  some ((op, String.ofList value), rest)

theorem after_of_readRequirement? {ts rest : List Token} {requirement : Comparison × String}
    (h : readRequirement? ts = some (requirement, rest)) : After rest ts := by
  obtain ⟨⟨op, ts₁⟩, h₁, h⟩ := Option.bind_eq_some_iff.1 h
  obtain ⟨⟨value, ts₂⟩, h₂, h⟩ := Option.bind_eq_some_iff.1 h
  cases h
  have hl := (after_of_readLiteral? h₂).1.trans (suffix_skipSpace ts₁)
  exact .of_suffix hl (after_of_readComparison? h₁)

def attributeTest? (ts : List Token) : Option (AttributeTest × List Token) := do
  let ts ← afterWord? ['@'] ts
  let (name, ts) ← readRun? isNameChar (skipSpace ts)
  match readRequirement? (skipSpace ts) with
  | some (requirement, rest) => some (⟨String.ofList name, some requirement⟩, rest)
  | none => some (⟨String.ofList name, none⟩, skipSpace ts)

theorem after_of_attributeTest? {ts rest : List Token} {test : AttributeTest}
    (h : attributeTest? ts = some (test, rest)) : After rest ts := by
  obtain ⟨ts₁, h₁, h⟩ := Option.bind_eq_some_iff.1 h
  obtain ⟨⟨name, ts₂⟩, h₂, h⟩ := Option.bind_eq_some_iff.1 h
  have hn := (after_of_readRun? h₂).1.trans (suffix_skipSpace ts₁)
  have hs := (suffix_skipSpace ts₂).trans hn
  refine .of_suffix ?_ (after_of_afterWord? h₁ (by decide))
  simp only at h
  split at h
  · next hr =>
    cases h
    exact (after_of_readRequirement? hr).1.trans hs
  · cases h
    exact hs

end TreebankSearch.Pattern

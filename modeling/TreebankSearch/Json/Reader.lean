import TreebankSearch.Json.Basic

/-!
# Reading JSON

A document is given as a list of characters, with `none` for a byte that belongs to no character.
Such a byte may stand in a string literal only. `tokens?` cuts a document into punctuation and
scalar values; words and numbers run as far as their characters go, which is safe because no two
scalar values may stand side by side. The value of a document is put together by one pass over its
tokens, with the open containers on a stack.
-/

namespace TreebankSearch.Json

inductive Token where
  | openArray
  | closeArray
  | openObject
  | closeObject
  | comma
  | colon
  | scalar (value : Json)

def isSpace (c : Char) : Bool := c = ' ' || c = '\t' || c = '\n' || c = '\r'

def hexDigit? (c : Char) : Option Nat :=
  if '0' ≤ c ∧ c ≤ '9' then some (c.toNat - '0'.toNat)
  else if 'a' ≤ c ∧ c ≤ 'f' then some (c.toNat - 'a'.toNat + 10)
  else if 'A' ≤ c ∧ c ≤ 'F' then some (c.toNat - 'A'.toNat + 10)
  else none

def hexNumber? (a b c d : Char) : Option Nat := do
  return (((← hexDigit? a) * 16 + (← hexDigit? b)) * 16 + (← hexDigit? c)) * 16 + (← hexDigit? d)

def escaped? : Char → Option Char
  | '"' => some '"'
  | '\\' => some '\\'
  | '/' => some '/'
  | 'b' => some '\x08'
  | 'f' => some '\x0c'
  | 'n' => some '\n'
  | 'r' => some '\r'
  | 't' => some '\t'
  | _ => none

inductive Glyph where
  | char (c : Char)
  | surrogate (unit : Nat)
  | stray

def Glyph.ofUnit (unit : Nat) : Glyph :=
  if 0xD800 ≤ unit ∧ unit < 0xE000 then .surrogate unit else .char (Char.ofNat unit)

def Glyph.spell? : List Glyph → Option (List Char)
  | [] => some []
  | .char c :: rest => (spell? rest).map (c :: ·)
  | .surrogate high :: .surrogate low :: rest =>
    if high < 0xDC00 ∧ 0xDC00 ≤ low then
      (spell? rest).map (Char.ofNat (0x10000 + (high - 0xD800) * 0x400 + (low - 0xDC00)) :: ·)
    else none
  | _ => none

def readLiteral? : List (Option Char) → Option (List Glyph × List (Option Char))
  | [] => none
  | none :: rest => (readLiteral? rest).map fun (gs, rest) => (.stray :: gs, rest)
  | some '"' :: rest => some ([], rest)
  | some '\\' :: some 'u' :: some a :: some b :: some c :: some d :: rest =>
    match hexNumber? a b c d with
    | some unit => (readLiteral? rest).map fun (gs, rest) => (Glyph.ofUnit unit :: gs, rest)
    | none => none
  | some '\\' :: some e :: rest =>
    match escaped? e with
    | some c => (readLiteral? rest).map fun (gs, rest) => (.char c :: gs, rest)
    | none => none
  | some c :: rest =>
    if c = '\\' || c.toNat < 0x20 then none
    else (readLiteral? rest).map fun (gs, rest) => (.char c :: gs, rest)

theorem length_of_readLiteral? {s rest : List (Option Char)} {gs : List Glyph}
    (h : readLiteral? s = some (gs, rest)) : rest.length < s.length := by
  fun_induction readLiteral? s generalizing gs with
  | case1 => cases h
  | case2 s ih =>
    obtain ⟨⟨gs', r⟩, hr, he⟩ := Option.map_eq_some_iff.1 h
    cases he
    have := ih hr
    simp; omega
  | case3 => cases h; simp
  | case4 a b c d s unit hu ih =>
    obtain ⟨⟨gs', r⟩, hr, he⟩ := Option.map_eq_some_iff.1 h
    cases he
    have := ih hr
    simp; omega
  | case5 => cases h
  | case6 e s _ c hc ih =>
    obtain ⟨⟨gs', r⟩, hr, he⟩ := Option.map_eq_some_iff.1 h
    cases he
    have := ih hr
    simp; omega
  | case7 => cases h
  | case8 => cases h
  | case9 c s _ _ _ _ ih =>
    obtain ⟨⟨gs', r⟩, hr, he⟩ := Option.map_eq_some_iff.1 h
    cases he
    have := ih hr
    simp; omega

def spanChars (p : Char → Bool) : List (Option Char) → List Char × List (Option Char)
  | some c :: rest =>
    if p c then
      let (run, rest) := spanChars p rest
      (c :: run, rest)
    else ([], some c :: rest)
  | rest => ([], rest)

theorem length_spanChars_le (p : Char → Bool) (s : List (Option Char)) :
    (spanChars p s).2.length ≤ s.length := by
  fun_induction spanChars p s with
  | case1 c s hp run rest heq ih => simp [heq] at ih ⊢; omega
  | case2 => simp
  | case3 => simp

def isNumberChar (c : Char) : Bool :=
  c.isDigit || c = '-' || c = '+' || c = '.' || c = 'e' || c = 'E'

def isExponent : List Char → Bool
  | [] => true
  | e :: '+' :: digits => (e = 'e' || e = 'E') && !digits.isEmpty && digits.all Char.isDigit
  | e :: '-' :: digits => (e = 'e' || e = 'E') && !digits.isEmpty && digits.all Char.isDigit
  | e :: digits => (e = 'e' || e = 'E') && !digits.isEmpty && digits.all Char.isDigit

def isFraction : List Char → Bool
  | '.' :: rest =>
    !(rest.takeWhile Char.isDigit).isEmpty && isExponent (rest.dropWhile Char.isDigit)
  | rest => isExponent rest

def isUnsigned : List Char → Bool
  | '0' :: rest => isFraction rest
  | rest => !(rest.takeWhile Char.isDigit).isEmpty && isFraction (rest.dropWhile Char.isDigit)

def isNumber : List Char → Bool
  | '-' :: rest => isUnsigned rest
  | rest => isUnsigned rest

def punctuation? : Char → Option Token
  | '[' => some .openArray
  | ']' => some .closeArray
  | '{' => some .openObject
  | '}' => some .closeObject
  | ',' => some .comma
  | ':' => some .colon
  | _ => none

def word? (w : List Char) : Option Json :=
  if w = ['n', 'u', 'l', 'l'] then some .null
  else if w = ['t', 'r', 'u', 'e'] then some (.bool true)
  else if w = ['f', 'a', 'l', 's', 'e'] then some (.bool false)
  else none

def nextToken? (c : Char) (rest : List (Option Char)) : Option (Token × List (Option Char)) :=
  match punctuation? c with
  | some t => some (t, rest)
  | none =>
    if c = '"' then
      (readLiteral? rest).map fun (gs, rest) =>
        (.scalar (.string ((Glyph.spell? gs).map String.ofList)), rest)
    else if isNumberChar c then
      let (run, rest) := spanChars isNumberChar rest
      if isNumber (c :: run) then some (.scalar (.number (String.ofList (c :: run))), rest) else none
    else
      let (run, rest) := spanChars Char.isLower rest
      (word? (c :: run)).map fun value => (.scalar value, rest)

theorem length_of_nextToken? {c : Char} {s rest : List (Option Char)} {t : Token}
    (h : nextToken? c s = some (t, rest)) : rest.length ≤ s.length := by
  unfold nextToken? at h
  split at h
  · cases h; exact Nat.le_refl _
  split at h
  · obtain ⟨⟨gs, r⟩, hr, he⟩ := Option.map_eq_some_iff.1 h
    cases he
    exact Nat.le_of_lt (length_of_readLiteral? hr)
  split at h
  · have := length_spanChars_le isNumberChar s
    simp only at h
    split at h
    · cases h; exact this
    · cases h
  · have := length_spanChars_le Char.isLower s
    simp only at h
    obtain ⟨value, _, he⟩ := Option.map_eq_some_iff.1 h
    cases he
    exact this

def tokens? : List (Option Char) → Option (List Token)
  | [] => some []
  | none :: _ => none
  | some c :: rest =>
    if isSpace c then tokens? rest
    else
      match _h : nextToken? c rest with
      | none => none
      | some (t, more) => (tokens? more).map (t :: ·)
termination_by s => s.length
decreasing_by
  · exact Nat.lt_succ_self _
  · exact Nat.lt_succ_of_le (length_of_nextToken? _h)

inductive Frame where
  | items (before : List Json)
  | members (before : List (Option String × Json)) (name : Option String)

inductive Goal where
  | value
  | name (before : List (Option String × Json))
  | rest (value : Json)

/-- Reads tokens to their end, with the open containers innermost first. -/
def assemble? : Goal → List Frame → List Token → Option Json
  | .rest v, [], [] => some v
  | .rest v, .items before :: outer, .comma :: ts =>
    assemble? .value (.items (v :: before) :: outer) ts
  | .rest v, .items before :: outer, .closeArray :: ts =>
    assemble? (.rest (.array (v :: before).reverse)) outer ts
  | .rest v, .members before name :: outer, .comma :: ts =>
    assemble? (.name ((name, v) :: before)) outer ts
  | .rest v, .members before name :: outer, .closeObject :: ts =>
    assemble? (.rest (.object ((name, v) :: before).reverse)) outer ts
  | .value, frames, .scalar v :: ts => assemble? (.rest v) frames ts
  | .value, frames, .openArray :: .closeArray :: ts => assemble? (.rest (.array [])) frames ts
  | .value, frames, .openArray :: ts => assemble? .value (.items [] :: frames) ts
  | .value, frames, .openObject :: .closeObject :: ts => assemble? (.rest (.object [])) frames ts
  | .value, frames, .openObject :: ts => assemble? (.name []) frames ts
  | .name before, frames, .scalar (.string name) :: .colon :: ts =>
    assemble? .value (.members before name :: frames) ts
  | _, _, _ => none

def readMarked? (s : List (Option Char)) : Option Json :=
  (tokens? s).bind (assemble? .value [])

def read? (s : String) : Option Json := readMarked? (s.toList.map some)

end TreebankSearch.Json

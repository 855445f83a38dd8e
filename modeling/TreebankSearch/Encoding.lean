/-!
# Texts as bytes, and bytes as texts

Unpadded base64 in the alphabet for addresses: three bytes are written as four symbols, and a last group
of one or two bytes as two or three. Decoding accepts what encoding writes and nothing else: no padding,
no foreign symbol, no group of one symbol, and no bits beyond the last byte.

UTF-8: decoding does not stop at bytes that belong to no character. Each of them is marked by `none`,
and what follows it is decoded on its own.
-/

namespace TreebankSearch.Base64Url

def symbol (n : Nat) : Char :=
  if n < 26 then Char.ofNat (n + 65)
  else if n < 52 then Char.ofNat (n - 26 + 97)
  else if n < 62 then Char.ofNat (n - 52 + 48)
  else if n = 62 then '-'
  else '_'

def value? (c : Char) : Option Nat :=
  if c.isUpper then some (c.toNat - 65)
  else if c.isLower then some (c.toNat - 97 + 26)
  else if c.isDigit then some (c.toNat - 48 + 52)
  else if c = '-' then some 62
  else if c = '_' then some 63
  else none

theorem value?_symbol {n : Nat} (h : n < 64) : value? (symbol n) = some n := by
  have : ∀ m : Fin 64, value? (symbol m) = some m.val := by decide
  exact this ⟨n, h⟩

def encode : List UInt8 → List Char
  | [] => []
  | [a] => [symbol (a.toNat / 4), symbol (a.toNat % 4 * 16)]
  | [a, b] =>
    [symbol (a.toNat / 4), symbol (a.toNat % 4 * 16 + b.toNat / 16), symbol (b.toNat % 16 * 4)]
  | a :: b :: c :: rest =>
    symbol (a.toNat / 4) :: symbol (a.toNat % 4 * 16 + b.toNat / 16) ::
      symbol (b.toNat % 16 * 4 + c.toNat / 64) :: symbol (c.toNat % 64) :: encode rest

def decode? : List Char → Option (List UInt8)
  | [] => some []
  | [_] => none
  | [w, x] => do
    let w ← value? w
    let x ← value? x
    if x % 16 = 0 then some [UInt8.ofNat (w * 4 + x / 16)] else none
  | [w, x, y] => do
    let w ← value? w
    let x ← value? x
    let y ← value? y
    if y % 4 = 0 then
      some [UInt8.ofNat (w * 4 + x / 16), UInt8.ofNat (x % 16 * 16 + y / 4)]
    else none
  | w :: x :: y :: z :: rest => do
    let w ← value? w
    let x ← value? x
    let y ← value? y
    let z ← value? z
    let bytes ← decode? rest
    some (UInt8.ofNat (w * 4 + x / 16) :: UInt8.ofNat (x % 16 * 16 + y / 4) ::
      UInt8.ofNat (y % 4 * 64 + z) :: bytes)

end TreebankSearch.Base64Url

namespace TreebankSearch.Utf8

def encode (s : List Char) : List UInt8 := s.flatMap String.utf8EncodeChar

def isContinuation (b : UInt8) : Bool := 0x80 ≤ b && b < 0xC0

def payload (b : UInt8) : Nat := b.toNat - 0x80

def pair? (a b : UInt8) : Option Char :=
  if 0xC2 ≤ a && a < 0xE0 && isContinuation b then
    some (Char.ofNat ((a.toNat - 0xC0) * 64 + payload b))
  else none

def triple? (a b c : UInt8) : Option Char :=
  if 0xE0 ≤ a && a < 0xF0 && isContinuation b && isContinuation c then
    let n := ((a.toNat - 0xE0) * 64 + payload b) * 64 + payload c
    if 0x800 ≤ n && !(0xD800 ≤ n && n < 0xE000) then some (Char.ofNat n) else none
  else none

def quadruple? (a b c d : UInt8) : Option Char :=
  if 0xF0 ≤ a && a < 0xF8 && isContinuation b && isContinuation c && isContinuation d then
    let n := (((a.toNat - 0xF0) * 64 + payload b) * 64 + payload c) * 64 + payload d
    if 0x10000 ≤ n && n < 0x110000 then some (Char.ofNat n) else none
  else none

def leading? (a : UInt8) (rest : List UInt8) : Option (Char × List UInt8) :=
  if a < 0x80 then some (Char.ofNat a.toNat, rest)
  else
    match rest with
    | [] => none
    | b :: rest =>
      match pair? a b with
      | some char => some (char, rest)
      | none =>
        match rest with
        | [] => none
        | c :: rest =>
          match triple? a b c with
          | some char => some (char, rest)
          | none =>
            match rest with
            | [] => none
            | d :: rest => (quadruple? a b c d).map fun char => (char, rest)

theorem length_of_leading? {a : UInt8} {s rest : List UInt8} {char : Char}
    (h : leading? a s = some (char, rest)) : rest.length ≤ s.length := by
  unfold leading? at h
  split at h
  · cases h; exact Nat.le_refl _
  split at h
  · cases h
  split at h
  · cases h; simp
  split at h
  · cases h
  split at h
  · cases h; simp; omega
  split at h
  · cases h
  · obtain ⟨_, _, he⟩ := Option.map_eq_some_iff.1 h
    cases he
    simp; omega

/-- The characters of a list of bytes, with `none` for a byte that belongs to none. -/
def decode : List UInt8 → List (Option Char)
  | [] => []
  | a :: rest =>
    match _h : leading? a rest with
    | some (char, more) => some char :: decode more
    | none => none :: decode rest
termination_by bytes => bytes.length
decreasing_by
  · exact Nat.lt_succ_of_le (length_of_leading? _h)
  · exact Nat.lt_succ_self _

def text? (bytes : List UInt8) : Option String :=
  ((decode bytes).mapM id).map String.ofList

end TreebankSearch.Utf8

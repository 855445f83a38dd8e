import TreebankSearch.Encoding
import TreebankSearch.Proofs.Text.Basic
import TreebankSearch.Text.Basic

/-!
# Reading encoded texts back

Decoding undoes encoding. In base64 this holds for each of the three lengths of the last group, and what
is written holds symbols of the alphabet only, none of which is blank. In UTF-8 a character has a form of
one to four bytes, told apart by the first byte, and no byte of a written text is marked as stray.

Slices of a text may have their ends given as numbers of bytes, and a word may be looked for among the
bytes of a text. A slice has to start and end between two characters. Where a word has characters of one
byte only, its places among the bytes are its places in the text.
-/

namespace TreebankSearch.Base64Url

theorem byte_of_eq {n : Nat} {a : UInt8} (h : n = a.toNat) : UInt8.ofNat n = a := by
  rw [h, UInt8.ofNat_toNat]

theorem decode?_encode (bytes : List UInt8) : decode? (encode bytes) = some bytes := by
  fun_induction encode bytes with
  | case1 => rfl
  | case2 a =>
    have ha := a.toNat_lt
    have hw : a.toNat / 4 < 64 := by omega
    have hx : a.toNat % 4 * 16 < 64 := by omega
    have hm : a.toNat % 4 * 16 % 16 = 0 := by omega
    simp only [decode?, value?_symbol hw, value?_symbol hx, Option.bind_eq_bind, Option.bind_some,
      hm, ↓reduceIte]
    rw [byte_of_eq (a := a) (by omega)]
  | case3 a b =>
    have ha := a.toNat_lt
    have hb := b.toNat_lt
    have hw : a.toNat / 4 < 64 := by omega
    have hx : a.toNat % 4 * 16 + b.toNat / 16 < 64 := by omega
    have hy : b.toNat % 16 * 4 < 64 := by omega
    have hm : b.toNat % 16 * 4 % 4 = 0 := by omega
    simp only [decode?, value?_symbol hw, value?_symbol hx, value?_symbol hy, Option.bind_eq_bind,
      Option.bind_some, hm, ↓reduceIte]
    rw [byte_of_eq (a := a) (by omega), byte_of_eq (a := b) (by omega)]
  | case4 a b c rest ih =>
    have ha := a.toNat_lt
    have hb := b.toNat_lt
    have hc := c.toNat_lt
    have hw : a.toNat / 4 < 64 := by omega
    have hx : a.toNat % 4 * 16 + b.toNat / 16 < 64 := by omega
    have hy : b.toNat % 16 * 4 + c.toNat / 64 < 64 := by omega
    have hz : c.toNat % 64 < 64 := by omega
    simp only [decode?, value?_symbol hw, value?_symbol hx, value?_symbol hy, value?_symbol hz, ih,
      Option.bind_eq_bind, Option.bind_some]
    rw [byte_of_eq (a := a) (by omega), byte_of_eq (a := b) (by omega),
      byte_of_eq (a := c) (by omega)]

theorem isBlank_symbol {n : Nat} (h : n < 64) : Text.isBlank (symbol n) = false := by
  have all : ∀ m : Fin 64, Text.isBlank (symbol m) = false := by decide
  exact all ⟨n, h⟩

theorem symbol_plain {n : Nat} (h : n < 64) :
    (symbol n).isAlphanum = true ∨ symbol n = '-' ∨ symbol n = '_' := by
  have all : ∀ m : Fin 64, (symbol m).isAlphanum = true ∨ symbol m = '-' ∨ symbol m = '_' := by
    decide
  exact all ⟨n, h⟩

theorem mem_encode {bytes : List UInt8} {c : Char} (h : c ∈ encode bytes) :
    ∃ n < 64, c = symbol n := by
  fun_induction encode bytes with
  | case1 => cases h
  | case2 a =>
    have ha := a.toNat_lt
    simp only [List.mem_cons, List.not_mem_nil, or_false] at h
    rcases h with rfl | rfl <;> exact ⟨_, by omega, rfl⟩
  | case3 a b =>
    have ha := a.toNat_lt
    have hb := b.toNat_lt
    simp only [List.mem_cons, List.not_mem_nil, or_false] at h
    rcases h with rfl | rfl | rfl <;> exact ⟨_, by omega, rfl⟩
  | case4 a b c rest ih =>
    have ha := a.toNat_lt
    have hb := b.toNat_lt
    have hc := c.toNat_lt
    simp only [List.mem_cons] at h
    rcases h with rfl | rfl | rfl | rfl | h
    · exact ⟨_, by omega, rfl⟩
    · exact ⟨_, by omega, rfl⟩
    · exact ⟨_, by omega, rfl⟩
    · exact ⟨_, by omega, rfl⟩
    · exact ih h

end TreebankSearch.Base64Url

namespace TreebankSearch.Utf8

theorem isContinuation_ofNat {n : Nat} (hn : n < 64) :
    isContinuation (UInt8.ofNat (n + 0x80)) = true := by
  have all : ∀ m : Fin 64, isContinuation (UInt8.ofNat (m + 0x80)) = true := by decide
  exact all ⟨n, hn⟩

theorem payload_ofNat {n : Nat} (hn : n < 64) : payload (UInt8.ofNat (n + 0x80)) = n := by
  have all : ∀ m : Fin 64, payload (UInt8.ofNat (m + 0x80)) = m := by decide
  exact all ⟨n, hn⟩

theorem pair?_of_le {a : UInt8} (h : 0xE0 ≤ a.toNat) (b : UInt8) : pair? a b = none := by
  have hn : ¬ a < 0xE0 := by
    rw [UInt8.lt_iff_toNat_lt]
    exact Nat.not_lt.2 h
  simp [pair?, hn]

theorem triple?_of_le {a : UInt8} (h : 0xF0 ≤ a.toNat) (b c : UInt8) : triple? a b c = none := by
  have hn : ¬ a < 0xF0 := by
    rw [UInt8.lt_iff_toNat_lt]
    exact Nat.not_lt.2 h
  simp [triple?, hn]

theorem pair?_continuation {a : UInt8} (h : 0xC2 ≤ a.toNat) (h' : a.toNat < 0xE0) {m : Nat}
    (hm : m < 64) :
    pair? a (UInt8.ofNat (m + 0x80)) = some (Char.ofNat ((a.toNat - 0xC0) * 64 + m)) := by
  have h₁ : 0xC2 ≤ a := UInt8.le_iff_toNat_le.2 h
  have h₂ : a < 0xE0 := UInt8.lt_iff_toNat_lt.2 h'
  simp only [pair?, h₁, h₂, isContinuation_ofNat hm, payload_ofNat hm, decide_true, Bool.and_self,
    ↓reduceIte]

theorem triple?_continuation {a : UInt8} (h : 0xE0 ≤ a.toNat) (h' : a.toNat < 0xF0) {m k : Nat}
    (hm : m < 64) (hk : k < 64) {n : Nat} (hn : n = ((a.toNat - 0xE0) * 64 + m) * 64 + k)
    (hl : 0x800 ≤ n) (hs : n < 0xD800 ∨ 0xDFFF < n) :
    triple? a (UInt8.ofNat (m + 0x80)) (UInt8.ofNat (k + 0x80)) = some (Char.ofNat n) := by
  have h₁ : 0xE0 ≤ a := UInt8.le_iff_toNat_le.2 h
  have h₂ : a < 0xF0 := UInt8.lt_iff_toNat_lt.2 h'
  have h₃ : ¬ (0xD800 ≤ n ∧ n < 0xE000) := by omega
  simp only [triple?, h₁, h₂, isContinuation_ofNat hm, isContinuation_ofNat hk, payload_ofNat hm,
    payload_ofNat hk, decide_true, Bool.and_self, ↓reduceIte, ← hn, hl, ← Bool.decide_and,
    h₃, decide_false, Bool.not_false]

theorem quadruple?_continuation {a : UInt8} (h : 0xF0 ≤ a.toNat) (h' : a.toNat < 0xF8)
    {m k j : Nat} (hm : m < 64) (hk : k < 64) (hj : j < 64) {n : Nat}
    (hn : n = (((a.toNat - 0xF0) * 64 + m) * 64 + k) * 64 + j) (hl : 0x10000 ≤ n)
    (hs : n < 0x110000) :
    quadruple? a (UInt8.ofNat (m + 0x80)) (UInt8.ofNat (k + 0x80)) (UInt8.ofNat (j + 0x80)) =
      some (Char.ofNat n) := by
  have h₁ : 0xF0 ≤ a := UInt8.le_iff_toNat_le.2 h
  have h₂ : a < 0xF8 := UInt8.lt_iff_toNat_lt.2 h'
  simp only [quadruple?, h₁, h₂, isContinuation_ofNat hm, isContinuation_ofNat hk,
    isContinuation_ofNat hj, payload_ofNat hm, payload_ofNat hk, payload_ofNat hj, decide_true,
    Bool.and_self, ↓reduceIte, ← hn, hl, hs]

theorem not_lt_of_le_toNat {a : UInt8} (h : 0x80 ≤ a.toNat) : ¬ a < 0x80 := by
  rw [UInt8.lt_iff_toNat_lt]
  exact Nat.not_lt.2 h

theorem leading?_encodeChar (c : Char) (rest : List UInt8) :
    ∃ a more, String.utf8EncodeChar c = a :: more ∧ leading? a (more ++ rest) = some (c, rest) := by
  have hv : c.toNat < 0xD800 ∨ 0xDFFF < c.toNat ∧ c.toNat < 0x110000 := c.valid
  have hlead : ∀ m k : Nat, m + k < 256 → (UInt8.ofNat (m + k)).toNat = m + k := fun m k h =>
    UInt8.toNat_ofNat_of_lt' h
  unfold String.utf8EncodeChar
  have hc : c.val.toNat = c.toNat := rfl
  simp only [hc]
  generalize hn : c.toNat = n at hv
  have hchar : Char.ofNat n = c := by rw [← hn, Char.ofNat_toNat]
  split
  · next h =>
    have ha : (UInt8.ofNat n).toNat = n := UInt8.toNat_ofNat_of_lt' (by simp [UInt8.size]; omega)
    have hl : UInt8.ofNat n < 0x80 := by
      rw [UInt8.lt_iff_toNat_lt, ha]
      exact Nat.lt_succ_of_le h
    exact ⟨_, _, rfl, by simp only [leading?, hl, ↓reduceIte, ha, hchar, List.nil_append]⟩
  split
  · have ha := hlead (n / 64 % 32) 0xC0 (by omega)
    refine ⟨_, _, rfl, ?_⟩
    have hp := pair?_continuation (a := UInt8.ofNat (n / 64 % 32 + 0xC0)) (m := n % 64)
      (by omega) (by omega) (by omega)
    rw [show ((UInt8.ofNat (n / 64 % 32 + 0xC0)).toNat - 0xC0) * 64 + n % 64 = n by omega,
      hchar] at hp
    simp only [leading?, not_lt_of_le_toNat (show 0x80 ≤ _ by rw [ha]; omega), ↓reduceIte,
      List.cons_append, List.nil_append, hp]
  split
  · have ha := hlead (n / 4096 % 16) 0xE0 (by omega)
    refine ⟨_, _, rfl, ?_⟩
    have ht := triple?_continuation (a := UInt8.ofNat (n / 4096 % 16 + 0xE0)) (m := n / 64 % 64)
      (k := n % 64) (n := n) (by omega) (by omega) (by omega) (by omega) (by omega) (by omega)
      (by omega)
    rw [hchar] at ht
    simp only [leading?, not_lt_of_le_toNat (show 0x80 ≤ _ by rw [ha]; omega), ↓reduceIte,
      List.cons_append, List.nil_append, pair?_of_le (show 0xE0 ≤ _ by rw [ha]; omega), ht]
  · have ha := hlead (n / 262144 % 8) 0xF0 (by omega)
    refine ⟨_, _, rfl, ?_⟩
    have hq := quadruple?_continuation (a := UInt8.ofNat (n / 262144 % 8 + 0xF0))
      (m := n / 4096 % 64) (k := n / 64 % 64) (j := n % 64) (n := n) (by omega) (by omega)
      (by omega) (by omega) (by omega) (by omega) (by omega) (by omega)
    rw [hchar] at hq
    simp only [leading?, not_lt_of_le_toNat (show 0x80 ≤ _ by rw [ha]; omega), ↓reduceIte,
      List.cons_append, List.nil_append, pair?_of_le (show 0xE0 ≤ _ by rw [ha]; omega),
      triple?_of_le (show 0xF0 ≤ _ by rw [ha]; omega), hq, Option.map_some]

theorem decode_encode (s : List Char) : decode (encode s) = s.map some := by
  induction s with
  | nil => rw [encode, List.flatMap_nil, decode, List.map_nil]
  | cons c s ih =>
    obtain ⟨a, more, he, hl⟩ := leading?_encodeChar c (encode s)
    have hs : encode (c :: s) = a :: (more ++ encode s) := by
      rw [encode, List.flatMap_cons, he]
      rfl
    rw [hs, decode]
    split
    · next char rest heq =>
      rw [hl] at heq
      cases heq
      rw [ih, List.map_cons]
    · next heq =>
      rw [hl] at heq
      cases heq

variable {s t u v w : List Char} {c : Char} {a b : Nat}

def size (s : List Char) : Nat := (encode s).length

theorem encode_append (s t : List Char) : encode (s ++ t) = encode s ++ encode t := List.flatMap_append

theorem encode_cons (c : Char) (s : List Char) : encode (c :: s) = String.utf8EncodeChar c ++ encode s :=
  List.flatMap_cons

theorem size_append (s t : List Char) : size (s ++ t) = size s + size t := by
  rw [size, encode_append, List.length_append, size, size]

theorem size_cons (c : Char) (s : List Char) :
    size (c :: s) = (String.utf8EncodeChar c).length + size s := by
  rw [size, encode_cons, List.length_append, size]

theorem size_nil : size [] = 0 := rfl

theorem length_encodeChar_pos (c : Char) : 0 < (String.utf8EncodeChar c).length := by
  rw [String.length_utf8EncodeChar]
  exact c.utf8Size_pos

theorem eq_nil_of_size (h : size s = 0) : s = [] := by
  cases s with
  | nil => rfl
  | cons c s =>
    have := length_encodeChar_pos c
    rw [size_cons] at h
    omega

def splitBytes? : Nat → List Char → Option (List Char × List Char)
  | 0, s => some ([], s)
  | _ + 1, [] => none
  | n + 1, c :: s =>
    if (String.utf8EncodeChar c).length ≤ n + 1 then
      (splitBytes? (n + 1 - (String.utf8EncodeChar c).length) s).map fun (t, rest) => (c :: t, rest)
    else none

/-- The text from one byte offset to another. There is none if they are out of order or out of bounds, or
if one of them is in the middle of a character. -/
def slice? (s : List Char) (a b : Nat) : Option (List Char) :=
  if a ≤ b then do
    let (front, _) ← splitBytes? b s
    let (_, t) ← splitBytes? a front
    return t
  else none

theorem splitBytes?_eq_some_iff {n : Nat} : splitBytes? n s = some (t, v) ↔ s = t ++ v ∧ size t = n := by
  fun_induction splitBytes? n s generalizing t with
  | case1 s =>
    rw [Option.some.injEq, Prod.mk.injEq]
    constructor
    · rintro ⟨rfl, rfl⟩
      exact ⟨rfl, rfl⟩
    · rintro ⟨rfl, ht⟩
      rw [eq_nil_of_size ht]
      exact ⟨rfl, rfl⟩
  | case2 n =>
    refine iff_of_false nofun ?_
    rintro ⟨he, ht⟩
    rw [(List.append_eq_nil_iff.1 he.symm).1] at ht
    cases ht
  | case3 n c s h ih =>
    rw [Option.map_eq_some_iff]
    constructor
    · rintro ⟨⟨front, rest⟩, hsplit, he⟩
      cases he
      obtain ⟨rfl, hsize⟩ := ih.1 hsplit
      exact ⟨rfl, by rw [size_cons]; omega⟩
    · rintro ⟨he, hsize⟩
      cases t with
      | nil => cases hsize
      | cons d t =>
        obtain ⟨rfl, rfl⟩ := List.cons.inj he
        rw [size_cons] at hsize
        exact ⟨(t, v), ih.2 ⟨rfl, by omega⟩, rfl⟩
  | case4 n c s h =>
    refine iff_of_false nofun ?_
    rintro ⟨he, hsize⟩
    cases t with
    | nil => cases hsize
    | cons d t =>
      rw [size_cons, ← (List.cons.inj he).1] at hsize
      omega

theorem slice?_eq_some_iff :
    slice? s a b = some t ↔ ∃ u v, s = u ++ t ++ v ∧ size u = a ∧ size (u ++ t) = b := by
  unfold slice?
  split
  · next hle =>
    simp only [Option.bind_eq_bind, Option.bind_eq_some_iff, Prod.exists, splitBytes?_eq_some_iff,
      Option.pure_def, Option.some.injEq]
    constructor
    · rintro ⟨front, v, ⟨rfl, hb⟩, u, t, ⟨rfl, ha⟩, rfl⟩
      exact ⟨u, v, rfl, ha, hb⟩
    · rintro ⟨u, v, rfl, ha, hb⟩
      exact ⟨_, v, ⟨rfl, hb⟩, u, t, ⟨rfl, ha⟩, rfl⟩
  · next hle =>
    refine iff_of_false nofun ?_
    rintro ⟨u, v, -, ha, hb⟩
    rw [size_append] at hb
    omega

def byte (c : Char) : UInt8 := UInt8.ofNat c.toNat

theorem encodeChar_cases (c : Char) :
    c.toNat < 0x80 ∧ String.utf8EncodeChar c = [byte c] ∨
      0x80 ≤ c.toNat ∧ ∀ b ∈ String.utf8EncodeChar c, 0x80 ≤ b.toNat := by
  have hbyte : ∀ m k : Nat, m + k < 256 → 0x80 ≤ k → 0x80 ≤ (UInt8.ofNat (m + k)).toNat :=
    fun m k h hk => by
      rw [UInt8.toNat_ofNat_of_lt' h]
      omega
  have hv : c.toNat < 0x110000 := by
    have hvalid : c.toNat < 0xD800 ∨ 0xDFFF < c.toNat ∧ c.toNat < 0x110000 := c.valid
    omega
  have hc : c.val.toNat = c.toNat := rfl
  unfold String.utf8EncodeChar byte
  simp only [hc]
  generalize c.toNat = n at hv
  split
  · exact .inl ⟨by omega, rfl⟩
  · refine .inr ⟨by omega, ?_⟩
    split
    · simp only [List.forall_mem_cons]
      exact ⟨hbyte _ _ (by omega) (by omega), hbyte _ _ (by omega) (by omega), List.forall_mem_nil _⟩
    split
    · simp only [List.forall_mem_cons]
      exact ⟨hbyte _ _ (by omega) (by omega), hbyte _ _ (by omega) (by omega),
        hbyte _ _ (by omega) (by omega), List.forall_mem_nil _⟩
    · simp only [List.forall_mem_cons]
      exact ⟨hbyte _ _ (by omega) (by omega), hbyte _ _ (by omega) (by omega),
        hbyte _ _ (by omega) (by omega), hbyte _ _ (by omega) (by omega), List.forall_mem_nil _⟩

theorem toNat_byte (h : c.toNat < 0x80) : (byte c).toNat = c.toNat :=
  UInt8.toNat_ofNat_of_lt' (by change c.toNat < 256; omega)

theorem encodeChar_of_lt (h : c.toNat < 0x80) : String.utf8EncodeChar c = [byte c] := by
  rcases encodeChar_cases c with hc | hc
  · exact hc.2
  · omega

theorem byte_mem_encodeChar (h : c.toNat < 0x80) {d : Char} :
    byte c ∈ String.utf8EncodeChar d ↔ d = c := by
  rcases encodeChar_cases d with ⟨hd, hbytes⟩ | ⟨hd, hbytes⟩
  · rw [hbytes, List.mem_singleton]
    constructor
    · intro hb
      have hnat := congrArg UInt8.toNat hb
      rw [toNat_byte h, toNat_byte hd] at hnat
      exact Char.toNat_inj.1 hnat.symm
    · rintro rfl
      rfl
  · constructor
    · intro hb
      have := hbytes _ hb
      rw [toNat_byte h] at this
      omega
    · rintro rfl
      omega

theorem byte_mem_encode (h : c.toNat < 0x80) : byte c ∈ encode s ↔ c ∈ s := by
  rw [encode, List.mem_flatMap]
  constructor
  · rintro ⟨d, hd, hb⟩
    rwa [← (byte_mem_encodeChar h).1 hb]
  · exact fun hc => ⟨c, hc, (byte_mem_encodeChar h).2 rfl⟩

def IsAscii (w : List Char) : Prop := ∀ c ∈ w, c.toNat < 0x80

theorem encode_prefix_iff (hw : IsAscii w) : encode w <+: encode s ↔ w <+: s := by
  induction w generalizing s with
  | nil => exact iff_of_true List.nil_prefix List.nil_prefix
  | cons c w ih =>
    obtain ⟨hc, hw⟩ := List.forall_mem_cons.1 hw
    rw [encode_cons, encodeChar_of_lt hc]
    cases s with
    | nil => simp [encode]
    | cons d s =>
      rw [encode_cons, List.cons_prefix_cons, List.singleton_append]
      rcases encodeChar_cases d with ⟨hd, hbytes⟩ | ⟨hd, hbytes⟩
      · have hb := byte_mem_encodeChar hc (d := d)
        rw [hbytes, List.mem_singleton] at hb
        rw [hbytes, List.singleton_append, List.cons_prefix_cons, ih hw, hb, eq_comm]
      · obtain ⟨b, more, hmore⟩ := List.exists_cons_of_length_pos (length_encodeChar_pos d)
        have hb := hbytes b (hmore ▸ List.mem_cons_self)
        rw [hmore, List.cons_append, List.cons_prefix_cons]
        refine iff_of_false (fun h => ?_) (fun h => ?_)
        · rw [← h.1, toNat_byte hc] at hb
          omega
        · rw [← h.1] at hd
          omega

def occurrences (w : List UInt8) (i : Nat) : List UInt8 → List Nat
  | [] => []
  | b :: bytes =>
    if w <+: b :: bytes then i :: occurrences w (i + w.length) (bytes.drop (w.length - 1))
    else occurrences w (i + 1) bytes
termination_by bytes => bytes.length

theorem occurrences_nil (w : List UInt8) (i : Nat) : occurrences w i [] = [] := by
  rw [occurrences]

theorem occurrences_append_high (hc : c.toNat < 0x80) (w : List Char) (i : Nat) {high : List UInt8}
    (h : ∀ b ∈ high, 0x80 ≤ b.toNat) (bytes : List UInt8) :
    occurrences (encode (c :: w)) i (high ++ bytes) =
      occurrences (encode (c :: w)) (i + high.length) bytes := by
  induction high generalizing i with
  | nil => rfl
  | cons b high ih =>
    obtain ⟨hb, hhigh⟩ := List.forall_mem_cons.1 h
    have hno : ¬ encode (c :: w) <+: b :: (high ++ bytes) := by
      rw [encode_cons, encodeChar_of_lt hc, List.singleton_append, List.cons_prefix_cons]
      rintro ⟨rfl, -⟩
      rw [toNat_byte hc] at hb
      omega
    rw [List.cons_append, occurrences, if_neg hno, ih _ hhigh, List.length_cons]
    congr 1
    omega

theorem occurrences_skip (hw : IsAscii (c :: w)) {d : Char} (h : ¬ c :: w <+: d :: s) (i : Nat) :
    occurrences (encode (c :: w)) i (encode (d :: s)) =
      occurrences (encode (c :: w)) (i + (String.utf8EncodeChar d).length) (encode s) := by
  rw [← encode_prefix_iff hw] at h
  rw [encode_cons d] at h ⊢
  rcases encodeChar_cases d with ⟨-, hbytes⟩ | ⟨-, hbytes⟩
  · rw [hbytes, List.singleton_append] at h ⊢
    rw [occurrences, if_neg h, List.length_singleton]
  · exact occurrences_append_high (hw c List.mem_cons_self) w i hbytes _

theorem occurrences_append (c : Char) (w s : List Char) (i : Nat) :
    occurrences (encode (c :: w)) i (encode (c :: w ++ s)) =
      i :: occurrences (encode (c :: w)) (i + size (c :: w)) (encode s) := by
  obtain ⟨b, more, hmore⟩ := List.exists_cons_of_length_pos (l := encode (c :: w)) (by
    have := length_encodeChar_pos c
    rw [← size, size_cons]
    omega)
  rw [encode_append, size, hmore, List.cons_append, occurrences, if_pos ⟨encode s, rfl⟩,
    List.length_cons, Nat.add_sub_cancel, List.drop_left]

def byteSlice? (bytes : List UInt8) (a b : Nat) : Option (List UInt8) :=
  if a ≤ b ∧ b ≤ bytes.length then some ((bytes.drop a).take (b - a)) else none

theorem byteSlice?_append (s t v : List Char) :
    byteSlice? (encode (s ++ t ++ v)) (size s) (size (s ++ t)) = some (encode t) := by
  have hle : size s ≤ size (s ++ t) ∧ size (s ++ t) ≤ (encode (s ++ t ++ v)).length := by
    rw [← size, size_append (s ++ t), size_append]
    omega
  have hdrop : (encode (s ++ t ++ v)).drop (size s) = encode t ++ encode v := by
    rw [encode_append, encode_append, List.append_assoc]
    exact List.drop_left
  rw [byteSlice?, if_pos hle, hdrop, size_append, Nat.add_sub_cancel_left]
  exact congrArg some List.take_left

def firstByte? (b : UInt8) (bytes : List UInt8) : Option Nat := bytes.findIdx? (· = b)

theorem firstByte?_eq_none (hc : c.toNat < 0x80) (h : c ∉ s) : firstByte? (byte c) (encode s) = none := by
  rw [firstByte?, List.findIdx?_eq_none_iff]
  intro b hb
  exact decide_eq_false fun he => h ((byte_mem_encode hc).1 (he ▸ hb))

theorem firstByte?_append (hc : c.toNat < 0x80) (h : c ∉ s) (t : List Char) :
    firstByte? (byte c) (encode (s ++ c :: t)) = some (size s) := by
  have hnone := firstByte?_eq_none hc h
  rw [firstByte?] at hnone
  rw [firstByte?, encode_append, List.findIdx?_append, hnone, encode_cons, encodeChar_of_lt hc,
    List.singleton_append, List.findIdx?_cons, if_pos (decide_eq_true rfl)]
  simp [size]

theorem getElem?_encode_iff (hc : c.toNat < 0x80) (s t : List Char) :
    (encode (s ++ t))[size s]? = some (byte c) ↔ t.head? = some c := by
  rw [encode_append, size, List.getElem?_append_right (Nat.le_refl _), Nat.sub_self]
  cases t with
  | nil => exact iff_of_false nofun nofun
  | cons d t =>
    obtain ⟨b, more, hmore⟩ := List.exists_cons_of_length_pos (length_encodeChar_pos d)
    rw [encode_cons, hmore, List.cons_append, List.getElem?_cons_zero, List.head?_cons, Option.some.injEq,
      Option.some.injEq]
    constructor
    · rintro rfl
      exact (byte_mem_encodeChar hc).1 (hmore ▸ List.mem_cons_self)
    · rintro rfl
      rw [encodeChar_of_lt hc] at hmore
      exact (List.cons.inj hmore).1.symm

end TreebankSearch.Utf8

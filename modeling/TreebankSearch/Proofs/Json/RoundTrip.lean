import TreebankSearch.Json.Basic
import TreebankSearch.Json.Reader
import TreebankSearch.Proofs.Json.Scalar

/-!
# Reading JSON back

A value whose numerals are numbers is read back from its compact form: the text is cut into the tokens
of the value, and these are put together again. A literal that spells no text stays one. The fields of a
record with distinct names are those that it was made of, and the values of a list are read back one by
one.
-/

namespace TreebankSearch.Json

inductive Writable : Json → Prop where
  | null : Writable .null
  | bool (value : Bool) : Writable (.bool value)
  | number {text : String} : isNumber text.toList = true → Writable (.number text)
  | string (text : Option String) : Writable (.string text)
  | array {items : List Json} : (∀ item ∈ items, Writable item) → Writable (.array items)
  | object {members : List (Option String × Json)} :
      (∀ member ∈ members, Writable member.2) → Writable (.object members)

theorem writable_ofNat (n : Nat) : Writable (.ofNat n) :=
  .number (by rw [toList_ofNat]; exact isNumber_toDigits n)

mutual
def tokensOf : Json → List Token
  | .null => [.scalar .null]
  | .bool value => [.scalar (.bool value)]
  | .number text => [.scalar (.number text)]
  | .string text => [.scalar (.string text)]
  | .array [] => [.openArray, .closeArray]
  | .array (item :: items) => .openArray :: (tokensOf item ++ itemTokens items)
  | .object [] => [.openObject, .closeObject]
  | .object ((name, value) :: members) =>
    .openObject :: .scalar (.string name) :: .colon :: (tokensOf value ++ memberTokens members)

def itemTokens : List Json → List Token
  | [] => [.closeArray]
  | item :: items => .comma :: (tokensOf item ++ itemTokens items)

def memberTokens : List (Option String × Json) → List Token
  | [] => [.closeObject]
  | (name, value) :: members =>
    .comma :: .scalar (.string name) :: .colon :: (tokensOf value ++ memberTokens members)
end

def Stops (rest : List (Option Char)) : Prop :=
  ∀ c more, rest = some c :: more → isNumberChar c = false ∧ c.isLower = false

theorem stops_nil : Stops [] := fun _ _ h => by cases h

theorem stops_cons {c : Char} (hn : isNumberChar c = false) (hl : c.isLower = false)
    (rest : List (Option Char)) : Stops (some c :: rest) := fun _ _ h => by
  cases h
  exact ⟨hn, hl⟩

theorem tokens?_of_next {c : Char} {rest more : List (Option Char)} {t : Token} {ts : List Token}
    (hs : isSpace c = false) (hn : nextToken? c rest = some (t, more))
    (hm : tokens? more = some ts) : tokens? (some c :: rest) = some (t :: ts) := by
  rw [tokens?, if_neg (by simp [hs])]
  split
  · next heq => rw [hn] at heq; cases heq
  · next heq =>
    rw [hn] at heq
    cases heq
    rw [hm]
    rfl

theorem tokens?_punctuation {c : Char} {t : Token} (hs : isSpace c = false)
    (hp : punctuation? c = some t) {rest : List (Option Char)} {ts : List Token}
    (hr : tokens? rest = some ts) : tokens? (some c :: rest) = some (t :: ts) :=
  tokens?_of_next hs (by simp only [nextToken?, hp]) hr

theorem tokens?_literal {literal rest : List (Option Char)} {gs : List Glyph} {ts : List Token}
    (hl : readLiteral? literal = some (gs, rest)) (hr : tokens? rest = some ts) :
    tokens? (some '"' :: literal) =
      some (.scalar (.string ((Glyph.spell? gs).map String.ofList)) :: ts) := by
  have hp : punctuation? '"' = none := rfl
  refine tokens?_of_next rfl ?_ hr
  simp only [nextToken?, hp, ↓reduceIte, hl, Option.map_some]

theorem tokens?_string (text : Option String) {rest : List (Option Char)} {ts : List Token}
    (hr : tokens? rest = some ts) :
    tokens? ((writeString text).map some ++ rest) = some (.scalar (.string text) :: ts) := by
  cases text with
  | none =>
    have hl : readLiteral? ((['\\', 'u', 'd', '8', '0', '0', '"'] : List Char).map some ++ rest) =
        some ([.surrogate 0xD800], rest) := rfl
    exact tokens?_literal hl hr
  | some text =>
    have hl := readLiteral?_write text.toList rest
    have ht := tokens?_literal hl hr
    rw [spell?_char, Option.map_some, String.ofList_toList] at ht
    exact ht

theorem spanChars_append {p : Char → Bool} {run : List Char} (hp : ∀ c ∈ run, p c = true)
    {rest : List (Option Char)} (hr : ∀ c more, rest = some c :: more → p c = false) :
    spanChars p (run.map some ++ rest) = (run, rest) := by
  induction run with
  | nil =>
    match rest with
    | [] => rfl
    | none :: _ => rfl
    | some c :: more => simp [spanChars, hr c more rfl]
  | cons c run ih =>
    have hc := hp c List.mem_cons_self
    have hi := ih fun d hd => hp d (List.mem_cons_of_mem c hd)
    simp only [List.map_cons, List.cons_append, spanChars, hc, ↓reduceIte, hi]

theorem tokens?_number {text : String} (hn : isNumber text.toList = true)
    {rest : List (Option Char)} {ts : List Token} (hs : Stops rest) (hr : tokens? rest = some ts) :
    tokens? (text.toList.map some ++ rest) = some (.scalar (.number text) :: ts) := by
  have hall := isNumberChar_of_isNumber hn
  have htext : String.ofList text.toList = text := String.ofList_toList
  cases hd : text.toList with
  | nil => rw [hd] at hn; cases hn
  | cons c run =>
    rw [hd] at hall hn htext
    have hspan := spanChars_append (p := isNumberChar)
      (fun d hm => hall d (List.mem_cons_of_mem c hm)) fun d more h => (hs d more h).1
    have hc := hall c List.mem_cons_self
    obtain ⟨hspace, hp, hq⟩ := start_of_isNumberChar hc
    have hnext : nextToken? c (run.map some ++ rest) = some (.scalar (.number text), rest) := by
      simp only [nextToken?, hp, if_neg hq, hc, ↓reduceIte, hspan, hn, htext]
    exact tokens?_of_next hspace hnext hr

theorem tokens?_word {c : Char} {w : List Char} {value : Json}
    (hw : word? (c :: w) = some value) (hl : ∀ d ∈ w, d.isLower = true)
    (hc : isSpace c = false ∧ punctuation? c = none ∧ c ≠ '"' ∧ isNumberChar c = false)
    {rest : List (Option Char)} {ts : List Token} (hs : Stops rest) (hr : tokens? rest = some ts) :
    tokens? ((c :: w).map some ++ rest) = some (.scalar value :: ts) := by
  obtain ⟨hsp, hp, hq, hn⟩ := hc
  have hspan := spanChars_append hl fun d more h => (hs d more h).2
  have hnext : nextToken? c (w.map some ++ rest) = some (.scalar value, rest) := by
    simp only [nextToken?, hp, if_neg hq, hn, Bool.false_eq_true, ↓reduceIte, hspan, hw,
      Option.map_some]
  exact tokens?_of_next hsp hnext hr

theorem stops_writeItems (items : List Json) (rest : List (Option Char)) :
    Stops ((writeItems items).map some ++ rest) := by
  cases items with
  | nil => exact stops_cons rfl rfl _
  | cons item items => exact stops_cons rfl rfl _

theorem stops_writeMembers (members : List (Option String × Json)) (rest : List (Option Char)) :
    Stops ((writeMembers members).map some ++ rest) := by
  cases members with
  | nil => exact stops_cons rfl rfl _
  | cons member members => exact stops_cons rfl rfl _

theorem tokens?_writeChars {v : Json} (hv : Writable v) {rest : List (Option Char)}
    {ts : List Token} (hs : Stops rest) (hr : tokens? rest = some ts) :
    tokens? ((writeChars v).map some ++ rest) = some (tokensOf v ++ ts) := by
  induction hv generalizing rest ts with
  | null => exact tokens?_word (w := ['u', 'l', 'l']) rfl (List.all_eq_true.1 rfl) (by decide) hs hr
  | bool value =>
    cases value with
    | true => exact tokens?_word (w := ['r', 'u', 'e']) rfl (List.all_eq_true.1 rfl) (by decide) hs hr
    | false => exact tokens?_word (w := ['a', 'l', 's', 'e']) rfl (List.all_eq_true.1 rfl) (by decide) hs hr
  | number hn => exact tokens?_number hn hs hr
  | string text => exact tokens?_string text hr
  | @array items _ ih =>
    have hitems : ∀ items : List Json, (∀ item ∈ items, ∀ {rest : List (Option Char)}
        {ts : List Token}, Stops rest → tokens? rest = some ts →
          tokens? ((writeChars item).map some ++ rest) = some (tokensOf item ++ ts)) →
        tokens? ((writeItems items).map some ++ rest) = some (itemTokens items ++ ts) := by
      intro items ih
      induction items with
      | nil => exact tokens?_punctuation rfl rfl hr
      | cons item items ihi =>
        obtain ⟨h, hi⟩ := List.forall_mem_cons.1 ih
        rw [writeItems, itemTokens, List.map_cons, List.map_append, List.cons_append,
          List.append_assoc, List.cons_append, List.append_assoc]
        exact tokens?_punctuation rfl rfl (h (stops_writeItems items rest) (ihi hi))
    cases items with
    | nil => exact tokens?_punctuation rfl rfl (tokens?_punctuation rfl rfl hr)
    | cons item items =>
      obtain ⟨h, hi⟩ := List.forall_mem_cons.1 ih
      rw [writeChars, tokensOf, List.map_cons, List.map_append, List.cons_append,
        List.append_assoc, List.cons_append, List.append_assoc]
      exact tokens?_punctuation rfl rfl (h (stops_writeItems items rest) (hitems items hi))
  | @object members _ ih =>
    have hmembers : ∀ members : List (Option String × Json), (∀ member ∈ members,
        ∀ {rest : List (Option Char)} {ts : List Token}, Stops rest → tokens? rest = some ts →
          tokens? ((writeChars member.2).map some ++ rest) = some (tokensOf member.2 ++ ts)) →
        tokens? ((writeMembers members).map some ++ rest) = some (memberTokens members ++ ts) := by
      intro members ih
      induction members with
      | nil => exact tokens?_punctuation rfl rfl hr
      | cons member members ihm =>
        obtain ⟨name, value⟩ := member
        obtain ⟨h, hm⟩ := List.forall_mem_cons.1 ih
        have hv := h (stops_writeMembers members rest) (ihm hm)
        have hn := tokens?_string name (tokens?_punctuation (c := ':') rfl rfl hv)
        simpa [writeMembers, memberTokens] using tokens?_punctuation (c := ',') rfl rfl hn
    cases members with
    | nil => exact tokens?_punctuation rfl rfl (tokens?_punctuation rfl rfl hr)
    | cons member members =>
      obtain ⟨name, value⟩ := member
      obtain ⟨h, hm⟩ := List.forall_mem_cons.1 ih
      have hv := h (stops_writeMembers members rest) (hmembers members hm)
      have hn := tokens?_string name (tokens?_punctuation (c := ':') rfl rfl hv)
      simpa [writeChars, tokensOf] using tokens?_punctuation (c := '\x7b') rfl rfl hn

theorem tokensOf_ne_closeArray (v : Json) (ts more : List Token) :
    tokensOf v ++ ts ≠ .closeArray :: more := by
  intro h
  fun_cases tokensOf v <;> simp [tokensOf] at h

theorem assemble?_openArray {ts : List Token} (h : ∀ more, ts ≠ .closeArray :: more)
    (frames : List Frame) : assemble? .value frames (.openArray :: ts) =
      assemble? .value (.items [] :: frames) ts := by
  rw [assemble?]
  exact h

theorem assemble?_tokensOf {v : Json} (hv : Writable v) (frames : List Frame) (ts : List Token) :
    assemble? .value frames (tokensOf v ++ ts) = assemble? (.rest v) frames ts := by
  induction hv generalizing frames ts with
  | null => rw [tokensOf]; rfl
  | bool value => rw [tokensOf]; rfl
  | number _ => rw [tokensOf]; rfl
  | string text => rw [tokensOf]; rfl
  | @array items _ ih =>
    have hitems : ∀ (items : List Json), (∀ item ∈ items, ∀ (frames : List Frame)
        (ts : List Token), assemble? .value frames (tokensOf item ++ ts) =
          assemble? (.rest item) frames ts) → ∀ (before : List Json) (v : Json),
        assemble? (.rest v) (.items before :: frames) (itemTokens items ++ ts) =
          assemble? (.rest (.array ((v :: before).reverse ++ items))) frames ts := by
      intro items ih
      induction items with
      | nil =>
        intro before v
        rw [itemTokens, List.append_nil]
        rfl
      | cons item items ihi =>
        intro before v
        obtain ⟨h, hi⟩ := List.forall_mem_cons.1 ih
        rw [itemTokens, List.cons_append, List.append_assoc, assemble?, h, ihi hi]
        simp
    cases items with
    | nil => rw [tokensOf]; rfl
    | cons item items =>
      obtain ⟨h, hi⟩ := List.forall_mem_cons.1 ih
      rw [tokensOf, List.cons_append, List.append_assoc,
        assemble?_openArray (tokensOf_ne_closeArray item _), h, hitems items hi]
      rfl
  | @object members _ ih =>
    have hmembers : ∀ (members : List (Option String × Json)), (∀ member ∈ members,
        ∀ (frames : List Frame) (ts : List Token),
          assemble? .value frames (tokensOf member.2 ++ ts) =
            assemble? (.rest member.2) frames ts) →
        ∀ (before : List (Option String × Json)) (name : Option String) (v : Json),
        assemble? (.rest v) (.members before name :: frames) (memberTokens members ++ ts) =
          assemble? (.rest (.object (((name, v) :: before).reverse ++ members))) frames ts := by
      intro members ih
      induction members with
      | nil =>
        intro before name v
        rw [memberTokens, List.append_nil]
        rfl
      | cons member members ihm =>
        intro before name v
        obtain ⟨next, value⟩ := member
        obtain ⟨h, hm⟩ := List.forall_mem_cons.1 ih
        have hv := h (.members ((name, v) :: before) next :: frames) (memberTokens members ++ ts)
        simp only [memberTokens, List.cons_append, List.append_assoc, assemble?, hv, ihm hm]
        simp
    cases members with
    | nil => rw [tokensOf]; rfl
    | cons member members =>
      obtain ⟨name, value⟩ := member
      obtain ⟨h, hm⟩ := List.forall_mem_cons.1 ih
      have hv := h (.members [] name :: frames) (memberTokens members ++ ts)
      simp only [tokensOf, List.cons_append, List.append_assoc, assemble?, hv, hmembers members hm]
      rfl

theorem readMarked?_writeChars {v : Json} (hv : Writable v) :
    readMarked? ((writeChars v).map some) = some v := by
  have hnil : tokens? [] = some [] := by rw [tokens?]
  have ht := tokens?_writeChars hv stops_nil hnil
  have ha := assemble?_tokensOf hv [] []
  rw [List.append_nil, List.append_nil] at ht
  rw [List.append_nil] at ha
  rw [readMarked?, ht, Option.bind_some, ha]
  rfl

theorem read?_write {v : Json} (hv : Writable v) : read? (write v) = some v := by
  rw [read?, write, String.toList_ofList, readMarked?_writeChars hv]

theorem member?_map (name : String) (members : List (String × Json)) :
    member? name (members.map fun (name, value) => (some name, value)) = members.lookup name := by
  unfold member?
  induction members with
  | nil => rfl
  | cons member members ih =>
    rw [List.map_cons, List.lookup_cons, List.lookup_cons, ih]
    rfl

theorem length_filter_name_le {members : List (String × Json)} (h : (members.map (·.1)).Nodup)
    (name : String) : (members.filter (·.1 = name)).length ≤ 1 := by
  have hc := List.nodup_iff_count.1 h name
  rw [List.count, List.countP_map, List.countP_eq_length_filter] at hc
  exact hc

theorem fields?_record {members : List (String × Json)} (h : (members.map (·.1)).Nodup)
    (names : List String) :
    (record members).fields? names = some fun name => members.lookup name := by
  have hr : isRecord names (members.map fun (name, value) => (some name, value)) = true := by
    rw [isRecord, Bool.and_eq_true, List.all_eq_true, List.all_eq_true]
    refine ⟨fun member hm => ?_, fun name _ => ?_⟩
    · obtain ⟨_, _, rfl⟩ := List.mem_map.1 hm
      rfl
    · rw [decide_eq_true_iff, List.filter_map, List.length_map]
      have hl := length_filter_name_le h name
      simpa [Function.comp_def] using hl
  rw [record, fields?, if_pos hr]
  exact congrArg some (funext fun name => member?_map name members)

theorem text?_ofText (text : String) : (ofText text).text? = some text := rfl

theorem nullable?_ofNat {bound n : Nat} (h : n ≤ bound) :
    nullable? (nat? bound) (ofNat n) = some (some n) := by
  rw [nullable?, nat?_ofNat h, Option.map_some]
  intro h
  cases h

theorem list?_ofList {α : Type} {f : α → Json} {g : Json → Option α} {items : List α}
    (h : ∀ item ∈ items, g (f item) = some item) : (ofList f items).list? g = some items := by
  rw [ofList, list?]
  induction items with
  | nil => rfl
  | cons item items ih =>
    obtain ⟨hi, hs⟩ := List.forall_mem_cons.1 h
    rw [List.map_cons, List.mapM_cons, hi, ih hs]
    rfl

theorem list?_texts (texts : List String) : (ofList ofText texts).list? text? = some texts :=
  list?_ofList fun _ _ => rfl

theorem writable_ofList {α : Type} {f : α → Json} {items : List α}
    (h : ∀ item ∈ items, Writable (f item)) : Writable (ofList f items) :=
  .array fun _ hm => by
    obtain ⟨item, hi, rfl⟩ := List.mem_map.1 hm
    exact h item hi

theorem writable_record {members : List (String × Json)} (h : ∀ member ∈ members, Writable member.2) :
    Writable (record members) :=
  .object fun _ hm => by
    obtain ⟨member, hi, rfl⟩ := List.mem_map.1 hm
    exact h member hi

end TreebankSearch.Json

import TreebankSearch.Proofs.Pattern.Position

/-!
# Rules and readers

A rule of the grammar and the reader for the same kind of term over tokens come to the same at every
place of a text: they fit together, with the same value, and go on at the same place. This module has the
rules that do not nest.
-/

namespace TreebankSearch.Pattern

/-- One value, and the same place to go on. -/
def Same {α : Type} (r : List Char) (x : α × List Char) (y : α × List Token) : Prop :=
  x.1 = y.1 ∧ Upto r x.2 y.2

theorem rel_cases {α β : Type} {R : α → β → Prop} {x : Option α} {y : Option β}
    (h : Option.Rel R x y) : x = none ∧ y = none ∨ ∃ a b, x = some a ∧ y = some b ∧ R a b := by
  cases h with
  | none => exact .inl ⟨rfl, rfl⟩
  | some h => exact .inr ⟨_, _, rfl, rfl, h⟩

theorem eq_none_of_rel {α β : Type} {R : α → β → Prop} {x : Option α} (h : Option.Rel R x none) :
    x = none := by
  cases h
  rfl

theorem rel_bind {α β γ δ : Type} {R : α → β → Prop} {S : γ → δ → Prop} {x : Option α} {y : Option β}
    {f : α → Option γ} {g : β → Option δ} (h : Option.Rel R x y)
    (hf : ∀ a b, R a b → Option.Rel S (f a) (g b)) : Option.Rel S (x >>= f) (y >>= g) := by
  cases h with
  | none => exact .none
  | some h => exact hf _ _ h

theorem rel_map {α β γ δ : Type} {R : α → β → Prop} {S : γ → δ → Prop} {x : Option α} {y : Option β}
    {f : α → γ} {g : β → δ} (h : Option.Rel R x y) (hf : ∀ a b, R a b → S (f a) (g b)) :
    Option.Rel S (x.map f) (y.map g) := by
  cases h with
  | none => exact .none
  | some h => exact .some (hf _ _ h)

variable {r s : List Char} {ts : List Token}

theorem eq_false_of_ne_plain {p : Char → Bool} (hp : ∀ c, p c = true → Delimiter.ofChar c = .plain)
    {c : Char} (h : Delimiter.ofChar c ≠ .plain) : p c = false := by
  cases hc : p c with
  | false => rfl
  | true => exact absurd (hp c hc) h

theorem Upto.span (h : Upto r s ts) (hr : Stuck r) {p : Char → Bool}
    (hp : ∀ c, p c = true → Delimiter.ofChar c = .plain) :
    s.takeWhile p = (spanChars p ts).1 ∧ Upto r (s.dropWhile p) (spanChars p ts).2 := by
  induction h with
  | stop =>
    cases r with
    | nil => exact ⟨rfl, .stop⟩
    | cons c r =>
      have hc := eq_false_of_ne_plain hp (hr.ne_plain rfl)
      simp only [List.takeWhile_cons, List.dropWhile_cons, hc, Bool.false_eq_true, ↓reduceIte]
      exact ⟨rfl, .stop⟩
  | @plain c s ts hc h ih =>
    cases hpc : p c with
    | false => simpa [spanChars, hpc] using Upto.plain hc h
    | true => simpa [spanChars, hpc] using ih
  | literal q hb h _ =>
    have hq := eq_false_of_ne_plain hp (Delimiter.mark_ne_plain q)
    simpa [spanChars, hq] using h.literal q hb
  | bracket b hi h _ =>
    have hb := eq_false_of_ne_plain hp (Delimiter.opening_ne_plain b)
    simpa [spanChars, hb] using Upto.bracket b hi h

theorem Upto.skip (h : Upto r s ts) (hr : Stuck r) : Upto r (Grammar.skip s) (skipSpace ts) :=
  (h.span hr fun _ => ofChar_of_isSpace).2

theorem skip_skip (s : List Char) : Grammar.skip (Grammar.skip s) = Grammar.skip s := by
  induction s with
  | nil => rfl
  | cons c s ih =>
    simp only [Grammar.skip, List.dropWhile_cons] at ih ⊢
    split
    · exact ih
    · next hc => rw [List.dropWhile_cons_of_neg hc]

theorem Upto.after? (h : Upto r s ts) (hr : Stuck r) (w : List Char)
    (hw : (w.all fun c => Delimiter.ofChar c = .plain) = true) :
    Option.Rel (Upto r) (Text.after? w s) (afterWord? w ts) := by
  induction w generalizing s ts with
  | nil => exact .some h
  | cons c w ih =>
    rw [List.all_cons, Bool.and_eq_true, decide_eq_true_eq] at hw
    obtain ⟨hc, hw⟩ := hw
    cases h with
    | stop =>
      cases r with
      | nil => exact .none
      | cons d r =>
        have hd : c ≠ d := fun he => hr.ne_plain rfl (he ▸ hc)
        rw [Text.after?, if_neg hd]
        exact .none
    | @plain d s ts hd h =>
      by_cases hcd : c = d
      · rw [Text.after?, afterWord?, if_pos hcd, if_pos hcd]
        exact ih h hw
      · rw [Text.after?, afterWord?, if_neg hcd, if_neg hcd]
        exact .none
    | literal q =>
      have hd : c ≠ q.mark := fun he => by rw [he, Delimiter.ofChar_mark] at hc; cases hc
      rw [Text.after?, if_neg hd]
      exact .none
    | bracket b =>
      have hd : c ≠ b.opening := fun he => by rw [he, Delimiter.ofChar_opening] at hc; cases hc
      rw [Text.after?, if_neg hd]
      exact .none

theorem Upto.startsWithName (h : Upto r s ts) (hr : Stuck r) :
    s.head?.any isNameChar = startsWithName ts := by
  cases h with
  | stop =>
    cases r with
    | nil => rfl
    | cons c r => exact eq_false_of_ne_plain (fun _ => ofChar_of_isNameChar) (hr.ne_plain rfl)
  | plain => rfl
  | literal q => cases q <;> rfl
  | bracket b => cases b <;> rfl

theorem Upto.keyword? (h : Upto r s ts) (hr : Stuck r) (w : List Char)
    (hw : (w.all fun c => Delimiter.ofChar c = .plain) = true) :
    Option.Rel (Upto r) (Grammar.keyword? w s) (afterKeyword? w ts) := by
  rw [Grammar.keyword?, afterKeyword?]
  rcases rel_cases (h.after? hr w hw) with ⟨hs, ht⟩ | ⟨s', ts', hs, ht, h'⟩
  · rw [hs, ht]
    exact .none
  · rw [hs, ht, Option.filter_some, Option.filter_some, h'.startsWithName hr]
    split
    · exact .some h'
    · exact .none

theorem Upto.connective? (h : Upto r s ts) (hr : Stuck r) :
    Option.Rel (Same r) (Grammar.connective? s) (connective? ts) := by
  rw [Grammar.connective?, Pattern.connective?]
  rcases rel_cases (h.keyword? hr ['a', 'n', 'd'] rfl) with ⟨hs, ht⟩ | ⟨s', ts', hs, ht, h'⟩
  · rw [hs, ht]
    exact rel_map (h.keyword? hr ['o', 'r'] rfl) fun _ _ hab => ⟨rfl, hab⟩
  · rw [hs, ht]
    exact .some ⟨rfl, h'⟩

theorem rel_findSome? {α β γ : Type} {R : β → γ → Prop} {f : α → Option β} {g : α → Option γ}
    {as : List α} (h : ∀ a ∈ as, Option.Rel R (f a) (g a)) :
    Option.Rel R (as.findSome? f) (as.findSome? g) := by
  induction as with
  | nil => exact .none
  | cons a as ih =>
    obtain ⟨ha, has⟩ := List.forall_mem_cons.1 h
    rw [List.findSome?_cons, List.findSome?_cons]
    rcases rel_cases ha with ⟨hf, hg⟩ | ⟨b, c, hf, hg, hbc⟩
    · rw [hf, hg]
      exact ih has
    · rw [hf, hg]
      exact .some hbc

theorem Upto.comparison? (h : Upto r s ts) (hr : Stuck r) :
    Option.Rel (Same r) (Grammar.comparison? s) (readComparison? ts) := by
  refine rel_findSome? fun op _ => ?_
  have hw : (op.symbol.toList.all fun c => Delimiter.ofChar c = .plain) = true := by
    cases op <;> rfl
  exact rel_map (h.after? hr _ hw) fun _ _ hab => ⟨rfl, hab⟩

theorem Upto.run? (h : Upto r s ts) (hr : Stuck r) {p : Char → Bool}
    (hp : ∀ c, p c = true → Delimiter.ofChar c = .plain) :
    Option.Rel (Same r) (Grammar.run? p s) (readRun? p ts) := by
  obtain ⟨hrun, hrest⟩ := h.span hr hp
  rw [Grammar.run?, readRun?, hrun]
  split
  · exact .none
  · exact .some ⟨rfl, hrest⟩

theorem ofChar_of_isDigit {c : Char} (h : c.isDigit = true) : Delimiter.ofChar c = .plain :=
  ofChar_of_isNameChar (by simp [isNameChar, Char.isAlphanum, h])

theorem quotedBody?_append {q : Quote} {body : List Char} (hb : q.mark ∉ body) (s : List Char) :
    Grammar.quotedBody? q (body ++ q.mark :: s) = some (body, s) := by
  have hp : ∀ c ∈ body, decide (c ≠ q.mark) = true := fun c hc =>
    decide_eq_true fun he => hb (he ▸ hc)
  rw [Grammar.quotedBody?, List.takeWhile_append_of_pos hp, List.dropWhile_append_of_pos hp]
  simp

theorem quotedBody?_eq_none {q : Quote} {s : List Char} (h : q.mark ∉ s) :
    Grammar.quotedBody? q s = none := by
  have hd : s.dropWhile (· ≠ q.mark) = [] := by
    induction s with
    | nil => rfl
    | cons c s ih =>
      rw [List.mem_cons, not_or] at h
      have hc : (decide (c ≠ q.mark)) = true := decide_eq_true (Ne.symm h.1)
      simp only [List.dropWhile_cons, hc, ↓reduceIte, ih h.2]
  rw [Grammar.quotedBody?, hd]

theorem Upto.fraction? (h : Upto r s ts) (hr : Stuck r) :
    Option.Rel (Same r) (Grammar.fraction? s) (readFraction? ts) :=
  rel_bind (h.after? hr ['.'] rfl) fun _ _ h => h.run? hr fun _ => ofChar_of_isDigit

theorem Upto.unsigned? (h : Upto r s ts) (hr : Stuck r) :
    Option.Rel (Same r) (Grammar.unsigned? s) (readUnsigned? ts) := by
  refine rel_bind (h.run? hr fun _ => ofChar_of_isDigit) ?_
  rintro ⟨whole, s⟩ ⟨_, ts⟩ ⟨rfl, h⟩
  rcases rel_cases (h.fraction? hr) with ⟨hs, ht⟩ | ⟨⟨f, s'⟩, ⟨_, ts'⟩, hs, ht, rfl, h'⟩
  · simp only [hs, ht]
    exact .some ⟨rfl, h⟩
  · simp only [hs, ht]
    exact .some ⟨rfl, h'⟩

theorem Upto.number? (h : Upto r s ts) (hr : Stuck r) :
    Option.Rel (Same r) (Grammar.number? s) (readNumber? ts) := by
  rw [Grammar.number?, readNumber?]
  rcases rel_cases (h.after? hr ['-'] rfl) with ⟨hs, ht⟩ | ⟨s', ts', hs, ht, h'⟩
  · rw [hs, ht]
    exact h.unsigned? hr
  · rw [hs, ht]
    refine rel_map (h'.unsigned? hr) ?_
    rintro ⟨number, s⟩ ⟨_, ts⟩ ⟨rfl, h⟩
    exact ⟨rfl, h⟩

theorem Stuck.quoted? (hr : Stuck r) : Grammar.quoted? r = none := by
  cases hr with
  | nil => rfl
  | closing b => rw [Grammar.quoted?, Delimiter.ofChar_closing]
  | literal q hq => rw [Grammar.quoted?, Delimiter.ofChar_mark]; exact quotedBody?_eq_none hq
  | bracket b => rw [Grammar.quoted?, Delimiter.ofChar_opening]

theorem Upto.literal? (h : Upto r s ts) (hr : Stuck r) :
    Option.Rel (Same r) (Grammar.literal? s) (readLiteral? ts) := by
  have hn := h.number? hr
  cases h with
  | stop =>
    rw [Grammar.literal?, hr.quoted?]
    exact hn
  | plain hc =>
    rw [Grammar.literal?, Grammar.quoted?, hc]
    exact hn
  | literal q hb h =>
    rw [Grammar.literal?, Grammar.quoted?, Delimiter.ofChar_mark]
    simp only [quotedBody?_append hb]
    exact .some ⟨rfl, h⟩
  | bracket b =>
    rw [Grammar.literal?, Grammar.quoted?, Delimiter.ofChar_opening]
    exact hn

theorem Upto.requirement? (h : Upto r s ts) (hr : Stuck r) :
    Option.Rel (Same r) (Grammar.requirement? s) (readRequirement? ts) := by
  refine rel_bind (h.comparison? hr) ?_
  rintro ⟨op, s⟩ ⟨_, ts⟩ ⟨rfl, h⟩
  refine rel_bind ((h.skip hr).literal? hr) ?_
  rintro ⟨value, s⟩ ⟨_, ts⟩ ⟨rfl, h⟩
  exact .some ⟨rfl, h⟩

theorem Upto.attributeTest? (h : Upto r s ts) (hr : Stuck r) :
    Option.Rel (Same r) (Grammar.attributeTest? s) (attributeTest? ts) := by
  refine rel_bind (h.after? hr ['@'] rfl) fun s ts h => ?_
  refine rel_bind ((h.skip hr).run? hr fun _ => ofChar_of_isNameChar) ?_
  rintro ⟨name, s⟩ ⟨_, ts⟩ ⟨rfl, h⟩
  rcases rel_cases ((h.skip hr).requirement? hr) with
    ⟨hs, ht⟩ | ⟨⟨requirement, s'⟩, ⟨_, ts'⟩, hs, ht, rfl, h'⟩
  · simp only [hs, ht]
    exact .some ⟨rfl, h.skip hr⟩
  · simp only [hs, ht]
    exact .some ⟨rfl, h'⟩

theorem Upto.bound? (h : Upto r s ts) (hr : Stuck r) :
    Option.Rel (Same r) (Grammar.bound? s) (readBound? ts) :=
  rel_bind (h.after? hr ['>'] rfl) fun _ _ h => (h.skip hr).run? hr fun _ => ofChar_of_isDigit

theorem isNameChar_of_isFunctionChar {c : Char} (h : isFunctionChar c = true) :
    isNameChar c = true := by
  simp only [isFunctionChar, Bool.or_eq_true] at h
  simp only [isNameChar, Bool.or_eq_true]
  rcases h with (h | h) | h
  · exact .inl (.inl (.inl h))
  · exact .inl (.inr h)
  · exact .inl (.inl (.inr h))

theorem ofChar_of_isAlpha {c : Char} (h : c.isAlpha = true) : Delimiter.ofChar c = .plain :=
  ofChar_of_isNameChar (by simp [isNameChar, Char.isAlphanum, h])

theorem Upto.functionName? (h : Upto r s ts) (hr : Stuck r) :
    Option.Rel (Same r) (Grammar.functionName? s) (readFunctionName? ts) := by
  cases h with
  | stop =>
    cases r with
    | nil => exact .none
    | cons c r =>
      have hc := eq_false_of_ne_plain (fun _ => ofChar_of_isAlpha) (hr.ne_plain rfl)
      rw [Grammar.functionName?, if_neg (ne_true_of_eq_false hc)]
      exact .none
  | @plain c s ts hc h =>
    obtain ⟨hrun, hrest⟩ := h.span hr fun c hc =>
      ofChar_of_isNameChar (isNameChar_of_isFunctionChar hc)
    rw [Grammar.functionName?, readFunctionName?, hrun]
    split
    · exact .some ⟨rfl, hrest⟩
    · exact .none
  | literal q => cases q <;> exact .none
  | bracket b => cases b <;> exact .none

end TreebankSearch.Pattern

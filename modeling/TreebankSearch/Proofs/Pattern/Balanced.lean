import TreebankSearch.Proofs.Pattern.Rule

/-!
# Balanced text

Brackets with balanced text in them, and what is made of them: verbatim text, and calls `number(..)`. The
rules go as far as the tokens do.
-/

namespace TreebankSearch.Pattern

open Grammar (Input)

theorem after?_singleton (c : Char) (s : List Char) : Text.after? [c] (c :: s) = some s :=
  Text.after?_append [c] s

theorem after?_singleton_of_ne {c : Char} {s : List Char} (h : ∀ rest, s ≠ c :: rest) :
    Text.after? [c] s = none := by
  cases hs : Text.after? [c] s with
  | none => rfl
  | some rest => exact absurd (Text.after?_eq_some_iff.1 hs) (h rest)

variable {r s : List Char} {ts : List Token}

theorem Upto.opening (h : Upto r s ts) (hr : Stuck r) (b : Bracket) :
    (Text.after? [b.opening] s = none ∧ readEnclosed? b ts = none) ∨
    ∃ t r' is, Text.after? [b.opening] s = some t ∧ t.length < s.length ∧ Upto r' t is ∧ Stuck r' ∧
      Option.Rel (Same r) ((Text.after? [b.closing] r').map fun rest => (readTerms is, rest))
        (readEnclosed? b ts) := by
  have hother : ∀ c rest, Delimiter.ofChar c ≠ .opening b →
      Text.after? [b.opening] (c :: rest) = none := fun c rest hc =>
    after?_singleton_of_ne fun more he => hc (by
      cases he
      exact Delimiter.ofChar_opening b)
  cases h with
  | stop =>
    cases hr with
    | nil => exact .inl ⟨rfl, rfl⟩
    | closing b' =>
      exact .inl ⟨hother _ _ (by rw [Delimiter.ofChar_closing]; exact Delimiter.noConfusion), rfl⟩
    | literal q =>
      exact .inl ⟨hother _ _ (by rw [Delimiter.ofChar_mark]; exact Delimiter.noConfusion), rfl⟩
    | @bracket b' t r' is hu hr' hne =>
      by_cases hb : b' = b
      · subst hb
        refine .inr ⟨t, r', is, after?_singleton _ _, Nat.lt_succ_self _, hu, hr', ?_⟩
        rw [after?_singleton_of_ne hne]
        exact .none
      · refine .inl ⟨hother _ _ ?_, rfl⟩
        rw [Delimiter.ofChar_opening]
        exact fun he => hb (Delimiter.opening.inj he)
  | plain hc => exact .inl ⟨hother _ _ (by rw [hc]; exact Delimiter.noConfusion), rfl⟩
  | literal q =>
    exact .inl ⟨hother _ _ (by rw [Delimiter.ofChar_mark]; exact Delimiter.noConfusion), rfl⟩
  | @bracket b' inner t is us hi h =>
    by_cases hb : b' = b
    · subst hb
      refine .inr ⟨_, b'.closing :: t, is, after?_singleton _ _, Nat.lt_succ_self _, .append hi _,
        .closing b' t, ?_⟩
      rw [after?_singleton, readEnclosed?, if_pos rfl]
      exact .some ⟨rfl, h⟩
    · refine .inl ⟨hother _ _ ?_, by rw [readEnclosed?, if_neg hb]⟩
      rw [Delimiter.ofChar_opening]
      exact fun he => hb (Delimiter.opening.inj he)

def afterSolid? : List Token → Option (List Token)
  | .quoted _ _ :: ts => some ts
  | .enclosed _ _ _ :: ts => some ts
  | _ => none

theorem solid_of_balanced (ih : ∀ t, t.length < s.length → ∀ r ts, Upto r t ts → Stuck r →
      Input.balanced t = some r) (h : Upto r s ts) (hr : Stuck r) :
    ∃ o, Input.solid s = some o ∧ Option.Rel (Upto r) o (afterSolid? ts) := by
  cases h with
  | stop =>
    refine ⟨none, ?_, .none⟩
    cases hr with
    | nil => rw [Input.solid]
    | closing b => rw [Input.solid, Delimiter.ofChar_closing]
    | literal q hq =>
      rw [Input.solid, Delimiter.ofChar_mark]
      simp only [quotedBody?_eq_none hq, Option.map_none]
    | @bracket b t r' is hu hr' hne =>
      rw [Input.solid, Delimiter.ofChar_opening]
      simp only [ih t (Nat.lt_succ_self _) r' is hu hr', Option.bind_eq_bind, Option.bind_some,
        after?_singleton_of_ne hne]
      rfl
  | plain hc =>
    refine ⟨none, ?_, .none⟩
    rw [Input.solid, hc]
  | literal q hb h =>
    refine ⟨_, ?_, .some h⟩
    rw [Input.solid, Delimiter.ofChar_mark]
    simp only [quotedBody?_append hb, Option.map_some]
  | @bracket b inner t is us hi h =>
    refine ⟨_, ?_, .some h⟩
    have hin := ih (inner ++ b.closing :: t) (Nat.lt_succ_self _) _ is (.append hi _) (.closing b t)
    rw [Input.solid, Delimiter.ofChar_opening]
    simp only [hin, Option.bind_eq_bind, Option.bind_some, after?_singleton]
    rfl

/-- Balanced text goes up to the first place where no token starts. -/
theorem Upto.balanced (h : Upto r s ts) (hr : Stuck r) : Input.balanced s = some r := by
  induction hn : s.length using Nat.strongRecOn generalizing s r ts with
  | ind n ih =>
    subst hn
    obtain ⟨o, hs, ho⟩ := solid_of_balanced (fun t ht r ts h hr => ih _ ht h hr rfl) h hr
    rw [Grammar.Input.balanced.eq_def, hs]
    cases h with
    | stop =>
      cases ho
      cases r with
      | nil => rfl
      | cons c r => simp [hr.ne_plain rfl]
    | @plain c t ts hc h =>
      cases ho
      simp [hc, ih t.length (Nat.lt_succ_self _) h hr rfl]
    | @literal q body t ts hb h =>
      cases ho with
      | some hu =>
        have hl := h.length_le hu List.suffix_rfl
        simpa using ih _ (by simp; omega) hu hr rfl
    | @bracket b inner t is us hi h =>
      cases ho with
      | some hu =>
        have hl := h.length_le hu List.suffix_rfl
        simpa using ih _ (by simp; omega) hu hr rfl

theorem Upto.solid (h : Upto r s ts) (hr : Stuck r) :
    ∃ o, Input.solid s = some o ∧ Option.Rel (Upto r) o (afterSolid? ts) :=
  solid_of_balanced (fun _ _ _ _ h hr => h.balanced hr) h hr

theorem lump_plain {c : Char} (hc : Delimiter.ofChar c = .plain) (s : List Char) :
    Grammar.lump (c :: s) = some (if isSpace c = true then none else some s) := by
  rw [Grammar.lump, Input.solid, hc]
  cases isSpace c with
  | true => simp
  | false => simp

theorem Stuck.lump (hr : Stuck r) : Grammar.lump r = some none := by
  obtain ⟨o, hs, ho⟩ := Upto.stop.solid hr
  cases ho
  rw [Grammar.lump.eq_def, hs]
  cases r with
  | nil => rfl
  | cons c r => simp [hr.ne_plain rfl]

theorem lump_literal {q : Quote} {body : List Char} (hb : q.mark ∉ body) (s : List Char) :
    Grammar.lump (q.mark :: (body ++ q.mark :: s)) = some (some s) := by
  rw [Grammar.lump, Input.solid, Delimiter.ofChar_mark]
  simp [quotedBody?_append hb]

theorem lump_bracket (b : Bracket) {inner : List Char} {is : List Token} (hi : Lexed inner is)
    (s : List Char) : Grammar.lump (b.opening :: (inner ++ b.closing :: s)) = some (some s) := by
  have hin := (Upto.append hi (b.closing :: s)).balanced (.closing b s)
  rw [Grammar.lump, Input.solid, Delimiter.ofChar_opening]
  simp [hin, after?_singleton]

theorem Upto.lumps (h : Upto r s ts) (hr : Stuck r) :
    ∃ t, Input.lumps s = some t ∧ Upto r t (readVerbatim ts).2 ∧ s = (readVerbatim ts).1 ++ t := by
  induction h with
  | stop =>
    refine ⟨r, ?_, .stop, rfl⟩
    rw [Input.lumps, hr.lump]
    rfl
  | @plain c s ts hc h ih =>
    rw [Input.lumps, lump_plain hc, readVerbatim]
    cases hs : isSpace c with
    | true => exact ⟨c :: s, rfl, .plain hc h, rfl⟩
    | false =>
      obtain ⟨t, ht, hu, he⟩ := ih
      exact ⟨t, ht, hu, congrArg (c :: ·) he⟩
  | literal q hb h ih =>
    obtain ⟨t, ht, hu, he⟩ := ih
    refine ⟨t, ?_, hu, ?_⟩
    · rw [Input.lumps, lump_literal hb]
      exact ht
    · rw [readVerbatim, he]
      · simp [Token.source]
      · intro c hc
        cases hc
  | bracket b hi h ih =>
    obtain ⟨t, ht, hu, he⟩ := ih
    refine ⟨t, ?_, hu, ?_⟩
    · rw [Input.lumps, lump_bracket b hi]
      exact ht
    · rw [readVerbatim, he]
      · simp [Token.source]
      · intro c hc
        cases hc

theorem Upto.verbatim {t : Token} (h : Upto r s (t :: ts)) (hr : Stuck r)
    (hs : ∀ c, t = .char c → isSpace c = false) :
    ∃ rest, Grammar.verbatim s = some (some ((readVerbatim (t :: ts)).1, rest)) ∧
      Upto r rest (readVerbatim (t :: ts)).2 := by
  have hlump : ∃ more, Grammar.lump s = some (some more) := by
    cases h with
    | @plain c s _ hc h => exact ⟨s, by rw [lump_plain hc, hs c rfl]; rfl⟩
    | literal q hb h => exact ⟨_, lump_literal hb _⟩
    | bracket b hi h => exact ⟨_, lump_bracket b hi _⟩
  obtain ⟨more, hm⟩ := hlump
  obtain ⟨rest, hl, hu, he⟩ := h.lumps hr
  rw [Input.lumps, hm] at hl
  have hmore : Input.lumps more = some rest := hl
  have htake : s.take (s.length - rest.length) = (readVerbatim (t :: ts)).1 := by
    rw [he]
    simp
  refine ⟨rest, ?_, hu⟩
  rw [Grammar.verbatim, hm]
  simp only [Option.bind_eq_bind, Option.bind_some, hmore, htake]
  rfl

theorem Stuck.verbatim (hr : Stuck r) : Grammar.verbatim r = some none := by
  rw [Grammar.verbatim, hr.lump]
  rfl

theorem Upto.numberCall (h : Upto r s ts) (hr : Stuck r) :
    ∃ o, Grammar.numberCall s = some o ∧ Option.Rel (Upto r) o (afterNumberCall? ts) := by
  rw [Grammar.numberCall, afterNumberCall?]
  rcases rel_cases (h.after? hr ['n', 'u', 'm', 'b', 'e', 'r'] rfl) with
    ⟨hs, ht⟩ | ⟨s', ts', hs, ht, h'⟩
  · rw [hs, ht]
    exact ⟨none, rfl, .none⟩
  rw [hs, ht]
  simp only [Option.bind_eq_bind, Option.bind_some]
  rcases h'.opening hr .round with ⟨hs, ht⟩ | ⟨t, r', is, hs, _, hu, hr', hrel⟩
  · rw [Bracket.opening] at hs
    rw [hs, ht]
    exact ⟨none, rfl, .none⟩
  · rw [Bracket.opening] at hs
    rw [hs]
    simp only [hu.balanced hr', Option.bind_some]
    refine ⟨_, rfl, ?_⟩
    have hm := rel_map hrel (f := (·.2)) (g := (·.2)) (S := Upto r) fun _ _ h => h.2
    simpa [Function.comp_def, Bracket.closing] using hm

theorem Upto.orderTest (h : Upto r s ts) (hr : Stuck r) :
    ∃ o, Grammar.orderTest s = some o ∧ Option.Rel (Upto r) o (afterOrderTest? ts) := by
  rw [Grammar.orderTest, afterOrderTest?]
  obtain ⟨o, ho, hrel⟩ := h.numberCall hr
  rw [ho]
  rcases rel_cases hrel with ⟨rfl, ht⟩ | ⟨s', ts', rfl, ht, h'⟩
  · rw [ht]
    exact ⟨none, rfl, .none⟩
  rw [ht]
  simp only [Option.bind_eq_bind, Option.bind_some]
  rcases rel_cases ((h'.skip hr).comparison? hr) with ⟨hs, ht⟩ | ⟨⟨op, t⟩, ⟨_, us⟩, hs, ht, rfl, hu⟩
  · rw [hs, ht]
    exact ⟨none, rfl, .none⟩
  · rw [hs, ht]
    exact (hu.skip hr).numberCall hr

end TreebankSearch.Pattern

import TreebankSearch.Proofs.Pattern.Lexed

/-!
# Places in a text

From every place a text has tokens up to the first place where it has none: its end, a bracket that
closes there, a literal that is never closed, or a bracket that is not closed properly. What a rule of
the grammar does at a place is settled by the tokens up to there, since no rule gets beyond it.
-/

namespace TreebankSearch.Pattern

inductive Upto (r : List Char) : List Char → List Token → Prop
  | stop : Upto r r []
  | plain {c : Char} {s : List Char} {ts : List Token} :
      Delimiter.ofChar c = .plain → Upto r s ts → Upto r (c :: s) (.char c :: ts)
  | literal (q : Quote) {body s : List Char} {ts : List Token} :
      q.mark ∉ body → Upto r s ts →
      Upto r (q.mark :: (body ++ q.mark :: s)) (.quoted q body :: ts)
  | bracket (b : Bracket) {inner s : List Char} {is ts : List Token} :
      Lexed inner is → Upto r s ts →
      Upto r (b.opening :: (inner ++ b.closing :: s)) (.enclosed b inner (readTerms is) :: ts)

inductive Stuck : List Char → Prop
  | nil : Stuck []
  | closing (b : Bracket) (s : List Char) : Stuck (b.closing :: s)
  | literal (q : Quote) {s : List Char} : q.mark ∉ s → Stuck (q.mark :: s)
  | bracket (b : Bracket) {s r : List Char} {ts : List Token} :
      Upto r s ts → Stuck r → (∀ rest, r ≠ b.closing :: rest) → Stuck (b.opening :: s)

variable {r s : List Char} {ts : List Token}

theorem Upto.append {a : List Char} (ha : Lexed a ts) (r : List Char) : Upto r (a ++ r) ts := by
  induction ha with
  | nil => exact .stop
  | plain hc _ ih => exact .plain hc ih
  | literal q hb _ ih => simpa using ih.literal q hb
  | bracket b hi _ _ ih => simpa using Upto.bracket b hi ih

theorem Upto.lexed (h : Upto r s ts) : ∃ a, s = a ++ r ∧ Lexed a ts := by
  induction h with
  | stop => exact ⟨[], rfl, .nil⟩
  | plain hc _ ih =>
    obtain ⟨a, rfl, ha⟩ := ih
    exact ⟨_, rfl, .plain hc ha⟩
  | literal q hb _ ih =>
    obtain ⟨a, rfl, ha⟩ := ih
    exact ⟨_, by simp, .literal q hb ha⟩
  | bracket b hi _ ih =>
    obtain ⟨a, rfl, ha⟩ := ih
    exact ⟨_, by simp, hi.bracket b ha⟩

theorem Upto.source (h : Upto r s ts) : s = ts.flatMap Token.source ++ r := by
  induction h with
  | stop => rfl
  | plain _ _ ih => rw [ih]; rfl
  | literal _ _ _ ih => rw [ih]; simp [Token.source]
  | bracket _ _ _ ih => rw [ih]; simp [Token.source]

theorem Upto.eq_of_nil (h : Upto r s []) : s = r := h.source

theorem Upto.length_le {t : List Char} {us : List Token} (h : Upto r s ts) (ht : Upto r t us)
    (hs : us <:+ ts) : t.length ≤ s.length := by
  obtain ⟨front, rfl⟩ := hs
  rw [h.source, ht.source, List.flatMap_append]
  simp only [List.length_append]
  omega

/-- Every text has tokens up to a place where none starts. -/
theorem exists_upto (s : List Char) : ∃ r ts, Upto r s ts ∧ Stuck r := by
  induction hn : s.length using Nat.strongRecOn generalizing s with
  | ind n ih =>
    subst hn
    cases s with
    | nil => exact ⟨[], [], .stop, .nil⟩
    | cons c s =>
      cases hc : Delimiter.ofChar c with
      | plain =>
        obtain ⟨r, ts, h, hr⟩ := ih s.length (Nat.lt_succ_self _) s rfl
        exact ⟨r, _, .plain hc h, hr⟩
      | closing b =>
        rw [Delimiter.eq_closing_of_ofChar hc]
        exact ⟨_, [], .stop, .closing b s⟩
      | quote q =>
        rw [Delimiter.eq_mark_of_ofChar hc]
        by_cases hm : q.mark ∈ s
        · obtain ⟨body, rest, rfl, hb⟩ := List.eq_append_cons_of_mem hm
          obtain ⟨r, ts, h, hr⟩ := ih rest.length (by simp; omega) rest rfl
          exact ⟨r, _, h.literal q hb, hr⟩
        · exact ⟨_, [], .stop, .literal q hm⟩
      | opening b =>
        rw [Delimiter.eq_opening_of_ofChar hc]
        -- the bracket holds what comes up to the first place where no token starts, if it closes there
        obtain ⟨r, is, h, hr⟩ := ih s.length (Nat.lt_succ_self _) s rfl
        by_cases hb : ∃ rest, r = b.closing :: rest
        · obtain ⟨rest, rfl⟩ := hb
          obtain ⟨inner, rfl, hi⟩ := h.lexed
          obtain ⟨r, ts, h, hr⟩ := ih rest.length (by simp; omega) rest rfl
          exact ⟨r, _, h.bracket b hi, hr⟩
        · exact ⟨_, [], .stop, .bracket b h hr fun rest he => hb ⟨rest, he⟩⟩

theorem Stuck.ne_plain (h : Stuck r) {c : Char} {rest : List Char} (he : r = c :: rest) :
    Delimiter.ofChar c ≠ .plain := by
  cases h with
  | nil => cases he
  | closing b => cases he; exact Delimiter.closing_ne_plain b
  | literal q => cases he; exact Delimiter.mark_ne_plain q
  | bracket b => cases he; exact Delimiter.opening_ne_plain b

end TreebankSearch.Pattern

import TreebankSearch.Proofs.Pattern.Lexed

/-!
# Faults inside of brackets

The content of a bracket can always be read. The only fault it can have is a `count` that is too large,
and this fault names digits that stand in the text.
-/

namespace TreebankSearch.Pattern

def Fault (s : List Char) (error : PatternError) : Prop :=
  ∃ digits, error = .countTooLarge (String.ofList digits) ∧ digits <:+: s ∧
    (∀ c ∈ digits, c.isDigit = true) ∧ UInt64.size ≤ Nat.ofDigitChars 10 digits 0

/-- All that can be wrong with a result is a number in `s`. -/
def Faults {α : Type} (s : List Char) (result : Except PatternError α) : Prop :=
  ∀ error, result = .error error → Fault s error

structure Within (s : List Char) (ts : List Token) : Prop where
  run : ∀ run rest, run.map .char ++ rest <:+ ts → run <:+: s
  terms : ∀ b inner terms, .enclosed b inner terms ∈ ts → Faults s terms

variable {s : List Char} {ts rest : List Token}

theorem Within.suffix (h : Within s ts) (hs : rest <:+ ts) : Within s rest :=
  ⟨fun run more hr => h.run run more (hr.trans hs),
    fun b inner terms hm => h.terms b inner terms (hs.subset hm)⟩

theorem Fault.mono {t : List Char} (h : s <:+: t) {error : PatternError} (hf : Fault s error) :
    Fault t error := by
  obtain ⟨digits, he, hd, hc, hl⟩ := hf
  exact ⟨digits, he, hd.trans h, hc, hl⟩

theorem faults_ok {α : Type} (s : List Char) (a : α) : Faults s (.ok a) := fun _ h => by cases h

theorem Faults.map {α β : Type} {r : Except PatternError α} (h : Faults s r) (f : α → β) :
    Faults s (r.map f) := by
  cases r with
  | ok a => exact faults_ok s (f a)
  | error error =>
    intro e he
    cases he
    exact h error rfl

theorem Faults.bind {α β : Type} {r : Except PatternError α} (h : Faults s r)
    {f : α → Except PatternError β} (hf : ∀ a, Faults s (f a)) : Faults s (r >>= f) := by
  cases r with
  | ok a => exact hf a
  | error error =>
    intro e he
    cases he
    exact h error rfl

theorem faults_readBrackets (h : Within s ts) : Faults s (readBrackets ts).1 := by
  fun_induction readBrackets ts with
  | case1 c ts hc ih => exact ih (h.suffix (List.suffix_cons _ _))
  | case2 => exact faults_ok s []
  | case3 inner terms ts more rest heq ih =>
    have hm := ih (h.suffix (List.suffix_cons _ _))
    rw [heq] at hm
    exact (h.terms _ _ _ List.mem_cons_self).bind fun a => hm.bind fun b => faults_ok s (a :: b)
  | case4 => exact faults_ok s []

theorem faults_nodeTest? (h : Within s ts) {node : Except PatternError NodeTest}
    (hn : nodeTest? ts = some (node, rest)) : Faults s node := by
  obtain ⟨ts₁, h₁, hn⟩ := Option.bind_eq_some_iff.1 hn
  cases hn
  exact (faults_readBrackets (h.suffix (after_of_afterKeyword? h₁ (by decide)).1)).map _

theorem faults_readCount {digits : List Char} (hd : digits <:+: s)
    (hc : ∀ c ∈ digits, c.isDigit = true) : Faults s (readCount digits) := by
  intro error he
  unfold readCount at he
  simp only at he
  split at he
  · cases he
  · next hl =>
    cases he
    exact ⟨digits, rfl, hd, hc, Nat.lt_of_not_le hl⟩

theorem faults_readEnclosed? (h : Within s ts) {b : Bracket} {terms : Except PatternError (List Term)}
    (he : readEnclosed? b ts = some (terms, rest)) : Faults s terms := by
  obtain ⟨inner, rfl⟩ := eq_of_readEnclosed? he
  exact h.terms b inner terms List.mem_cons_self

theorem faults_countTest? (h : Within s ts) {term : Except PatternError Term}
    (hn : countTest? ts = some (term, rest)) : Faults s term := by
  obtain ⟨ts₁, h₁, hn⟩ := Option.bind_eq_some_iff.1 hn
  obtain ⟨⟨terms, ts₂⟩, h₂, hn⟩ := Option.bind_eq_some_iff.1 hn
  obtain ⟨brackets, _, hn⟩ := Option.bind_eq_some_iff.1 hn
  obtain ⟨⟨digits, ts₃⟩, h₃, hn⟩ := Option.bind_eq_some_iff.1 hn
  obtain ⟨ts₄, h₄, hrun⟩ := Option.bind_eq_some_iff.1 h₃
  cases hn
  have hs₁ := (after_of_afterWord? h₁ (by decide)).1
  have hs₂ := ((after_of_readEnclosed? h₂).1.trans (suffix_skipSpace ts₁)).trans hs₁
  have hs₄ := ((after_of_afterWord? h₄ (by decide)).1.trans (suffix_skipSpace ts₂)).trans hs₂
  obtain ⟨ht, hc, _⟩ := eq_of_readRun? hrun
  have hs := (suffix_skipSpace ts₄).trans hs₄
  rw [ht] at hs
  exact (faults_readCount (h.run _ _ hs) hc).map _

theorem faults_group? (h : Within s ts) {term : Except PatternError Term}
    (hn : group? ts = some (term, rest)) : Faults s term := by
  obtain ⟨⟨terms, more⟩, hr, he⟩ := Option.map_eq_some_iff.1 hn
  cases he
  refine (faults_readEnclosed? (h.suffix ((suffix_skipSpace _).trans ?_)) hr).map _
  split
  · next hf => exact (after_of_readFunctionName? hf).1
  · exact List.suffix_rfl

theorem faults_readTerm (h : Within s ts) : Faults s (readTerm ts).1 := by
  unfold readTerm
  split
  · exact faults_ok s _
  split
  · next heq => exact faults_countTest? h heq
  split
  · exact faults_ok s _
  split
  · next heq => exact (faults_nodeTest? h heq).map _
  split
  · exact faults_ok s _
  split
  · next heq => exact faults_group? h heq
  exact faults_ok s _

theorem faults_readTerms (n : Nat) {ts : List Token} (h : Within s ts) (hn : ts.length = n) :
    Faults s (readTerms ts) := by
  induction n using Nat.strongRecOn generalizing ts with
  | ind n ih =>
    cases hs : skipSpace ts with
    | nil =>
      rw [readTerms_of_nil hs]
      exact faults_ok s []
    | cons t rest =>
      rw [readTerms_of_cons hs]
      have hw := suffix_skipSpace ts
      rw [hs] at hw
      have ha := after_readTerm_skipSpace hs
      have hm := ih _ (hn ▸ ha.2) (h.suffix ha.1) rfl
      exact (faults_readTerm (h.suffix hw)).bind fun a => hm.bind fun b => faults_ok s (a :: b)

theorem Faults.mono {α : Type} {t : List Char} {r : Except PatternError α} (h : s <:+: t)
    (hr : Faults s r) : Faults t r := fun error he => (hr error he).mono h

theorem Lexed.run (h : Lexed s ts) (run : List Char) (rest : List Token)
    (hr : run.map .char ++ rest <:+ ts) : run <:+: s := by
  obtain ⟨before, rfl⟩ := hr
  obtain ⟨s₁, s₂, rfl, _, h₂⟩ := h.of_append
  obtain ⟨s₃, s₄, rfl, h₃, _⟩ := h₂.of_append
  rw [h₃.of_chars]
  exact ⟨s₁, s₄, by simp⟩

theorem Lexed.within (h : Lexed s ts) : Within s ts := by
  refine ⟨h.run, ?_⟩
  induction h with
  | nil => exact fun _ _ _ hm => absurd hm List.not_mem_nil
  | plain _ _ ih =>
    intro b inner terms hm
    rcases List.mem_cons.1 hm with hm | hm
    · cases hm
    · exact (ih b inner terms hm).mono (List.suffix_cons _ _).isInfix
  | @literal q body s ts _ _ ih =>
    intro b inner terms hm
    rcases List.mem_cons.1 hm with hm | hm
    · cases hm
    · exact (ih b inner terms hm).mono ⟨q.mark :: (body ++ [q.mark]), [], by simp⟩
  | @bracket b text s is ts hi _ ihi ih =>
    intro b' inner terms hm
    rcases List.mem_cons.1 hm with hm | hm
    · cases hm
      exact (faults_readTerms _ ⟨hi.run, ihi⟩ rfl).mono ⟨[b.opening], b.closing :: s, by simp⟩
    · exact (ih b' inner terms hm).mono ⟨b.opening :: (text ++ [b.closing]), [], by simp⟩

end TreebankSearch.Pattern

import TreebankSearch.Pattern.Grammar

/-!
# Tokens

A text with its literals and brackets taken together: a list of characters, literals, and brackets that
carry the terms they hold. This module has the tokens and the steps over them that all kinds of term
share: a run of characters is cut off where it ends, space is passed over, and a word is found where it
stands.
-/

namespace TreebankSearch.Pattern

inductive Token where
  | char (c : Char)
  | quoted (quote : Quote) (body : List Char)
  | enclosed (bracket : Bracket) (inner : List Char) (terms : Except PatternError (List Term))

def Token.source : Token → List Char
  | .char c => [c]
  | .quoted q body => q.mark :: (body ++ [q.mark])
  | .enclosed b inner _ => b.opening :: (inner ++ [b.closing])

/-- `rest` is what is left of `ts` after one token or more. -/
def After (rest ts : List Token) : Prop := rest <:+ ts ∧ rest.length < ts.length

theorem After.cons (t : Token) {rest ts : List Token} (h : rest <:+ ts) : After rest (t :: ts) :=
  ⟨h.trans (List.suffix_cons t ts), Nat.lt_succ_of_le h.length_le⟩

theorem After.trans_suffix {rest ts us : List Token} (h : After rest ts) (hs : ts <:+ us) :
    After rest us :=
  ⟨h.1.trans hs, Nat.lt_of_lt_of_le h.2 hs.length_le⟩

theorem After.of_suffix {rest ts us : List Token} (hs : rest <:+ ts) (h : After ts us) :
    After rest us :=
  ⟨hs.trans h.1, Nat.lt_of_le_of_lt hs.length_le h.2⟩

def Breaks (p : Char → Bool) (ts : List Token) : Prop :=
  ∀ c rest, ts = .char c :: rest → p c = false

theorem breaks_nil (p : Char → Bool) : Breaks p [] := fun _ _ h => by cases h

theorem breaks_char {p : Char → Bool} {c : Char} (h : p c = false) (ts : List Token) :
    Breaks p (.char c :: ts) := fun _ _ he => by
  cases he
  exact h

theorem breaks_enclosed (p : Char → Bool) (b : Bracket) (inner : List Char)
    (terms : Except PatternError (List Term)) (ts : List Token) :
    Breaks p (.enclosed b inner terms :: ts) := fun _ _ h => by cases h

def spanChars (p : Char → Bool) : List Token → List Char × List Token
  | .char c :: ts =>
    if p c then
      let (run, rest) := spanChars p ts
      (c :: run, rest)
    else ([], .char c :: ts)
  | ts => ([], ts)

theorem suffix_spanChars (p : Char → Bool) (ts : List Token) : (spanChars p ts).2 <:+ ts := by
  fun_induction spanChars p ts with
  | case1 c ts hp run rest heq ih => rw [heq] at ih; exact ih.trans (List.suffix_cons _ _)
  | case2 => exact List.suffix_rfl
  | case3 => exact List.suffix_rfl

theorem eq_of_spanChars {p : Char → Bool} {ts rest : List Token} {run : List Char}
    (h : spanChars p ts = (run, rest)) :
    ts = run.map .char ++ rest ∧ (∀ c ∈ run, p c = true) ∧ Breaks p rest := by
  fun_induction spanChars p ts generalizing run with
  | case1 c ts hp run' more heq ih =>
    cases h
    obtain ⟨ht, hr, hb⟩ := ih heq
    exact ⟨congrArg _ ht, List.forall_mem_cons.2 ⟨hp, hr⟩, hb⟩
  | case2 c ts hp =>
    cases h
    exact ⟨rfl, fun _ hm => absurd hm List.not_mem_nil, breaks_char (by simpa using hp) ts⟩
  | case3 ts hts =>
    cases h
    exact ⟨rfl, fun _ hm => absurd hm List.not_mem_nil, fun c more he => absurd he (hts c more)⟩

theorem spanChars_of_breaks {p : Char → Bool} {ts : List Token} (h : Breaks p ts) :
    spanChars p ts = ([], ts) := by
  unfold spanChars
  split
  · next c ts => rw [if_neg (by simp [h c ts rfl])]
  · rfl

theorem spanChars_append {p : Char → Bool} {run : List Char} (hr : ∀ c ∈ run, p c = true)
    {rest : List Token} (h : Breaks p rest) :
    spanChars p (run.map .char ++ rest) = (run, rest) := by
  induction run with
  | nil => exact spanChars_of_breaks h
  | cons c run ih =>
    obtain ⟨hc, hr⟩ := List.forall_mem_cons.1 hr
    simp only [List.map_cons, List.cons_append, spanChars, hc, ↓reduceIte, ih hr]

def readRun? (p : Char → Bool) (ts : List Token) : Option (List Char × List Token) :=
  if (spanChars p ts).1 = [] then none else some (spanChars p ts)

theorem after_of_readRun? {p : Char → Bool} {ts rest : List Token} {run : List Char}
    (h : readRun? p ts = some (run, rest)) : After rest ts := by
  unfold readRun? at h
  split at h
  · cases h
  · next hne =>
    have he := Option.some.inj h
    rw [he] at hne
    obtain ⟨rfl, _, _⟩ := eq_of_spanChars he
    obtain ⟨c, run, rfl⟩ := List.exists_cons_of_ne_nil hne
    exact .cons _ (List.suffix_append _ _)

theorem eq_of_readRun? {p : Char → Bool} {ts rest : List Token} {run : List Char}
    (h : readRun? p ts = some (run, rest)) :
    ts = run.map .char ++ rest ∧ (∀ c ∈ run, p c = true) ∧ Breaks p rest := by
  unfold readRun? at h
  split at h
  · cases h
  · exact eq_of_spanChars (Option.some.inj h)

theorem readRun?_append {p : Char → Bool} {run : List Char} (hr : ∀ c ∈ run, p c = true)
    (hne : run ≠ []) {rest : List Token} (h : Breaks p rest) :
    readRun? p (run.map .char ++ rest) = some (run, rest) := by
  rw [readRun?, spanChars_append hr h, if_neg hne]

def Spaces (s : List Char) : Prop := ∀ c ∈ s, isSpace c = true

instance (s : List Char) : Decidable (Spaces s) :=
  decidable_of_iff (s.all isSpace = true) List.all_eq_true

theorem ofChar_of_isSpace {c : Char} (h : isSpace c = true) : Delimiter.ofChar c = .plain := by
  simp only [isSpace, Bool.or_eq_true, decide_eq_true_eq] at h
  rcases h with ((rfl | rfl) | rfl) | rfl <;> rfl

theorem isNameChar_of_isSpace {c : Char} (h : isSpace c = true) : isNameChar c = false := by
  simp only [isSpace, Bool.or_eq_true, decide_eq_true_eq] at h
  rcases h with ((rfl | rfl) | rfl) | rfl <;> rfl

def skipSpace (ts : List Token) : List Token := (spanChars isSpace ts).2

theorem suffix_skipSpace (ts : List Token) : skipSpace ts <:+ ts := suffix_spanChars isSpace ts

theorem skipSpace_head {ts rest : List Token} {t : Token} (h : skipSpace ts = t :: rest) :
    ∀ c, t = .char c → isSpace c = false := by
  unfold skipSpace at h
  fun_induction spanChars isSpace ts with
  | case1 c ts hc run more heq ih => exact ih (by simpa [heq] using h)
  | case2 c ts hc => cases h; rintro _ ⟨⟩; simpa using hc
  | case3 ts hts =>
    rintro c rfl
    exact absurd h (hts c rest)

theorem breaks_skipSpace (ts : List Token) : Breaks isSpace (skipSpace ts) := by
  have h : spanChars isSpace ts = ((spanChars isSpace ts).1, skipSpace ts) := rfl
  exact (eq_of_spanChars h).2.2

theorem eq_skipSpace (ts : List Token) : ∃ s, Spaces s ∧ ts = s.map .char ++ skipSpace ts := by
  have h : spanChars isSpace ts = ((spanChars isSpace ts).1, skipSpace ts) := rfl
  obtain ⟨ht, hs, _⟩ := eq_of_spanChars h
  exact ⟨_, hs, ht⟩

theorem skipSpace_of_breaks {ts : List Token} (h : Breaks isSpace ts) : skipSpace ts = ts := by
  rw [skipSpace, spanChars_of_breaks h]

theorem skipSpace_skipSpace (ts : List Token) : skipSpace (skipSpace ts) = skipSpace ts :=
  skipSpace_of_breaks (breaks_skipSpace ts)

theorem skipSpace_append {s : List Char} (hs : Spaces s) (ts : List Token) :
    skipSpace (s.map .char ++ ts) = skipSpace ts := by
  induction s with
  | nil => rfl
  | cons c s ih =>
    obtain ⟨hc, hs⟩ := List.forall_mem_cons.1 hs
    have h := ih hs
    simp only [skipSpace] at h ⊢
    simp only [List.map_cons, List.cons_append, spanChars, hc, ↓reduceIte, h]

theorem skipSpace_spaces {s : List Char} (hs : Spaces s) : skipSpace (s.map .char) = [] := by
  have h := skipSpace_append hs []
  rwa [List.append_nil] at h

theorem breaks_spaces {p : Char → Bool}
    (hp : p ' ' = false ∧ p '\t' = false ∧ p '\r' = false ∧ p '\n' = false) {gap : List Char}
    (hg : Spaces gap) {rest : List Token} (hr : Breaks p rest) : Breaks p (gap.map .char ++ rest) := by
  cases gap with
  | nil => exact hr
  | cons c gap =>
    refine breaks_char ?_ _
    have hc := hg c List.mem_cons_self
    simp only [isSpace, Bool.or_eq_true, decide_eq_true_eq] at hc
    obtain ⟨h₁, h₂, h₃, h₄⟩ := hp
    rcases hc with ((rfl | rfl) | rfl) | rfl
    · exact h₁
    · exact h₂
    · exact h₃
    · exact h₄

def afterWord? : List Char → List Token → Option (List Token)
  | [], ts => some ts
  | c :: w, .char d :: ts => if c = d then afterWord? w ts else none
  | _ :: _, _ => none

theorem eq_of_afterWord? {w : List Char} {ts rest : List Token} (h : afterWord? w ts = some rest) :
    ts = w.map .char ++ rest := by
  fun_induction afterWord? w ts with
  | case1 => cases h; rfl
  | case2 w d ts ih => rw [ih h]; rfl
  | case3 => cases h
  | case4 => cases h

theorem after_of_afterWord? {w : List Char} {ts rest : List Token}
    (h : afterWord? w ts = some rest) (hw : w ≠ []) : After rest ts := by
  rw [eq_of_afterWord? h]
  obtain ⟨c, w, rfl⟩ := List.exists_cons_of_ne_nil hw
  exact .cons _ (List.suffix_append _ _)

theorem afterWord?_append (w : List Char) (ts : List Token) :
    afterWord? w (w.map .char ++ ts) = some ts := by
  induction w with
  | nil => rfl
  | cons c w ih => simp only [List.map_cons, List.cons_append, afterWord?, ↓reduceIte, ih]

theorem ofChar_of_isNameChar {c : Char} (h : isNameChar c = true) : Delimiter.ofChar c = .plain := by
  unfold Delimiter.ofChar
  split <;> first | rfl | exact absurd h (by decide)

def startsWithName : List Token → Bool
  | .char c :: _ => isNameChar c
  | _ => false

theorem startsWithName_eq_false_iff {ts : List Token} :
    startsWithName ts = false ↔ Breaks isNameChar ts := by
  unfold startsWithName
  split
  · exact ⟨fun h => breaks_char h _, fun h => h _ _ rfl⟩
  · next ts hts => exact ⟨fun _ c rest he => absurd he (hts c rest), fun _ => rfl⟩

def afterKeyword? (w : List Char) (ts : List Token) : Option (List Token) :=
  (afterWord? w ts).filter fun rest => !startsWithName rest

theorem after_of_afterKeyword? {w : List Char} {ts rest : List Token}
    (h : afterKeyword? w ts = some rest) (hw : w ≠ []) : After rest ts :=
  after_of_afterWord? (Option.filter_eq_some_iff.1 h).1 hw

theorem eq_of_afterKeyword? {w : List Char} {ts rest : List Token}
    (h : afterKeyword? w ts = some rest) : ts = w.map .char ++ rest ∧ Breaks isNameChar rest := by
  obtain ⟨hw, hn⟩ := Option.filter_eq_some_iff.1 h
  exact ⟨eq_of_afterWord? hw, startsWithName_eq_false_iff.1 (by simpa using hn)⟩

theorem afterKeyword?_append (w : List Char) {ts : List Token} (h : Breaks isNameChar ts) :
    afterKeyword? w (w.map .char ++ ts) = some ts := by
  rw [afterKeyword?, afterWord?_append, Option.filter_some,
    startsWithName_eq_false_iff.2 h]
  rfl

end TreebankSearch.Pattern

import TreebankSearch.Proofs.Pattern.Position

/-!
# Nesting

The structure of a text as it is seen by a machine that reads one character at a time and knows which
literal it is in and which brackets are open. The machine can start anywhere, also in the middle of a
literal, so that parts of a text can be compared that are cut off without regard to its structure. A text
is balanced just if it takes the machine from outside of everything back there.
-/

namespace TreebankSearch.Pattern

/-- The literal that a place of a text is in, and the brackets open around it, innermost first. -/
structure Context where
  literal : Option Quote
  brackets : List Bracket
  deriving Repr, DecidableEq

namespace Context

def outside : Context := ⟨none, []⟩

def step (k : Context) (c : Char) : Option Context :=
  match k.literal, Delimiter.ofChar c with
  | some q, .quote q' => some ⟨if q' = q then none else some q, k.brackets⟩
  | some _, _ => some k
  | none, .quote q => some ⟨some q, k.brackets⟩
  | none, .opening b => some ⟨none, b :: k.brackets⟩
  | none, .closing b => if k.brackets.head? = some b then some ⟨none, k.brackets.tail⟩ else none
  | none, .plain => some k

def scan (k : Context) (s : List Char) : Option Context := s.foldlM step k

theorem scan_cons (k : Context) (c : Char) (s : List Char) :
    k.scan (c :: s) = (k.step c).bind (·.scan s) := List.foldlM_cons

theorem scan_append (k : Context) (s t : List Char) :
    k.scan (s ++ t) = (k.scan s).bind (·.scan t) := List.foldlM_append

theorem step_plain (k : Context) {c : Char} (hc : Delimiter.ofChar c = .plain) :
    k.step c = some k := by
  rw [step, hc]
  cases k.literal <;> rfl

theorem step_inside {q : Quote} {c : Char} (hc : c ≠ q.mark) (bs : List Bracket) :
    step ⟨some q, bs⟩ c = some ⟨some q, bs⟩ := by
  unfold step
  split
  · next q₁ q₂ hq hd =>
    cases hq
    rw [if_neg]
    rintro rfl
    exact hc (Delimiter.eq_mark_of_ofChar hd)
  all_goals simp_all

theorem step_mark (q : Quote) (bs : List Bracket) : step ⟨none, bs⟩ q.mark = some ⟨some q, bs⟩ := by
  rw [step, Delimiter.ofChar_mark]

theorem step_mark_inside (q : Quote) (bs : List Bracket) :
    step ⟨some q, bs⟩ q.mark = some ⟨none, bs⟩ := by
  simp only [step, Delimiter.ofChar_mark, ↓reduceIte]

theorem step_opening (b : Bracket) (bs : List Bracket) :
    step ⟨none, bs⟩ b.opening = some ⟨none, b :: bs⟩ := by
  rw [step, Delimiter.ofChar_opening]

theorem step_closing (b : Bracket) (bs : List Bracket) :
    step ⟨none, bs⟩ b.closing = if bs.head? = some b then some ⟨none, bs.tail⟩ else none := by
  rw [step, Delimiter.ofChar_closing]

theorem scan_inside {q : Quote} {body : List Char} (hb : q.mark ∉ body) (bs : List Bracket) :
    scan ⟨some q, bs⟩ body = some ⟨some q, bs⟩ := by
  induction body with
  | nil => rfl
  | cons c body ih =>
    rw [List.mem_cons, not_or] at hb
    rw [scan_cons, step_inside (Ne.symm hb.1)]
    exact ih hb.2

end Context

open Context

theorem Balanced.scan {s : List Char} (h : Balanced s) (bs : List Bracket) :
    Context.scan ⟨none, bs⟩ s = some ⟨none, bs⟩ := by
  induction h generalizing bs with
  | nil => rfl
  | plain hc _ ih =>
    rw [scan_cons, step_plain _ hc]
    exact ih bs
  | literal q hb _ ih =>
    rw [scan_cons, step_mark, Option.bind_some, scan_append, scan_inside hb, Option.bind_some,
      scan_cons, step_mark_inside]
    exact ih bs
  | bracket b _ _ ihi ih =>
    rw [scan_cons, step_opening, Option.bind_some, scan_append, ihi, Option.bind_some, scan_cons,
      step_closing, if_pos List.head?_cons]
    exact ih bs

/-- Where no token starts, the text is at its end or closes the innermost bracket, if it is to lead out of
all brackets. -/
theorem Stuck.of_scan {r : List Char} (hr : Stuck r) {bs : List Bracket}
    (h : Context.scan ⟨none, bs⟩ r = some outside) :
    r = [] ∧ bs = [] ∨ ∃ b rest, bs.head? = some b ∧ r = b.closing :: rest := by
  induction hr generalizing bs with
  | nil =>
    cases h
    exact .inl ⟨rfl, rfl⟩
  | closing b s =>
    rw [scan_cons, step_closing] at h
    split at h
    · next hb => exact .inr ⟨b, s, hb, rfl⟩
    · cases h
  | literal q hq =>
    rw [scan_cons, step_mark, Option.bind_some, scan_inside hq] at h
    cases h
  | @bracket b s r ts hu _ hne ih =>
    obtain ⟨a, rfl, ha⟩ := hu.lexed
    rw [scan_cons, step_opening, Option.bind_some, scan_append, ha.balanced.scan] at h
    rcases ih h with ⟨_, hnil⟩ | ⟨b', rest, hb, rfl⟩
    · cases hnil
    · cases hb
      exact absurd rfl (hne rest)

theorem balanced_iff_scan {s : List Char} : Balanced s ↔ outside.scan s = some outside := by
  constructor
  · exact fun h => h.scan []
  · intro h
    obtain ⟨r, ts, hu, hr⟩ := exists_upto s
    obtain ⟨a, rfl, ha⟩ := hu.lexed
    have hend : outside.scan r = some outside := by
      rw [scan_append, outside, ha.balanced.scan] at h
      exact h
    rcases hr.of_scan hend with ⟨rfl, _⟩ | ⟨b, _, hb, _⟩
    · rw [List.append_nil]
      exact ha.balanced
    · cases hb

theorem scan_opening_ne_outside (k : Context) (s : List Char) (b : Bracket) :
    k.scan (s ++ [b.opening]) ≠ some outside := by
  rw [scan_append]
  intro h
  obtain ⟨⟨literal, bs⟩, _, h⟩ := Option.bind_eq_some_iff.1 h
  cases literal with
  | none =>
    rw [scan_cons, step_opening] at h
    cases h
  | some q =>
    have hc : b.opening ≠ q.mark := by cases b <;> cases q <;> decide
    rw [scan_cons, step_inside hc] at h
    cases h

/-- From every context the two texts lead to the same context. -/
def Alike (s t : List Char) : Prop := ∀ k : Context, k.scan s = k.scan t

namespace Alike

variable {s t u v : List Char}

theorem refl (s : List Char) : Alike s s := fun _ => rfl

theorem symm (h : Alike s t) : Alike t s := fun k => (h k).symm

theorem trans (h : Alike s t) (h' : Alike t u) : Alike s u := fun k => (h k).trans (h' k)

theorem append (h : Alike s t) (h' : Alike u v) : Alike (s ++ u) (t ++ v) := fun k => by
  rw [scan_append, scan_append, h k]
  exact congrArg _ (funext h')

theorem cons (c : Char) (h : Alike s t) : Alike (c :: s) (c :: t) := (refl [c]).append h

theorem balanced_iff (h : Alike s t) : Balanced s ↔ Balanced t := by
  rw [balanced_iff_scan, balanced_iff_scan, h]

end Alike

theorem alike_nil_of_plain {s : List Char} (h : ∀ c ∈ s, Delimiter.ofChar c = .plain) :
    Alike s [] := by
  intro k
  induction s with
  | nil => rfl
  | cons c s ih =>
    obtain ⟨hc, hs⟩ := List.forall_mem_cons.1 h
    rw [scan_cons, step_plain k hc]
    exact ih hs

/-- The closing bracket finds the one that was opened, unless both stand in a literal. -/
theorem alike_nil_of_bracketed {b : Bracket} {inner : List Char}
    (h : ∀ c ∈ inner, Delimiter.ofChar c = .plain) :
    Alike (b.opening :: (inner ++ [b.closing])) [] := by
  have hempty : Alike ([b.opening] ++ ([] ++ [b.closing])) [] := by
    rintro ⟨literal, bs⟩
    cases literal with
    | none =>
      rw [List.nil_append, List.cons_append, List.nil_append, scan_cons, step_opening,
        Option.bind_some, scan_cons, step_closing, if_pos List.head?_cons]
      rfl
    | some q =>
      cases b <;> cases q <;> rfl
  exact ((Alike.refl [b.opening]).append ((alike_nil_of_plain h).append (.refl _))).trans hempty

theorem alike_nil_of_quoted {q : Quote} {body : List Char}
    (h : ∀ c ∈ body, Delimiter.ofChar c = .plain) : Alike (q.mark :: (body ++ [q.mark])) [] := by
  have hmarks : Alike ([q.mark] ++ ([] ++ [q.mark])) [] := by
    rintro ⟨literal, bs⟩
    cases literal with
    | none =>
      rw [List.nil_append, List.cons_append, List.nil_append, scan_cons, step_mark, Option.bind_some,
        scan_cons, step_mark_inside]
      rfl
    | some q' =>
      cases q <;> cases q' <;> rfl
  exact ((Alike.refl [q.mark]).append ((alike_nil_of_plain h).append (.refl _))).trans hmarks

end TreebankSearch.Pattern

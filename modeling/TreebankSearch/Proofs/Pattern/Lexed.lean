import TreebankSearch.Proofs.Pattern.Reader

/-!
# Texts and their tokens

Which texts a list of tokens stands for. The relation follows the text from left to right, one plain
character, literal or bracket at a time. A text has tokens just if its brackets nest and its literals are
closed.
-/

namespace TreebankSearch.Pattern

/-- Text in which brackets nest and every quote outside of a literal opens one that is closed. -/
inductive Balanced : List Char → Prop
  | nil : Balanced []
  | plain {c : Char} {s : List Char} :
      Delimiter.ofChar c = .plain → Balanced s → Balanced (c :: s)
  | literal (q : Quote) {body s : List Char} :
      q.mark ∉ body → Balanced s → Balanced (q.mark :: (body ++ q.mark :: s))
  | bracket (b : Bracket) {inner s : List Char} :
      Balanced inner → Balanced s → Balanced (b.opening :: (inner ++ b.closing :: s))

inductive Lexed : List Char → List Token → Prop
  | nil : Lexed [] []
  | plain {c : Char} {s : List Char} {ts : List Token} :
      Delimiter.ofChar c = .plain → Lexed s ts → Lexed (c :: s) (.char c :: ts)
  | literal (q : Quote) {body s : List Char} {ts : List Token} :
      q.mark ∉ body → Lexed s ts → Lexed (q.mark :: (body ++ q.mark :: s)) (.quoted q body :: ts)
  | bracket (b : Bracket) {inner s : List Char} {is ts : List Token} :
      Lexed inner is → Lexed s ts →
      Lexed (b.opening :: (inner ++ b.closing :: s)) (.enclosed b inner (readTerms is) :: ts)

theorem Lexed.balanced {s : List Char} {ts : List Token} (h : Lexed s ts) : Balanced s := by
  induction h with
  | nil => exact .nil
  | plain hc _ ih => exact .plain hc ih
  | literal q hb _ ih => exact .literal q hb ih
  | bracket b _ _ ihi ih => exact .bracket b ihi ih

theorem Balanced.lexed {s : List Char} (h : Balanced s) : ∃ ts, Lexed s ts := by
  induction h with
  | nil => exact ⟨_, .nil⟩
  | plain hc _ ih => exact ih.imp' _ fun _ => .plain hc
  | literal q hb _ ih => exact ih.imp' _ fun _ => .literal q hb
  | bracket b _ _ ihi ih =>
    obtain ⟨is, hi⟩ := ihi
    exact ih.imp' _ fun _ => .bracket b hi

theorem Lexed.append {s t : List Char} {ts us : List Token} (hs : Lexed s ts) (ht : Lexed t us) :
    Lexed (s ++ t) (ts ++ us) := by
  induction hs with
  | nil => exact ht
  | plain hc _ ih => exact .plain hc ih
  | literal q hb _ ih => simpa using ih.literal q hb
  | bracket b hi _ _ ih => simpa using hi.bracket b ih

theorem Lexed.chars {cs : List Char} (h : ∀ c ∈ cs, Delimiter.ofChar c = .plain) :
    Lexed cs (cs.map .char) := by
  induction cs with
  | nil => exact .nil
  | cons c cs ih =>
    obtain ⟨hc, hcs⟩ := List.forall_mem_cons.1 h
    exact .plain hc (ih hcs)

theorem Lexed.enclosed (b : Bracket) {inner : List Char} {is : List Token} (h : Lexed inner is) :
    Lexed (b.opening :: (inner ++ [b.closing])) [.enclosed b inner (readTerms is)] :=
  h.bracket b .nil

theorem Lexed.quoted (q : Quote) {body : List Char} (h : q.mark ∉ body) :
    Lexed (q.mark :: (body ++ [q.mark])) [.quoted q body] :=
  .literal q h .nil

theorem plain_of_all {cs : List Char} (h : (cs.all fun c => Delimiter.ofChar c = .plain) = true) :
    ∀ c ∈ cs, Delimiter.ofChar c = .plain :=
  fun c hc => of_decide_eq_true (List.all_eq_true.1 h c hc)

theorem Balanced.chars {cs : List Char} (h : ∀ c ∈ cs, Delimiter.ofChar c = .plain) : Balanced cs :=
  (Lexed.chars h).balanced

theorem Balanced.append {s t : List Char} (hs : Balanced s) (ht : Balanced t) :
    Balanced (s ++ t) := by
  obtain ⟨_, hs⟩ := hs.lexed
  obtain ⟨_, ht⟩ := ht.lexed
  exact (hs.append ht).balanced

theorem Lexed.of_append {s : List Char} {ts us : List Token} (h : Lexed s (ts ++ us)) :
    ∃ s₁ s₂, s = s₁ ++ s₂ ∧ Lexed s₁ ts ∧ Lexed s₂ us := by
  induction ts generalizing s with
  | nil => exact ⟨[], s, rfl, .nil, h⟩
  | cons t ts ih =>
    rw [List.cons_append] at h
    cases h with
    | plain hc h =>
      obtain ⟨s₁, s₂, rfl, h₁, h₂⟩ := ih h
      exact ⟨_, s₂, rfl, .plain hc h₁, h₂⟩
    | literal q hb h =>
      obtain ⟨s₁, s₂, rfl, h₁, h₂⟩ := ih h
      exact ⟨_, s₂, by simp, .literal q hb h₁, h₂⟩
    | bracket b hi h =>
      obtain ⟨s₁, s₂, rfl, h₁, h₂⟩ := ih h
      exact ⟨_, s₂, by simp, hi.bracket b h₁, h₂⟩

theorem Lexed.of_chars {s cs : List Char} (h : Lexed s (cs.map .char)) : s = cs := by
  induction cs generalizing s with
  | nil => cases h; rfl
  | cons c cs ih =>
    cases h with
    | plain _ h => rw [ih h]

end TreebankSearch.Pattern

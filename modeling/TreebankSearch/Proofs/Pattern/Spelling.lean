import TreebankSearch.Proofs.Pattern.Accepted

/-!
# Spellings of patterns

The texts that stand for a pattern made of attribute tests, children, counts, order tests and groups,
with connectives between them. Such a pattern has many spellings, which differ in their space and in
the quotes of their literals. Reading takes every one of them back to the pattern.
-/

namespace TreebankSearch.Pattern

def connectiveWord : Connective → List Char
  | .and => ['a', 'n', 'd']
  | .or => ['o', 'r']

def IsName (name : String) : Prop :=
  name.toList ≠ [] ∧ ∀ c ∈ name.toList, isNameChar c = true

instance (name : String) : Decidable (IsName name) :=
  decidable_of_iff (name.toList ≠ [] ∧ name.toList.all isNameChar = true)
    (and_congr_right fun _ => List.all_eq_true)

def IsFunctionName (name : String) : Prop :=
  (∃ c rest, name.toList = c :: rest ∧ c.isAlpha = true ∧ ∀ d ∈ rest, isFunctionChar d = true) ∧
    name.toList ≠ ['a', 'n', 'd'] ∧ name.toList ≠ ['o', 'r'] ∧ name.toList ≠ ['n', 'o', 'd', 'e']

def numberCall : List Char :=
  ['n', 'u', 'm', 'b', 'e', 'r', '(', '@', 'b', 'e', 'g', 'i', 'n', ')']

/-- What has a spelling. -/
inductive Phrase where
  | operand (term : Term)
  | sequence (terms : List Term)
  | content (terms : List Term)
  | brackets (brackets : List (List Term))

/-- The phrases that have a spelling: nothing or operands with connectives between them in every bracket
and group, names that are names, and no literal with both quotes in it. -/
inductive Printable : Phrase → Prop
  | noBrackets : Printable (.brackets [])
  | bracket {terms : List Term} {more : List (List Term)} :
      Printable (.content terms) → Printable (.brackets more) → Printable (.brackets (terms :: more))
  | empty : Printable (.content [])
  | content {terms : List Term} : Printable (.sequence terms) → Printable (.content terms)
  | single {term : Term} : Printable (.operand term) → Printable (.sequence [term])
  | join {term : Term} {terms : List Term} (c : Connective) :
      Printable (.operand term) → Printable (.sequence terms) →
      Printable (.sequence (term :: .connective c :: terms))
  | bare {name : String} : IsName name → Printable (.operand (.attr ⟨name, none⟩))
  | comparison {name value : String} (op : Comparison) (q : Quote) :
      IsName name → q.mark ∉ value.toList →
      Printable (.operand (.attr ⟨name, some (op, value)⟩))
  | child {brackets : List (List Term)} :
      Printable (.brackets brackets) → Printable (.operand (.child brackets))
  | count {brackets : List (List Term)} {n : Nat} :
      Printable (.brackets brackets) → n < UInt64.size → Printable (.operand (.count brackets n))
  | order : Printable (.operand .order)
  | nameless {terms : List Term} :
      Printable (.content terms) → Printable (.operand (.group none terms))
  | named {name : String} {terms : List Term} :
      IsFunctionName name → Printable (.content terms) →
      Printable (.operand (.group (some name) terms))

inductive Spelled : Phrase → List Char → Prop
  | noBrackets : Spelled (.brackets []) []
  | bracket {gap inner s : List Char} {terms : List Term} {more : List (List Term)} :
      Spaces gap → Spelled (.content terms) inner → Spelled (.brackets more) s →
      Spelled (.brackets (terms :: more)) (gap ++ '[' :: (inner ++ ']' :: s))
  | empty {gap : List Char} : Spaces gap → Spelled (.content []) gap
  | content {front back s : List Char} {terms : List Term} :
      Spaces front → Spelled (.sequence terms) s → Spaces back →
      Spelled (.content terms) (front ++ (s ++ back))
  | single {s : List Char} {term : Term} :
      Spelled (.operand term) s → Spelled (.sequence [term]) s
  | join {s before after more : List Char} {term : Term} {terms : List Term} (c : Connective) :
      Spelled (.operand term) s → Spaces before → before ≠ [] → Spaces after → after ≠ [] →
      Spelled (.sequence terms) more →
      Spelled (.sequence (term :: .connective c :: terms))
        (s ++ (before ++ (connectiveWord c ++ (after ++ more))))
  | bare {name : String} :
      IsName name → Spelled (.operand (.attr ⟨name, none⟩)) ('@' :: name.toList)
  | comparison {name value : String} {before after : List Char} (op : Comparison) (q : Quote) :
      IsName name → Spaces before → Spaces after → q.mark ∉ value.toList →
      Spelled (.operand (.attr ⟨name, some (op, value)⟩))
        ('@' :: (name.toList ++ (before ++ (op.symbol.toList ++
          (after ++ (q.mark :: (value.toList ++ [q.mark])))))))
  | child {s : List Char} {brackets : List (List Term)} :
      Spelled (.brackets brackets) s →
      Spelled (.operand (.child brackets)) (['n', 'o', 'd', 'e'] ++ s)
  | count {gap front s back before after : List Char} {brackets : List (List Term)} {n : Nat} :
      Spaces gap → Spaces front → Spelled (.brackets brackets) s → Spaces back → Spaces before →
      Spaces after → n < UInt64.size →
      Spelled (.operand (.count brackets n))
        (['c', 'o', 'u', 'n', 't'] ++ (gap ++ '(' :: (front ++ (['n', 'o', 'd', 'e'] ++ (s ++ back)) ++
          ')' :: (before ++ '>' :: (after ++ Nat.toDigits 10 n)))))
  | order {before after : List Char} :
      Spaces before → Spaces after →
      Spelled (.operand .order) (numberCall ++ (before ++ '<' :: (after ++ numberCall)))
  | nameless {inner : List Char} {terms : List Term} :
      Spelled (.content terms) inner →
      Spelled (.operand (.group none terms)) ('(' :: (inner ++ [')']))
  | named {name : String} {gap inner : List Char} {terms : List Term} :
      IsFunctionName name → Spaces gap → Spelled (.content terms) inner →
      Spelled (.operand (.group (some name) terms))
        (name.toList ++ (gap ++ '(' :: (inner ++ [')'])))

theorem Printable.spelled {phrase : Phrase} (h : Printable phrase) : ∃ s, Spelled phrase s := by
  have none : Spaces [] := by decide
  have one : Spaces [' '] := by decide
  induction h with
  | noBrackets => exact ⟨_, .noBrackets⟩
  | bracket _ _ ihi ih =>
    obtain ⟨inner, hi⟩ := ihi
    obtain ⟨s, hs⟩ := ih
    exact ⟨_, .bracket none hi hs⟩
  | empty => exact ⟨_, .empty none⟩
  | content _ ih =>
    obtain ⟨s, hs⟩ := ih
    exact ⟨_, .content none hs none⟩
  | single _ ih =>
    obtain ⟨s, hs⟩ := ih
    exact ⟨_, .single hs⟩
  | join c _ _ ih ihm =>
    obtain ⟨s, hs⟩ := ih
    obtain ⟨more, hm⟩ := ihm
    exact ⟨_, .join c hs one (List.cons_ne_nil _ _) one (List.cons_ne_nil _ _) hm⟩
  | bare hn => exact ⟨_, .bare hn⟩
  | comparison op q hn hv => exact ⟨_, .comparison op q hn none none hv⟩
  | child _ ih =>
    obtain ⟨s, hs⟩ := ih
    exact ⟨_, .child hs⟩
  | count _ hn ih =>
    obtain ⟨s, hs⟩ := ih
    exact ⟨_, .count none none hs none none none hn⟩
  | order => exact ⟨_, .order none none⟩
  | nameless _ ih =>
    obtain ⟨inner, hi⟩ := ih
    exact ⟨_, .nameless hi⟩
  | named hn _ ih =>
    obtain ⟨inner, hi⟩ := ih
    exact ⟨_, .named hn none hi⟩

def Spells (p : Pattern) (s : List Char) : Prop :=
  ∃ front gap brackets back : List Char, Spaces front ∧ Spaces gap ∧
    Spelled (.brackets p.root.brackets) brackets ∧ Spaces back ∧
    s = front ++ (List.replicate p.slashes '/' ++
      (gap ++ (['n', 'o', 'd', 'e'] ++ (brackets ++ back))))

theorem exists_spells {p : Pattern} (h : Printable (.brackets p.root.brackets)) :
    ∃ s, Spells p s := by
  have none : Spaces [] := by decide
  obtain ⟨brackets, hb⟩ := h.spelled
  exact ⟨_, [], [], brackets, [], none, none, hb, none, rfl⟩

structure Follows (rest : List Token) : Prop where
  gap : rest = [] ∨ ∃ c more, rest = .char c :: more ∧ isSpace c = true
  next : skipSpace rest = [] ∨
    ∃ c more, skipSpace rest = .char c :: more ∧ (c = 'a' ∨ c = 'o')

theorem Follows.breaks {rest : List Token} (h : Follows rest) {p : Char → Bool}
    (hp : p ' ' = false ∧ p '\t' = false ∧ p '\r' = false ∧ p '\n' = false) : Breaks p rest := by
  rcases h.gap with rfl | ⟨c, more, rfl, hc⟩
  · exact breaks_nil p
  · refine breaks_char ?_ more
    simp only [isSpace, Bool.or_eq_true, decide_eq_true_eq] at hc
    obtain ⟨h₁, h₂, h₃, h₄⟩ := hp
    rcases hc with ((rfl | rfl) | rfl) | rfl
    · exact h₁
    · exact h₂
    · exact h₃
    · exact h₄

theorem Follows.breaks_name {rest : List Token} (h : Follows rest) : Breaks isNameChar rest :=
  h.breaks (by decide)

theorem follows_spaces {back : List Char} (h : Spaces back) : Follows (back.map .char) := by
  refine ⟨?_, .inl (skipSpace_spaces h)⟩
  cases back with
  | nil => exact .inl rfl
  | cons c back => exact .inr ⟨c, _, rfl, h c List.mem_cons_self⟩

theorem follows_connective {before : List Char} (h : Spaces before) (hne : before ≠ [])
    (c : Connective) (rest : List Token) :
    Follows (before.map .char ++ ((connectiveWord c).map .char ++ rest)) := by
  refine ⟨?_, ?_⟩
  · cases before with
    | nil => exact absurd rfl hne
    | cons d before => exact .inr ⟨d, _, rfl, h d List.mem_cons_self⟩
  · rw [skipSpace_append h]
    cases c with
    | and =>
      have hb : Breaks isSpace (['a', 'n', 'd'].map .char ++ rest) := breaks_char rfl _
      exact .inr ⟨'a', _, skipSpace_of_breaks hb, .inl rfl⟩
    | or =>
      have hb : Breaks isSpace (['o', 'r'].map .char ++ rest) := breaks_char rfl _
      exact .inr ⟨'o', _, skipSpace_of_breaks hb, .inr rfl⟩

theorem Follows.no_comparison {rest : List Token} (h : Follows rest) :
    readComparison? (skipSpace rest) = none := by
  rcases h.next with hs | ⟨c, more, hs, rfl | rfl⟩ <;> rw [hs] <;> rfl

theorem Follows.no_bound {rest : List Token} (h : Follows rest) :
    readBound? (skipSpace rest) = none := by
  rcases h.next with hs | ⟨c, more, hs, rfl | rfl⟩ <;> rw [hs] <;> rfl

end TreebankSearch.Pattern

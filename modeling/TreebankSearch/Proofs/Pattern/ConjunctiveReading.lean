import TreebankSearch.Proofs.Pattern.Conjunctive
import TreebankSearch.Proofs.Pattern.RoundTrip

/-!
# Reading conjunctive patterns

What the text of a conjunctive pattern is read as: the tests of each bracket one after the other, with the
connective between them, if every bound in the pattern is one that a count may have. If one is not, nothing
is read. A test of a lower-cased value is read as a call, with plain text after it.
-/

namespace TreebankSearch.Pattern

mutual
def Test.fits : Test → Bool
  | .child brackets bound => allFit brackets && bound.all fun n => decide (n ≤ maxCount)
  | _ => true

def fitAll : List Test → Bool
  | [] => true
  | t :: ts => t.fits && fitAll ts

def allFit : List (List Test) → Bool
  | [] => true
  | tests :: brackets => fitAll tests && allFit brackets
end

mutual
def Test.terms : Test → List Term
  | .attr name value => [.attr ⟨name, some (.eq, value)⟩]
  | .lowered name value =>
    [.group (some "lower-case") [.attr ⟨name, none⟩], .verbatim (String.ofList (equation [] value))]
  | .child brackets none => [.child (groupTerms brackets)]
  | .child brackets (some n) => [.count (groupTerms brackets) n]

def conjuncts : List Test → List Term
  | [] => []
  | t :: ts => .connective .and :: (t.terms ++ conjuncts ts)

def groupTerms : List (List Test) → List (List Term)
  | [] => []
  | tests :: brackets => (conjuncts tests).tail :: groupTerms brackets
end

variable {t : Test} {tests : List Test} {brackets : List (List Test)} {ts : List Token}

/-- The tokens are read as the terms of the test, whatever follows them. -/
def ReadsTest (t : Test) (ts : List Token) : Prop :=
  ∀ rest, Follows rest → (readTerms (ts ++ rest)).toOption =
    if t.fits then (readTerms rest).toOption.map (t.terms ++ ·) else none

def Readable (t : Test) : Prop := ∃ ts, Lexed t.text ts ∧ ReadsTest t ts

theorem toOption_map {ε α β : Type} (f : α → β) (x : Except ε α) :
    (x.map f).toOption = x.toOption.map f := by
  cases x <;> rfl

theorem readTerms_nil : readTerms [] = .ok [] := readTerms_of_nil rfl

theorem follows_nil : Follows [] := ⟨.inl rfl, .inl rfl⟩

theorem ok_or_error {α : Type} {found : Except PatternError α} {fits : Bool} {a : α}
    (h : found.toOption = if fits then some a else none) :
    (fits = true ∧ found = .ok a) ∨ (fits = false ∧ ∃ e, found = .error e) := by
  cases fits <;> cases found <;> cases h
  · exact .inr ⟨rfl, _, rfl⟩
  · exact .inl ⟨rfl, rfl⟩

theorem toOption_readTerms_of_fault {rest : List Token} {e : PatternError} (hb : Breaks isSpace ts)
    (hne : ts ≠ []) (h : readTerm ts = (.error e, rest)) : (readTerms ts).toOption = none := by
  have hs := skipSpace_of_breaks hb
  rw [readTerms_of_readTerm (by rwa [hs]) (by rw [hs, h])]
  rfl

theorem toOption_readTerms {rest rest' : List Token} {first : Except PatternError Term}
    (hb : Breaks isSpace ts) (hne : ts ≠ []) (h : readTerm ts = (first, rest'))
    (hr : skipSpace rest' = skipSpace rest) :
    (readTerms ts).toOption = first.toOption.bind fun term => (readTerms rest).toOption.map (term :: ·) := by
  have hs := skipSpace_of_breaks hb
  rw [readTerms_of_readTerm (by rwa [hs]) (by rw [hs, h]), readTerms_congr hr]
  cases first with
  | error e => rfl
  | ok term => cases readTerms rest <;> rfl

theorem readable_attr {name value : String} (hn : IsName name) (hv : IsValue value) :
    Readable (.attr name value) := by
  have none : Spaces [] := by decide
  have hquote : '"' ∉ value.toList := hv.not_mem (by decide)
  obtain ⟨ts, hl, hr⟩ := (Spelled.comparison .eq .double hn none none hquote).reads
  refine ⟨ts, ?_, fun rest hf => ?_⟩
  · have htext : (Test.attr name value).text = '@' :: (name.toList ++ ([] ++
        (Comparison.eq.symbol.toList ++ ([] ++ (Quote.double.mark :: (value.toList ++
          [Quote.double.mark])))))) := by
      simp [Test.text, equation, Comparison.symbol, Quote.mark]
    rwa [htext]
  · rw [readTerms_operand hr hf, toOption_map]
    rfl

theorem readVerbatim_of_follows {rest : List Token} (hf : Follows rest) :
    readVerbatim rest = ([], rest) := by
  rcases hf.gap with rfl | ⟨c, more, rfl, hc⟩
  · rfl
  · rw [readVerbatim, if_pos hc]

theorem readTerm_equation {rest : List Token} (hf : Follows rest) (value : String) :
    readTerm (.char '=' :: .quoted .double value.toList :: rest) =
      (.ok (.verbatim (String.ofList (equation [] value))), rest) := by
  have hverbatim : readTerm (.char '=' :: .quoted .double value.toList :: rest) =
      (.ok (.verbatim (String.ofList (readVerbatim
        (.char '=' :: .quoted .double value.toList :: rest)).1)),
        (readVerbatim (.char '=' :: .quoted .double value.toList :: rest)).2) := rfl
  rw [hverbatim]
  simp [readVerbatim, readVerbatim_of_follows hf, isSpace, Token.source, Quote.mark, equation]

def lowerCase : List Char := ['l', 'o', 'w', 'e', 'r', '-', 'c', 'a', 's', 'e']

theorem lowered_text_eq (name value : String) : (Test.lowered name value).text =
    lowerCase ++ Bracket.round.opening :: ('@' :: name.toList ++ Bracket.round.closing ::
      ('=' :: Quote.double.mark :: (value.toList ++ [Quote.double.mark]))) := by
  have hfront : "lower-case(@".toList = lowerCase ++ ['(', '@'] := by decide
  rw [Test.text, hfront]
  simp [equation, Quote.mark, Bracket.opening, Bracket.closing]

theorem readTerm_lowerCase (inner : List Char) (terms : List Term) (rest : List Token) :
    readTerm (lowerCase.map .char ++ .enclosed .round inner (.ok terms) :: rest) =
      (.ok (.group (some "lower-case") terms), rest) := rfl

theorem readable_lowered {name value : String} (hn : IsName name) (hv : IsValue value) :
    Readable (.lowered name value) := by
  have hquote : '"' ∉ value.toList := hv.not_mem (by decide)
  obtain ⟨is, hli, hri⟩ := (Spelled.bare hn).reads
  have hinner : readTerms is = .ok [.attr ⟨name, none⟩] := by
    have h := readTerms_operand hri follows_nil
    rwa [List.append_nil, readTerms_nil] at h
  have hword : Lexed lowerCase (lowerCase.map .char) := lexed_name (List.all_eq_true.1 (by decide))
  have hvalue : Lexed ('=' :: Quote.double.mark :: (value.toList ++ [Quote.double.mark]))
      [.char '=', .quoted .double value.toList] := .plain rfl (Lexed.quoted .double hquote)
  have hl := hword.append (hli.bracket .round hvalue)
  rw [← lowered_text_eq, hinner] at hl
  refine ⟨_, hl, fun rest hf => ?_⟩
  have hcall := toOption_readTerms (breaks_char rfl _) (List.cons_ne_nil _ _)
    (readTerm_lowerCase ('@' :: name.toList) [.attr ⟨name, none⟩]
      (.char '=' :: .quoted .double value.toList :: rest)) rfl
  have hequation := toOption_readTerms (breaks_char rfl _) (List.cons_ne_nil _ _)
    (readTerm_equation hf value) rfl
  rw [hequation] at hcall
  rw [List.append_assoc]
  refine hcall.trans ?_
  cases (readTerms rest).toOption <;> rfl

structure ReadsGroups (brackets : List (List Test)) (ts : List Token) : Prop where
  breaks : ∀ rest, Breaks isNameChar rest → Breaks isNameChar (ts ++ rest)
  reads : ∀ rest, (∀ inner terms more, skipSpace rest ≠ .enclosed .square inner terms :: more) →
    ∃ found, readBrackets (ts ++ rest) = (found, skipSpace rest) ∧
      found.toOption = if allFit brackets then some (groupTerms brackets) else none

theorem readsTest_child (h : ReadsGroups brackets ts) :
    ReadsTest (.child brackets none) (['n', 'o', 'd', 'e'].map .char ++ ts) := by
  intro rest hf
  obtain ⟨found, hread, hfound⟩ := h.reads rest (hf.no_bracket _)
  have hnode := nodeTest?_append (h.breaks rest hf.breaks_name)
  rw [hread] at hnode
  have hterms := toOption_readTerms (breaks_char rfl _) (List.cons_ne_nil _ _)
    (readTerm_of_nodeTest? hnode) (skipSpace_skipSpace rest)
  rw [List.append_assoc]
  refine hterms.trans ?_
  rw [toOption_map, toOption_map, hfound, Test.fits, Test.terms]
  cases allFit brackets with
  | false => rfl
  | true => rfl

def boundTokens (n : Nat) : List Token :=
  [.char ' ', .char '>', .char ' '] ++ (Nat.toDigits 10 n).map .char

theorem readTerm_count_fault (inner : List Char) (e : PatternError) (rest : List Token) :
    readTerm (['c', 'o', 'u', 'n', 't'].map .char ++ .enclosed .round inner (.error e) :: rest) =
      (.error e, rest) := by
  have hspace : Breaks isSpace (.enclosed .round inner (.error e) :: rest) := breaks_enclosed _ _ _ _ _
  refine readTerm_of_fault (afterWord?_append _ _) ?_
  rw [skipSpace_of_breaks hspace, readEnclosed?_cons]

theorem readTerm_count (inner : List Char) (brackets : List (List Term)) (n : Nat) {rest : List Token}
    (hr : Breaks Char.isDigit rest) :
    readTerm (['c', 'o', 'u', 'n', 't'].map .char ++ .enclosed .round inner (.ok [.child brackets]) ::
        (boundTokens n ++ rest)) = ((readCount (Nat.toDigits 10 n)).map (Term.count brackets), rest) := by
  have hnone : Spaces [] := by decide
  have hone : Spaces [' '] := by decide
  have hc := countTest?_append inner brackets n hnone hone hone hr
  have h₁ : connective? (['c', 'o', 'u', 'n', 't'].map .char ++
    .enclosed .round inner (.ok [.child brackets]) :: (boundTokens n ++ rest)) = none := rfl
  have h₂ : countTest? (['c', 'o', 'u', 'n', 't'].map .char ++
      .enclosed .round inner (.ok [.child brackets]) :: (boundTokens n ++ rest)) =
      some ((readCount (Nat.toDigits 10 n)).map (Term.count brackets), rest) := by
    simpa [boundTokens] using hc
  simp only [readTerm, h₁, h₂]

theorem toOption_readCount (n : Nat) :
    (readCount (Nat.toDigits 10 n)).toOption = if n ≤ maxCount then some n else none := by
  simp only [readCount, Nat.ofDigitChars_ten_toDigits]
  split <;> rfl

theorem readsTest_count (h : ReadsGroups brackets ts) (n : Nat) (inner : List Char) :
    ReadsTest (.child brackets (some n)) (['c', 'o', 'u', 'n', 't'].map .char ++
      .enclosed .round inner (readTerms (['n', 'o', 'd', 'e'].map .char ++ ts)) :: boundTokens n) := by
  intro rest hf
  have hchild := readsTest_child h [] follows_nil
  rw [List.append_nil, readTerms_nil, Test.fits, Test.terms, Option.all_none, Bool.and_true] at hchild
  rw [List.append_assoc, List.cons_append, Test.fits, Test.terms, Option.all_some]
  rcases ok_or_error hchild with ⟨hfits, hread⟩ | ⟨hfits, e, hread⟩
  · have hterm := toOption_readTerms (breaks_char rfl _) (List.cons_ne_nil _ _)
      (readTerm_count inner (groupTerms brackets) n (hf.breaks (by decide))) rfl
    rw [toOption_map, toOption_readCount] at hterm
    rw [hread, hfits]
    refine hterm.trans ?_
    by_cases hn : n ≤ maxCount
    · simp only [hn, if_true]
      rfl
    · simp only [hn, if_false]
      rfl
  · rw [hread, hfits]
    exact toOption_readTerms_of_fault (breaks_char rfl _) (List.cons_ne_nil _ _)
      (readTerm_count_fault inner e (boundTokens n ++ rest))

theorem readsGroups_nil : ReadsGroups [] [] := by
  refine ⟨fun _ h => h, fun rest hr => ⟨_, readsBrackets_nil.reads rest hr, rfl⟩⟩

theorem ReadsGroups.cons (h : ReadsGroups brackets ts) {inner : List Char}
    {found : Except PatternError (List Term)}
    (hf : found.toOption = if fitAll tests then some (conjuncts tests).tail else none) :
    ReadsGroups (tests :: brackets) (.enclosed .square inner found :: ts) := by
  refine ⟨fun rest _ => breaks_enclosed _ _ _ _ _, fun rest hr => ?_⟩
  obtain ⟨more, hread, hmore⟩ := h.reads rest hr
  refine ⟨(do return (← found) :: (← more)), by rw [List.cons_append, readBrackets, hread], ?_⟩
  rw [allFit, groupTerms]
  rcases ok_or_error hf with ⟨hfits, rfl⟩ | ⟨hfits, e, rfl⟩
  · rcases ok_or_error hmore with ⟨hfit, rfl⟩ | ⟨hfit, e, rfl⟩ <;> rw [hfits, hfit] <;> rfl
  · rw [hfits]
    rfl

theorem follows_joint (us : List Token) : Follows (joint.map .char ++ us) := by
  have one : Spaces [' '] := by decide
  exact follows_connective one (List.cons_ne_nil _ _) .and _

theorem readTerms_joint (us : List Token) :
    readTerms (joint.map .char ++ us) = (readTerms us).map (.connective .and :: ·) := by
  have one : Spaces [' '] := by decide
  have hword : Breaks isNameChar ([' '].map .char ++ us) := breaks_char rfl _
  have hread := readTerms_connective .and hword
  rw [readTerms_congr (skipSpace_append one us)] at hread
  rw [← hread]
  exact readTerms_congr (skipSpace_append one _)

theorem readable_joints (h : ∀ t ∈ tests, Readable t) :
    ∃ us, Lexed (joints (tests.map Test.text)) us ∧ Follows us ∧
      (readTerms us).toOption = if fitAll tests then some (conjuncts tests) else none := by
  induction tests with
  | nil => exact ⟨[], .nil, follows_nil, by rw [readTerms_nil]; rfl⟩
  | cons t tests ih =>
    obtain ⟨⟨ts, hl, hr⟩, hts⟩ := List.forall_mem_cons.1 h
    obtain ⟨us, hlm, hf, hrm⟩ := ih hts
    have hjoint : Lexed joint (joint.map .char) := Lexed.chars (plain_of_all rfl)
    refine ⟨_, ?_, follows_joint (ts ++ us), ?_⟩
    · rw [List.map_cons, joints_cons]
      exact hjoint.append (hl.append hlm)
    · rw [readTerms_joint, toOption_map, hr us hf, hrm, fitAll, conjuncts]
      cases t.fits <;> cases fitAll tests <;> rfl

theorem readable_join (h : ∀ t ∈ tests, Readable t) :
    ∃ us, Lexed (join (tests.map Test.text)) us ∧
      (readTerms us).toOption = if fitAll tests then some (conjuncts tests).tail else none := by
  cases tests with
  | nil => exact ⟨[], .nil, by rw [readTerms_nil]; rfl⟩
  | cons t tests =>
    obtain ⟨⟨ts, hl, hr⟩, hts⟩ := List.forall_mem_cons.1 h
    obtain ⟨us, hlm, hf, hrm⟩ := readable_joints hts
    refine ⟨_, hl.append hlm, ?_⟩
    rw [hr us hf, hrm, fitAll, conjuncts]
    cases t.fits <;> cases fitAll tests <;> rfl

theorem readable_brackets (h : ∀ tests ∈ brackets, ∀ t ∈ tests, Readable t) :
    ∃ ts, Lexed (bracketsText brackets) ts ∧ ReadsGroups brackets ts := by
  induction brackets with
  | nil => exact ⟨[], .nil, readsGroups_nil⟩
  | cons tests brackets ih =>
    obtain ⟨ht, hts⟩ := List.forall_mem_cons.1 h
    obtain ⟨us, hlu, hru⟩ := readable_join ht
    obtain ⟨ts, hl, hr⟩ := ih hts
    rw [bracketsText, texts_eq_map]
    exact ⟨_, hlu.bracket .square hl, hr.cons hru⟩

theorem lexed_digits (n : Nat) : Lexed (Nat.toDigits 10 n) ((Nat.toDigits 10 n).map .char) :=
  lexed_name fun _ hc => isNameChar_of_isDigit
    (Nat.isDigit_of_mem_toDigits (by decide) (by decide) hc)

theorem Test.Valid.readable (h : t.Valid) : Readable t := by
  induction h with
  | attr hn hv => exact readable_attr hn hv
  | lowered hn hv => exact readable_lowered hn hv
  | @child brackets bound _ _ ih =>
    obtain ⟨ts, hl, hr⟩ := readable_brackets ih
    have hnode := lexed_node.append hl
    cases bound with
    | none =>
      refine ⟨_, ?_, readsTest_child hr⟩
      rw [Test.text, countClosing, List.append_nil]
      exact hnode
    | some n =>
      have hcount : Lexed ['c', 'o', 'u', 'n', 't'] (['c', 'o', 'u', 'n', 't'].map .char) :=
        lexed_name (List.all_eq_true.1 rfl)
      have hgreater : Lexed [' ', '>', ' '] ([' ', '>', ' '].map .char) := Lexed.chars (plain_of_all rfl)
      have hclosing : Lexed ([' ', '>', ' '] ++ Nat.toDigits 10 n) (boundTokens n) :=
        hgreater.append (lexed_digits n)
      refine ⟨_, ?_, readsTest_count hr n (nodeWord ++ bracketsText brackets)⟩
      have htext : (Test.child brackets (some n)).text = ['c', 'o', 'u', 'n', 't'] ++
          Bracket.round.opening :: (nodeWord ++ bracketsText brackets ++ Bracket.round.closing ::
            ([' ', '>', ' '] ++ Nat.toDigits 10 n)) := by
        simp [Test.text, countOpening, countClosing, Bracket.opening, Bracket.closing]
      rw [htext]
      exact hcount.append (hnode.bracket .round hclosing)

/-- A conjunctive pattern is read as its terms if it fits. -/
theorem parse_conjunctiveText (slashes : Nat) (h : Conjunctive brackets) :
    (parse (conjunctiveText slashes brackets)).toOption =
      if allFit brackets then some ⟨slashes, ⟨groupTerms brackets⟩⟩ else none := by
  have none : Spaces [] := by decide
  have hslashes : ∀ c ∈ List.replicate slashes '/', c = '/' := fun c hc => List.eq_of_mem_replicate hc
  obtain ⟨ts, hl, hr⟩ := readable_brackets fun tests ht t hm => (h.valid tests ht t hm).readable
  obtain ⟨found, hread, hfound⟩ := hr.reads [] (fun _ _ _ he => by cases he)
  have hbreaks := hr.breaks [] (breaks_nil _)
  rw [List.append_nil] at hread hbreaks
  have hlex := (lexed_slashes hslashes).append (lexed_node.append hl)
  have htext : (conjunctiveText slashes brackets).toList =
      List.replicate slashes '/' ++ (['n', 'o', 'd', 'e'] ++ bracketsText brackets) :=
    String.toList_ofList
  rw [← htext] at hlex
  have htokens := ofTokens_append none hslashes none hbreaks (by rw [hread]; rfl)
  rw [hread, List.length_replicate] at htokens
  rw [parse_of_lexed hlex]
  refine (congrArg Except.toOption htokens).trans ?_
  rw [toOption_map, toOption_map, hfound]
  cases allFit brackets <;> rfl

end TreebankSearch.Pattern

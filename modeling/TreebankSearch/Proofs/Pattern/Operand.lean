import TreebankSearch.Proofs.Pattern.Spelling

/-!
# Reading one operand

Each kind of operand is read as itself, whatever follows it: no kind of term that is tried earlier takes
it, and it ends where the space before a connective or the end of the bracket begins.
-/

namespace TreebankSearch.Pattern

def ReadsTerm (term : Term) (ts : List Token) : Prop :=
  ∀ rest, Follows rest → ∃ rest', readTerm (ts ++ rest) = (.ok term, rest') ∧
    skipSpace rest' = skipSpace rest

theorem isSpace_of_isNameChar {c : Char} (h : isNameChar c = true) : isSpace c = false := by
  cases hs : isSpace c with
  | false => rfl
  | true =>
    rw [isNameChar_of_isSpace hs] at h
    cases h

theorem isNameChar_of_isDigit {c : Char} (h : c.isDigit = true) : isNameChar c = true := by
  simp [isNameChar, Char.isAlphanum, h]

theorem breaks_map {p : Char → Bool} {cs : List Char} (h : ∀ c ∈ cs, p c = false) (hne : cs ≠ [])
    (rest : List Token) : Breaks p (cs.map .char ++ rest) := by
  obtain ⟨c, cs, rfl⟩ := List.exists_cons_of_ne_nil hne
  exact breaks_char (h c List.mem_cons_self) _

theorem readTerm_of_attribute {ts rest : List Token} {test : AttributeTest}
    (h : attributeTest? (.char '@' :: ts) = some (test, rest)) :
    readTerm (.char '@' :: ts) = (.ok (.attr test), rest) := by
  have h₁ : connective? (.char '@' :: ts) = none := rfl
  have h₂ : countTest? (.char '@' :: ts) = none := rfl
  have h₃ : afterOrderTest? (.char '@' :: ts) = none := rfl
  have h₄ : nodeTest? (.char '@' :: ts) = none := rfl
  simp only [readTerm, h₁, h₂, h₃, h₄, h]

theorem readRun?_name {name : String} (h : IsName name) {rest : List Token}
    (hb : Breaks isNameChar rest) :
    readRun? isNameChar (skipSpace (name.toList.map .char ++ rest)) = some (name.toList, rest) := by
  obtain ⟨hne, hall⟩ := h
  have hs := breaks_map (fun c hc => isSpace_of_isNameChar (hall c hc)) hne rest
  rw [skipSpace_of_breaks hs, readRun?_append hall hne hb]

theorem attributeTest?_bare {name : String} (h : IsName name) {rest : List Token}
    (hb : Breaks isNameChar rest) (hr : readRequirement? (skipSpace rest) = none) :
    attributeTest? (.char '@' :: (name.toList.map .char ++ rest)) =
      some (⟨name, none⟩, skipSpace rest) := by
  have hat : afterWord? ['@'] (.char '@' :: (name.toList.map .char ++ rest)) =
      some (name.toList.map .char ++ rest) := rfl
  simp only [attributeTest?, hat, Option.bind_eq_bind, Option.bind_some, readRun?_name h hb, hr,
    String.ofList_toList]

theorem attributeTest?_comparison {name : String} (h : IsName name) {rest more : List Token}
    (hb : Breaks isNameChar rest) {requirement : Comparison × String}
    (hr : readRequirement? (skipSpace rest) = some (requirement, more)) :
    attributeTest? (.char '@' :: (name.toList.map .char ++ rest)) =
      some (⟨name, some requirement⟩, more) := by
  have hat : afterWord? ['@'] (.char '@' :: (name.toList.map .char ++ rest)) =
      some (name.toList.map .char ++ rest) := rfl
  simp only [attributeTest?, hat, Option.bind_eq_bind, Option.bind_some, readRun?_name h hb, hr,
    String.ofList_toList]

theorem readsTerm_attribute {name : String} (h : IsName name) :
    ReadsTerm (.attr ⟨name, none⟩) (('@' :: name.toList).map .char) := by
  intro rest hf
  have hreq : readRequirement? (skipSpace rest) = none := by
    rw [readRequirement?, hf.no_comparison]
    rfl
  have ht := attributeTest?_bare h hf.breaks_name hreq
  exact ⟨skipSpace rest, readTerm_of_attribute ht, skipSpace_skipSpace rest⟩

theorem afterWord?_of_breaks {c : Char} {ts : List Token} (h : Breaks (· = c) ts) :
    afterWord? [c] ts = none := by
  cases hw : afterWord? [c] ts with
  | none => rfl
  | some rest => exact absurd (h c rest (eq_of_afterWord? hw)) (by simp)

theorem readComparison?_lt {ts : List Token} (h : Breaks (· = '=') ts) :
    readComparison? (.char '<' :: ts) = some (.lt, ts) := by
  have hne : afterWord? Comparison.ne.symbol.toList (.char '<' :: ts) = none := rfl
  have hle : afterWord? Comparison.le.symbol.toList (.char '<' :: ts) = none :=
    afterWord?_of_breaks h
  have hge : afterWord? Comparison.ge.symbol.toList (.char '<' :: ts) = none := rfl
  have heq : afterWord? Comparison.eq.symbol.toList (.char '<' :: ts) = none := rfl
  have hlt : afterWord? Comparison.lt.symbol.toList (.char '<' :: ts) = some ts := rfl
  simp only [readComparison?, List.findSome?_cons, hne, hle, hge, heq, hlt, Option.map_none,
    Option.map_some]

theorem readComparison?_gt {ts : List Token} (h : Breaks (· = '=') ts) :
    readComparison? (.char '>' :: ts) = some (.gt, ts) := by
  have hne : afterWord? Comparison.ne.symbol.toList (.char '>' :: ts) = none := rfl
  have hle : afterWord? Comparison.le.symbol.toList (.char '>' :: ts) = none := rfl
  have hge : afterWord? Comparison.ge.symbol.toList (.char '>' :: ts) = none :=
    afterWord?_of_breaks h
  have heq : afterWord? Comparison.eq.symbol.toList (.char '>' :: ts) = none := rfl
  have hlt : afterWord? Comparison.lt.symbol.toList (.char '>' :: ts) = none := rfl
  have hgt : afterWord? Comparison.gt.symbol.toList (.char '>' :: ts) = some ts := rfl
  simp only [readComparison?, List.findSome?_cons, hne, hle, hge, heq, hlt, hgt, Option.map_none,
    Option.map_some]

theorem readComparison?_append (op : Comparison) {ts : List Token} (h : Breaks (· = '=') ts) :
    readComparison? (op.symbol.toList.map .char ++ ts) = some (op, ts) := by
  cases op with
  | eq => rfl
  | ne => rfl
  | le => rfl
  | ge => rfl
  | lt => exact readComparison?_lt h
  | gt => exact readComparison?_gt h

theorem breaks_symbol {p : Char → Bool}
    (hp : p '=' = false ∧ p '!' = false ∧ p '<' = false ∧ p '>' = false) (op : Comparison)
    (ts : List Token) : Breaks p (op.symbol.toList.map .char ++ ts) := by
  obtain ⟨h₁, h₂, h₃, h₄⟩ := hp
  cases op with
  | eq => exact breaks_char h₁ _
  | ne => exact breaks_char h₂ _
  | lt => exact breaks_char h₃ _
  | le => exact breaks_char h₃ _
  | gt => exact breaks_char h₄ _
  | ge => exact breaks_char h₄ _

theorem readRequirement?_append (op : Comparison) (q : Quote) (value : String)
    {before after : List Char} (hb : Spaces before) (ha : Spaces after) (rest : List Token) :
    readRequirement? (skipSpace (before.map .char ++ (op.symbol.toList.map .char ++
      (after.map .char ++ .quoted q value.toList :: rest)))) = some ((op, value), rest) := by
  have hq : ∀ p, Breaks p (.quoted q value.toList :: rest) := fun p _ _ h => by cases h
  have hs := skipSpace_of_breaks (breaks_symbol (p := isSpace) (by decide) op
    (after.map .char ++ .quoted q value.toList :: rest))
  have hc := readComparison?_append op (breaks_spaces (by decide) ha (hq (· = '=')))
  have hl : readLiteral? (.quoted q value.toList :: rest) = some (value.toList, rest) := rfl
  rw [skipSpace_append hb, hs, readRequirement?, hc]
  simp only [Option.bind_eq_bind, Option.bind_some, skipSpace_append ha,
    skipSpace_of_breaks (hq isSpace), hl, String.ofList_toList]

theorem readsTerm_comparison {name : String} (h : IsName name) (op : Comparison) (q : Quote)
    (value : String) {before after : List Char} (hb : Spaces before) (ha : Spaces after) :
    ReadsTerm (.attr ⟨name, some (op, value)⟩)
      (('@' :: name.toList).map .char ++ (before.map .char ++ (op.symbol.toList.map .char ++
        (after.map .char ++ [.quoted q value.toList])))) := by
  intro rest hf
  have hreq := readRequirement?_append op q value hb ha rest
  have hn : Breaks isNameChar (before.map .char ++ (op.symbol.toList.map .char ++
      (after.map .char ++ .quoted q value.toList :: rest))) :=
    breaks_spaces (by decide) hb (breaks_symbol (by decide) op _)
  have ht := readTerm_of_attribute (attributeTest?_comparison h hn hreq)
  refine ⟨rest, ?_, rfl⟩
  simp only [List.map_cons, List.cons_append, List.append_assoc, List.nil_append]
  exact ht

structure ReadsBrackets (brackets : List (List Term)) (ts : List Token) : Prop where
  breaks : ∀ rest, Breaks isNameChar rest → Breaks isNameChar (ts ++ rest)
  reads : ∀ rest, (∀ inner terms more, skipSpace rest ≠ .enclosed .square inner terms :: more) →
    readBrackets (ts ++ rest) = (.ok brackets, skipSpace rest)

theorem readsBrackets_nil : ReadsBrackets [] [] := by
  refine ⟨fun _ h => h, fun rest h => ?_⟩
  obtain ⟨gap, hg, ht⟩ := eq_skipSpace rest
  have hb := breaks_skipSpace rest
  rw [List.nil_append, ht, readBrackets_spaces hg, skipSpace_append hg, skipSpace_skipSpace]
  unfold readBrackets
  split
  · next c ts heq => rw [if_neg (by simp [hb c ts heq]), heq]
  · next heq => exact absurd heq (h _ _ _)
  · rfl

theorem ReadsBrackets.cons {brackets : List (List Term)} {ts : List Token}
    (h : ReadsBrackets brackets ts) {gap : List Char} (hg : Spaces gap) (inner : List Char)
    (terms : List Term) : ReadsBrackets (terms :: brackets)
      (gap.map .char ++ .enclosed .square inner (.ok terms) :: ts) := by
  refine ⟨fun rest _ => ?_, fun rest hr => ?_⟩
  · rw [List.append_assoc]
    exact breaks_spaces (by decide) hg (breaks_enclosed _ _ _ _ _)
  · rw [List.append_assoc, readBrackets_spaces hg, List.cons_append, readBrackets, h.reads rest hr]
    rfl

theorem Follows.no_bracket {rest : List Token} (h : Follows rest) (b : Bracket) (inner : List Char)
    (terms : Except PatternError (List Term)) (more : List Token) :
    skipSpace rest ≠ .enclosed b inner terms :: more := by
  intro he
  rcases h.next with hs | ⟨c, _, hs, _⟩ <;> rw [hs] at he <;> cases he

theorem readsTerm_child {brackets : List (List Term)} {ts : List Token}
    (h : ReadsBrackets brackets ts) :
    ReadsTerm (.child brackets) (['n', 'o', 'd', 'e'].map .char ++ ts) := by
  intro rest hf
  have hn := nodeTest?_append (h.breaks rest hf.breaks_name)
  rw [h.reads rest (hf.no_bracket _)] at hn
  have h₁ : connective? (['n', 'o', 'd', 'e'].map .char ++ (ts ++ rest)) = none := rfl
  have h₂ : countTest? (['n', 'o', 'd', 'e'].map .char ++ (ts ++ rest)) = none := rfl
  have h₃ : afterOrderTest? (['n', 'o', 'd', 'e'].map .char ++ (ts ++ rest)) = none := rfl
  refine ⟨skipSpace rest, ?_, skipSpace_skipSpace rest⟩
  rw [List.append_assoc]
  simp only [readTerm, h₁, h₂, h₃, hn]
  rfl

theorem readTerms_of_readTerm {ts rest : List Token} {first : Except PatternError Term}
    (hs : skipSpace ts ≠ []) (h : readTerm (skipSpace ts) = (first, rest)) :
    readTerms ts = (do return (← first) :: (← readTerms rest)) := by
  cases hc : skipSpace ts with
  | nil => exact absurd hc hs
  | cons t more =>
    rw [hc] at h
    rw [readTerms_of_cons hc, h]

theorem readTerms_cons {ts rest : List Token} {term : Term} (hs : skipSpace ts ≠ [])
    (h : readTerm (skipSpace ts) = (.ok term, rest)) :
    readTerms ts = (readTerms rest).map (term :: ·) := by
  rw [readTerms_of_readTerm hs h]
  cases readTerms rest <;> rfl

theorem readCount_toDigits {n : Nat} (h : n < UInt64.size) :
    readCount (Nat.toDigits 10 n) = .ok n := by
  have hn : n ≤ maxCount := Nat.le_sub_one_of_lt h
  simp only [readCount, Nat.ofDigitChars_ten_toDigits, hn, ↓reduceIte]

theorem countTest?_append (inner : List Char) (brackets : List (List Term)) (n : Nat)
    {gap before after : List Char} (hg : Spaces gap) (hb : Spaces before) (ha : Spaces after) {rest : List Token}
    (hr : Breaks Char.isDigit rest) :
    countTest? (['c', 'o', 'u', 'n', 't'].map .char ++ (gap.map .char ++
      .enclosed .round inner (.ok [.child brackets]) :: (before.map .char ++
        .char '>' :: (after.map .char ++ ((Nat.toDigits 10 n).map .char ++ rest))))) =
      some ((readCount (Nat.toDigits 10 n)).map (Term.count brackets), rest) := by
  have hdig : ∀ c ∈ Nat.toDigits 10 n, c.isDigit = true := fun c hc =>
    Nat.isDigit_of_mem_toDigits (by decide) (by decide) hc
  have hspace : ∀ c ∈ Nat.toDigits 10 n, isSpace c = false := fun c hc =>
    isSpace_of_isNameChar (isNameChar_of_isDigit (hdig c hc))
  have hrun := readRun?_append hdig Nat.toDigits_ne_nil hr
  have hskip := skipSpace_of_breaks (breaks_map hspace Nat.toDigits_ne_nil rest)
  have hopen : Breaks isSpace (.enclosed .round inner (.ok [.child brackets]) :: (before.map .char ++
      .char '>' :: (after.map .char ++ ((Nat.toDigits 10 n).map .char ++ rest)))) :=
    breaks_enclosed _ _ _ _ _
  have hgt : Breaks isSpace (.char '>' :: (after.map .char ++
      ((Nat.toDigits 10 n).map .char ++ rest))) := breaks_char rfl _
  have hbound : readBound? (.char '>' :: (after.map .char ++
      ((Nat.toDigits 10 n).map .char ++ rest))) = some (Nat.toDigits 10 n, rest) := by
    have hw : afterWord? ['>'] (.char '>' :: (after.map .char ++
        ((Nat.toDigits 10 n).map .char ++ rest))) =
        some (after.map .char ++ ((Nat.toDigits 10 n).map .char ++ rest)) := rfl
    simp only [readBound?, hw, Option.bind_eq_bind, Option.bind_some, skipSpace_append ha, hskip, hrun]
  rw [countTest?, afterWord?_append]
  simp only [Option.bind_eq_bind, Option.bind_some, skipSpace_append hg, skipSpace_of_breaks hopen,
    readEnclosed?_cons, onlyChild?, skipSpace_append hb, skipSpace_of_breaks hgt, hbound]

theorem readsTerm_count {gap before after inner : List Char} {brackets : List (List Term)} {n : Nat}
    (hg : Spaces gap) (hb : Spaces before) (ha : Spaces after) (hn : n < UInt64.size) :
    ReadsTerm (.count brackets n) (['c', 'o', 'u', 'n', 't'].map .char ++ (gap.map .char ++
      .enclosed .round inner (.ok [.child brackets]) :: (before.map .char ++
        .char '>' :: (after.map .char ++ (Nat.toDigits 10 n).map .char)))) := by
  intro rest hf
  have hc := countTest?_append inner brackets n hg hb ha
    (hf.breaks (p := Char.isDigit) (by decide))
  have h₁ : connective? (['c', 'o', 'u', 'n', 't'].map .char ++ (gap.map .char ++
      .enclosed .round inner (.ok [.child brackets]) :: (before.map .char ++
        .char '>' :: (after.map .char ++ ((Nat.toDigits 10 n).map .char ++ rest))))) = none := rfl
  rw [readCount_toDigits hn] at hc
  refine ⟨rest, ?_, rfl⟩
  simp only [List.append_assoc, List.cons_append]
  simp only [readTerm, h₁, hc]
  rfl

theorem afterNumberCall?_append (inner : List Char) (terms : Except PatternError (List Term))
    (ts : List Token) : afterNumberCall?
      (['n', 'u', 'm', 'b', 'e', 'r'].map .char ++ .enclosed .round inner terms :: ts) = some ts := rfl

theorem readsTerm_order {before after inner : List Char} {terms : Except PatternError (List Term)}
    (hb : Spaces before) (ha : Spaces after) :
    ReadsTerm .order (['n', 'u', 'm', 'b', 'e', 'r'].map .char ++ .enclosed .round inner terms ::
      (before.map .char ++ .char '<' :: (after.map .char ++
        (['n', 'u', 'm', 'b', 'e', 'r'].map .char ++ [.enclosed .round inner terms])))) := by
  intro rest _
  generalize hw : ['n', 'u', 'm', 'b', 'e', 'r'].map Token.char ++
    .enclosed .round inner terms :: rest = call
  have hcall : afterNumberCall? call = some rest := by rw [← hw]; exact afterNumberCall?_append ..
  have hspace : Breaks isSpace call := by rw [← hw]; exact breaks_char rfl _
  have hequal : Breaks (· = '=') call := by rw [← hw]; exact breaks_char rfl _
  have hlt : Breaks isSpace (.char '<' :: (after.map .char ++ call)) := breaks_char rfl _
  have hc := readComparison?_lt (breaks_spaces (by decide) ha hequal)
  have ho : afterOrderTest? (['n', 'u', 'm', 'b', 'e', 'r'].map .char ++
      .enclosed .round inner terms :: (before.map .char ++ .char '<' :: (after.map .char ++ call))) =
      some rest := by
    rw [afterOrderTest?, afterNumberCall?_append]
    simp only [Option.bind_eq_bind, Option.bind_some, skipSpace_append hb, skipSpace_of_breaks hlt,
      hc, skipSpace_append ha, skipSpace_of_breaks hspace, hcall]
  have h₁ : connective? (['n', 'u', 'm', 'b', 'e', 'r'].map .char ++
      .enclosed .round inner terms :: (before.map .char ++ .char '<' :: (after.map .char ++ call))) =
      none := rfl
  have h₂ : countTest? (['n', 'u', 'm', 'b', 'e', 'r'].map .char ++
      .enclosed .round inner terms :: (before.map .char ++ .char '<' :: (after.map .char ++ call))) =
      none := rfl
  refine ⟨rest, ?_, rfl⟩
  simp only [List.append_assoc, List.cons_append, List.nil_append, hw]
  simp only [readTerm, h₁, h₂, ho]

theorem readsTerm_nameless (inner : List Char) (terms : List Term) :
    ReadsTerm (.group none terms) [.enclosed .round inner (.ok terms)] := by
  intro rest _
  exact ⟨rest, rfl, rfl⟩

theorem eq_of_afterWord?_name {w name : List Char} {ts rest : List Token}
    (h : afterWord? w (name.map .char ++ ts) = some rest) (hn : Breaks isNameChar ts)
    (hw : ∀ c ∈ w, isNameChar c = true) :
    ∃ more, name = w ++ more ∧ rest = more.map .char ++ ts := by
  induction w generalizing name with
  | nil => cases h; exact ⟨name, rfl, rfl⟩
  | cons c w ih =>
    obtain ⟨hc, hw⟩ := List.forall_mem_cons.1 hw
    cases name with
    | nil =>
      have ht := eq_of_afterWord? h
      have hb := hn c _ ht
      rw [hc] at hb
      cases hb
    | cons d name =>
      rw [List.map_cons, List.cons_append, afterWord?] at h
      split at h
      · next he =>
        obtain ⟨more, hm, hr⟩ := ih h hw
        exact ⟨more, by rw [he, hm]; rfl, hr⟩
      · cases h

theorem afterKeyword?_name {w name : List Char} {ts : List Token} (hn : Breaks isNameChar ts)
    (hw : ∀ c ∈ w, isNameChar c = true) (hname : ∀ c ∈ name, isNameChar c = true)
    (hne : name ≠ w) : afterKeyword? w (name.map .char ++ ts) = none := by
  cases hk : afterKeyword? w (name.map .char ++ ts) with
  | none => rfl
  | some rest =>
    obtain ⟨ht, hb⟩ := eq_of_afterKeyword? hk
    obtain ⟨more, rfl, rfl⟩ := eq_of_afterWord?_name (Option.filter_eq_some_iff.1 hk).1 hn hw
    cases more with
    | nil => exact absurd (List.append_nil w) hne
    | cons c more =>
      have hc := hname c (List.mem_append_right _ List.mem_cons_self)
      rw [hb c _ rfl] at hc
      cases hc

theorem countTest?_name {name gap inner : List Char} {terms : Except PatternError (List Term)}
    {rest : List Token} (hg : Spaces gap) (hname : ∀ c ∈ name, isNameChar c = true)
    (hf : Follows rest) :
    countTest? (name.map .char ++ (gap.map .char ++ .enclosed .round inner terms :: rest)) = none := by
  have hn : Breaks isNameChar (gap.map .char ++ .enclosed .round inner terms :: rest) :=
    breaks_spaces (by decide) hg (breaks_enclosed _ _ _ _ _)
  have hs : Breaks isSpace (.enclosed .round inner terms :: rest) := breaks_enclosed _ _ _ _ _
  rw [countTest?, Option.bind_eq_bind, Option.bind_eq_none_iff]
  intro ts hw
  obtain ⟨more, rfl, rfl⟩ := eq_of_afterWord?_name hw hn (List.all_eq_true.1 rfl)
  cases more with
  | nil =>
    rw [List.map_nil, List.nil_append, skipSpace_append hg, skipSpace_of_breaks hs,
      readEnclosed?_cons]
    simp only [Option.bind_eq_bind, Option.bind_some, hf.no_bound]
    exact Option.bind_eq_none_iff.2 fun _ _ => rfl
  | cons c more =>
    have hc := isSpace_of_isNameChar (hname c (List.mem_append_right _ List.mem_cons_self))
    rw [List.map_cons, List.cons_append, skipSpace_of_breaks (breaks_char hc _)]
    rfl

theorem afterOrderTest?_name {name gap inner : List Char} {terms : Except PatternError (List Term)}
    {rest : List Token} (hg : Spaces gap) (hf : Follows rest) :
    afterOrderTest? (name.map .char ++ (gap.map .char ++ .enclosed .round inner terms :: rest)) =
      none := by
  have hn : Breaks isNameChar (gap.map .char ++ .enclosed .round inner terms :: rest) :=
    breaks_spaces (by decide) hg (breaks_enclosed _ _ _ _ _)
  rw [afterOrderTest?, Option.bind_eq_bind, Option.bind_eq_none_iff]
  intro ts hcall
  obtain ⟨us, hw, hcall⟩ := Option.bind_eq_some_iff.1 hcall
  obtain ⟨more, rfl, rfl⟩ := eq_of_afterWord?_name hw hn (List.all_eq_true.1 rfl)
  cases more with
  | cons c more => cases hcall
  | nil =>
    cases gap with
    | cons c gap => cases hcall
    | nil =>
      cases hcall
      rw [hf.no_comparison]
      rfl

theorem isFunctionName_chars {name : String} (h : IsFunctionName name) :
    ∃ c rest, name.toList = c :: rest ∧ ∀ d ∈ name.toList, isNameChar d = true := by
  obtain ⟨⟨c, rest, hc, ha, hr⟩, _⟩ := h
  refine ⟨c, rest, hc, ?_⟩
  rw [hc]
  refine List.forall_mem_cons.2 ⟨?_, fun d hd => isNameChar_of_isFunctionChar (hr d hd)⟩
  simp [isNameChar, Char.isAlphanum, ha]

theorem readsTerm_named {name : String} (h : IsFunctionName name) {gap : List Char}
    (hg : Spaces gap) (inner : List Char) (terms : List Term) :
    ReadsTerm (.group (some name) terms)
      (name.toList.map .char ++ (gap.map .char ++ [.enclosed .round inner (.ok terms)])) := by
  obtain ⟨⟨c, cs, hcs, hc, hrest⟩, hand, hor, hnode⟩ := h
  intro rest hf
  have hfun : ∀ d ∈ name.toList, isFunctionChar d = true := by
    rw [hcs]
    refine List.forall_mem_cons.2 ⟨?_, hrest⟩
    simp [isFunctionChar, Char.isAlphanum, hc]
  have hname := fun d hd => isNameChar_of_isFunctionChar (hfun d hd)
  have hn : ∀ p, (p ' ' = false ∧ p '\t' = false ∧ p '\r' = false ∧ p '\n' = false) →
      Breaks p (gap.map .char ++ .enclosed .round inner (.ok terms) :: rest) :=
    fun p hp => breaks_spaces hp hg (breaks_enclosed _ _ _ _ _)
  have hs : Breaks isSpace (.enclosed .round inner (.ok terms) :: rest) := breaks_enclosed _ _ _ _ _
  have hb := hn isNameChar (by decide)
  have h₁ : connective? (name.toList.map .char ++
      (gap.map .char ++ .enclosed .round inner (.ok terms) :: rest)) = none := by
    rw [connective?, afterKeyword?_name hb (List.all_eq_true.1 rfl) hname hand,
      afterKeyword?_name hb (List.all_eq_true.1 rfl) hname hor]
    rfl
  have h₂ : countTest? (name.toList.map .char ++
      (gap.map .char ++ .enclosed .round inner (.ok terms) :: rest)) = none :=
    countTest?_name hg hname hf
  have h₃ : afterOrderTest? (name.toList.map .char ++
      (gap.map .char ++ .enclosed .round inner (.ok terms) :: rest)) = none :=
    afterOrderTest?_name hg hf
  have h₄ : nodeTest? (name.toList.map .char ++
      (gap.map .char ++ .enclosed .round inner (.ok terms) :: rest)) = none := by
    rw [nodeTest?, afterKeyword?_name hb (List.all_eq_true.1 rfl) hname hnode]
    rfl
  have h₅ : attributeTest? (name.toList.map .char ++
      (gap.map .char ++ .enclosed .round inner (.ok terms) :: rest)) = none := by
    have hat : '@' ≠ c := by
      rintro rfl
      exact absurd hc (by decide)
    rw [hcs, List.map_cons, List.cons_append, attributeTest?, afterWord?, if_neg hat]
    rfl
  have hspan := spanChars_append hrest (hn isFunctionChar (by decide))
  have h₆ : readFunctionName? (name.toList.map .char ++
      (gap.map .char ++ .enclosed .round inner (.ok terms) :: rest)) =
      some (name.toList, gap.map .char ++ .enclosed .round inner (.ok terms) :: rest) := by
    rw [hcs, List.map_cons, List.cons_append, readFunctionName?, if_pos hc, hspan]
  have h₇ : group? (name.toList.map .char ++
      (gap.map .char ++ .enclosed .round inner (.ok terms) :: rest)) =
      some (.ok (.group (some name) terms), rest) := by
    simp only [group?, h₆, skipSpace_append hg, skipSpace_of_breaks hs, readEnclosed?_cons,
      String.ofList_toList]
    rfl
  refine ⟨rest, ?_, rfl⟩
  simp only [List.append_assoc, List.cons_append, List.nil_append]
  simp only [readTerm, h₁, h₂, h₃, h₄, h₅, h₇]

end TreebankSearch.Pattern

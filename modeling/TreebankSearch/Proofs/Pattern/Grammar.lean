import TreebankSearch.Proofs.Pattern.Balanced

/-!
# The grammar and the tokens

The grammar has an answer for every text, and the answer is what is read from the tokens of the text. The
proof goes by the length of the text, since what stands in brackets is shorter. The alternatives of a term
come to the same as the readers over tokens, except that a count whose child has a fault is a group to the
reader. The fault is the same, and nothing after a fault matters.
-/

namespace TreebankSearch.Pattern

open Grammar (Input)

def Near {α : Type} (r : List Char) (x : α × List Char) (y : α × List Token) : Prop :=
  x.1 = y.1 ∧ Upto r (Grammar.skip x.2) (skipSpace y.2)

/-- All that is shorter than `n` is read as the terms of its tokens, up to where no token starts. -/
def ReadsBelow (n : Nat) : Prop :=
  ∀ s, s.length < n → ∀ r ts, Upto r s ts → Stuck r → Input.content s = some (readTerms ts, r)

variable {n : Nat} {r s : List Char} {ts : List Token}

theorem length_skip_le (s : List Char) : (Grammar.skip s).length ≤ s.length :=
  (List.dropWhile_suffix _).length_le

theorem ReadsBelow.enclosed (ih : ReadsBelow n) (hn : s.length ≤ n) (h : Upto r s ts) (hr : Stuck r)
    (b : Bracket) :
    ∃ o, Input.enclosed b s = some o ∧ Option.Rel (Same r) o (readEnclosed? b ts) := by
  rw [Input.enclosed]
  rcases h.opening hr b with ⟨hs, ht⟩ | ⟨t, r', is, hs, hlt, hu, hr', hrel⟩
  · rw [hs, ht]
    exact ⟨none, rfl, .none⟩
  · rw [hs]
    simp only [ih t (by omega) r' is hu hr', Option.bind_eq_bind, Option.bind_some]
    refine ⟨_, ?_, hrel⟩
    cases Text.after? [b.closing] r' <;> rfl

theorem skipSpace_char {c : Char} (hc : isSpace c = false) (ts : List Token) :
    skipSpace (.char c :: ts) = .char c :: ts := skipSpace_of_breaks (breaks_char hc ts)

theorem ReadsBelow.no_brackets (ih : ReadsBelow n) (hr : Stuck r) (hn : (Grammar.skip s).length ≤ n)
    (h : Upto r (Grammar.skip s) ts) (hnone : readEnclosed? .square ts = none) :
    Input.brackets s = some (.ok [], s) := by
  obtain ⟨o, ho, hrel⟩ := ih.enclosed hn h hr .square
  rw [hnone] at hrel
  cases hrel
  rw [Input.brackets, ho]
  rfl

theorem ReadsBelow.brackets (ih : ReadsBelow n) (hr : Stuck r) (hn : (Grammar.skip s).length ≤ n)
    (h : Upto r (Grammar.skip s) (skipSpace ts)) :
    ∃ t, Input.brackets s = some ((readBrackets ts).1, t) ∧
      Upto r (Grammar.skip t) (skipSpace (readBrackets ts).2) := by
  fun_induction readBrackets ts generalizing s with
  | case1 c ts hc ihb =>
    have hs : skipSpace (.char c :: ts) = skipSpace ts :=
      skipSpace_append (s := [c]) (fun d hd => by rw [List.mem_singleton.1 hd]; exact hc) ts
    rw [hs] at h
    exact ihb hn h
  | case2 c ts hc =>
    refine ⟨s, ih.no_brackets hr hn h ?_, h⟩
    rw [skipSpace_char (by simpa using hc)]
    rfl
  | case3 inner terms ts more rest heq ihb =>
    rw [skipSpace_of_breaks (breaks_enclosed _ _ _ _ _)] at h
    obtain ⟨o, ho, hrel⟩ := ih.enclosed hn h hr .square
    rw [readEnclosed?, if_pos rfl] at hrel
    rcases rel_cases hrel with ⟨_, hne⟩ | ⟨⟨_, s'⟩, _, rfl, he, rfl, hu⟩
    · cases hne
    · cases he
      have hl := h.length_le hu (List.suffix_cons _ _)
      have hn' := Nat.le_trans (Nat.le_trans (length_skip_le s') hl) hn
      obtain ⟨t, ht, hut⟩ := ihb hn' (hu.skip hr)
      rw [heq] at ht hut
      refine ⟨t, ?_, hut⟩
      rw [Input.brackets, ho]
      simp only [Option.bind_eq_bind, Option.bind_some, ht]
      rfl
  | case4 ts hchar hsquare =>
    have hb : Breaks isSpace ts := fun c rest he => absurd he (hchar c rest)
    rw [skipSpace_of_breaks hb] at h ⊢
    refine ⟨s, ih.no_brackets hr hn h ?_, h⟩
    unfold readEnclosed?
    split
    · next b inner terms rest =>
      rw [if_neg]
      rintro rfl
      exact hsquare inner terms rest rfl
    · rfl

theorem ReadsBelow.node (ih : ReadsBelow n) (hn : s.length ≤ n) (h : Upto r s ts) (hr : Stuck r) :
    ∃ o, Input.node s = some o ∧ Option.Rel (Near r) o (nodeTest? ts) := by
  rw [Input.node, nodeTest?]
  rcases rel_cases (h.keyword? hr ['n', 'o', 'd', 'e'] rfl) with ⟨hs, ht⟩ | ⟨s', ts', hs, ht, h'⟩
  · rw [hs, ht]
    exact ⟨none, rfl, .none⟩
  · have hl := h.length_le h' (after_of_afterKeyword? ht (by decide)).1
    have hn' := Nat.le_trans (Nat.le_trans (length_skip_le s') hl) hn
    have hskip := h'.skip hr
    rw [← skip_skip] at hskip hn'
    obtain ⟨t, ht', hu⟩ := ih.brackets hr hn' hskip
    rw [hs, ht]
    simp only [ht', Option.bind_eq_bind, Option.bind_some]
    exact ⟨_, rfl, .some ⟨rfl, hu⟩⟩

theorem readTerm_of_nodeTest? {rest : List Token} {node : Except PatternError NodeTest}
    (h : nodeTest? ts = some (node, rest)) :
    readTerm ts = (node.map fun n => .child n.brackets, rest) := by
  obtain ⟨more, hk, _⟩ := Option.bind_eq_some_iff.1 h
  obtain ⟨rfl, _⟩ := eq_of_afterKeyword? hk
  have h₁ : connective? (['n', 'o', 'd', 'e'].map .char ++ more) = none := rfl
  have h₂ : countTest? (['n', 'o', 'd', 'e'].map .char ++ more) = none := rfl
  have h₃ : afterOrderTest? (['n', 'o', 'd', 'e'].map .char ++ more) = none := rfl
  simp only [readTerm, h₁, h₂, h₃, h]

theorem count_of_countTest? {rest : List Token} {term : Except PatternError Term}
    (h : countTest? ts = some (term, rest)) :
    ∃ brackets digits, term = (readCount digits).map (Term.count brackets) := by
  obtain ⟨ts₁, _, h⟩ := Option.bind_eq_some_iff.1 h
  obtain ⟨⟨terms, ts₂⟩, _, h⟩ := Option.bind_eq_some_iff.1 h
  obtain ⟨brackets, _, h⟩ := Option.bind_eq_some_iff.1 h
  obtain ⟨⟨digits, ts₃⟩, _, h⟩ := Option.bind_eq_some_iff.1 h
  cases h
  exact ⟨brackets, digits, rfl⟩

theorem nodeTest?_of_readTerm {rest : List Token} {brackets : List (List Term)}
    (h : readTerm ts = (.ok (.child brackets), rest)) : nodeTest? ts = some (.ok ⟨brackets⟩, rest) := by
  unfold readTerm at h
  split at h
  · cases h
  split at h
  · next found hc =>
    cases h
    obtain ⟨bs, digits, he⟩ := count_of_countTest? hc
    cases hd : readCount digits <;> rw [hd] at he <;> cases he
  split at h
  · cases h
  split at h
  · next node more hn =>
    cases node with
    | ok node => cases h; exact hn
    | error e => cases h
  split at h
  · cases h
  split at h
  · next hg =>
    obtain ⟨⟨terms, _⟩, _, hg⟩ := Option.map_eq_some_iff.1 hg
    cases h
    cases terms <;> cases hg
  · cases h

theorem nodeTest?_of_onlyChild? {brackets : List (List Term)}
    (h : onlyChild? (readTerms ts) = some brackets) :
    ∃ us, nodeTest? (skipSpace ts) = some (.ok ⟨brackets⟩, us) ∧ skipSpace us = [] := by
  cases hs : skipSpace ts with
  | nil =>
    rw [readTerms_of_nil hs] at h
    cases h
  | cons t rest =>
    rw [readTerms_of_cons hs] at h
    cases hread : readTerm (t :: rest) with
    | mk value us =>
      rw [hread] at h
      cases value with
      | error e => cases h
      | ok term =>
        cases hus : skipSpace us with
        | nil =>
          have hmore : readTerms us = .ok [] := readTerms_of_nil hus
          simp only [hmore] at h
          cases term <;> cases h
          exact ⟨us, nodeTest?_of_readTerm hread, hus⟩
        | cons u more =>
          rw [readTerms_of_cons hus] at h
          cases hfirst : (readTerm (u :: more)).1 with
          | error e => rw [hfirst] at h; cases h
          | ok first =>
            cases hlast : readTerms (readTerm (u :: more)).2 with
            | error e => rw [hfirst, hlast] at h; cases h
            | ok last =>
              rw [hfirst, hlast] at h
              cases term <;> cases h

theorem onlyChild?_eq_none
    (h : ∀ node us, nodeTest? (skipSpace ts) = some (node, us) → skipSpace us ≠ []) :
    onlyChild? (readTerms ts) = none := by
  cases hc : onlyChild? (readTerms ts) with
  | none => rfl
  | some brackets =>
    obtain ⟨us, hnt, hus⟩ := nodeTest?_of_onlyChild? hc
    exact absurd hus (h _ _ hnt)

theorem readTerms_of_nodeTest? {us : List Token} {node : Except PatternError NodeTest}
    (h : nodeTest? (skipSpace ts) = some (node, us)) (hs : skipSpace us = []) :
    readTerms ts = node.map fun n => [.child n.brackets] := by
  cases hc : skipSpace ts with
  | nil => rw [hc] at h; cases h
  | cons t rest =>
    rw [hc] at h
    rw [readTerms_of_cons hc, readTerm_of_nodeTest? h]
    simp only [readTerms_of_nil hs]
    cases node <;> rfl

theorem countTest?_eq_none {ts₁ : List Token}
    (hw : afterWord? ['c', 'o', 'u', 'n', 't'] ts = some ts₁)
    (h : ∀ terms us, readEnclosed? .round (skipSpace ts₁) = some (terms, us) →
      onlyChild? terms = none) : countTest? ts = none := by
  rw [countTest?, hw]
  simp only [Option.bind_eq_bind, Option.bind_some]
  refine Option.bind_eq_none_iff.2 ?_
  rintro ⟨terms, us⟩ hb
  simp only [h terms us hb]
  rfl

theorem countTest?_eq_map {ts₁ us : List Token} {brackets : List (List Term)}
    (hw : afterWord? ['c', 'o', 'u', 'n', 't'] ts = some ts₁)
    (hb : readEnclosed? .round (skipSpace ts₁) = some (.ok [.child brackets], us)) :
    countTest? ts = (readBound? (skipSpace us)).map fun bound =>
      ((readCount bound.1).map (Term.count brackets), bound.2) := by
  rw [countTest?, hw]
  simp only [Option.bind_eq_bind, Option.bind_some, hb, onlyChild?]
  cases readBound? (skipSpace us) <;> rfl

/-- To the reader, a count whose child has a fault is a group with that fault. -/
theorem readTerm_of_fault {ts₁ ts₂ : List Token} {e : PatternError}
    (hw : afterWord? ['c', 'o', 'u', 'n', 't'] ts = some ts₁)
    (hb : readEnclosed? .round (skipSpace ts₁) = some (.error e, ts₂)) :
    readTerm ts = (.error e, ts₂) := by
  obtain rfl := eq_of_afterWord? hw
  obtain ⟨inner, hs⟩ := eq_of_readEnclosed? hb
  obtain ⟨gap, hg, ht⟩ := eq_skipSpace ts₁
  have hbreaks : Breaks isFunctionChar ts₁ := by
    rw [ht, hs]
    exact breaks_spaces (by decide) hg (breaks_enclosed _ _ _ _ _)
  have hspan : spanChars isFunctionChar (['o', 'u', 'n', 't'].map .char ++ ts₁) =
      (['o', 'u', 'n', 't'], ts₁) := spanChars_append (List.all_eq_true.1 rfl) hbreaks
  have h₁ : connective? (['c', 'o', 'u', 'n', 't'].map .char ++ ts₁) = none := rfl
  have h₂ : countTest? (['c', 'o', 'u', 'n', 't'].map .char ++ ts₁) = none :=
    countTest?_eq_none hw fun terms us he => by
      rw [hb] at he
      cases he
      rfl
  have h₃ : afterOrderTest? (['c', 'o', 'u', 'n', 't'].map .char ++ ts₁) = none := rfl
  have h₄ : nodeTest? (['c', 'o', 'u', 'n', 't'].map .char ++ ts₁) = none := rfl
  have h₅ : attributeTest? (['c', 'o', 'u', 'n', 't'].map .char ++ ts₁) = none := rfl
  have h₆ : readFunctionName? (['c', 'o', 'u', 'n', 't'].map .char ++ ts₁) =
      some (['c', 'o', 'u', 'n', 't'], ts₁) := by
    rw [List.map_cons, List.cons_append, readFunctionName?, hspan]
    rfl
  have h₇ : group? (['c', 'o', 'u', 'n', 't'].map .char ++ ts₁) = some (.error e, ts₂) := by
    simp only [group?, h₆, hb]
    rfl
  simp only [readTerm, h₁, h₂, h₃, h₄, h₅, h₇]

theorem Upto.ne_closing {t : Token} (h : Upto r s (t :: ts)) (b : Bracket) (rest : List Char) :
    s ≠ b.closing :: rest := by
  intro he
  have hc := Delimiter.ofChar_closing b
  cases h with
  | plain hd =>
    rw [← (List.cons.inj he).1, hd] at hc
    cases hc
  | literal q =>
    rw [← (List.cons.inj he).1, Delimiter.ofChar_mark] at hc
    cases hc
  | bracket b' =>
    rw [← (List.cons.inj he).1, Delimiter.ofChar_opening] at hc
    cases hc

def Faulty (r : List Char) (ts : List Token)
    (o : Option (Except PatternError Term × List Char)) : Prop :=
  ∃ e rest us more, o = some (.error e, rest) ∧ Upto r rest us ∧ After us ts ∧
    readTerm ts = (.error e, more)

theorem ReadsBelow.counted (ih : ReadsBelow n) (hn : s.length ≤ n) (h : Upto r s ts) (hr : Stuck r) :
    (Input.counted s = some none ∧
      ∀ terms us, readEnclosed? .round ts = some (terms, us) → onlyChild? terms = none) ∨
    ∃ node rest us, Input.counted s = some (some (node, rest)) ∧ Upto r rest us ∧
      readEnclosed? .round ts = some (node.map fun n => [.child n.brackets], us) := by
  rw [Input.counted]
  rcases h.opening hr .round with ⟨hs, ht⟩ | ⟨t, r', is, hs, hlt, hu, hr', hrel⟩
  · rw [Bracket.opening] at hs
    rw [hs, ht]
    exact .inl ⟨rfl, fun _ _ h => by cases h⟩
  rw [Bracket.opening] at hs
  rw [hs]
  have hn' := Nat.le_trans (Nat.le_trans (length_skip_le t) (Nat.le_of_lt hlt)) hn
  obtain ⟨o, ho, hnode⟩ := ih.node hn' (hu.skip hr') hr'
  have hterms : ∀ terms us, readEnclosed? .round ts = some (terms, us) → terms = readTerms is := by
    intro terms us ht
    rw [ht] at hrel
    rcases rel_cases hrel with ⟨_, hno⟩ | ⟨⟨_, rest⟩, _, hclose, he, heq, _⟩
    · cases hno
    · cases he
      obtain ⟨_, _, he⟩ := Option.map_eq_some_iff.1 hclose
      cases he
      exact heq.symm
  simp only [ho, Option.bind_eq_bind, Option.bind_some]
  rcases rel_cases hnode with ⟨rfl, hnt⟩ | ⟨⟨node, s₂⟩, ⟨_, us⟩, rfl, hnt, rfl, hu₂⟩
  · refine .inl ⟨rfl, fun terms us he => ?_⟩
    rw [hterms terms us he]
    exact onlyChild?_eq_none fun _ _ h => by rw [hnt] at h; cases h
  cases hus : skipSpace us with
  | cons u more =>
    rw [hus] at hu₂
    have hclose : Text.after? [')'] (Grammar.skip s₂) = none :=
      after?_singleton_of_ne (hu₂.ne_closing .round)
    refine .inl ⟨by simp only [hclose]; rfl, fun terms us' he => ?_⟩
    rw [hterms terms us' he]
    refine onlyChild?_eq_none fun _ _ h => ?_
    rw [hnt] at h
    cases h
    rw [hus]
    exact List.cons_ne_nil _ _
  | nil =>
    rw [hus] at hu₂
    have hend : Grammar.skip s₂ = r' := hu₂.eq_of_nil
    rcases rel_cases hrel with ⟨hclose, ht⟩ | ⟨⟨_, rest⟩, ⟨terms, us'⟩, hclose, ht, heq, hrest⟩
    · have hc : Text.after? [')'] r' = none := Option.map_eq_none_iff.1 hclose
      exact .inl ⟨by simp only [hend, hc]; rfl, fun _ _ h => by rw [ht] at h; cases h⟩
    · obtain ⟨rest, hc, he⟩ := Option.map_eq_some_iff.1 hclose
      cases he
      have hc : Text.after? [')'] r' = some rest := hc
      refine .inr ⟨node, rest, us', by simp only [hend, hc]; rfl, hrest, ?_⟩
      obtain rfl : readTerms is = terms := heq
      rw [ht, readTerms_of_nodeTest? hnt hus]

theorem ReadsBelow.countTest (ih : ReadsBelow n) (hn : s.length ≤ n) (h : Upto r s ts) (hr : Stuck r) :
    ∃ o, Input.countTest s = some o ∧
      (Option.Rel (Same r) o (countTest? ts) ∨ countTest? ts = none ∧ Faulty r ts o) := by
  rw [Input.countTest]
  rcases rel_cases (h.after? hr ['c', 'o', 'u', 'n', 't'] rfl) with ⟨hs, ht⟩ | ⟨s₁, ts₁, hs, hw, h₁⟩
  · refine ⟨none, by rw [hs]; rfl, .inl ?_⟩
    rw [countTest?, ht]
    exact .none
  have hafter := after_of_afterWord? hw (by decide)
  have hn' := Nat.le_trans (Nat.le_trans (length_skip_le s₁) (h.length_le h₁ hafter.1)) hn
  rw [hs]
  simp only [Option.bind_eq_bind]
  rcases ih.counted hn' (h₁.skip hr) hr with ⟨hc, hno⟩ | ⟨node, s₂, us, hc, hu, hb⟩
  · refine ⟨none, by rw [hc]; rfl, .inl ?_⟩
    rw [countTest?_eq_none hw hno]
    exact .none
  rw [hc]
  simp only [Option.bind_some]
  have hus := (after_of_readEnclosed? hb).1.trans ((suffix_skipSpace ts₁).trans hafter.1)
  -- the grammar goes on to the bound with the fault, the reader has no child to count
  cases node with
  | error e =>
    have hnone := countTest?_eq_none hw fun terms us he => by
      rw [hb] at he
      cases he
      rfl
    rcases rel_cases ((hu.skip hr).bound? hr) with
      ⟨hs, _⟩ | ⟨⟨digits, rest⟩, ⟨_, us'⟩, hs, ht, rfl, hu'⟩
    · refine ⟨none, by rw [hs]; rfl, .inl ?_⟩
      rw [hnone]
      exact .none
    · refine ⟨_, by rw [hs]; rfl, .inr ⟨hnone, e, rest, us', _, rfl, hu', ?_, readTerm_of_fault hw hb⟩⟩
      exact (after_of_readBound? ht).trans_suffix ((suffix_skipSpace us).trans hus)
  | ok node =>
    rw [countTest?_eq_map hw hb]
    rcases rel_cases ((hu.skip hr).bound? hr) with
      ⟨hs, ht⟩ | ⟨⟨digits, rest⟩, ⟨_, us'⟩, hs, ht, rfl, hu'⟩
    · refine ⟨none, by rw [hs]; rfl, .inl ?_⟩
      rw [ht]
      exact .none
    · refine ⟨_, by rw [hs]; rfl, .inl ?_⟩
      rw [ht]
      refine .some ⟨?_, hu'⟩
      cases hd : readCount digits with
      | ok n => simp only [hd]; rfl
      | error e => simp only [hd]; rfl

theorem ReadsBelow.group (ih : ReadsBelow n) (hn : s.length ≤ n) (h : Upto r s ts) (hr : Stuck r) :
    ∃ o, Input.group s = some o ∧ Option.Rel (Same r) o (group? ts) := by
  have hterms : ∀ (name : Option String) (a : Except PatternError (List Term) × List Char)
      (b : Except PatternError (List Term) × List Token), Same r a b →
      Same r (a.1.map (Term.group name), a.2) (b.1.map (Term.group name), b.2) :=
    fun name a b hab => ⟨congrArg (·.map (Term.group name)) hab.1, hab.2⟩
  rw [Input.group, group?]
  rcases rel_cases (h.functionName? hr) with ⟨hs, ht⟩ | ⟨⟨name, s₁⟩, ⟨_, ts₁⟩, hs, ht, rfl, h₁⟩
  · obtain ⟨o, ho, hrel⟩ := ih.enclosed (Nat.le_trans (length_skip_le s) hn) (h.skip hr) hr .round
    simp only [hs, ht, ho]
    refine ⟨_, ?_, rel_map hrel (hterms none)⟩
    cases o <;> rfl
  · have hl := h.length_le h₁ (after_of_readFunctionName? ht).1
    have hn' := Nat.le_trans (Nat.le_trans (length_skip_le s₁) hl) hn
    obtain ⟨o, ho, hrel⟩ := ih.enclosed hn' (h₁.skip hr) hr .round
    simp only [hs, ht, ho]
    refine ⟨_, ?_, rel_map hrel (hterms _)⟩
    cases o <;> rfl

theorem ReadsBelow.item {t : Token} (ih : ReadsBelow n) (hn : s.length ≤ n) (h : Upto r s (t :: ts))
    (hr : Stuck r) (ht : ∀ c, t = .char c → isSpace c = false) :
    ∃ value rest us, Input.item s = some (some (value, rest)) ∧ After us (t :: ts) ∧
      Upto r (Grammar.skip rest) (skipSpace us) ∧
      (readTerm (t :: ts) = (value, us) ∨
        ∃ e more, value = .error e ∧ readTerm (t :: ts) = (.error e, more)) := by
  rcases rel_cases (h.connective? hr) with ⟨hs₁, h₁⟩ | ⟨⟨c, rest⟩, ⟨_, us⟩, hs, hc, rfl, hu⟩
  case inr =>
    refine ⟨.ok (.connective c), rest, us, ?_, after_of_connective? hc, hu.skip hr, .inl ?_⟩
    · simp only [Input.item, hs]
      rfl
    · simp only [readTerm, hc]
  obtain ⟨o, hs₂, hrel | ⟨h₂, e, rest, us, more, rfl, hu, ha, hread⟩⟩ := ih.countTest hn h hr
  case inr =>
    refine ⟨.error e, rest, us, ?_, ha, hu.skip hr, .inr ⟨e, more, rfl, hread⟩⟩
    simp only [Input.item, hs₁, hs₂]
    rfl
  rcases rel_cases hrel with ⟨rfl, h₂⟩ | ⟨⟨term, rest⟩, ⟨_, us⟩, rfl, h₂, rfl, hu⟩
  case inr =>
    refine ⟨term, rest, us, ?_, after_of_countTest? h₂, hu.skip hr, .inl ?_⟩
    · simp only [Input.item, hs₁, hs₂]
      rfl
    · simp only [readTerm, h₁, h₂]
  obtain ⟨o, hs₃, hrel⟩ := h.orderTest hr
  rcases rel_cases hrel with ⟨rfl, h₃⟩ | ⟨rest, us, rfl, h₃, hu⟩
  case inr =>
    refine ⟨.ok .order, rest, us, ?_, after_of_afterOrderTest? h₃, hu.skip hr, .inl ?_⟩
    · simp only [Input.item, hs₁, hs₂, hs₃]
      rfl
    · simp only [readTerm, h₁, h₂, h₃]
  obtain ⟨o, hs₄, hrel⟩ := ih.node hn h hr
  rcases rel_cases hrel with ⟨rfl, h₄⟩ | ⟨⟨node, rest⟩, ⟨_, us⟩, rfl, h₄, rfl, hu⟩
  case inr =>
    refine ⟨node.map fun n => .child n.brackets, rest, us, ?_, after_of_nodeTest? h₄, hu, .inl ?_⟩
    · simp only [Input.item, hs₁, hs₂, hs₃, hs₄]
      rfl
    · exact readTerm_of_nodeTest? h₄
  rcases rel_cases (h.attributeTest? hr) with ⟨hs₅, h₅⟩ | ⟨⟨test, rest⟩, ⟨_, us⟩, hs₅, h₅, rfl, hu⟩
  case inr =>
    refine ⟨.ok (.attr test), rest, us, ?_, after_of_attributeTest? h₅, hu.skip hr, .inl ?_⟩
    · simp only [Input.item, hs₁, hs₂, hs₃, hs₄, hs₅]
      rfl
    · simp only [readTerm, h₁, h₂, h₃, h₄, h₅]
  obtain ⟨o, hs₆, hrel⟩ := ih.group hn h hr
  rcases rel_cases hrel with ⟨rfl, h₆⟩ | ⟨⟨term, rest⟩, ⟨_, us⟩, rfl, h₆, rfl, hu⟩
  case inr =>
    refine ⟨term, rest, us, ?_, after_of_group? h₆, hu.skip hr, .inl ?_⟩
    · simp only [Input.item, hs₁, hs₂, hs₃, hs₄, hs₅, hs₆]
      rfl
    · simp only [readTerm, h₁, h₂, h₃, h₄, h₅, h₆]
  obtain ⟨rest, hs₇, hu⟩ := h.verbatim hr ht
  refine ⟨.ok (.verbatim (String.ofList (readVerbatim (t :: ts)).1)), rest, _, ?_,
    after_readVerbatim ht, hu.skip hr, .inl ?_⟩
  · simp only [Input.item, hs₁, hs₂, hs₃, hs₄, hs₅, hs₆, hs₇]
    rfl
  · simp only [readTerm, h₁, h₂, h₃, h₄, h₅, h₆]

theorem ReadsBelow.item_stuck (ih : ReadsBelow n) (hn : r.length ≤ n) (hr : Stuck r) :
    Input.item r = some none := by
  have h : Upto r r [] := .stop
  have hs₁ : Grammar.connective? r = none := eq_none_of_rel (h.connective? hr)
  obtain ⟨o, hs₂, hrel | ⟨_, _, _, _, _, _, _, ha, _⟩⟩ := ih.countTest hn h hr
  case inr => exact absurd ha.2 (Nat.not_lt_zero _)
  obtain rfl := eq_none_of_rel hrel
  obtain ⟨o, hs₃, hrel⟩ := h.orderTest hr
  obtain rfl := eq_none_of_rel hrel
  obtain ⟨o, hs₄, hrel⟩ := ih.node hn h hr
  obtain rfl := eq_none_of_rel hrel
  have hs₅ : Grammar.attributeTest? r = none := eq_none_of_rel (h.attributeTest? hr)
  obtain ⟨o, hs₆, hrel⟩ := ih.group hn h hr
  obtain rfl := eq_none_of_rel hrel
  simp only [Input.item, hs₁, hs₂, hs₃, hs₄, hs₅, hs₆, hr.verbatim]
  rfl

theorem ReadsBelow.items (ih : ReadsBelow n) (hr : Stuck r) (hn : (Grammar.skip s).length ≤ n)
    (h : Upto r (Grammar.skip s) (skipSpace ts)) :
    ∃ t, Input.items s = some (readTerms ts, t) ∧ Grammar.skip t = r := by
  -- on the tokens and not on the text, since `Upto` ties every place in the text to its tokens
  induction hk : ts.length using Nat.strongRecOn generalizing s ts with
  | ind k ihk =>
    subst hk
    cases hts : skipSpace ts with
    | nil =>
      rw [hts] at h
      have hend := h.eq_of_nil
      refine ⟨s, ?_, hend⟩
      rw [Input.items, hend, ih.item_stuck (hend ▸ hn) hr, readTerms_of_nil hts]
      rfl
    | cons t more =>
      rw [hts] at h
      obtain ⟨value, rest, us, hitem, ha, hu, hv⟩ := ih.item hn h hr (skipSpace_head hts)
      have hsuffix := (suffix_skipSpace us).trans ha.1
      have hn' := Nat.le_trans (h.length_le hu hsuffix) hn
      have hlt : us.length < ts.length := by
        have hs := (suffix_skipSpace ts).length_le
        rw [hts] at hs
        exact Nat.lt_of_lt_of_le ha.2 hs
      obtain ⟨t', hitems, hend⟩ := ihk us.length hlt hn' hu rfl
      refine ⟨t', ?_, hend⟩
      rw [Input.items, hitem, readTerms_of_cons hts]
      simp only [Option.bind_eq_bind, Option.bind_some, hitems]
      -- after a fault the two may go on at different places, but a fault is all that is left to say
      rcases hv with hread | ⟨e, last, rfl, hread⟩
      · rw [hread]
        rfl
      · rw [hread]
        rfl

theorem readsBelow (n : Nat) : ReadsBelow n := by
  induction n with
  | zero => exact fun _ h => absurd h (Nat.not_lt_zero _)
  | succ n ih =>
    intro s hlt r ts h hr
    have hn : (Grammar.skip s).length ≤ n :=
      Nat.le_trans (length_skip_le s) (Nat.le_of_lt_succ hlt)
    have hskip := h.skip hr
    rw [Input.content]
    cases hts : skipSpace ts with
    | nil =>
      rw [hts] at hskip
      have hend := hskip.eq_of_nil
      rw [hend, ih.item_stuck (hend ▸ hn) hr, readTerms_of_nil hts]
      rfl
    | cons t more =>
      rw [hts] at hskip
      obtain ⟨value, rest, us, hitem, ha, hu, hv⟩ := ih.item hn hskip hr (skipSpace_head hts)
      have hn' := Nat.le_trans (hskip.length_le hu ((suffix_skipSpace us).trans ha.1)) hn
      rw [← skip_skip] at hn' hu
      obtain ⟨t', hitems, hend⟩ := ih.items hr hn' hu
      rw [hitem, readTerms_of_cons hts]
      simp only [Option.bind_eq_bind, Option.bind_some, hitems, hend]
      rcases hv with hread | ⟨e, last, rfl, hread⟩
      · rw [hread]
        rfl
      · rw [hread]
        rfl

/-- The grammar has an answer at every text. It is what the tokens of the text are read as, and a text that
goes on where no token starts is no pattern. -/
theorem Upto.pattern (h : Upto r s ts) (hr : Stuck r) :
    ∃ o, Grammar.pattern s = some o ∧ (r = [] → ofTokens ts = o.getD (.error .malformed)) ∧
      (r ≠ [] → o = none) := by
  obtain ⟨hslashes, hrest⟩ := (h.skip hr).span hr (p := (· = '/')) fun c hc => by
    rw [of_decide_eq_true hc]
    rfl
  have hn := Nat.le_refl (Grammar.skip ((Grammar.skip s).dropWhile (· = '/'))).length
  obtain ⟨o, ho, hrel⟩ := (readsBelow _).node hn (hrest.skip hr) hr
  rw [Grammar.pattern, ho]
  rcases rel_cases hrel with ⟨rfl, hnt⟩ | ⟨⟨root, rest⟩, ⟨_, us⟩, rfl, hnt, rfl, hu⟩
  · refine ⟨none, rfl, fun _ => ?_, fun _ => rfl⟩
    rw [ofTokens]
    simp only [hnt]
    rfl
  rw [skipSpace_of_nodeTest? hnt] at hu
  simp only [Option.bind_eq_bind, Option.bind_some]
  refine ⟨_, rfl, ?_, ?_⟩
  · rintro rfl
    rw [ofTokens, hslashes]
    cases us with
    | nil => simp only [hnt, hu.eq_of_nil, ↓reduceIte, Option.getD_some]
    | cons t us =>
      have hend : Grammar.skip rest ≠ [] := fun he => by
        rw [he] at hu
        cases hu
      simp only [hnt, hend, ↓reduceIte, Option.getD_none]
  · intro hne
    refine if_neg fun he => hne ?_
    have hsource := hu.source
    rw [he] at hsource
    exact (List.append_eq_nil_iff.1 hsource.symm).2

theorem parse_of_lexed {text : String} (h : Lexed text.toList ts) : parse text = ofTokens ts := by
  have hu := Upto.append h []
  rw [List.append_nil] at hu
  obtain ⟨o, ho, hread, _⟩ := hu.pattern .nil
  rw [parse, ho, hread rfl]
  cases o <;> rfl

theorem lexed_of_parse {text : String} (h : parse text ≠ .error .malformed) :
    ∃ ts, Lexed text.toList ts := by
  obtain ⟨r, ts, hu, hr⟩ := exists_upto text.toList
  obtain ⟨o, ho, _, hnone⟩ := hu.pattern hr
  by_cases hnil : r = []
  · obtain ⟨a, ha, hl⟩ := hu.lexed
    rw [hnil, List.append_nil] at ha
    exact ⟨ts, ha ▸ hl⟩
  · rw [hnone hnil] at ho
    exact absurd (by rw [parse, ho]) h

end TreebankSearch.Pattern

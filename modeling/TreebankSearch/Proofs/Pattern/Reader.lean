import TreebankSearch.Proofs.Pattern.Attribute

/-!
# Terms from tokens

The content of one bracket read as a list of terms, with the brackets in it read already. At each token
the kinds of term are tried in the order of the grammar, and plain text, which takes whatever stands up to
the next space, comes last: the content of a bracket is always readable, and the only fault it can have is
a `count` that is too large.
-/

namespace TreebankSearch.Pattern

def connective? (ts : List Token) : Option (Connective × List Token) :=
  match afterKeyword? ['a', 'n', 'd'] ts with
  | some rest => some (.and, rest)
  | none => (afterKeyword? ['o', 'r'] ts).map fun rest => (.or, rest)

theorem after_of_connective? {ts rest : List Token} {c : Connective}
    (h : connective? ts = some (c, rest)) : After rest ts := by
  unfold connective? at h
  split at h
  · next hk =>
    cases h
    exact after_of_afterKeyword? hk (by decide)
  · obtain ⟨more, hk, he⟩ := Option.map_eq_some_iff.1 h
    cases he
    exact after_of_afterKeyword? hk (by decide)

def readBrackets : List Token → Except PatternError (List (List Term)) × List Token
  | .char c :: ts => if isSpace c then readBrackets ts else (.ok [], .char c :: ts)
  | .enclosed .square _ terms :: ts =>
    let (more, rest) := readBrackets ts
    (do return (← terms) :: (← more), rest)
  | ts => (.ok [], ts)

theorem suffix_readBrackets (ts : List Token) : (readBrackets ts).2 <:+ ts := by
  fun_induction readBrackets ts with
  | case1 c ts hc ih => exact ih.trans (List.suffix_cons _ _)
  | case2 => exact List.suffix_rfl
  | case3 inner terms ts more rest heq ih => rw [heq] at ih; exact ih.trans (List.suffix_cons _ _)
  | case4 => exact List.suffix_rfl

theorem readBrackets_spaces {gap : List Char} (hg : Spaces gap) (ts : List Token) :
    readBrackets (gap.map .char ++ ts) = readBrackets ts := by
  induction gap with
  | nil => rfl
  | cons c gap ih =>
    obtain ⟨hc, hg⟩ := List.forall_mem_cons.1 hg
    rw [List.map_cons, List.cons_append, readBrackets, if_pos hc, ih hg]

theorem breaks_readBrackets (ts : List Token) : Breaks isSpace (readBrackets ts).2 := by
  fun_induction readBrackets ts with
  | case1 c ts hc ih => exact ih
  | case2 c ts hc => exact breaks_char (by simpa using hc) ts
  | case3 inner terms ts more rest heq ih => rw [heq] at ih; exact ih
  | case4 ts hchar => exact fun c rest he => absurd he (hchar c rest)

def nodeTest? (ts : List Token) : Option (Except PatternError NodeTest × List Token) := do
  let ts ← afterKeyword? ['n', 'o', 'd', 'e'] ts
  let (brackets, rest) := readBrackets ts
  some (brackets.map NodeTest.mk, rest)

theorem after_of_nodeTest? {ts rest : List Token} {node : Except PatternError NodeTest}
    (h : nodeTest? ts = some (node, rest)) : After rest ts := by
  obtain ⟨ts₁, h₁, h⟩ := Option.bind_eq_some_iff.1 h
  cases h
  exact .of_suffix (suffix_readBrackets ts₁) (after_of_afterKeyword? h₁ (by decide))

theorem skipSpace_of_nodeTest? {ts rest : List Token} {node : Except PatternError NodeTest}
    (h : nodeTest? ts = some (node, rest)) : skipSpace rest = rest := by
  obtain ⟨more, _, h⟩ := Option.bind_eq_some_iff.1 h
  cases h
  exact skipSpace_of_breaks (breaks_readBrackets more)

def readEnclosed? (b : Bracket) : List Token → Option (Except PatternError (List Term) × List Token)
  | .enclosed b' _ terms :: ts => if b' = b then some (terms, ts) else none
  | _ => none

theorem readEnclosed?_cons (b : Bracket) (inner : List Char) (terms : Except PatternError (List Term))
    (ts : List Token) : readEnclosed? b (.enclosed b inner terms :: ts) = some (terms, ts) :=
  if_pos rfl

theorem eq_of_readEnclosed? {b : Bracket} {ts rest : List Token}
    {terms : Except PatternError (List Term)} (h : readEnclosed? b ts = some (terms, rest)) :
    ∃ inner, ts = .enclosed b inner terms :: rest := by
  unfold readEnclosed? at h
  split at h
  · next inner _ _ =>
    split at h
    · next hb =>
      cases h
      exact ⟨inner, hb ▸ rfl⟩
    · cases h
  · cases h

theorem after_of_readEnclosed? {b : Bracket} {ts rest : List Token}
    {terms : Except PatternError (List Term)} (h : readEnclosed? b ts = some (terms, rest)) :
    After rest ts := by
  obtain ⟨inner, rfl⟩ := eq_of_readEnclosed? h
  exact .cons _ List.suffix_rfl

def onlyChild? : Except PatternError (List Term) → Option (List (List Term))
  | .ok [.child brackets] => some brackets
  | _ => none

def readBound? (ts : List Token) : Option (List Char × List Token) := do
  readRun? Char.isDigit (skipSpace (← afterWord? ['>'] ts))

theorem after_of_readBound? {ts rest : List Token} {digits : List Char}
    (h : readBound? ts = some (digits, rest)) : After rest ts := by
  obtain ⟨more, hw, hr⟩ := Option.bind_eq_some_iff.1 h
  exact .of_suffix ((after_of_readRun? hr).1.trans (suffix_skipSpace more))
    (after_of_afterWord? hw (by decide))

/-- A test `count(node[..]..) > n`. An inner fault is left to the group that the text then is. -/
def countTest? (ts : List Token) : Option (Except PatternError Term × List Token) := do
  let ts ← afterWord? ['c', 'o', 'u', 'n', 't'] ts
  let (terms, ts) ← readEnclosed? .round (skipSpace ts)
  let brackets ← onlyChild? terms
  let (digits, rest) ← readBound? (skipSpace ts)
  some ((readCount digits).map (Term.count brackets), rest)

theorem after_of_countTest? {ts rest : List Token} {term : Except PatternError Term}
    (h : countTest? ts = some (term, rest)) : After rest ts := by
  obtain ⟨ts₁, h₁, h⟩ := Option.bind_eq_some_iff.1 h
  obtain ⟨⟨terms, ts₂⟩, h₂, h⟩ := Option.bind_eq_some_iff.1 h
  obtain ⟨brackets, _, h⟩ := Option.bind_eq_some_iff.1 h
  obtain ⟨⟨digits, ts₃⟩, h₃, h⟩ := Option.bind_eq_some_iff.1 h
  cases h
  have hs₂ := (after_of_readEnclosed? h₂).1.trans (suffix_skipSpace ts₁)
  have hs₃ := ((after_of_readBound? h₃).1.trans (suffix_skipSpace ts₂)).trans hs₂
  exact .of_suffix hs₃ (after_of_afterWord? h₁ (by decide))

def afterNumberCall? (ts : List Token) : Option (List Token) := do
  let ts ← afterWord? ['n', 'u', 'm', 'b', 'e', 'r'] ts
  (readEnclosed? .round ts).map (·.2)

theorem after_of_afterNumberCall? {ts rest : List Token}
    (h : afterNumberCall? ts = some rest) : After rest ts := by
  obtain ⟨ts₁, h₁, h⟩ := Option.bind_eq_some_iff.1 h
  obtain ⟨⟨terms, more⟩, h₂, he⟩ := Option.map_eq_some_iff.1 h
  cases he
  exact .of_suffix (after_of_readEnclosed? h₂).1 (after_of_afterWord? h₁ (by decide))

def afterOrderTest? (ts : List Token) : Option (List Token) := do
  let ts ← afterNumberCall? ts
  let (_, ts) ← readComparison? (skipSpace ts)
  afterNumberCall? (skipSpace ts)

theorem after_of_afterOrderTest? {ts rest : List Token}
    (h : afterOrderTest? ts = some rest) : After rest ts := by
  obtain ⟨ts₁, h₁, h⟩ := Option.bind_eq_some_iff.1 h
  obtain ⟨⟨op, ts₂⟩, h₂, h⟩ := Option.bind_eq_some_iff.1 h
  have hc := (after_of_readComparison? h₂).1.trans (suffix_skipSpace ts₁)
  have hn := (after_of_afterNumberCall? h).1.trans (suffix_skipSpace ts₂)
  exact .of_suffix (hn.trans hc) (after_of_afterNumberCall? h₁)

def readFunctionName? : List Token → Option (List Char × List Token)
  | .char c :: ts =>
    if c.isAlpha then
      some (c :: (spanChars isFunctionChar ts).1, (spanChars isFunctionChar ts).2)
    else none
  | _ => none

theorem after_of_readFunctionName? {ts rest : List Token} {name : List Char}
    (h : readFunctionName? ts = some (name, rest)) : After rest ts := by
  unfold readFunctionName? at h
  split at h
  · split at h
    · cases h
      exact .cons _ (suffix_spanChars _ _)
    · cases h
  · cases h

def group? (ts : List Token) : Option (Except PatternError Term × List Token) :=
  let (name, ts) :=
    match readFunctionName? ts with
    | some (name, rest) => (some (String.ofList name), rest)
    | none => (none, ts)
  (readEnclosed? .round (skipSpace ts)).map fun (terms, rest) => (terms.map (Term.group name), rest)

theorem after_of_group? {ts rest : List Token} {term : Except PatternError Term}
    (h : group? ts = some (term, rest)) : After rest ts := by
  obtain ⟨⟨terms, more⟩, hr, he⟩ := Option.map_eq_some_iff.1 h
  cases he
  refine (after_of_readEnclosed? hr).trans_suffix ((suffix_skipSpace _).trans ?_)
  split
  · next hn => exact (after_of_readFunctionName? hn).1
  · exact List.suffix_rfl

def readVerbatim : List Token → List Char × List Token
  | [] => ([], [])
  | .char c :: ts =>
    if isSpace c then ([], .char c :: ts)
    else
      let (text, rest) := readVerbatim ts
      (c :: text, rest)
  | t :: ts =>
    let (text, rest) := readVerbatim ts
    (t.source ++ text, rest)

theorem suffix_readVerbatim (ts : List Token) : (readVerbatim ts).2 <:+ ts := by
  fun_induction readVerbatim ts with
  | case1 => exact List.suffix_rfl
  | case2 => exact List.suffix_rfl
  | case3 c ts hc text rest heq ih => rw [heq] at ih; exact ih.trans (List.suffix_cons _ _)
  | case4 t ts _ text rest heq ih => rw [heq] at ih; exact ih.trans (List.suffix_cons _ _)

theorem after_readVerbatim {t : Token} {ts : List Token} (h : ∀ c, t = .char c → isSpace c = false) :
    After (readVerbatim (t :: ts)).2 (t :: ts) := by
  have hs := suffix_readVerbatim ts
  cases t with
  | char c => simpa [readVerbatim, h c rfl] using After.cons (.char c) hs
  | quoted q body => exact .cons _ hs
  | enclosed b inner terms => exact .cons _ hs

def readTerm (ts : List Token) : Except PatternError Term × List Token :=
  match connective? ts with
  | some (c, rest) => (.ok (.connective c), rest)
  | none =>
  match countTest? ts with
  | some found => found
  | none =>
  match afterOrderTest? ts with
  | some rest => (.ok .order, rest)
  | none =>
  match nodeTest? ts with
  | some (node, rest) => (node.map fun n => Term.child n.brackets, rest)
  | none =>
  match attributeTest? ts with
  | some (test, rest) => (.ok (.attr test), rest)
  | none =>
  match group? ts with
  | some found => found
  | none =>
    let (text, rest) := readVerbatim ts
    (.ok (.verbatim (String.ofList text)), rest)

theorem after_readTerm {t : Token} {ts : List Token} (h : ∀ c, t = .char c → isSpace c = false) :
    After (readTerm (t :: ts)).2 (t :: ts) := by
  unfold readTerm
  split
  · next heq => exact after_of_connective? heq
  split
  · next heq => exact after_of_countTest? heq
  split
  · next heq => exact after_of_afterOrderTest? heq
  split
  · next heq => exact after_of_nodeTest? heq
  split
  · next heq => exact after_of_attributeTest? heq
  split
  · next heq => exact after_of_group? heq
  exact after_readVerbatim h

theorem after_readTerm_skipSpace {ts rest : List Token} {t : Token} (h : skipSpace ts = t :: rest) :
    After (readTerm (t :: rest)).2 ts := by
  have hs := suffix_skipSpace ts
  rw [h] at hs
  exact (after_readTerm (skipSpace_head h)).trans_suffix hs

def readTerms (ts : List Token) : Except PatternError (List Term) :=
  match h : skipSpace ts with
  | [] => .ok []
  | t :: rest => do
    have : (readTerm (t :: rest)).2.length < ts.length := (after_readTerm_skipSpace h).2
    let first ← (readTerm (t :: rest)).1
    let more ← readTerms (readTerm (t :: rest)).2
    return first :: more
termination_by ts.length

theorem readTerms_of_nil {ts : List Token} (h : skipSpace ts = []) : readTerms ts = .ok [] := by
  rw [readTerms]
  split
  · rfl
  · next heq => rw [h] at heq; cases heq

theorem readTerms_of_cons {ts rest : List Token} {t : Token} (h : skipSpace ts = t :: rest) :
    readTerms ts = (do
      let first ← (readTerm (t :: rest)).1
      let more ← readTerms (readTerm (t :: rest)).2
      return first :: more) := by
  rw [readTerms]
  split
  · next heq => rw [h] at heq; cases heq
  · next heq => rw [h] at heq; cases heq; rfl

theorem readTerms_congr {ts us : List Token} (h : skipSpace ts = skipSpace us) :
    readTerms ts = readTerms us := by
  cases hc : skipSpace us with
  | nil => rw [readTerms_of_nil (h.trans hc), readTerms_of_nil hc]
  | cons t more => rw [readTerms_of_cons (h.trans hc), readTerms_of_cons hc]

def ofTokens (ts : List Token) : Except PatternError Pattern :=
  let (slashes, ts) := spanChars (· = '/') (skipSpace ts)
  match nodeTest? (skipSpace ts) with
  | some (root, []) => root.map (Pattern.mk slashes.length)
  | _ => .error .malformed

end TreebankSearch.Pattern

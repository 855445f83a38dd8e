import TreebankSearch.Proofs.Pattern.Operand

/-!
# Reading undoes spelling

Every spelling of a pattern is read as that pattern. The proof goes along the spelling: each phrase has
tokens, and these are read as the phrase wherever it stands.
-/

namespace TreebankSearch.Pattern

def Reads : Phrase → List Token → Prop
  | .operand term, ts => ts ≠ [] ∧ Breaks isSpace ts ∧ ReadsTerm term ts
  | .sequence terms, ts => ∀ back, Spaces back → readTerms (ts ++ back.map .char) = .ok terms
  | .content terms, ts => readTerms ts = .ok terms
  | .brackets brackets, ts => ReadsBrackets brackets ts

theorem skipSpace_operand {ts : List Token} (hne : ts ≠ []) (hb : Breaks isSpace ts)
    (rest : List Token) : skipSpace (ts ++ rest) = ts ++ rest := by
  obtain ⟨t, ts, rfl⟩ := List.exists_cons_of_ne_nil hne
  exact skipSpace_of_breaks fun c more he => hb c ts (congrArg (· :: ts) (List.cons.inj he).1)

theorem readTerms_operand {term : Term} {ts : List Token} (h : Reads (.operand term) ts)
    {rest : List Token} (hf : Follows rest) :
    readTerms (ts ++ rest) = (readTerms rest).map (term :: ·) := by
  obtain ⟨hne, hb, hread⟩ := h
  obtain ⟨more, ht, hs⟩ := hread rest hf
  have hskip := skipSpace_operand hne hb rest
  rw [← readTerms_congr hs]
  refine readTerms_cons ?_ (by rw [hskip, ht])
  rw [hskip]
  exact List.append_ne_nil_of_left_ne_nil hne rest

theorem connective?_append (c : Connective) {rest : List Token} (hb : Breaks isNameChar rest) :
    connective? ((connectiveWord c).map .char ++ rest) = some (c, rest) := by
  cases c with
  | and =>
    have hk := afterKeyword?_append ['a', 'n', 'd'] hb
    rw [connective?, connectiveWord, hk]
  | or =>
    have hk := afterKeyword?_append ['o', 'r'] hb
    have hand : afterKeyword? ['a', 'n', 'd'] (['o', 'r'].map .char ++ rest) = none := rfl
    rw [connective?, connectiveWord, hand, hk]
    rfl

theorem readTerms_connective (c : Connective) {rest : List Token} (hb : Breaks isNameChar rest) :
    readTerms ((connectiveWord c).map .char ++ rest) =
      (readTerms rest).map (.connective c :: ·) := by
  have hs : skipSpace ((connectiveWord c).map .char ++ rest) =
      (connectiveWord c).map .char ++ rest := by
    cases c <;> exact skipSpace_of_breaks (breaks_char rfl _)
  have ht : readTerm ((connectiveWord c).map .char ++ rest) = (.ok (.connective c), rest) := by
    simp only [readTerm, connective?_append c hb]
  refine readTerms_cons ?_ (by rw [hs, ht])
  rw [hs]
  cases c <;> exact List.cons_ne_nil _ _

theorem readTerms_spaces {gap : List Char} (hg : Spaces gap) : readTerms (gap.map .char) = .ok [] :=
  readTerms_of_nil (skipSpace_spaces hg)

theorem readTerms_child {brackets : List (List Term)} {ts : List Token}
    (h : ReadsBrackets brackets ts) {front back : List Char} (hf : Spaces front) (hb : Spaces back) :
    readTerms (front.map .char ++ (['n', 'o', 'd', 'e'].map .char ++ (ts ++ back.map .char))) =
      .ok [.child brackets] := by
  have hop : Reads (.operand (.child brackets)) (['n', 'o', 'd', 'e'].map .char ++ ts) :=
    ⟨List.cons_ne_nil _ _, breaks_char rfl _, readsTerm_child h⟩
  rw [readTerms_congr (skipSpace_append hf _), ← List.append_assoc,
    readTerms_operand hop (follows_spaces hb), readTerms_spaces hb]
  rfl

theorem lexed_connective (c : Connective) :
    Lexed (connectiveWord c) ((connectiveWord c).map .char) := by
  cases c <;> exact lexed_name (List.all_eq_true.1 rfl)

theorem lexed_symbol (op : Comparison) :
    Lexed op.symbol.toList (op.symbol.toList.map .char) := by
  cases op with
  | eq => exact .plain rfl .nil
  | ne => exact .plain rfl (.plain rfl .nil)
  | lt => exact .plain rfl .nil
  | le => exact .plain rfl (.plain rfl .nil)
  | gt => exact .plain rfl .nil
  | ge => exact .plain rfl (.plain rfl .nil)

theorem lexed_numberCall : ∃ terms, Lexed numberCall
    (['n', 'u', 'm', 'b', 'e', 'r'].map .char ++
      [.enclosed .round ['@', 'b', 'e', 'g', 'i', 'n'] terms]) := by
  have hi : Lexed ['@', 'b', 'e', 'g', 'i', 'n'] (['@', 'b', 'e', 'g', 'i', 'n'].map .char) :=
    .plain rfl (lexed_name (List.all_eq_true.1 rfl))
  have hw : Lexed ['n', 'u', 'm', 'b', 'e', 'r'] (['n', 'u', 'm', 'b', 'e', 'r'].map .char) :=
    lexed_name (List.all_eq_true.1 rfl)
  exact ⟨_, hw.append (hi.enclosed .round)⟩

/-- A phrase is read from the tokens of each of its spellings. -/
theorem Spelled.reads {phrase : Phrase} {s : List Char} (h : Spelled phrase s) :
    ∃ ts, Lexed s ts ∧ Reads phrase ts := by
  induction h with
  | noBrackets => exact ⟨[], .nil, readsBrackets_nil⟩
  | bracket hg _ _ ihi ih =>
    obtain ⟨is, hli, hri⟩ := ihi
    obtain ⟨ts, hl, hr⟩ := ih
    have hb := hli.bracket .square hl
    rw [hri] at hb
    exact ⟨_, (lexed_spaces hg).append hb, hr.cons hg _ _⟩
  | empty hg => exact ⟨_, lexed_spaces hg, readTerms_spaces hg⟩
  | content hf _ hb ih =>
    obtain ⟨ts, hl, hr⟩ := ih
    refine ⟨_, (lexed_spaces hf).append (hl.append (lexed_spaces hb)), ?_⟩
    exact (readTerms_congr (skipSpace_append hf _)).trans (hr _ hb)
  | single _ ih =>
    obtain ⟨ts, hl, hr⟩ := ih
    refine ⟨ts, hl, fun back hb => ?_⟩
    rw [readTerms_operand hr (follows_spaces hb), readTerms_spaces hb]
    rfl
  | join c _ hb hbne ha hane _ ih ihm =>
    obtain ⟨ts, hl, hr⟩ := ih
    obtain ⟨us, hlm, hrm⟩ := ihm
    refine ⟨_, hl.append ((lexed_spaces hb).append ((lexed_connective c).append
      ((lexed_spaces ha).append hlm))), fun back hback => ?_⟩
    have hword := breaks_map (fun d hd => isNameChar_of_isSpace (ha d hd)) hane (us ++ back.map .char)
    simp only [List.append_assoc]
    rw [readTerms_operand hr (follows_connective hb hbne c _), readTerms_congr (skipSpace_append hb _),
      readTerms_connective c hword, readTerms_congr (skipSpace_append ha _), hrm _ hback]
    rfl
  | bare hn =>
    refine ⟨_, .plain rfl (lexed_name hn.2), List.cons_ne_nil _ _, breaks_char rfl _, ?_⟩
    exact readsTerm_attribute hn
  | comparison op q hn hb ha hv =>
    have hl := Lexed.plain (c := '@') rfl ((lexed_name hn.2).append ((lexed_spaces hb).append
      ((lexed_symbol op).append ((lexed_spaces ha).append (Lexed.quoted q hv)))))
    exact ⟨_, hl, List.cons_ne_nil _ _, breaks_char rfl _, readsTerm_comparison hn op q _ hb ha⟩
  | child _ ih =>
    obtain ⟨ts, hl, hr⟩ := ih
    exact ⟨_, lexed_node.append hl, List.cons_ne_nil _ _, breaks_char rfl _, readsTerm_child hr⟩
  | @count _ _ _ _ _ _ _ n hg hf _ hback hb ha hn ih =>
    obtain ⟨ts, hl, hr⟩ := ih
    have hw : Lexed ['c', 'o', 'u', 'n', 't'] (['c', 'o', 'u', 'n', 't'].map .char) :=
      lexed_name (List.all_eq_true.1 rfl)
    have hdig : Lexed (Nat.toDigits 10 n) ((Nat.toDigits 10 n).map .char) :=
      lexed_name fun c hc => isNameChar_of_isDigit
        (Nat.isDigit_of_mem_toDigits (by decide) (by decide) hc)
    have hrest := (lexed_spaces hb).append (.plain (c := '>') rfl ((lexed_spaces ha).append hdig))
    have hi := ((lexed_spaces hf).append (lexed_node.append
      (hl.append (lexed_spaces hback)))).bracket .round hrest
    rw [readTerms_child hr hf hback] at hi
    exact ⟨_, hw.append ((lexed_spaces hg).append hi), List.cons_ne_nil _ _, breaks_char rfl _,
      readsTerm_count hg hb ha hn⟩
  | order hb ha =>
    obtain ⟨terms, hcall⟩ := lexed_numberCall
    have hl := hcall.append ((lexed_spaces hb).append
      (.plain (c := '<') rfl ((lexed_spaces ha).append hcall)))
    rw [List.append_assoc] at hl
    exact ⟨_, hl, List.cons_ne_nil _ _, breaks_char rfl _, readsTerm_order hb ha⟩
  | nameless _ ih =>
    obtain ⟨is, hli, hri⟩ := ih
    have hb := hli.enclosed .round
    rw [hri] at hb
    exact ⟨_, hb, List.cons_ne_nil _ _, breaks_enclosed _ _ _ _ _, readsTerm_nameless _ _⟩
  | named hn hg _ ih =>
    obtain ⟨is, hli, hri⟩ := ih
    have hb := hli.enclosed .round
    rw [hri] at hb
    obtain ⟨c, rest, hname, hfun⟩ := isFunctionName_chars hn
    have hl := (lexed_name hfun).append ((lexed_spaces hg).append hb)
    refine ⟨_, hl, ?_, ?_, readsTerm_named hn hg _ _⟩
    · rw [hname]
      exact List.cons_ne_nil _ _
    · rw [hname] at hfun ⊢
      exact breaks_char (isSpace_of_isNameChar (hfun c List.mem_cons_self)) _

theorem Spells.parse {p : Pattern} {text : String} (h : Spells p text.toList) :
    Pattern.parse text = .ok p := by
  obtain ⟨front, gap, brackets, back, hf, hg, hs, hb, htext⟩ := h
  obtain ⟨ts, hl, hr⟩ := hs.reads
  have hslash : ∀ c ∈ List.replicate p.slashes '/', c = '/' := fun c hc => List.eq_of_mem_replicate hc
  have hlex := (lexed_spaces hf).append ((lexed_slashes hslash).append
    ((lexed_spaces hg).append (lexed_node.append (hl.append (lexed_spaces hb)))))
  have hread := hr.reads (back.map .char) (by rw [skipSpace_spaces hb]; intro _ _ _ h; cases h)
  have hbreaks := hr.breaks (back.map .char) (follows_spaces hb).breaks_name
  have hnil : (readBrackets (ts ++ back.map .char)).2 = [] := by rw [hread, skipSpace_spaces hb]
  rw [← htext] at hlex
  rw [parse_of_lexed hlex, ofTokens_append hf hslash hg hbreaks hnil, hread,
    List.length_replicate]
  rfl

/-- A pattern whose brackets are printable has a spelling, and each of its spellings is read as it. -/
theorem parse_of_spells {p : Pattern} (h : Printable (.brackets p.root.brackets)) :
    (∃ text : String, Spells p text.toList) ∧
      ∀ text : String, Spells p text.toList → parse text = .ok p := by
  obtain ⟨s, hs⟩ := exists_spells h
  refine ⟨⟨String.ofList s, ?_⟩, fun text => Spells.parse⟩
  rwa [String.toList_ofList]

def samplePattern : Pattern :=
  ⟨2, ⟨[[.attr ⟨"cat", some (.ne, "n'p")⟩, .connective .or,
    .group (some "not") [.count [[.attr ⟨"rel", none⟩]] 12]], []]⟩⟩

theorem parse_of_spells_sample :
    Printable (.brackets samplePattern.root.brackets) ∧
      Spells samplePattern "// node[ @cat!= \"n'p\" or not (count(node[@rel])>12)]\t[]".toList ∧
      parse "// node[ @cat!= \"n'p\" or not (count(node[@rel])>12)]\t[]" = .ok samplePattern := by
  have none : Spaces [] := by decide
  have one : Spaces [' '] := by decide
  have tab : Spaces ['\t'] := by decide
  have hcat : IsName "cat" := by decide
  have hrel : IsName "rel" := by decide
  have hnot : IsFunctionName "not" := by
    refine ⟨⟨'n', ['o', 't'], by decide, by decide, List.all_eq_true.1 rfl⟩, by decide, by decide, by decide⟩
  have hchild := Spelled.bracket none (.content none (.single (.bare hrel)) none) .noBrackets
  have hcount := Spelled.count (n := 12) none none hchild none none none (by decide)
  have hgroup := Spelled.named hnot one (.content none (.single hcount) none)
  have hattr : Spelled (.operand (.attr ⟨"cat", some (.ne, "n'p")⟩)) _ :=
    .comparison .ne .double hcat none one (by decide)
  have hterms := Spelled.content one (.join .or hattr one (by decide) one (by decide)
    (.single hgroup)) none
  have hs : Spells samplePattern
      "// node[ @cat!= \"n'p\" or not (count(node[@rel])>12)]\t[]".toList :=
    ⟨[], [' '], _, [], none, one, .bracket none hterms (.bracket tab (.empty none) .noBrackets), none,
      by decide⟩
  have hp : Printable (.brackets samplePattern.root.brackets) :=
    .bracket (.content (.join .or (.comparison .ne .double hcat (by decide))
      (.single (.named hnot (.content (.single (.count (.bracket (.content (.single (.bare hrel)))
        .noBrackets) (by decide)))))))) (.bracket .empty .noBrackets)
  exact ⟨hp, hs, (parse_of_spells hp).2 _ hs⟩

end TreebankSearch.Pattern

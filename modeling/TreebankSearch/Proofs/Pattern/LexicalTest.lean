import TreebankSearch.Proofs.Pattern.Leading
import TreebankSearch.Proofs.Pattern.Literals
import TreebankSearch.Proofs.Pattern.Pieces

/-!
# Lexical tests in segments with a mark

What becomes of a test that requires a value of a lexical attribute, in whatever way the test is spelled. It is
lowered just if it is spelled with double quotes and without space. In any other spelling it stays as it is,
and is a test of the value with its letter case from then on, since the mark goes.
-/

namespace TreebankSearch

namespace Pattern

open Grammar (skip run? quotedBody? quoted? fraction? unsigned? number? literal? comparison? requirement?)

variable {s rest w name value test : List Char} {p : Char → Bool}

/-- The ways to write a value: in quotes, or as it is if it is a number. -/
inductive IsLiteral (value : List Char) : List Char → Prop
  | quoted (q : Quote) (h : q.mark ∉ value) : IsLiteral value (q.mark :: (value ++ [q.mark]))
  | number {front : List Char} {d : Char} (hvalue : value = front ++ [d])
      (hfront : ∀ c ∈ front, c.isDigit = true ∨ c = '.' ∨ c = '-') (hd : d.isDigit = true) :
      IsLiteral value value

inductive IsEqualityTest (name value : List Char) : List Char → Prop
  | spelled {gap before after w : List Char} (hgap : Spaces gap) (hbefore : Spaces before)
      (hafter : Spaces after) (hname : ∀ c ∈ name, isNameChar c = true) (hw : IsLiteral value w) :
      IsEqualityTest name value ('@' :: (gap ++ (name ++ (before ++ '=' :: (after ++ w)))))

theorem eq_skip (s : List Char) : ∃ gap, Spaces gap ∧ s = gap ++ skip s :=
  ⟨s.takeWhile isSpace, List.all_eq_true.1 List.all_takeWhile, List.takeWhile_append_dropWhile.symm⟩

theorem eq_of_run? (h : run? p s = some (w, rest)) : s = w ++ rest ∧ w ≠ [] ∧ ∀ c ∈ w, p c = true := by
  unfold run? at h
  split at h
  · cases h
  · next hne =>
    cases h
    exact ⟨List.takeWhile_append_dropWhile.symm, hne, List.all_eq_true.1 List.all_takeWhile⟩

theorem eq_of_quotedBody? {q : Quote} (h : quotedBody? q s = some (value, rest)) :
    s = value ++ q.mark :: rest ∧ q.mark ∉ value := by
  rcases Text.not_mem_or_eq_append q.mark s with hq | ⟨front, back, rfl, hfront⟩
  · rw [quotedBody?_eq_none hq] at h
    cases h
  · rw [quotedBody?_append hfront] at h
    cases h
    exact ⟨rfl, hfront⟩

theorem eq_of_quoted? (h : quoted? s = some (value, rest)) :
    ∃ q : Quote, s = q.mark :: (value ++ q.mark :: rest) ∧ q.mark ∉ value := by
  unfold quoted? at h
  split at h
  · cases h
  · next c s =>
    split at h
    · next q hq =>
      obtain ⟨rfl, hvalue⟩ := eq_of_quotedBody? h
      exact ⟨q, by rw [Delimiter.eq_mark_of_ofChar hq], hvalue⟩
    · cases h

theorem eq_of_unsigned? (h : unsigned? s = some (value, rest)) : s = value ++ rest ∧
    ∃ front d, value = front ++ [d] ∧ (∀ c ∈ front, c.isDigit = true ∨ c = '.' ∨ c = '-') ∧
      d.isDigit = true := by
  have hdigits : ∀ {w : List Char}, w ≠ [] → (∀ c ∈ w, c.isDigit = true) →
      ∃ front d, w = front ++ [d] ∧ (∀ c ∈ front, c.isDigit = true) ∧ d.isDigit = true := by
    intro w hne hw
    obtain ⟨front, d, rfl⟩ := (List.eq_nil_or_concat w).resolve_left hne
    rw [List.concat_eq_append] at hw ⊢
    exact ⟨front, d, rfl, fun c hc => hw c (by simp [hc]), hw d (by simp)⟩
  obtain ⟨⟨whole, more⟩, hwhole, hfraction⟩ := Option.bind_eq_some_iff.1 h
  obtain ⟨rfl, hne, hall⟩ := eq_of_run? hwhole
  simp only at hfraction
  split at hfraction
  · next digits back hfound =>
    cases hfraction
    obtain ⟨after, hpoint, hrun⟩ := Option.bind_eq_some_iff.1 hfound
    obtain ⟨rfl, hne', hall'⟩ := eq_of_run? hrun
    obtain ⟨front, d, rfl, hfront, hd⟩ := hdigits hne' hall'
    refine ⟨by rw [Text.after?_eq_some_iff.1 hpoint]; simp, whole ++ '.' :: front, d, by simp, ?_, hd⟩
    intro c hc
    rcases List.mem_append.1 hc with hc | hc
    · exact .inl (hall c hc)
    rcases List.mem_cons.1 hc with rfl | hc
    · exact .inr (.inl rfl)
    · exact .inl (hfront c hc)
  · cases hfraction
    obtain ⟨front, d, rfl, hfront, hd⟩ := hdigits hne hall
    exact ⟨rfl, front, d, rfl, fun c hc => .inl (hfront c hc), hd⟩

theorem isLiteral_of_number? (h : number? s = some (value, rest)) :
    s = value ++ rest ∧ IsLiteral value value := by
  unfold number? at h
  split at h
  · next more hsign =>
    obtain ⟨⟨number, back⟩, hnumber, he⟩ := Option.map_eq_some_iff.1 h
    cases he
    obtain ⟨rfl, front, d, rfl, hfront, hd⟩ := eq_of_unsigned? hnumber
    have hsigned : ∀ c ∈ '-' :: front, c.isDigit = true ∨ c = '.' ∨ c = '-' :=
      List.forall_mem_cons.2 ⟨.inr (.inr rfl), hfront⟩
    exact ⟨(Text.after?_eq_some_iff.1 hsign).trans (by simp), .number List.cons_append.symm hsigned hd⟩
  · obtain ⟨hs, front, d, he, hfront, hd⟩ := eq_of_unsigned? h
    exact ⟨hs, .number he hfront hd⟩

theorem isLiteral_of_literal? (h : literal? s = some (value, rest)) :
    ∃ w, s = w ++ rest ∧ IsLiteral value w := by
  unfold literal? at h
  split at h
  · next hquoted =>
    cases h
    obtain ⟨q, rfl, hvalue⟩ := eq_of_quoted? hquoted
    exact ⟨_, by simp, .quoted q hvalue⟩
  · obtain ⟨hs, hw⟩ := isLiteral_of_number? h
    exact ⟨value, hs, hw⟩

theorem eq_of_comparison? (h : comparison? s = some (.eq, rest)) : s = '=' :: rest := by
  obtain ⟨op, -, h⟩ := List.exists_of_findSome?_eq_some h
  obtain ⟨more, hafter, he⟩ := Option.map_eq_some_iff.1 h
  cases he
  exact Text.after?_eq_some_iff.1 hafter

/-- What is read as a test that requires a value is one of the spellings of that test. -/
theorem isEqualityTest_of_attributeTest? {name value : String}
    (h : Grammar.attributeTest? s = some (⟨name, some (.eq, value)⟩, rest)) :
    ∃ test, s = test ++ rest ∧ IsEqualityTest name.toList value.toList test := by
  obtain ⟨s₁, hat, h⟩ := Option.bind_eq_some_iff.1 h
  obtain ⟨⟨nameChars, s₂⟩, hname, h⟩ := Option.bind_eq_some_iff.1 h
  obtain ⟨gap, hgap, hs₁⟩ := eq_skip s₁
  obtain ⟨hskip, -, hall⟩ := eq_of_run? hname
  obtain ⟨before, hbefore, hs₂⟩ := eq_skip s₂
  simp only at h
  split at h
  · next requirement more hrequirement =>
    cases h
    obtain ⟨⟨op, s₃⟩, hop, h⟩ := Option.bind_eq_some_iff.1 hrequirement
    obtain ⟨⟨valueChars, more⟩, hliteral, h⟩ := Option.bind_eq_some_iff.1 h
    cases h
    obtain ⟨after, hafter, hs₃⟩ := eq_skip s₃
    obtain ⟨w, hskip', hw⟩ := isLiteral_of_literal? hliteral
    refine ⟨'@' :: (gap ++ (nameChars ++ (before ++ '=' :: (after ++ w)))), ?_, ?_⟩
    · rw [Text.after?_eq_some_iff.1 hat, hs₁, hskip, hs₂, eq_of_comparison? hop, hs₃, hskip']
      simp
    · rw [String.toList_ofList, String.toList_ofList]
      exact .spelled hgap hbefore hafter hall hw
  · cases h

theorem plain_stem {gap name before after : List Char} (hgap : Spaces gap)
    (hname : ∀ c ∈ name, isNameChar c = true) (hbefore : Spaces before) (hafter : Spaces after) :
    ∀ c ∈ gap ++ (name ++ (before ++ '=' :: after)), c ≠ '@' ∧ Delimiter.ofChar c = .plain := by
  have hspaces : ∀ {gap : List Char}, Spaces gap → ∀ c ∈ gap, c ≠ '@' ∧ Delimiter.ofChar c = .plain :=
    fun hgap c hc => ⟨by rintro rfl; exact absurd (hgap '@' hc) (by decide), ofChar_of_isSpace (hgap c hc)⟩
  intro c hc
  rcases List.mem_append.1 hc with hc | hc
  · exact hspaces hgap c hc
  rcases List.mem_append.1 hc with hc | hc
  · exact ⟨by rintro rfl; exact absurd (hname '@' hc) (by decide), ofChar_of_isNameChar (hname c hc)⟩
  rcases List.mem_append.1 hc with hc | hc
  · exact hspaces hbefore c hc
  rcases List.mem_cons.1 hc with rfl | hc
  · exact ⟨by decide, by decide⟩
  · exact hspaces hafter c hc

theorem IsLiteral.exists_last (h : IsLiteral value w) (hvalue : '@' ∉ value) :
    ∃ front c, w = front ++ [c] ∧ CaseMark.Halts c ∧ '@' ∉ w := by
  cases h with
  | quoted q =>
    have hw : '@' ∉ q.mark :: (value ++ [q.mark]) := by simp [hvalue, at_ne_mark q]
    exact ⟨q.mark :: value, q.mark, rfl, CaseMark.halts_mark q, hw⟩
  | @number front d he hfront hd => exact ⟨front, d, he, CaseMark.halts_of_isDigit hd, hvalue⟩

theorem IsEqualityTest.exists_last (h : IsEqualityTest name value test) (hvalue : '@' ∉ value) :
    ∃ front c, test = '@' :: (front ++ [c]) ∧ CaseMark.Halts c ∧ '@' ∉ front ++ [c] := by
  cases h with
  | @spelled gap before after w hgap hbefore hafter hname hw =>
    obtain ⟨front, c, rfl, hc, hat⟩ := hw.exists_last hvalue
    have hstem := plain_stem hgap hname hbefore hafter
    refine ⟨gap ++ (name ++ (before ++ '=' :: after)) ++ front, c, by simp, hc, ?_⟩
    rw [List.append_assoc, List.mem_append, not_or]
    exact ⟨fun hm => (hstem '@' hm).1 rfl, hat⟩

theorem IsEqualityTest.at_not_mem {k : Context} (h : IsEqualityTest name value test)
    (hat : AtOutside k (test ++ rest)) : '@' ∉ value := by
  cases h with
  | @spelled gap before after w hgap hbefore hafter hname hw =>
    obtain ⟨literal, bs⟩ := k
    obtain rfl : literal = none := hat.1 rfl
    have hstem := plain_stem hgap hname hbefore hafter
    cases hw with
    | quoted q hq =>
      have hplain : ∀ c ∈ '@' :: (gap ++ (name ++ (before ++ '=' :: after))), Delimiter.ofChar c = .plain :=
        List.forall_mem_cons.2 ⟨by decide, fun c hc => (hstem c hc).2⟩
      have hquoted : AtOutside ⟨none, bs⟩ (('@' :: (gap ++ (name ++ (before ++ '=' :: after)))) ++
          q.mark :: (value ++ q.mark :: rest)) := by
        simpa using hat
      exact hquoted.not_mem_literal hplain hq
    | number he hfront hd =>
      subst he
      intro hm
      rcases List.mem_append.1 hm with hm | hm
      · rcases hfront '@' hm with hc | hc | hc <;> revert hc <;> decide
      · rw [← List.mem_singleton.1 hm] at hd
        revert hd
        decide

end Pattern

namespace CaseMark

open Pattern (AtOutside atOutside_append IsEqualityTest IsLiteral Context Spaces equation)

variable {s y : List Char} {inWord : Bool}

theorem trimStart_append_at (s y : List Char) :
    Text.trimStart (s ++ '@' :: y) = Text.trimStart s ++ '@' :: y := by
  induction s with
  | nil => exact Text.trimStart_cons (by decide) y
  | cons c s ih =>
    cases hc : Text.isBlank c with
    | true =>
      rw [List.cons_append, Text.trimStart, Text.trimStart, List.dropWhile_cons_of_pos hc,
        List.dropWhile_cons_of_pos hc]
      exact ih
    | false => rw [List.cons_append, Text.trimStart_cons hc, Text.trimStart_cons hc, List.cons_append]

theorem afterBlanks?_append_at (s y : List Char) :
    afterBlanks? (s ++ '@' :: y) = (afterBlanks? s).map (· ++ '@' :: y) := by
  cases s with
  | nil => rfl
  | cons c s =>
    rw [List.cons_append, afterBlanks?, afterBlanks?, trimStart_append_at]
    split <;> rfl

theorem wordStart?_append_at (inWord : Bool) (s y : List Char) :
    wordStart? inWord (s ++ '@' :: y) = (wordStart? inWord s).map (· ++ '@' :: y) := by
  cases inWord with
  | true => exact afterBlanks?_append_at s y
  | false => exact congrArg some (trimStart_append_at s y)

theorem after?_and_append_at (s y : List Char) : Text.after? ['a', 'n', 'd'] (s ++ '@' :: y) =
    (Text.after? ['a', 'n', 'd'] s).map (· ++ '@' :: y) := Text.after?_append_of_not_mem (by decide) s y

theorem after?_caseMark_append_at (h : Text.after? caseMark ('@' :: y) = none) (s : List Char) :
    Text.after? caseMark (s ++ '@' :: y) = (Text.after? caseMark s).map (· ++ '@' :: y) := by
  cases s with
  | nil =>
    rw [List.nil_append, h]
    rfl
  | cons c s =>
    rw [caseMark_eq, List.cons_append, Text.after?, Text.after?]
    split
    · exact Text.after?_append_of_not_mem (by decide) s y
    · rfl

theorem startsWithWord_append_at (s y : List Char) :
    Text.startsWithWord (s ++ '@' :: y) = Text.startsWithWord s := by
  cases s with
  | nil =>
    have hat : Text.isWordChar '@' = false := by decide +kernel
    exact hat
  | cons => rfl

theorem afterMark?_append_at (h : Text.after? caseMark ('@' :: y) = none) (inWord : Bool) (s : List Char) :
    afterMark? inWord (s ++ '@' :: y) = (afterMark? inWord s).map (· ++ '@' :: y) := by
  have hmark := after?_caseMark_append_at h
  have hjoined : afterJoinedMark? inWord (s ++ '@' :: y) =
      (afterJoinedMark? inWord s).map (· ++ '@' :: y) := by
    simp only [afterJoinedMark?, Option.bind_eq_bind, wordStart?_append_at, Option.bind_map, Option.map_bind,
      Function.comp_def, after?_and_append_at, afterBlanks?_append_at, hmark]
  have hfirst : afterMarkJoined? (s ++ '@' :: y) = (afterMarkJoined? s).map (· ++ '@' :: y) := by
    simp only [afterMarkJoined?, Option.bind_eq_bind, Option.bind_map, Option.map_bind, Function.comp_def,
      after?_and_append_at, afterBlanks?_append_at, hmark, startsWithWord_append_at, trimStart_append_at]
    refine Option.bind_congr fun _ _ => Option.bind_congr fun _ _ => Option.bind_congr fun _ _ => ?_
    split <;> rfl
  unfold afterMark?
  rw [hjoined, hfirst, hmark]
  cases afterJoinedMark? inWord s with
  | some => rfl
  | none => cases afterMarkJoined? s <;> rfl

theorem dropMarks_append_at (h : Text.after? caseMark ('@' :: y) = none) (inWord : Bool) (s : List Char) :
    dropMarks inWord (s ++ '@' :: y) = dropMarks inWord s ++ '@' :: dropMarks false y := by
  have hsign : Text.isWordChar '@' = false := by decide +kernel
  fun_induction dropMarks inWord s with
  | case1 inWord s rest hmark _ ih =>
    have hmark' : afterMark? inWord (s ++ '@' :: y) = some (rest ++ '@' :: y) := by
      rw [afterMark?_append_at h, hmark]
      rfl
    rw [dropMarks_mark hmark', ih]
  | case2 inWord hnone =>
    have hnone' : afterMark? inWord ('@' :: y) = none := by
      rw [← List.nil_append ('@' :: y), afterMark?_append_at h, hnone]
      rfl
    rw [List.nil_append, dropMarks_cons hnone', hsign]
    rfl
  | case3 inWord c s hnone ih =>
    have hnone' : afterMark? inWord (c :: (s ++ '@' :: y)) = none := by
      rw [← List.cons_append, afterMark?_append_at h, hnone]
      rfl
    rw [List.cons_append, dropMarks_cons hnone', ih]
    rfl

theorem after?_caseMark_of_isEqualityTest {name value test : List Char} (h : IsEqualityTest name value test)
    (hname : name ∈ lexicalNames) (s : List Char) : Text.after? caseMark (test ++ s) = none := by
  cases h with
  | @spelled gap before after w hgap hbefore hafter _ hw =>
    have hhead : ∀ t, (gap ++ (name ++ t)).head? ≠ some 'c' := by
      intro t
      cases gap with
      | nil =>
        have hnames : ∀ name ∈ lexicalNames, ∃ d name', name = d :: name' ∧ d ≠ 'c' := by
          simp [lexicalNames]
        obtain ⟨d, name', rfl, hd⟩ := hnames name hname
        exact fun he => hd (Option.some.inj he)
      | cons d gap =>
        intro he
        obtain rfl : d = 'c' := Option.some.inj he
        exact absurd (hgap 'c' List.mem_cons_self) (by decide)
    cases hafter : Text.after? caseMark ('@' :: (gap ++ (name ++ (before ++ '=' :: (after ++ w)))) ++ s) with
    | none => rfl
    | some rest =>
      have he := Text.after?_eq_some_iff.1 hafter
      rw [caseMark_eq, List.cons_append, List.cons_append, List.append_assoc, List.append_assoc] at he
      have hc := congrArg List.head? (List.cons.inj he).2
      exact absurd hc (hhead _)

theorem eq_of_literal_quote {value w t : List Char} (hw : IsLiteral value w) (he : w ++ s = '"' :: t) :
    w = '"' :: (value ++ ['"']) ∧ '"' ∉ value := by
  cases hw with
  | quoted q hvalue =>
    have hq : q.mark = '"' := (List.cons.inj he).1
    rw [hq] at hvalue ⊢
    exact ⟨rfl, hvalue⟩
  | @number front d hvalue hfront hd =>
    subst hvalue
    cases front with
    | nil =>
      obtain rfl : d = '"' := (List.cons.inj he).1
      exact absurd hd (by decide)
    | cons c front =>
      obtain rfl : c = '"' := (List.cons.inj he).1
      exact absurd (hfront '"' List.mem_cons_self) (by decide)

theorem eq_of_quote {name value test name' t : List Char} (h : IsEqualityTest name value test)
    (hname' : name' ∈ lexicalNames) (he : test ++ s = '@' :: (name' ++ '=' :: '"' :: t)) :
    test = '@' :: (name ++ '=' :: '"' :: (value ++ ['"'])) ∧ '"' ∉ value := by
  cases h with
  | @spelled gap before after w hgap hbefore hafter hname hw =>
    have hnames : ∀ name ∈ lexicalNames, '=' ∉ name ∧ name.all (!Pattern.isSpace ·) = true := by decide
    have hequals : '=' ∉ gap ++ (name ++ before) := by
      simp only [List.mem_append, not_or]
      exact ⟨fun hm => absurd (hgap '=' hm) (by decide), fun hm => absurd (hname '=' hm) (by decide),
        fun hm => absurd (hbefore '=' hm) (by decide)⟩
    have hsame : gap ++ (name ++ before) ++ '=' :: (after ++ (w ++ s)) = name' ++ '=' :: '"' :: t := by
      simpa using he
    obtain ⟨hstem, -, hbehind⟩ := append_cons_inj hequals (hnames name' hname').1 hsame
    have hnone : ∀ {gap : List Char}, Spaces gap → (∀ c ∈ gap, c ∈ name') → gap = [] := by
      intro gap hgap hsub
      rw [List.eq_nil_iff_forall_not_mem]
      intro c hc
      have hspace := List.all_eq_true.1 (hnames name' hname').2 c (hsub c hc)
      rw [hgap c hc] at hspace
      cases hspace
    obtain rfl := hnone hgap fun c hc => by rw [← hstem]; simp [hc]
    obtain rfl := hnone hbefore fun c hc => by rw [← hstem]; simp [hc]
    have hquoted : after = [] := by
      cases after with
      | nil => rfl
      | cons c after =>
        obtain rfl : c = '"' := (List.cons.inj hbehind).1
        exact absurd (hafter '"' List.mem_cons_self) (by decide)
    subst hquoted
    obtain ⟨rfl, hvalue⟩ := eq_of_literal_quote hw hbehind
    exact ⟨rfl, hvalue⟩

/-- A test of a value that is not empty is found just in the spelling with double quotes and no space. -/
theorem lexicalTest?_of_isEqualityTest {name value test : List Char} (h : IsEqualityTest name value test)
    (hname : name ∈ lexicalNames) (hvalue : value ≠ []) (s : List Char) :
    lexicalTest? (test ++ s) = if test = '@' :: (name ++ '=' :: '"' :: (value ++ ['"'])) then
      some (lowerTest name value, s) else none := by
  split
  · next he =>
    have hstart : test ++ s = '@' :: (name ++ '=' :: '"' :: (value ++ '"' :: s)) := by rw [he]; simp
    rw [hstart]
    exact lexicalTest?_test hname hvalue (eq_of_quote h hname hstart).2 s
  · next hne =>
    rw [Option.eq_none_iff_forall_ne_some]
    rintro ⟨new, rest⟩ hfound
    obtain ⟨part, he, hrule⟩ := (TestRule.foundBy.found none).1 hfound
    cases hrule with
    | @test _ name' value' _ hname' =>
      have hstart : test ++ s = '@' :: (name' ++ '=' :: '"' :: (value' ++ '"' :: rest)) := by simpa using he
      exact hne (eq_of_quote h hname' hstart).1

def loweredTest (name value test : List Char) : List Char :=
  if test = '@' :: (name ++ '=' :: '"' :: (value ++ ['"'])) then lowerTest name value else test

theorem lowerTests_of_isEqualityTest {name value test : List Char} (h : IsEqualityTest name value test)
    (hname : name ∈ lexicalNames) (hvalue : value ≠ []) (hat : '@' ∉ test.tail) (s : List Char) :
    lowerTests (test ++ s) = loweredTest name value test ++ lowerTests s := by
  have hfound := lexicalTest?_of_isEqualityTest h hname hvalue s
  rw [loweredTest]
  split
  · next he =>
    rw [if_pos he] at hfound
    exact lowerTests_test hfound
  · next hne =>
    rw [if_neg hne] at hfound
    cases h with
    | spelled => exact (lowerTests_cons hfound).trans (congrArg ('@' :: ·) (lowerTests_append hat s))

theorem dropMarks_of_isEqualityTest {name value test : List Char} (h : IsEqualityTest name value test)
    (hname : name ∈ lexicalNames) (hvalue : '@' ∉ value) (front back : List Char) :
    dropMarks false (front ++ (test ++ back)) =
      dropMarks false front ++ (test ++ dropMarks (isWord test.getLast?) back) := by
  obtain ⟨inner, c, he, hc, hsign⟩ := h.exists_last hvalue
  have hne : c ≠ '@' := by
    rintro rfl
    exact hsign (by simp)
  have hinner : '@' ∉ inner := fun hm => hsign (List.mem_append_left _ hm)
  have hlast : isWord test.getLast? = Text.isWordChar c := by
    rw [he, ← List.cons_append, List.getLast?_concat]
    rfl
  have hnomark := after?_caseMark_of_isEqualityTest h hname back
  rw [hlast]
  rw [he, List.cons_append, List.append_assoc, List.singleton_append] at hnomark ⊢
  rw [dropMarks_append_at hnomark, dropMarks_append_halting hinner hc hne]
  simp

theorem atOutside_dropMarks_around {front test back : List Char} {k : Context}
    (h : AtOutside k (front ++ (test ++ back))) :
    AtOutside k (dropMarks false front ++ (test ++ dropMarks inWord back)) := by
  obtain ⟨hfront, k', hscan, htest⟩ := atOutside_append.1 h
  obtain ⟨htest, k'', hscan', hback⟩ := atOutside_append.1 htest
  have hrest : AtOutside k'' (dropMarks inWord back) := by
    rw [← List.append_nil back] at hback
    simpa using atOutside_dropMarks hback
  exact atOutside_dropMarks (atOutside_append.2
    ⟨hfront, k', hscan, atOutside_append.2 ⟨htest, k'', hscan', hrest⟩⟩)

theorem rewriteSegment_of_isEqualityTest {name value test front back : List Char} {k : Context}
    (h : IsEqualityTest name value test) (hname : name ∈ lexicalNames) (hvalue : value ≠ [])
    (hat : AtOutside k (front ++ (test ++ back))) :
    rewriteSegment (front ++ (test ++ back)) = rewriteSegment front ++ (loweredTest name value test ++
      lowerTests (dropMarks (isWord test.getLast?) back)) := by
  obtain ⟨-, k', -, htest⟩ := atOutside_append.1 hat
  have hsign := h.at_not_mem htest
  obtain ⟨inner, c, he, -, htail⟩ := h.exists_last hsign
  have hleft : AtOutside k (dropMarks false front ++ (test ++ dropMarks (isWord test.getLast?) back)) :=
    atOutside_dropMarks_around hat
  rw [rewriteSegment, dropMarks_of_isEqualityTest h hname hsign, rewriteSegment,
    ← lowerTests_of_isEqualityTest h hname hvalue (by rw [he]; exact htail)]
  rw [he, List.cons_append] at hleft ⊢
  exact lowerTests_append_at hleft

theorem at_mem_loweredTest {name value test : List Char} (h : IsEqualityTest name value test) :
    '@' ∈ loweredTest name value test := by
  rw [loweredTest]
  split
  · have hcall : '@' ∈ "lower-case(@".toList := by decide
    unfold lowerTest
    generalize "lower-case(@".toList = call at hcall
    simp [hcall]
  · cases h with
    | spelled => exact List.mem_cons_self

theorem closeSegment_of_isEqualityTest {name value test front back rest : List Char} {k : Context}
    (h : IsEqualityTest name value test) (hname : name ∈ lexicalNames) (hvalue : value ≠ [])
    (hat : AtOutside k (front ++ (test ++ back)))
    (hmark : Text.occursIn caseMark (front ++ (test ++ back)) = true) (hrest : rest ≠ []) :
    closeSegment (front ++ (test ++ back)) rest =
      (nodeOpen ++ (rewriteSegment front ++ (loweredTest name value test ++
        lowerTests (dropMarks (isWord test.getLast?) back))), rest) := by
  have hrewrite := rewriteSegment_of_isEqualityTest h hname hvalue hat
  have hblank : (rewriteSegment (front ++ (test ++ back))).all Text.isBlank = false := by
    rw [List.all_eq_false]
    refine ⟨'@', ?_, by decide⟩
    rw [hrewrite]
    exact List.mem_append_right _ (List.mem_append_left _ (at_mem_loweredTest h))
  rw [closeSegment_kept hmark hrest fun _ => hblank, hrewrite]

end CaseMark

namespace Pattern

open CaseMark

/-- In a segment with a mark, the test that a lexical attribute has a value becomes one of the lower-cased
value if it is spelled with double quotes and without space. In any other spelling it stays. -/
theorem resolve_lexical_test {text : String} (hp : parse text ≠ .error .malformed)
    (hliterals : ∀ body ∈ literals text, '@' ∉ body) {before front test back rest : List Char}
    (hs : IsSegment text.toList before (front ++ (test ++ back)) rest)
    (hmark : Text.occursIn caseMark (front ++ (test ++ back)) = true) {name value : String}
    (htest : Grammar.attributeTest? (test ++ (back ++ rest)) =
      some (⟨name, some (.eq, value)⟩, back ++ rest))
    (hname : name = "word" ∨ name = "lemma") (hvalue : value ≠ "") :
    (resolve text).toList = carryOut (before ++ nodeOpen) ++ (rewriteSegment front ++
      ((if test = '@' :: (name.toList ++ '=' :: '"' :: (value.toList ++ ['"'])) then
          "lower-case(@".toList ++ name.toList ++ [')', '=', '"'] ++ Text.lower value.toList ++ ['"']
        else test) ++
        (lowerTests (dropMarks (isWord test.getLast?) back) ++ carryOut rest))) := by
  obtain ⟨spelled, he, hspelled⟩ := isEqualityTest_of_attributeTest? htest
  obtain rfl : spelled = test := (List.append_cancel_right he).symm
  have hlexical : name.toList ∈ lexicalNames := by rcases hname with rfl | rfl <;> decide
  have hne : value.toList ≠ [] := fun h => hvalue (String.toList_eq_nil_iff.1 h)
  have hat := atOutside_of_parse hp hliterals
  rw [hs.text] at hat
  obtain ⟨-, k, -, hat⟩ := atOutside_append.1 hat
  obtain ⟨-, k, -, hat⟩ := atOutside_append.1 hat
  obtain ⟨hat, -⟩ := atOutside_append.1 hat
  obtain ⟨settled, hsettled, hcarry⟩ := hs.exists_carryOut
  rw [resolve, String.toList_ofList, hcarry, hsettled,
    closeSegment_of_isEqualityTest hspelled hlexical hne hat hmark hs.closed.ne_nil]
  unfold loweredTest lowerTest
  simp only [List.append_assoc]

def mixedSpellings : String :=
  "//node[@word = 'Huis' and @caseinsensitive=\"yes\" and @lemma=\"Een\"]"

theorem resolve_mixedSpellings : parse mixedSpellings ≠ .error .malformed ∧
    (∀ body ∈ literals mixedSpellings, '@' ∉ body) ∧
    resolve mixedSpellings = "//node[@word = 'Huis' and lower-case(@lemma)=\"een\"]" := by
  have none : Spaces [] := by decide
  have one : Spaces [' '] := by decide
  have hword : Spelled (.operand (.requiring "word" "Huis")) _ :=
    .comparison .eq .single (by decide) one one (by decide)
  have hmark : Spelled (.operand (.requiring "caseinsensitive" "yes")) _ :=
    .comparison .eq .double (by decide) none none (by decide)
  have hlemma : Spelled (.operand (.requiring "lemma" "Een")) _ :=
    .comparison .eq .double (by decide) none none (by decide)
  have hs : Spells ⟨2, ⟨[[.requiring "word" "Huis", .connective .and, .requiring "caseinsensitive" "yes",
      .connective .and, .requiring "lemma" "Een"]]⟩⟩ mixedSpellings.toList :=
    ⟨[], [], _, [], none, none, .bracket none (.content none (.join .and hword one (by decide) one (by decide)
      (.join .and hmark one (by decide) one (by decide) (.single hlemma))) none) .noBrackets, none,
      by decide +kernel⟩
  have hp : parse mixedSpellings ≠ .error .malformed := by
    rw [hs.parse]
    exact nofun
  have hliterals : ∀ body ∈ literals mixedSpellings, '@' ∉ body := by decide +kernel
  have hsegment : IsSegment mixedSpellings.toList ['/', '/']
      ("@word = 'Huis' and @caseinsensitive=\"yes\" and ".toList ++ ("@lemma=\"Een\"".toList ++ [])) [']'] :=
    ⟨by decide +kernel, by decide +kernel, by decide +kernel, closes_bracket []⟩
  have htest : Grammar.attributeTest? ("@lemma=\"Een\"".toList ++ ([] ++ [']'])) =
      some (⟨"lemma", some (.eq, "Een")⟩, [] ++ [']']) := by decide +kernel
  have hresolve := resolve_lexical_test hp hliterals hsegment (by decide +kernel) htest (by decide) (by decide)
  exact ⟨hp, hliterals, String.toList_injective (hresolve.trans (by decide +kernel))⟩

def singleQuoted : String := "//node[@word='Huis' and @caseinsensitive=\"yes\"]"

/-- The mark goes and the test stays, so that it still requires the value as it is written. -/
theorem resolve_singleQuoted :
    parse singleQuoted = .ok ⟨2, ⟨[[.requiring "word" "Huis", .connective .and,
      .requiring "caseinsensitive" "yes"]]⟩⟩ ∧
    (∀ body ∈ literals singleQuoted, '@' ∉ body ∧ ']' ∉ body ∧ Text.occursIn nodeOpen body = false) ∧
    IsSegment singleQuoted.toList ['/', '/'] ("@word='Huis' and ".toList ++ caseMark) [']'] ∧
    resolve singleQuoted = "//node[@word='Huis']" ∧
    parse (resolve singleQuoted) = .ok ⟨2, ⟨[[.requiring "word" "Huis"]]⟩⟩ := by
  have none : Spaces [] := by decide
  have one : Spaces [' '] := by decide
  have hword : Spelled (.operand (.requiring "word" "Huis")) _ :=
    .comparison .eq .single (by decide) none none (by decide)
  have hmark : Spelled (.operand (.requiring "caseinsensitive" "yes")) _ :=
    .comparison .eq .double (by decide) none none (by decide)
  have hs : Spells ⟨2, ⟨[[.requiring "word" "Huis", .connective .and,
      .requiring "caseinsensitive" "yes"]]⟩⟩ singleQuoted.toList :=
    ⟨[], [], _, [], none, none, .bracket none (.content none
      (.join .and hword one (by decide) one (by decide) (.single hmark)) none) .noBrackets, none, by decide⟩
  have hs' : Spells ⟨2, ⟨[[.requiring "word" "Huis"]]⟩⟩ "//node[@word='Huis']".toList :=
    ⟨[], [], _, [], none, none, .bracket none (.content none (.single hword) none) .noBrackets, none, by decide⟩
  have hresolve : resolve singleQuoted = "//node[@word='Huis']" := by decide +kernel
  rw [hresolve]
  exact ⟨hs.parse, by decide +kernel,
    ⟨by decide +kernel, by decide +kernel, by decide +kernel, closes_bracket []⟩, rfl, hs'.parse⟩

end Pattern
end TreebankSearch

import Mathlib.Data.List.DropRight
import TreebankSearch.Proofs.Pattern.Segment

/-!
# Rewriting a segment

What a segment with a mark becomes: each mark in it goes, with the word `and` on one side of it, and each
test of a lexical attribute becomes one of the lower-cased value. Both are replacements by a rule, from left
to right, and there is one text that a segment can become by them.
-/

namespace TreebankSearch.CaseMark

variable {last : Option Char} {c : Char} {s t gap part rest new : List Char}

/-- A rule says what a part of a text becomes, given the character in front of the part and the text behind
it. -/
abbrev Rule := Option Char → List Char → List Char → List Char → Prop

/-- The rule is applied to each part that it applies to, from left to right, and all else stays. The first
argument is the character in front of the text. -/
inductive Replaced (rule : Rule) : Option Char → List Char → List Char → Prop
  | nil (last : Option Char) : Replaced rule last [] []
  | part {last : Option Char} {part rest new t : List Char} (h : rule last part rest new)
      (hrest : Replaced rule part.getLast? rest t) : Replaced rule last (part ++ rest) (new ++ t)
  | char {last : Option Char} {c : Char} {s t : List Char}
      (h : ∀ part rest new, c :: s = part ++ rest → ¬ rule last part rest new)
      (hs : Replaced rule (some c) s t) : Replaced rule last (c :: s) (c :: t)

/-- The parts that a rule applies to are the ones that are found: what a part becomes, and the text behind
it. No part is empty. -/
structure Rule.FoundBy (rule : Rule) (find? : Option Char → List Char → Option (List Char × List Char)) :
    Prop where
  ne_nil : ∀ {last part rest new}, rule last part rest new → part ≠ []
  found : ∀ (last) {s new rest}, find? last s = some (new, rest) ↔
    ∃ part, s = part ++ rest ∧ rule last part rest new

theorem Replaced.unique {rule : Rule} {find? : Option Char → List Char → Option (List Char × List Char)}
    (hrule : rule.FoundBy find?) {t' : List Char} (h : Replaced rule last s t)
    (h' : Replaced rule last s t') : t = t' := by
  induction h generalizing t' with
  | nil =>
    generalize hs : ([] : List Char) = s at h'
    cases h' with
    | nil => rfl
    | part h' => exact absurd (List.append_eq_nil_iff.1 hs.symm).1 (hrule.ne_nil h')
    | char => cases hs
  | @part last part rest new t h hrest ih =>
    generalize hs : part ++ rest = s at h'
    cases h' with
    | nil => exact absurd (List.append_eq_nil_iff.1 hs).1 (hrule.ne_nil h)
    | @part _ part' rest' new' t'' h' hrest' =>
      have hfound := (hrule.found last).2 ⟨part, rfl, h⟩
      rw [hs, (hrule.found last).2 ⟨part', rfl, h'⟩] at hfound
      cases hfound
      rw [List.append_cancel_right hs] at ih
      rw [ih hrest']
    | char hno => exact absurd h (hno _ _ _ hs.symm)
  | @char last c s t hno hs ih =>
    generalize hcons : c :: s = s' at h'
    cases h' with
    | nil => cases hcons
    | part h' => exact absurd h' (hno _ _ _ hcons)
    | char hno' hs' =>
      obtain ⟨rfl, rfl⟩ := List.cons.inj hcons
      rw [ih hs']

/-- The rule is applied throughout by a function that goes through a text in the same way: at a part it goes
on behind the part, and elsewhere at the next character. -/
theorem Rule.FoundBy.replaced_iff {rule : Rule}
    {find? : Option Char → List Char → Option (List Char × List Char)} (hrule : rule.FoundBy find?)
    {f : Option Char → List Char → List Char} (hnil : ∀ last, f last [] = [])
    (hpart : ∀ last part rest new, rule last part rest new →
      f last (part ++ rest) = new ++ f part.getLast? rest)
    (hchar : ∀ last c s, find? last (c :: s) = none → f last (c :: s) = c :: f (some c) s) :
    Replaced rule last s t ↔ t = f last s := by
  have hexists : Replaced rule last s (f last s) := by
    induction hn : s.length using Nat.strong_induction_on generalizing last s with
    | _ n ih =>
      cases hfind : find? last s with
      | some found =>
        obtain ⟨new, rest⟩ := found
        obtain ⟨part, rfl, h⟩ := (hrule.found last).1 hfind
        have hlength := List.length_pos_iff.2 (hrule.ne_nil h)
        rw [List.length_append] at hn
        rw [hpart last part rest new h]
        exact .part h (ih rest.length (by omega) rfl)
      | none =>
        cases s with
        | nil =>
          rw [hnil]
          exact .nil last
        | cons c s =>
          rw [List.length_cons] at hn
          rw [hchar last c s hfind]
          refine .char (fun part rest new he h => ?_) (ih s.length (by omega) rfl)
          have hfound := (hrule.found last).2 ⟨part, he, h⟩
          rw [hfind] at hfound
          cases hfound
  constructor
  · exact fun h => h.unique hrule hexists
  · rintro rfl
    exact hexists

def Blanks (gap : List Char) : Prop := gap ≠ [] ∧ ∀ c ∈ gap, Text.isBlank c = true

def isWord (last : Option Char) : Bool := last.any Text.isWordChar

def AndFollows (s : List Char) : Prop :=
  ∃ gap rest, s = gap ++ (['a', 'n', 'd'] ++ rest) ∧ Blanks gap ∧ Text.startsWithWord rest = false

/-- A mark goes with the `and` before it, or else with the one behind it, or else by itself. -/
inductive MarkRule : Rule
  | joined {last : Option Char} {gap gap' rest : List Char} (hgap : ∀ c ∈ gap, Text.isBlank c = true)
      (hword : isWord last = true → gap ≠ []) (hgap' : Blanks gap') :
      MarkRule last (gap ++ (['a', 'n', 'd'] ++ (gap' ++ caseMark))) rest []
  | first {last : Option Char} {gap gap' rest : List Char} (hgap : Blanks gap)
      (hgap' : ∀ c ∈ gap', Text.isBlank c = true) (hrest : Text.trimStart rest = rest)
      (hword : Text.startsWithWord (gap' ++ rest) = false) :
      MarkRule last (caseMark ++ (gap ++ (['a', 'n', 'd'] ++ gap'))) rest []
  | alone {last : Option Char} {rest : List Char} (h : ¬ AndFollows rest) : MarkRule last caseMark rest []

theorem trimStart_trimStart (s : List Char) : Text.trimStart (Text.trimStart s) = Text.trimStart s :=
  List.dropWhile_idempotent _ s

theorem afterBlanks?_eq_some_iff : afterBlanks? s = some rest ↔
    ∃ gap, s = gap ++ rest ∧ Blanks gap ∧ Text.trimStart rest = rest := by
  constructor
  · intro h
    unfold afterBlanks? at h
    split at h
    · next c more =>
      split at h
      · next hc =>
        cases h
        obtain ⟨gap, he, hgap⟩ := Text.eq_trimStart more
        exact ⟨c :: gap, congrArg (c :: ·) he, ⟨List.cons_ne_nil c gap, List.forall_mem_cons.2 ⟨hc, hgap⟩⟩,
          trimStart_trimStart more⟩
      · cases h
    · cases h
  · rintro ⟨gap, rfl, ⟨hne, hblank⟩, hrest⟩
    obtain ⟨c, gap, rfl⟩ := List.exists_cons_of_ne_nil hne
    obtain ⟨hc, hgap⟩ := List.forall_mem_cons.1 hblank
    rw [List.cons_append, afterBlanks?, if_pos hc, Text.trimStart_append hgap, hrest]

theorem wordStart?_eq_some_iff : wordStart? (isWord last) s = some rest ↔
    ∃ gap, s = gap ++ rest ∧ (∀ c ∈ gap, Text.isBlank c = true) ∧ (isWord last = true → gap ≠ []) ∧
      Text.trimStart rest = rest := by
  cases hlast : isWord last with
  | true =>
    rw [wordStart?, if_pos rfl, afterBlanks?_eq_some_iff]
    constructor
    · rintro ⟨gap, rfl, hgap, hrest⟩
      exact ⟨gap, rfl, hgap.2, fun _ => hgap.1, hrest⟩
    · rintro ⟨gap, rfl, hgap, hne, hrest⟩
      exact ⟨gap, rfl, ⟨hne rfl, hgap⟩, hrest⟩
  | false =>
    rw [wordStart?, if_neg (by decide), Option.some.injEq]
    constructor
    · rintro rfl
      obtain ⟨gap, he, hgap⟩ := Text.eq_trimStart s
      exact ⟨gap, he, hgap, fun h => absurd h (by decide), trimStart_trimStart s⟩
    · rintro ⟨gap, rfl, hgap, -, hrest⟩
      rw [Text.trimStart_append hgap, hrest]

theorem trimStart_and (s : List Char) : Text.trimStart (['a', 'n', 'd'] ++ s) = ['a', 'n', 'd'] ++ s :=
  Text.trimStart_cons (by decide) _

theorem trimStart_caseMark (s : List Char) : Text.trimStart (caseMark ++ s) = caseMark ++ s := by
  rw [caseMark_eq]
  exact Text.trimStart_cons (by decide) _

theorem afterJoinedMark?_eq_some_iff : afterJoinedMark? (isWord last) s = some rest ↔
    ∃ gap gap', s = gap ++ (['a', 'n', 'd'] ++ (gap' ++ (caseMark ++ rest))) ∧
      (∀ c ∈ gap, Text.isBlank c = true) ∧ (isWord last = true → gap ≠ []) ∧ Blanks gap' := by
  simp only [afterJoinedMark?, Option.bind_eq_bind, Option.bind_eq_some_iff, wordStart?_eq_some_iff,
    Text.after?_eq_some_iff, afterBlanks?_eq_some_iff]
  constructor
  · rintro ⟨_, ⟨gap, rfl, hgap, hword, -⟩, _, rfl, _, ⟨gap', rfl, hgap', -⟩, rfl⟩
    exact ⟨gap, gap', rfl, hgap, hword, hgap'⟩
  · rintro ⟨gap, gap', rfl, hgap, hword, hgap'⟩
    exact ⟨_, ⟨gap, rfl, hgap, hword, trimStart_and _⟩, _, rfl, _,
      ⟨gap', rfl, hgap', trimStart_caseMark rest⟩, rfl⟩

theorem afterMarkJoined?_eq_some_iff : afterMarkJoined? s = some rest ↔
    ∃ gap gap', s = caseMark ++ (gap ++ (['a', 'n', 'd'] ++ (gap' ++ rest))) ∧ Blanks gap ∧
      (∀ c ∈ gap', Text.isBlank c = true) ∧ Text.trimStart rest = rest ∧
      Text.startsWithWord (gap' ++ rest) = false := by
  simp only [afterMarkJoined?, Option.bind_eq_bind, Option.bind_eq_some_iff, Text.after?_eq_some_iff,
    afterBlanks?_eq_some_iff]
  constructor
  · rintro ⟨_, rfl, _, ⟨gap, rfl, hgap, -⟩, more, rfl, h⟩
    split at h
    · cases h
    · next hword =>
      cases h
      obtain ⟨gap', he, hgap'⟩ := Text.eq_trimStart more
      exact ⟨gap, gap', by rw [← he], hgap, hgap', trimStart_trimStart more, by
        rw [← he, Bool.eq_false_iff]; exact hword⟩
  · rintro ⟨gap, gap', rfl, hgap, hgap', hrest, hword⟩
    refine ⟨_, rfl, _, ⟨gap, rfl, hgap, trimStart_and _⟩, _, rfl, ?_⟩
    rw [hword, if_neg (by decide), Text.trimStart_append hgap', hrest]

theorem afterJoinedMark?_caseMark (last : Option Char) (s : List Char) :
    afterJoinedMark? (isWord last) (caseMark ++ s) = none := by
  rw [Option.eq_none_iff_forall_ne_some]
  intro rest h
  obtain ⟨gap, gap', he, hgap, -⟩ := afterJoinedMark?_eq_some_iff.1 h
  rw [caseMark_eq] at he
  cases gap with
  | nil => exact absurd (List.cons.inj he).1 (by decide)
  | cons c gap =>
    have hc := hgap c List.mem_cons_self
    rw [← (List.cons.inj he).1] at hc
    exact absurd hc (by decide)

theorem afterMarkJoined?_caseMark (s : List Char) :
    afterMarkJoined? (caseMark ++ s) = none ↔ ¬ AndFollows s := by
  rw [← not_iff_not, not_not, ← ne_eq, Option.ne_none_iff_exists']
  constructor
  · rintro ⟨rest, h⟩
    obtain ⟨gap, gap', he, hgap, -, -, hword⟩ := afterMarkJoined?_eq_some_iff.1 h
    exact ⟨gap, gap' ++ rest, List.append_cancel_left he, hgap, hword⟩
  · rintro ⟨gap, rest, rfl, hgap, hword⟩
    obtain ⟨gap', he, hgap'⟩ := Text.eq_trimStart rest
    refine ⟨Text.trimStart rest, afterMarkJoined?_eq_some_iff.2
      ⟨gap, gap', by rw [← he], hgap, hgap', trimStart_trimStart rest, ?_⟩⟩
    rwa [← he]

theorem afterMark?_eq_some_iff : afterMark? (isWord last) s = some rest ↔
    ∃ part, s = part ++ rest ∧ MarkRule last part rest [] := by
  constructor
  · intro h
    unfold afterMark? at h
    split at h
    · next hjoined =>
      cases h
      obtain ⟨gap, gap', rfl, hgap, hword, hgap'⟩ := afterJoinedMark?_eq_some_iff.1 hjoined
      exact ⟨_, by simp only [List.append_assoc], .joined hgap hword hgap'⟩
    split at h
    · next hfirst =>
      cases h
      obtain ⟨gap, gap', rfl, hgap, hgap', hrest, hword⟩ := afterMarkJoined?_eq_some_iff.1 hfirst
      exact ⟨_, by simp only [List.append_assoc], .first hgap hgap' hrest hword⟩
    · next hnone =>
      obtain rfl := Text.after?_eq_some_iff.1 h
      exact ⟨caseMark, rfl, .alone ((afterMarkJoined?_caseMark rest).1 hnone)⟩
  · rintro ⟨part, rfl, h⟩
    rw [afterMark?]
    cases h with
    | @joined _ gap gap' _ hgap hword hgap' =>
      have hjoined : afterJoinedMark? (isWord last) (gap ++ (['a', 'n', 'd'] ++ (gap' ++ caseMark)) ++ rest) =
          some rest :=
        afterJoinedMark?_eq_some_iff.2 ⟨gap, gap', by simp only [List.append_assoc], hgap, hword, hgap'⟩
      rw [hjoined]
    | @first _ gap gap' _ hgap hgap' hrest hword =>
      have hfirst : afterMarkJoined? (caseMark ++ (gap ++ (['a', 'n', 'd'] ++ gap')) ++ rest) = some rest :=
        afterMarkJoined?_eq_some_iff.2
          ⟨gap, gap', by simp only [List.append_assoc], hgap, hgap', hrest, hword⟩
      rw [hfirst, List.append_assoc, afterJoinedMark?_caseMark]
    | alone h =>
      rw [afterJoinedMark?_caseMark, (afterMarkJoined?_caseMark rest).2 h, Text.after?_append]

theorem MarkRule.foundBy : Rule.FoundBy MarkRule fun last s =>
    (afterMark? (isWord last) s).map fun rest => ([], rest) where
  ne_nil h := by
    have hmark : caseMark ≠ [] := by decide
    cases h <;> simp [hmark]
  found := by
    intro last s new rest
    rw [Option.map_eq_some_iff]
    constructor
    · rintro ⟨_, h, he⟩
      cases he
      exact afterMark?_eq_some_iff.1 h
    · rintro ⟨part, hs, h⟩
      have hnew : new = [] := by cases h <;> rfl
      subst hnew
      exact ⟨rest, afterMark?_eq_some_iff.2 ⟨part, hs, h⟩, rfl⟩

theorem isWordChar_of_isBlank (hc : Text.isBlank c = true) : Text.isWordChar c = false := by
  have hapart : (Text.blanks.ranges.all fun blank => Text.wordChars.ranges.all fun word =>
      blank.2 < word.1 || word.2 < blank.1) = true := by decide +kernel
  obtain ⟨blank, hmem, hblank⟩ := List.any_eq_true.1 hc
  rw [Bool.and_eq_true, decide_eq_true_eq, decide_eq_true_eq] at hblank
  rw [Bool.eq_false_iff]
  intro hword
  obtain ⟨word, hmem', hword⟩ := List.any_eq_true.1 hword
  have h := List.all_eq_true.1 (List.all_eq_true.1 hapart blank hmem) word hmem'
  simp only [Bool.and_eq_true, Bool.or_eq_true, decide_eq_true_eq] at h hword
  omega

theorem dropMarks_of_not_word (hblank : Text.trimStart s = s) (hword : Text.startsWithWord s = false)
    (inWord : Bool) : dropMarks inWord s = dropMarks false s := by
  cases s with
  | nil => rw [dropMarks_nil, dropMarks_nil]
  | cons c s =>
    have hand : Text.after? ['a', 'n', 'd'] (Text.trimStart (c :: s)) = none := by
      have ha : 'a' ≠ c := by
        rintro rfl
        have ha : Text.isWordChar 'a' = true := by decide +kernel
        rw [Text.startsWithWord, ha] at hword
        cases hword
      rw [hblank]
      exact if_neg ha
    have hjoined : ∀ b, afterJoinedMark? b (c :: s) = none := by
      intro b
      rcases wordStart?_cases b (c :: s) with h | h <;> simp [afterJoinedMark?, h, hand]
    have hmark : afterMark? inWord (c :: s) = afterMark? false (c :: s) := by
      rw [afterMark?, afterMark?, hjoined, hjoined]
    cases h : afterMark? false (c :: s) with
    | none => rw [dropMarks_cons (hmark.trans h), dropMarks_cons h]
    | some rest => rw [dropMarks_mark (hmark.trans h), dropMarks_mark h]

/-- Behind a mark that goes, no word is going on. -/
theorem MarkRule.dropMarks_behind (h : MarkRule last part rest new) :
    dropMarks (isWord part.getLast?) rest = dropMarks false rest := by
  have hmark : caseMark = "@caseinsensitive=\"yes".toList ++ ['"'] := by decide
  have hquote : isWord (some '"') = false := by decide +kernel
  cases h with
  | joined =>
    rw [hmark, ← List.append_assoc, ← List.append_assoc, ← List.append_assoc, List.getLast?_concat, hquote]
  | alone => rw [hmark, List.getLast?_concat, hquote]
  | @first _ gap gap' _ hgap hgap' hrest hword =>
    rcases List.eq_nil_or_concat gap' with rfl | ⟨more, c, rfl⟩
    · exact dropMarks_of_not_word hrest hword _
    · have hc : isWord (some c) = false := isWordChar_of_isBlank (hgap' c (by simp))
      rw [List.concat_eq_append, ← List.append_assoc, ← List.append_assoc, ← List.append_assoc,
        List.getLast?_concat, hc]

theorem replaced_marks_iff : Replaced MarkRule last s t ↔ t = dropMarks (isWord last) s := by
  refine MarkRule.foundBy.replaced_iff (f := fun last s => dropMarks (isWord last) s)
    (fun last => dropMarks_nil _) (fun last part rest new h => ?_) (fun last c s h => ?_)
  · have hnew : new = [] := by cases h <;> rfl
    subst hnew
    exact (dropMarks_mark (afterMark?_eq_some_iff.2 ⟨part, rfl, h⟩)).trans h.dropMarks_behind.symm
  · exact dropMarks_cons (Option.map_eq_none_iff.1 h)

inductive TestRule : Rule
  | test {last : Option Char} {name value rest : List Char}
      (hname : name ∈ [['w', 'o', 'r', 'd'], ['l', 'e', 'm', 'm', 'a']])
      (hvalue : value ≠ []) (hquote : '"' ∉ value) :
      TestRule last ('@' :: (name ++ '=' :: '"' :: (value ++ ['"']))) rest
        ("lower-case(@".toList ++ name ++ [')', '=', '"'] ++ Text.lower value ++ ['"'])

theorem value_of_testOf? {name value : List Char} (h : testOf? name s = some (value, rest)) :
    value ≠ [] ∧ '"' ∉ value := by
  obtain ⟨more, -, h⟩ := Option.bind_eq_some_iff.1 h
  split at h
  · next c v d r htake hdrop =>
    cases h
    have hall := List.all_eq_true.1 (List.all_takeWhile (p := (· ≠ '"')) (l := more))
    rw [htake] at hall
    exact ⟨List.cons_ne_nil c v, fun hm => of_decide_eq_true (hall _ hm) rfl⟩
  · cases h

theorem lexicalTest?_test {name value : List Char} (hname : name ∈ lexicalNames) (hvalue : value ≠ [])
    (hquote : '"' ∉ value) (rest : List Char) :
    lexicalTest? ('@' :: (name ++ '=' :: '"' :: (value ++ '"' :: rest))) =
      some (lowerTest name value, rest) := by
  have hequals : ∀ name ∈ lexicalNames, '=' ∉ name := by decide
  have htest : ∀ sought ∈ lexicalNames,
      testOf? sought ('@' :: (name ++ '=' :: '"' :: (value ++ '"' :: rest))) =
        if name = sought then some (value, rest) else none := fun sought hsought => by
    rw [Pattern.testOf?_equation (hequals sought hsought) (hequals name hname) hquote]
    simp only [hvalue, ne_eq, not_false_eq_true, and_true]
  rw [lexicalTest?, lexicalNames, List.findSome?_cons, htest _ (by decide), List.findSome?_cons,
    htest _ (by decide)]
  simp only [lexicalNames, List.mem_cons, List.not_mem_nil, or_false] at hname
  rcases hname with rfl | rfl <;> rfl

theorem TestRule.foundBy : Rule.FoundBy TestRule fun _ s => lexicalTest? s where
  ne_nil h := by cases h; exact List.cons_ne_nil _ _
  found := by
    intro last s new rest
    constructor
    · intro h
      obtain ⟨name, hname, h⟩ := List.exists_of_findSome?_eq_some h
      obtain ⟨⟨value, _⟩, htest, he⟩ := Option.map_eq_some_iff.1 h
      cases he
      obtain ⟨hvalue, hquote⟩ := value_of_testOf? htest
      unfold lowerTest
      exact ⟨_, (eq_of_testOf? htest).trans (by simp), .test hname hvalue hquote⟩
    · rintro ⟨_, rfl, @⟨_, name, value, _, hname, hvalue, hquote⟩⟩
      have h := lexicalTest?_test hname hvalue hquote rest
      unfold lowerTest at h
      rwa [List.cons_append, List.append_assoc, List.cons_append, List.cons_append, List.append_assoc,
        List.singleton_append]

theorem replaced_tests_iff : Replaced TestRule last s t ↔ t = lowerTests s := by
  refine TestRule.foundBy.replaced_iff (f := fun _ s => lowerTests s) (fun _ => lowerTests_nil)
    (fun last part rest new h => ?_) (fun _ c s h => lowerTests_cons h)
  exact lowerTests_test ((TestRule.foundBy.found last).2 ⟨part, rfl, h⟩)

def Rewritten (segment t : List Char) : Prop :=
  ∃ bare, Replaced MarkRule none segment bare ∧ Replaced TestRule none bare t

theorem rewritten_iff {segment : List Char} : Rewritten segment t ↔ t = rewriteSegment segment := by
  simp only [Rewritten, replaced_marks_iff, replaced_tests_iff]
  constructor
  · rintro ⟨_, rfl, rfl⟩
    rfl
  · rintro rfl
    exact ⟨_, rfl, rfl⟩

end TreebankSearch.CaseMark

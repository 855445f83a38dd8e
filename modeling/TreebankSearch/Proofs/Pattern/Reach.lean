import TreebankSearch.Proofs.Pattern.CaseMark
import TreebankSearch.Proofs.Pattern.Conjunctive
import TreebankSearch.Proofs.Text.Basic

/-!
# Marks in the reach of a bracket

The text of tests without brackets, with the word `and` between them, as a segment of which the marks are
carried out. A mark is one whole test there: no other test holds its text, and none ends in the middle of
it. So the tests that are marks go, each with one `and`, and the lexical tests are lower-cased one by one.
-/

namespace TreebankSearch

namespace CaseMark

theorem caseMark_eq : caseMark =
    '@' :: ("caseinsensitive".toList ++ '=' :: ('"' :: ("yes".toList ++ ['"']))) := by decide

theorem after?_caseMark_of_ne {c : Char} (hc : c ≠ '@') (s : List Char) :
    Text.after? caseMark (c :: s) = none := by
  rw [caseMark_eq, Text.after?, if_neg (Ne.symm hc)]

theorem wordStart?_cases (inWord : Bool) (s : List Char) :
    wordStart? inWord s = none ∨ wordStart? inWord s = some (Text.trimStart s) := by
  cases inWord with
  | false => exact .inr rfl
  | true =>
    cases s with
    | nil => exact .inl rfl
    | cons c s =>
      cases hc : Text.isBlank c with
      | false => exact .inl (by simp [wordStart?, afterBlanks?, hc])
      | true => exact .inr (by simp [wordStart?, afterBlanks?, Text.trimStart, hc])

theorem afterMark?_eq_none {s : List Char} (hword : Text.after? ['a', 'n', 'd'] (Text.trimStart s) = none)
    (hmark : Text.after? caseMark s = none) (inWord : Bool) : afterMark? inWord s = none := by
  have hjoined : afterJoinedMark? inWord s = none := by
    rcases wordStart?_cases inWord s with h | h <;> simp [afterJoinedMark?, h, hword]
  have hfirst : afterMarkJoined? s = none := by simp [afterMarkJoined?, hmark]
  rw [afterMark?, hjoined, hfirst, hmark]

theorem blanks_no_quote {gap : List Char} (h : ∀ c ∈ gap, Text.isBlank c = true) : '"' ∉ gap :=
  fun hm => absurd (h '"' hm) (by decide)

/-- A character that is neither a blank nor in the word `and`. -/
def Halts (c : Char) : Prop := Text.isBlank c = false ∧ c ∉ ['a', 'n', 'd']

theorem halts_mark (q : Quote) : Halts q.mark := by cases q <;> exact ⟨by decide, by decide⟩

theorem halts_of_isDigit {c : Char} (h : c.isDigit = true) : Halts c := by
  refine ⟨Text.isBlank_of_isDigit h, fun hm => ?_⟩
  simp only [List.mem_cons, List.not_mem_nil, or_false] at hm
  rcases hm with rfl | rfl | rfl <;> cases h

theorem exists_front_of_afterMark? {inWord : Bool} {s rest : List Char}
    (h : afterMark? inWord s = some rest) :
    ∃ front more, s = front ++ '@' :: more ∧ ∀ c ∈ front, ¬ Halts c := by
  obtain ⟨body, hmark⟩ : ∃ body, caseMark = '@' :: body := ⟨_, caseMark_eq⟩
  unfold afterMark? at h
  split at h
  · next h₀ =>
    cases h
    obtain ⟨gap, gap', rfl, hg, hg'⟩ := exists_of_afterJoinedMark? h₀
    have hblank : ∀ {gap : List Char}, (∀ c ∈ gap, Text.isBlank c = true) → ∀ c ∈ gap, ¬ Halts c :=
      fun hgap c hc h => absurd (hgap c hc) (ne_true_of_eq_false h.1)
    refine ⟨gap ++ (['a', 'n', 'd'] ++ gap'), body ++ rest, by rw [hmark]; simp, fun c hc => ?_⟩
    rcases List.mem_append.1 hc with hc | hc
    · exact hblank hg c hc
    rcases List.mem_append.1 hc with hc | hc
    · exact fun h => h.2 hc
    · exact hblank hg' c hc
  split at h
  · next h₀ =>
    obtain ⟨_, _, rfl, _⟩ := exists_of_afterMarkJoined? h₀
    exact ⟨[], body ++ _, by rw [hmark]; rfl, by simp⟩
  · exact ⟨[], body ++ rest, by rw [Text.after?_eq_some_iff.1 h, hmark]; rfl, by simp⟩

theorem afterMark?_of_halts {w : List Char} {c : Char} (hw : '@' ∉ w) (hc : Halts c) (hat : c ≠ '@')
    (inWord : Bool) (s : List Char) : afterMark? inWord (w ++ c :: s) = none := by
  cases h : afterMark? inWord (w ++ c :: s) with
  | none => rfl
  | some rest =>
    obtain ⟨front, more, he, hfront⟩ := exists_front_of_afterMark? h
    exact absurd (append_cons_inj hw (fun hm => hfront c hm hc) he).2.1 hat

theorem dropMarks_nil (inWord : Bool) : dropMarks inWord [] = [] := by
  rw [dropMarks]
  split
  · next h =>
    rw [afterMark?_eq_none rfl rfl] at h
    cases h
  · rfl

theorem dropMarks_cons {inWord : Bool} {c : Char} {s : List Char}
    (h : afterMark? inWord (c :: s) = none) :
    dropMarks inWord (c :: s) = c :: dropMarks (Text.isWordChar c) s := by
  rw [dropMarks]
  split
  · next heq => rw [h] at heq; cases heq
  · rfl

theorem dropMarks_mark {inWord : Bool} {s rest : List Char} (h : afterMark? inWord s = some rest) :
    dropMarks inWord s = dropMarks false rest := by
  rw [dropMarks]
  split
  · next heq => rw [h] at heq; cases heq; rfl
  · next heq => rw [h] at heq; cases heq

def Passes (w : List Char) : Prop :=
  ∀ inWord s, ∃ inWord', dropMarks inWord (w ++ s) = w ++ dropMarks inWord' s

theorem Passes.append {v w : List Char} (hv : Passes v) (hw : Passes w) : Passes (v ++ w) := by
  intro inWord s
  obtain ⟨b, hb⟩ := hv inWord (w ++ s)
  obtain ⟨b', hb'⟩ := hw b s
  exact ⟨b', by rw [List.append_assoc, hb, hb', List.append_assoc]⟩

theorem passes_singleton {c : Char} (h : ∀ inWord s, afterMark? inWord (c :: s) = none) :
    Passes [c] := fun inWord s => ⟨Text.isWordChar c, dropMarks_cons (h inWord s)⟩

def Clear (c : Char) : Prop := Text.isBlank c = false ∧ c ≠ '@' ∧ c ≠ 'a'

instance (c : Char) : Decidable (Clear c) :=
  inferInstanceAs (Decidable (Text.isBlank c = false ∧ c ≠ '@' ∧ c ≠ 'a'))

theorem Clear.after {c : Char} (h : Clear c) (s : List Char) :
    Text.after? ['a', 'n', 'd'] (Text.trimStart (c :: s)) = none := by
  rw [Text.trimStart, List.dropWhile_cons_of_neg (ne_true_of_eq_false h.1), Text.after?,
    if_neg (Ne.symm h.2.2)]

theorem passes_of_clear {w : List Char} (h : ∀ c ∈ w, Clear c) : Passes w := by
  induction w with
  | nil => exact fun inWord s => ⟨inWord, rfl⟩
  | cons c w ih =>
    obtain ⟨hc, hw⟩ := List.forall_mem_cons.1 h
    exact (passes_singleton fun inWord s =>
      afterMark?_eq_none (hc.after s) (after?_caseMark_of_ne hc.2.1 s) inWord).append (ih hw)

theorem passes_of_all {w : List Char} (h : (w.all fun c => decide (Clear c)) = true) : Passes w :=
  passes_of_clear fun c hc => of_decide_eq_true (List.all_eq_true.1 h c hc)

theorem passes_pair {c d : Char} (hc : c ≠ '@') (hd : Clear d)
    (h : ∀ s, Text.after? ['a', 'n', 'd'] (Text.trimStart (c :: d :: s)) = none) : Passes [c, d] := by
  intro inWord s
  obtain ⟨b, hb⟩ := passes_of_clear (w := [d]) (by simpa using hd) (Text.isWordChar c) s
  exact ⟨b, (dropMarks_cons (afterMark?_eq_none (h s) (after?_caseMark_of_ne hc _) _)).trans
    (congrArg (c :: ·) hb)⟩

theorem passes_space {d : Char} (hd : Clear d) : Passes [' ', d] := by
  refine passes_pair (by decide) hd fun s => ?_
  rw [Text.trimStart_space]
  exact hd.after s

theorem dropMarks_append_halting {w : List Char} {c : Char} (hw : '@' ∉ w) (hc : Halts c) (hat : c ≠ '@')
    (inWord : Bool) (s : List Char) :
    dropMarks inWord (w ++ c :: s) = w ++ c :: dropMarks (Text.isWordChar c) s := by
  induction w generalizing inWord with
  | nil => exact dropMarks_cons (afterMark?_of_halts hw hc hat inWord s)
  | cons d w ih =>
    have hnone := afterMark?_of_halts hw hc hat inWord s
    exact (dropMarks_cons hnone).trans (congrArg (d :: ·) (ih (mt (List.mem_cons_of_mem d) hw) _))

theorem passes_of_quote {w : List Char} (hw : '@' ∉ w) : Passes (w ++ ['"']) := by
  intro inWord s
  refine ⟨Text.isWordChar '"', ?_⟩
  rw [List.append_assoc, List.append_assoc]
  exact dropMarks_append_halting hw (halts_mark .double) (by decide) inWord s

end CaseMark

namespace Pattern

open CaseMark (caseMark caseMark_eq after?_caseMark_of_ne afterMark? afterMark?_eq_none dropMarks
  dropMarks_cons dropMarks_nil dropMarks_mark Passes passes_of_clear passes_of_all passes_of_quote passes_pair
  passes_space Clear wordStart? wordStart?_cases afterBlanks? afterJoinedMark? afterMarkJoined?)

variable {name value : String} {s : List Char} {t : Test}

theorem equation_append (compared : List Char) (value : String) (s : List Char) :
    equation compared value ++ s = compared ++ '=' :: ('"' :: (value.toList ++ '"' :: s)) := by
  simp [equation]

theorem equation_inj {c c' v v' s s' : List Char} (hc : '=' ∉ c) (hc' : '=' ∉ c') (hv : '"' ∉ v)
    (hv' : '"' ∉ v') (h : c ++ '=' :: ('"' :: (v ++ '"' :: s)) = c' ++ '=' :: ('"' :: (v' ++ '"' :: s'))) :
    c = c' ∧ v = v' ∧ s = s' := by
  obtain ⟨hcc, _, hrest⟩ := append_cons_inj hc hc' h
  obtain ⟨hvv, _, hss⟩ := append_cons_inj hv hv' (List.cons.inj hrest).2
  exact ⟨hcc, hvv, hss⟩

theorem after?_caseMark_equation {compared : List Char} (hc : '=' ∉ compared) (hv : IsValue value)
    (hne : ¬ (compared = "caseinsensitive".toList ∧ value = "yes")) (s : List Char) :
    Text.after? caseMark ('@' :: (equation compared value ++ s)) = none := by
  cases h : Text.after? caseMark ('@' :: (equation compared value ++ s)) with
  | none => rfl
  | some rest =>
    have he := Text.after?_eq_some_iff.1 h
    rw [caseMark_eq, equation_append, List.cons_append] at he
    have he' := (List.cons.inj he).2
    simp only [List.append_assoc, List.cons_append, List.nil_append] at he'
    obtain ⟨h₁, h₂, _⟩ := equation_inj hc (by decide) (hv.not_mem (by decide)) (by decide) he'
    exact absurd ⟨h₁, String.toList_inj.1 h₂⟩ hne

structure Fresh (s : List Char) : Prop where
  trim : Text.trimStart s = s
  word : Text.after? ['a', 'n', 'd'] s = none

theorem fresh_cons {c : Char} (hb : Text.isBlank c = false) (ha : c ≠ 'a') (s : List Char) :
    Fresh (c :: s) :=
  ⟨Text.trimStart_cons hb s, by rw [Text.after?, if_neg (Ne.symm ha)]⟩

theorem exists_text_eq (t : Test) :
    ∃ c s, t.text = c :: s ∧ Text.isBlank c = false ∧ c ≠ 'a' := by
  cases t with
  | attr name value => exact ⟨'@', _, rfl, by decide, by decide⟩
  | lowered name value => exact ⟨'l', _, rfl, by decide, by decide⟩
  | child brackets bound =>
    cases bound with
    | none => exact ⟨'n', _, rfl, by decide, by decide⟩
    | some n => exact ⟨'c', _, rfl, by decide, by decide⟩

theorem fresh_text (t : Test) (s : List Char) : Fresh (t.text ++ s) := by
  obtain ⟨c, rest, he, hb, ha⟩ := exists_text_eq t
  rw [he]
  exact fresh_cons hb ha _

theorem passes_equation {compared : List Char} (hat : '@' ∉ compared) (hc : '=' ∉ compared)
    (hv : IsValue value) (hne : ¬ (compared = "caseinsensitive".toList ∧ value = "yes")) :
    Passes ('@' :: equation compared value) := by
  intro inWord s
  have hfresh := fresh_cons (c := '@') (by decide) (by decide) (equation compared value ++ s)
  have hnone := afterMark?_eq_none (by rw [hfresh.trim, hfresh.word])
    (after?_caseMark_equation hc hv hne s) inWord
  have hbody : '@' ∉ compared ++ ['=', '"'] ++ value.toList := by
    simp [hat, hv.not_mem_at]
  obtain ⟨b, hb⟩ := passes_of_quote hbody (Text.isWordChar '@') s
  exact ⟨b, (dropMarks_cons hnone).trans (congrArg ('@' :: ·) hb)⟩

theorem clear_of_isDigit {c : Char} (h : c.isDigit = true) : Clear c := by
  refine ⟨Text.isBlank_of_isDigit h, ?_, ?_⟩
  · rintro rfl
    revert h
    decide
  · rintro rfl
    revert h
    decide

theorem passes_countClosing (bound : Option Nat) : Passes (countClosing bound) := by
  cases bound with
  | none => exact passes_of_all rfl
  | some n =>
    obtain ⟨d, ds, hds⟩ := List.exists_cons_of_ne_nil (Nat.toDigits_ne_nil (b := 10) (n := n))
    have hdig : ∀ c ∈ d :: ds, Clear c := fun c hc =>
      clear_of_isDigit (Nat.isDigit_of_mem_toDigits (b := 10) (n := n) (by decide) (by decide)
        (hds ▸ hc))
    obtain ⟨hd, hds'⟩ := List.forall_mem_cons.1 hdig
    have hclose : Passes [')'] := passes_of_all (by decide)
    rw [countClosing, hds]
    exact hclose.append ((passes_space (d := '>') (by decide)).append
      ((passes_space hd).append (passes_of_clear hds')))

theorem passes_countOpening (bound : Option Nat) : Passes (countOpening bound) := by
  cases bound with
  | none => exact passes_of_all rfl
  | some n =>
    have hword : Passes ['c', 'o', 'u', 'n', 't', '('] := passes_of_all (by decide)
    exact hword

theorem lowered_text (name value : String) : (Test.lowered name value).text =
    "lower-case(".toList ++ '@' :: equation (name.toList ++ [')']) value := by
  have h : "lower-case(@".toList = "lower-case(".toList ++ ['@'] := by decide
  rw [Test.text, h]
  simp [equation]

theorem ne_of_closing {w : List Char} (hw : ')' ∉ w) (name : List Char) : name ++ [')'] ≠ w := by
  rintro rfl
  exact hw (List.mem_append_right _ List.mem_cons_self)

theorem passes_text (h : t.Valid) (hf : t.isFlat = true) (hm : t.isMark = false) : Passes t.text := by
  cases h with
  | @attr name value hn hv =>
    refine passes_equation (hn.not_mem rfl) (hn.not_mem rfl) hv ?_
    rintro ⟨he, rfl⟩
    rw [String.toList_inj.1 he] at hm
    cases hm
  | @lowered name value hn hv =>
    have hword : "lower-case(".toList = "lower-c".toList ++ (['a', 's'] ++ "e(".toList) := by decide
    have hcall : Passes "lower-case(".toList := by
      rw [hword]
      exact (passes_of_all (by decide)).append
        ((passes_pair (by decide) (by decide) fun _ => rfl).append (passes_of_all (by decide)))
    rw [lowered_text]
    refine hcall.append (passes_equation ?_ ?_ hv ?_)
    · simp [hn.not_mem (c := '@') rfl]
    · simp [hn.not_mem (c := '=') rfl]
    · exact fun he => ne_of_closing (by decide) _ he.1
  | @child brackets bound =>
    cases brackets with
    | cons => cases hf
    | nil =>
      have hnode : Passes nodeWord := passes_of_all (by decide)
      exact (passes_countOpening bound).append (hnode.append (passes_countClosing bound))

theorem text_of_isMark (h : t.isMark = true) : t.text = caseMark := by
  cases t with
  | attr name value =>
    simp only [Test.isMark, Bool.and_eq_true, decide_eq_true_eq] at h
    obtain ⟨rfl, rfl⟩ := h
    decide
  | lowered => cases h
  | child => cases h

theorem afterBlanks?_space (hs : Fresh s) : afterBlanks? (' ' :: s) = some s := by
  simp [afterBlanks?, hs.trim, show Text.isBlank ' ' = true by decide]

theorem afterMark?_of_word {u : List Char} (hu : Text.after? ['a', 'n', 'd'] (Text.trimStart u) =
      some (' ' :: s)) (hc : Text.after? caseMark u = none) (hs : Fresh s)
    (hm : Text.after? caseMark s = none) (inWord : Bool) : afterMark? inWord u = none := by
  have hjoined : afterJoinedMark? inWord u = none := by
    rcases wordStart?_cases inWord u with h | h <;>
      simp [afterJoinedMark?, h, hu, afterBlanks?_space hs, hm]
  have hfirst : afterMarkJoined? u = none := by simp [afterMarkJoined?, hc]
  rw [afterMark?, hjoined, hfirst, hc]

theorem passes_joint (hs : Fresh s) (hm : Text.after? caseMark s = none) (inWord : Bool) :
    ∃ b, dropMarks inWord (joint ++ s) = joint ++ dropMarks b s := by
  have hspace := afterMark?_of_word (u := joint ++ s) rfl (after?_caseMark_of_ne (by decide) _) hs hm
  have hand := afterMark?_of_word (u := ['a', 'n', 'd', ' '] ++ s) rfl
    (after?_caseMark_of_ne (by decide) _) hs hm
  have hlast : ∀ b, afterMark? b (' ' :: s) = none := by
    refine afterMark?_eq_none ?_ (after?_caseMark_of_ne (by decide) _)
    rw [Text.trimStart_space, hs.trim, hs.word]
  have hmiddle : Passes ['n', 'd'] := passes_of_all (by decide)
  obtain ⟨b, hb⟩ := hmiddle (Text.isWordChar 'a') (' ' :: s)
  refine ⟨Text.isWordChar ' ', ?_⟩
  have h₁ := dropMarks_cons (hspace inWord)
  have h₂ := dropMarks_cons (hand (Text.isWordChar ' '))
  have h₃ := dropMarks_cons (hlast b)
  rw [h₃] at hb
  exact h₁.trans (congrArg (' ' :: ·) (h₂.trans (congrArg ('a' :: ·) hb)))

theorem fresh_caseMark (s : List Char) : Fresh (caseMark ++ s) := by
  rw [caseMark_eq]
  exact fresh_cons (by decide) (by decide) _

theorem dropMarks_joined (inWord : Bool) (s : List Char) :
    dropMarks inWord (joint ++ (caseMark ++ s)) = dropMarks false s := by
  have hword : wordStart? inWord (joint ++ (caseMark ++ s)) =
      some (['a', 'n', 'd'] ++ ' ' :: (caseMark ++ s)) := by
    cases inWord <;> rfl
  have hjoined : afterJoinedMark? inWord (joint ++ (caseMark ++ s)) = some s := by
    simp only [afterJoinedMark?, hword, Option.bind_eq_bind, Option.bind_some, Text.after?_append,
      afterBlanks?_space (fresh_caseMark s)]
  exact dropMarks_mark (by rw [afterMark?, hjoined])

theorem afterJoinedMark?_caseMark (inWord : Bool) (s : List Char) :
    afterJoinedMark? inWord (caseMark ++ s) = none := by
  have hs := fresh_caseMark s
  rcases wordStart?_cases inWord (caseMark ++ s) with h | h <;>
    simp [afterJoinedMark?, h, hs.trim, hs.word]

theorem dropMarks_first (hs : Fresh s) (inWord : Bool) :
    dropMarks inWord (caseMark ++ (joint ++ s)) = dropMarks false s := by
  have hblank : afterBlanks? (joint ++ s) = some (['a', 'n', 'd'] ++ ' ' :: s) := rfl
  have hword : Text.startsWithWord (' ' :: s) = false := by
    have hspace : Text.isWordChar ' ' = false := by decide +kernel
    exact hspace
  have hfirst : afterMarkJoined? (caseMark ++ (joint ++ s)) = some s := by
    simp only [afterMarkJoined?, Text.after?_append, Option.bind_eq_bind, Option.bind_some, hblank,
      hword, Bool.false_eq_true, ↓reduceIte, Text.trimStart_space, hs.trim]
  exact dropMarks_mark (by rw [afterMark?, afterJoinedMark?_caseMark, hfirst])

theorem dropMarks_only (inWord : Bool) : dropMarks inWord caseMark = [] := by
  have hmark : Text.after? caseMark caseMark = some [] := by
    simpa using Text.after?_append caseMark []
  have hjoined := afterJoinedMark?_caseMark inWord []
  rw [List.append_nil] at hjoined
  have hfirst : afterMarkJoined? caseMark = none := by simp [afterMarkJoined?, hmark, afterBlanks?]
  have hlast : afterMark? inWord caseMark = some [] := by rw [afterMark?, hjoined, hfirst, hmark]
  rw [dropMarks_mark hlast, dropMarks_nil]

inductive Stub : List (List Char) → Prop
  | none : Stub []
  | opening (bound : Option Nat) : Stub [countOpening bound]

def unmarked (tests : List Test) : List Test := tests.filter fun t => !t.isMark

theorem unmarked_cons_mark {ts : List Test} (h : t.isMark = true) :
    unmarked (t :: ts) = unmarked ts := List.filter_cons_of_neg (by simp [h])

theorem unmarked_cons {ts : List Test} (h : t.isMark = false) :
    unmarked (t :: ts) = t :: unmarked ts := List.filter_cons_of_pos (by simp [h])

theorem fresh_countOpening (bound : Option Nat) : Fresh (countOpening bound) := by
  cases bound with
  | none => exact ⟨rfl, rfl⟩
  | some n => exact fresh_cons (by decide) (by decide) _

theorem after?_caseMark_countOpening (bound : Option Nat) :
    Text.after? caseMark (countOpening bound) = none := by
  cases bound with
  | none => rfl
  | some n => exact after?_caseMark_of_ne (by decide) _

theorem dropMarks_countOpening (bound : Option Nat) (inWord : Bool) :
    dropMarks inWord (countOpening bound) = countOpening bound := by
  obtain ⟨b, hb⟩ := passes_countOpening bound inWord []
  rwa [List.append_nil, dropMarks_nil, List.append_nil] at hb

theorem after?_caseMark_text (h : t.Valid) (hm : t.isMark = false) (s : List Char) :
    Text.after? caseMark (t.text ++ s) = none := by
  cases h with
  | @attr name value hn hv =>
    refine after?_caseMark_equation (hn.not_mem rfl) hv ?_ s
    rintro ⟨he, rfl⟩
    rw [String.toList_inj.1 he] at hm
    cases hm
  | lowered => exact after?_caseMark_of_ne (by decide) _
  | @child brackets bound =>
    cases bound with
    | none => exact after?_caseMark_of_ne (by decide) _
    | some n => exact after?_caseMark_of_ne (by decide) _

variable {tests : List Test} {stub : List (List Char)}

theorem dropMarks_joints (hs : Stub stub) (hv : ∀ t ∈ tests, t.Valid ∧ t.isFlat = true)
    (inWord : Bool) : dropMarks inWord (joints (tests.map Test.text ++ stub)) =
      joints ((unmarked tests).map Test.text ++ stub) := by
  induction tests generalizing inWord with
  | nil =>
    cases hs with
    | none => exact dropMarks_nil inWord
    | opening bound =>
      obtain ⟨b, hb⟩ := passes_joint (fresh_countOpening bound) (after?_caseMark_countOpening bound)
        inWord
      rw [dropMarks_countOpening] at hb
      simpa [joints, unmarked] using hb
  | cons t ts ih =>
    obtain ⟨⟨ht, hf⟩, hts⟩ := List.forall_mem_cons.1 hv
    rw [List.map_cons, List.cons_append, joints_cons]
    cases hm : t.isMark with
    | true => rw [text_of_isMark hm, dropMarks_joined, ih hts, unmarked_cons_mark hm]
    | false =>
      obtain ⟨b, hb⟩ := passes_joint (fresh_text t _) (after?_caseMark_text ht hm _) inWord
      obtain ⟨b', hb'⟩ := passes_text ht hf hm b (joints (ts.map Test.text ++ stub))
      rw [hb, hb', ih hts, unmarked_cons hm, List.map_cons, List.cons_append, joints_cons]

/-- The marks go, each with the word `and` on one side of it. -/
theorem dropMarks_join (hs : Stub stub) (hv : ∀ t ∈ tests, t.Valid ∧ t.isFlat = true)
    (inWord : Bool) : dropMarks inWord (join (tests.map Test.text ++ stub)) =
      join ((unmarked tests).map Test.text ++ stub) := by
  induction tests generalizing inWord with
  | nil =>
    cases hs with
    | none => exact dropMarks_nil inWord
    | opening bound => simpa [join, unmarked] using dropMarks_countOpening bound inWord
  | cons t ts ih =>
    obtain ⟨⟨ht, hf⟩, hts⟩ := List.forall_mem_cons.1 hv
    rw [List.map_cons, List.cons_append, join]
    cases hm : t.isMark with
    | false =>
      obtain ⟨b, hb⟩ := passes_text ht hf hm inWord (joints (ts.map Test.text ++ stub))
      rw [hb, dropMarks_joints hs hts, unmarked_cons hm]
      rfl
    | true =>
      rw [text_of_isMark hm, unmarked_cons_mark hm]
      cases hmore : ts.map Test.text ++ stub with
      | nil =>
        obtain ⟨hnil, rfl⟩ := List.append_eq_nil_iff.1 hmore
        rw [List.map_eq_nil_iff.1 hnil, joints_nil, List.append_nil]
        exact dropMarks_only inWord
      | cons p ps =>
        have hfresh : Fresh (join (p :: ps)) := by
          rw [← hmore]
          cases ts with
          | cons u us => exact fresh_text u _
          | nil =>
            cases hs with
            | none => cases hmore
            | opening bound => simpa [join] using fresh_countOpening bound
        rw [joints_cons]
        exact (dropMarks_first hfresh inWord).trans (hmore ▸ ih hts false)

end Pattern
end TreebankSearch

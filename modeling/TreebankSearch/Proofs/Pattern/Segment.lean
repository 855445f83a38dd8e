import TreebankSearch.Proofs.Pattern.Reach

/-!
# Segments of conjunctive patterns

A segment that starts at the bracket of a node holds the reach of that bracket. When it is closed, its tests
are those that are left of the reach, and it goes away only if there are none and its bracket ends there.
-/

namespace TreebankSearch

namespace CaseMark

theorem lexicalTest?_of_ne {c : Char} (hc : c ≠ '@') (s : List Char) :
    lexicalTest? (c :: s) = none := by
  simp [lexicalTest?, lexicalNames, testOf?, Text.after?, Ne.symm hc]

theorem lowerTests_nil : lowerTests [] = [] := by
  have h : lexicalTest? [] = none := rfl
  rw [lowerTests]
  split
  · next heq => rw [h] at heq; cases heq
  · rfl

theorem lowerTests_cons {c : Char} {s : List Char} (h : lexicalTest? (c :: s) = none) :
    lowerTests (c :: s) = c :: lowerTests s := by
  rw [lowerTests]
  split
  · next heq => rw [h] at heq; cases heq
  · rfl

theorem lowerTests_test {s test rest : List Char} (h : lexicalTest? s = some (test, rest)) :
    lowerTests s = test ++ lowerTests rest := by
  rw [lowerTests]
  split
  · next heq => rw [h] at heq; cases heq; rfl
  · next heq => rw [h] at heq; cases heq

theorem lowerTests_append {w : List Char} (hw : '@' ∉ w) (s : List Char) :
    lowerTests (w ++ s) = w ++ lowerTests s := by
  induction w with
  | nil => rfl
  | cons c w ih =>
    rw [List.mem_cons, not_or] at hw
    rw [List.cons_append, lowerTests_cons (lexicalTest?_of_ne (Ne.symm hw.1) _), ih hw.2]
    rfl

theorem occursIn_append {w : List Char} (hw : '@' ∉ w) (s : List Char) :
    Text.occursIn caseMark (w ++ s) = Text.occursIn caseMark s := by
  induction w with
  | nil => rfl
  | cons c w ih =>
    rw [List.mem_cons, not_or] at hw
    rw [List.cons_append, Text.occursIn, after?_caseMark_of_ne (Ne.symm hw.1), ih hw.2]
    rfl

end CaseMark

namespace Pattern

open CaseMark

variable {name value : String} {t : Test} {tests : List Test} {stub : List (List Char)}

theorem testOf?_equation {sought compared v : List Char} (hs : '=' ∉ sought) (hc : '=' ∉ compared)
    (hv : '"' ∉ v) (s : List Char) :
    testOf? sought ('@' :: (compared ++ '=' :: ('"' :: (v ++ '"' :: s)))) =
      if compared = sought ∧ v ≠ [] then some (v, s) else none := by
  by_cases he : compared = sought
  · subst he
    have hafter : Text.after? ('@' :: (compared ++ ['=', '"']))
        ('@' :: (compared ++ '=' :: ('"' :: (v ++ '"' :: s)))) = some (v ++ '"' :: s) := by
      have h := Text.after?_append ('@' :: (compared ++ ['=', '"'])) (v ++ '"' :: s)
      simpa using h
    have hp : ∀ c ∈ v, decide (c ≠ '"') = true := fun c hc =>
      decide_eq_true fun hq => hv (hq ▸ hc)
    simp only [testOf?, hafter, Option.bind_eq_bind, Option.bind_some,
      List.takeWhile_append_of_pos hp, List.dropWhile_append_of_pos hp]
    cases v with
    | nil => simp
    | cons c v => simp
  · rw [if_neg fun h => he h.1]
    refine Option.bind_eq_none_iff.2 fun rest h => ?_
    have hrest := Text.after?_eq_some_iff.1 h
    rw [List.cons_append, List.append_assoc] at hrest
    exact absurd (append_cons_inj hc hs (List.cons.inj hrest).2).1 he

theorem lexicalTest?_equation {compared : List Char} (hc : '=' ∉ compared) (hv : IsValue value)
    (s : List Char) : lexicalTest? ('@' :: (equation compared value ++ s)) =
      if compared ∈ lexicalNames ∧ value ≠ "" then some (lowerTest compared value.toList, s)
      else none := by
  have hq : '"' ∉ value.toList := hv.not_mem (by decide)
  have hw : '=' ∉ ['w', 'o', 'r', 'd'] := by decide
  have hl : '=' ∉ ['l', 'e', 'm', 'm', 'a'] := by decide
  have hword := testOf?_equation hw hc hq s
  have hlemma := testOf?_equation hl hc hq s
  have hempty : value.toList ≠ [] ↔ value ≠ "" := not_congr String.toList_eq_nil_iff
  simp only [hempty] at hword hlemma
  rw [equation_append, lexicalTest?, lexicalNames]
  simp only [List.findSome?_cons, List.findSome?_nil, hword, hlemma, List.mem_cons, List.not_mem_nil,
    or_false]
  by_cases he : value = ""
  · simp [he]
  · by_cases h₁ : compared = ['w', 'o', 'r', 'd']
    · simp [he, h₁]
    · by_cases h₂ : compared = ['l', 'e', 'm', 'm', 'a'] <;> simp [he, h₁, h₂]

theorem lexicalTest?_equation_of_not_mem {compared : List Char} (hc : '=' ∉ compared)
    (hv : IsValue value) (hne : ¬ (compared ∈ lexicalNames ∧ value ≠ "")) (s : List Char) :
    lexicalTest? ('@' :: (equation compared value ++ s)) = none := by
  rw [lexicalTest?_equation hc hv, if_neg hne]

theorem not_mem_countOpening {c : Char} (hc : c ∉ ['c', 'o', 'u', 'n', 't', '(']) (bound : Option Nat) :
    c ∉ countOpening bound := by
  cases bound with
  | none => exact List.not_mem_nil
  | some n => exact hc

theorem not_mem_countClosing {c : Char} (hc : c ∉ [')', ' ', '>', ' ']) (hd : c.isDigit = false)
    (bound : Option Nat) : c ∉ countClosing bound := by
  cases bound with
  | none => exact List.not_mem_nil
  | some n =>
    intro hm
    rcases List.mem_append.1 hm with hm | hm
    · exact hc hm
    · have := Nat.isDigit_of_mem_toDigits (b := 10) (by decide) (by decide) hm
      rw [hd] at this
      cases this

theorem not_mem_childText {c : Char} (ho : c ∉ ['c', 'o', 'u', 'n', 't', '(']) (hn : c ∉ nodeWord)
    (hc : c ∉ [')', ' ', '>', ' ']) (hd : c.isDigit = false) (bound : Option Nat) :
    c ∉ (Test.child [] bound).text := by
  intro hm
  rcases List.mem_append.1 hm with hm | hm
  · exact not_mem_countOpening ho bound hm
  rcases List.mem_append.1 hm with hm | hm
  · exact hn hm
  · exact not_mem_countClosing hc hd bound hm

theorem at_not_mem_equation {compared : List Char} (hc : '@' ∉ compared) (hv : IsValue value) :
    '@' ∉ equation compared value := by
  simp [equation, hc, hv.not_mem_at]

theorem text_lower (name value : String) :
    (Test.lowered name (String.ofList (Text.lower value.toList))).text =
      lowerTest name.toList value.toList := by
  unfold Test.text equation lowerTest
  generalize "lower-case(@".toList = front
  simp

theorem lowerTests_text (h : t.Valid) (hf : t.isFlat = true) (s : List Char) :
    lowerTests (t.text ++ s) = t.lower.text ++ lowerTests s := by
  cases h with
  | @attr name value hn hv =>
    have hplain : '@' ∉ equation name.toList value := at_not_mem_equation (hn.not_mem rfl) hv
    have htest := lexicalTest?_equation (hn.not_mem (c := '=') rfl) hv s
    simp only [Test.lower]
    by_cases hl : name.toList ∈ lexicalNames ∧ value ≠ ""
    · rw [if_pos hl] at htest ⊢
      rw [text_lower]
      exact lowerTests_test htest
    · rw [if_neg hl] at htest ⊢
      exact (lowerTests_cons htest).trans (congrArg ('@' :: ·) (lowerTests_append hplain s))
  | @lowered name value hn hv =>
    have hat : '@' ∉ name.toList ++ [')'] := by simp [hn.not_mem (c := '@') rfl]
    have heq : '=' ∉ name.toList ++ [')'] := by simp [hn.not_mem (c := '=') rfl]
    have htest : lexicalTest? ('@' :: (equation (name.toList ++ [')']) value ++ s)) = none := by
      refine lexicalTest?_equation_of_not_mem heq hv (fun hl => ?_) s
      rcases List.mem_cons.1 hl.1 with he | he
      · exact ne_of_closing (by decide) _ he
      · exact ne_of_closing (by decide) _ (List.mem_singleton.1 he)
    have hword : '@' ∉ "lower-case(".toList := by decide
    have hcall := (lowerTests_cons htest).trans
      (congrArg ('@' :: ·) (lowerTests_append (at_not_mem_equation hat hv) s))
    show lowerTests ((Test.lowered name value).text ++ s) = (Test.lowered name value).text ++ lowerTests s
    rw [lowered_text, List.append_assoc, lowerTests_append hword, List.append_assoc]
    exact congrArg _ hcall
  | @child brackets bound =>
    cases brackets with
    | cons => cases hf
    | nil => exact lowerTests_append (not_mem_childText (by decide) (by decide) (by decide) rfl bound) s

theorem occursIn_cons {c : Char} {s : List Char} (h : Text.after? caseMark (c :: s) = none) :
    Text.occursIn caseMark (c :: s) = Text.occursIn caseMark s := by
  rw [Text.occursIn, h]
  rfl

theorem occursIn_text (h : t.Valid) (hf : t.isFlat = true) (s : List Char) :
    Text.occursIn caseMark (t.text ++ s) = (t.isMark || Text.occursIn caseMark s) := by
  cases hm : t.isMark with
  | true =>
    rw [text_of_isMark hm, Bool.true_or]
    exact Text.occursIn_iff.2 ⟨[], s, rfl⟩
  | false =>
    rw [Bool.false_or]
    cases h with
    | @attr name value hn hv =>
      have hplain : '@' ∉ equation name.toList value := at_not_mem_equation (hn.not_mem rfl) hv
      have hmark := after?_caseMark_text (.attr hn hv) hm s
      exact (occursIn_cons hmark).trans (occursIn_append hplain s)
    | @lowered name value hn hv =>
      have hat : '@' ∉ name.toList ++ [')'] := by simp [hn.not_mem (c := '@') rfl]
      have heq : '=' ∉ name.toList ++ [')'] := by simp [hn.not_mem (c := '=') rfl]
      have hword : '@' ∉ "lower-case(".toList := by decide
      have hmark := after?_caseMark_equation heq hv
        (fun he => ne_of_closing (by decide) _ he.1) s
      rw [lowered_text, List.append_assoc, occursIn_append hword]
      exact (occursIn_cons hmark).trans (occursIn_append (at_not_mem_equation hat hv) s)
    | @child brackets bound =>
      cases brackets with
      | cons => cases hf
      | nil =>
        exact occursIn_append (not_mem_childText (by decide) (by decide) (by decide) rfl bound) s

theorem at_not_mem_joint : '@' ∉ joint := by decide

theorem lowerTests_joints (hs : Stub stub) (hv : ∀ t ∈ tests, t.Valid ∧ t.isFlat = true) :
    lowerTests (joints (tests.map Test.text ++ stub)) =
      joints ((tests.map Test.lower).map Test.text ++ stub) := by
  induction tests with
  | nil =>
    cases hs with
    | none => exact lowerTests_nil
    | opening bound =>
      have hplain : '@' ∉ joint ++ countOpening bound := by
        simp [at_not_mem_joint, not_mem_countOpening (c := '@') (by decide) bound]
      have h := lowerTests_append hplain []
      rw [lowerTests_nil] at h
      simpa [joints] using h
  | cons t ts ih =>
    obtain ⟨⟨ht, hf⟩, hts⟩ := List.forall_mem_cons.1 hv
    simp only [List.map_cons, List.cons_append, joints_cons]
    rw [lowerTests_append at_not_mem_joint, lowerTests_text ht hf, ih hts]

theorem lowerTests_join (hs : Stub stub) (hv : ∀ t ∈ tests, t.Valid ∧ t.isFlat = true) :
    lowerTests (join (tests.map Test.text ++ stub)) =
      join ((tests.map Test.lower).map Test.text ++ stub) := by
  cases tests with
  | nil =>
    cases hs with
    | none => exact lowerTests_nil
    | opening bound =>
      have h := lowerTests_append (not_mem_countOpening (c := '@') (by decide) bound) []
      rw [lowerTests_nil] at h
      simpa [join] using h
  | cons t ts =>
    obtain ⟨⟨ht, hf⟩, hts⟩ := List.forall_mem_cons.1 hv
    simp only [List.map_cons, List.cons_append, join]
    rw [lowerTests_text ht hf, lowerTests_joints hs hts]

theorem occursIn_joints (hs : Stub stub) (hv : ∀ t ∈ tests, t.Valid ∧ t.isFlat = true) :
    Text.occursIn caseMark (joints (tests.map Test.text ++ stub)) = tests.any Test.isMark := by
  induction tests with
  | nil =>
    cases hs with
    | none => rfl
    | opening bound => cases bound <;> rfl
  | cons t ts ih =>
    obtain ⟨⟨ht, hf⟩, hts⟩ := List.forall_mem_cons.1 hv
    rw [List.map_cons, List.cons_append, joints_cons, occursIn_append at_not_mem_joint,
      occursIn_text ht hf, ih hts, List.any_cons]

theorem occursIn_join (hs : Stub stub) (hv : ∀ t ∈ tests, t.Valid ∧ t.isFlat = true) :
    Text.occursIn caseMark (join (tests.map Test.text ++ stub)) = tests.any Test.isMark := by
  cases tests with
  | nil =>
    cases hs with
    | none => rfl
    | opening bound => cases bound <;> rfl
  | cons t ts =>
    obtain ⟨⟨ht, hf⟩, hts⟩ := List.forall_mem_cons.1 hv
    rw [List.map_cons, List.cons_append, join, occursIn_text ht hf, occursIn_joints hs hts,
      List.any_cons]

theorem rewriteSegment_join (hs : Stub stub) (hv : ∀ t ∈ tests, t.Valid ∧ t.isFlat = true)
    (hm : tests.any Test.isMark = true) :
    rewriteSegment (join (tests.map Test.text ++ stub)) =
      join ((settle tests).map Test.text ++ stub) := by
  have hleft : ∀ t ∈ unmarked tests, t.Valid ∧ t.isFlat = true := fun t ht =>
    hv t (List.mem_filter.1 ht).1
  rw [rewriteSegment, dropMarks_join hs hv, lowerTests_join hs hleft, settle, if_pos hm]
  rfl

theorem all_isBlank_join (tests : List Test) :
    (join (tests.map Test.text)).all Text.isBlank = tests.isEmpty := by
  cases tests with
  | nil => rfl
  | cons t ts =>
    obtain ⟨c, s, he, hb, _⟩ := exists_text_eq t
    rw [List.map_cons, join, he, List.cons_append, List.all_cons, hb]
    rfl

theorem closeSegment_opening (hs : Stub stub) (hv : ∀ t ∈ tests, t.Valid ∧ t.isFlat = true)
    (rest : List Char) :
    closeSegment (join (tests.map Test.text ++ stub)) (nodeOpen ++ rest) =
      (nodeOpen ++ join ((settle tests).map Test.text ++ stub), nodeOpen ++ rest) := by
  have hrest : (nodeOpen ++ rest).isEmpty = false := rfl
  cases hm : tests.any Test.isMark with
  | false => simp [closeSegment, occursIn_join hs hv, hm, settle]
  | true =>
    simp only [closeSegment, occursIn_join hs hv, hm, hrest, rewriteSegment_join hs hv hm]
    rfl

theorem closeSegment_closing (hv : ∀ t ∈ tests, t.Valid ∧ t.isFlat = true) (hne : tests ≠ [])
    (rest : List Char) :
    closeSegment (join (tests.map Test.text)) (']' :: rest) =
      if (settle tests).isEmpty then (nodeWord, rest)
      else (nodeOpen ++ join ((settle tests).map Test.text), ']' :: rest) := by
  have hoccurs := occursIn_join .none hv
  rw [List.append_nil] at hoccurs
  cases hm : tests.any Test.isMark with
  | false =>
    have hsettle : settle tests = tests := if_neg (by simp [hm])
    have hempty : tests.isEmpty = false := by simpa using hne
    rw [hsettle, hempty]
    simp [closeSegment, hoccurs, hm]
  | true =>
    have hrewrite := rewriteSegment_join .none hv hm
    rw [List.append_nil, List.append_nil] at hrewrite
    simp only [closeSegment, hoccurs, hm, hrewrite, all_isBlank_join, List.isEmpty_cons,
      Bool.not_true, Bool.or_self, Bool.false_eq_true, ↓reduceIte]
    rfl

end Pattern
end TreebankSearch

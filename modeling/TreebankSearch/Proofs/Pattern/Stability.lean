import TreebankSearch.Proofs.Pattern.ConjunctiveReading
import TreebankSearch.Proofs.Pattern.Resolve
import TreebankSearch.Proofs.Pattern.Shape

/-!
# Signatures of normal forms

A conjunctive pattern and its normal form have one signature. What carrying out the marks takes away or
changes are marks and lexical tests, none of which a signature names, and connectives. Bounds stay as they
are, so a pattern with a bound that is too large has a normal form with one, and neither has a signature.
-/

namespace TreebankSearch.Pattern

/-- Tests that may stand for others in a bracket: they fit if those fit, and are read as terms of one shape. -/
structure Agree (tests more : List Test) : Prop where
  fits : fitAll tests = fitAll more
  shape : SameShape (conjuncts tests) (conjuncts more)

structure AgreeAt (brackets more : List (List Test)) : Prop where
  fits : allFit brackets = allFit more
  shape : SameShape (groupTerms brackets).flatten (groupTerms more).flatten

variable {t : Test} {tests more tests' more' : List Test} {brackets : List (List Test)}

theorem fitAll_append (tests more : List Test) :
    fitAll (tests ++ more) = (fitAll tests && fitAll more) := by
  induction tests with
  | nil => rfl
  | cons t ts ih => rw [List.cons_append, fitAll, fitAll, ih, Bool.and_assoc]

theorem conjuncts_append (tests more : List Test) :
    conjuncts (tests ++ more) = conjuncts tests ++ conjuncts more := by
  induction tests with
  | nil => rw [List.nil_append, conjuncts.eq_1, List.nil_append]
  | cons t ts ih =>
    rw [List.cons_append, conjuncts, conjuncts, ih, List.cons_append, List.append_assoc]

theorem allFit_append (brackets more : List (List Test)) :
    allFit (brackets ++ more) = (allFit brackets && allFit more) := by
  induction brackets with
  | nil => rfl
  | cons tests brackets ih => rw [List.cons_append, allFit, allFit, ih, Bool.and_assoc]

theorem groupTerms_append (brackets more : List (List Test)) :
    groupTerms (brackets ++ more) = groupTerms brackets ++ groupTerms more := by
  induction brackets with
  | nil => rw [List.nil_append, groupTerms.eq_1, List.nil_append]
  | cons tests brackets ih => rw [List.cons_append, groupTerms, groupTerms, ih, List.cons_append]

theorem Agree.refl (tests : List Test) : Agree tests tests := ⟨rfl, .refl _⟩

theorem Agree.append (h : Agree tests more) (h' : Agree tests' more') :
    Agree (tests ++ tests') (more ++ more') := by
  refine ⟨?_, ?_⟩
  · rw [fitAll_append, fitAll_append, h.fits, h'.fits]
  · rw [conjuncts_append, conjuncts_append]
    exact h.shape.append h'.shape

theorem agree_singleton {u : Test} (hf : t.fits = u.fits) (hs : SameShape t.terms u.terms) :
    Agree [t] [u] := by
  refine ⟨by simp only [fitAll, hf], ?_⟩
  rw [conjuncts, conjuncts]
  exact (hs.append (.refl _)).same _

theorem quiet_and : (Term.connective .and).Quiet := (Term.silent_connective .and).quiet

/-- A mark goes, and the connective before it. -/
theorem agree_mark (h : t.isMark = true) : Agree [t] [] := by
  cases t with
  | attr name value =>
    simp only [Test.isMark, Bool.and_eq_true, decide_eq_true_eq] at h
    obtain ⟨rfl, rfl⟩ := h
    refine ⟨rfl, ?_⟩
    simp only [conjuncts, Test.terms]
    exact .left quiet_and (.left (Term.quiet_attr (by decide)) (.refl _))
  | lowered => cases h
  | child => cases h

theorem agree_lower (t : Test) : Agree [t] [t.lower] := by
  cases t with
  | lowered name value => exact .refl _
  | child brackets bound => exact .refl _
  | attr name value =>
    simp only [Test.lower]
    split
    case isFalse => exact .refl _
    case isTrue h =>
      refine agree_singleton rfl ?_
      have hname : name ∉ shapeNames := by
        intro hn
        have hlexical : ∀ name ∈ shapeNames, name.toList ∉ CaseMark.lexicalNames := by decide
        exact hlexical name hn h.1
      have hbare : ∀ term ∈ [Term.attr ⟨name, none⟩], term.Silent := by
        simpa using Term.silent_bare name
      have hcall := (Term.silent_group (some "lower-case") hbare).quiet
      rw [Test.terms, Test.terms]
      exact .left (Term.quiet_attr hname) (.right hcall (.right (Term.silent_verbatim _).quiet .nil))

theorem agree_unmarked (tests : List Test) :
    Agree tests ((tests.filter fun t => !t.isMark).map Test.lower) := by
  induction tests with
  | nil => exact .refl []
  | cons t ts ih =>
    cases hm : t.isMark with
    | true =>
      rw [List.filter_cons_of_neg (by simp [hm])]
      exact (agree_mark hm).append ih
    | false =>
      rw [List.filter_cons_of_pos (by simp [hm]), List.map_cons]
      exact (agree_lower t).append ih

theorem agree_settle (tests : List Test) : Agree tests (settle tests) := by
  rw [settle]
  split
  · exact agree_unmarked tests
  · exact .refl tests

theorem agree_map (h : ∀ t ∈ tests, Agree [t] [t.resolve]) : Agree tests (tests.map Test.resolve) := by
  induction tests with
  | nil => exact .refl []
  | cons t ts ih =>
    obtain ⟨ht, hts⟩ := List.forall_mem_cons.1 h
    exact ht.append (ih hts)

theorem agree_resolveFirst (h : ∀ t ∈ tests, Agree [t] [t.resolve]) :
    Agree tests (resolveFirst tests) := by
  have hsplit : reach tests ++ beyond tests = tests := List.takeWhile_append_dropWhile
  have hagree := (agree_settle (reach tests)).append (agree_map fun t ht => h t (mem_beyond ht))
  rwa [hsplit] at hagree

theorem sameShape_tail {us : List Term} (h : SameShape (conjuncts tests) us) :
    SameShape (conjuncts tests).tail us := by
  cases tests with
  | nil => exact h
  | cons t ts =>
    rw [conjuncts] at h ⊢
    exact h.of_left quiet_and

theorem Agree.bracket (h : Agree tests more) : AgreeAt [tests] [more] := by
  refine ⟨by simp only [allFit, h.fits], ?_⟩
  have htail := (sameShape_tail (sameShape_tail h.shape).symm).symm
  simpa [groupTerms] using htail

theorem AgreeAt.append {brackets more brackets' more' : List (List Test)} (h : AgreeAt brackets more)
    (h' : AgreeAt brackets' more') : AgreeAt (brackets ++ brackets') (more ++ more') := by
  refine ⟨?_, ?_⟩
  · rw [allFit_append, allFit_append, h.fits, h'.fits]
  · rw [groupTerms_append, groupTerms_append, List.flatten_append, List.flatten_append]
    exact h.shape.append h'.shape

theorem agreeAt_keep (h : Agree tests more) : AgreeAt [tests] (keep more) := by
  have hb := h.bracket
  cases more with
  | nil => exact ⟨hb.fits, hb.shape⟩
  | cons t ts => exact hb

theorem agreeAt_map (h : ∀ tests ∈ brackets, ∀ t ∈ tests, Agree [t] [t.resolve]) :
    AgreeAt brackets (brackets.map (List.map Test.resolve)) := by
  induction brackets with
  | nil => exact ⟨rfl, .refl _⟩
  | cons tests brackets ih =>
    obtain ⟨ht, hts⟩ := List.forall_mem_cons.1 h
    exact (agree_map ht).bracket.append (ih hts)

theorem agreeAt_resolveNode (h : ∀ tests ∈ brackets, ∀ t ∈ tests, Agree [t] [t.resolve]) :
    AgreeAt brackets (resolveNode brackets) := by
  cases brackets with
  | nil => exact ⟨rfl, .refl _⟩
  | cons first brackets =>
    obtain ⟨hfirst, hmore⟩ := List.forall_mem_cons.1 h
    rw [resolveNode_cons]
    exact (agreeAt_keep (agree_resolveFirst hfirst)).append (agreeAt_map hmore)

theorem Test.Valid.agree (h : t.Valid) : Agree [t] [t.resolve] := by
  induction h with
  | attr => exact .refl _
  | lowered => exact .refl _
  | @child brackets bound _ _ ih =>
    have hb := agreeAt_resolveNode ih
    have hfits : (Test.child brackets bound).fits = (Test.child brackets bound).resolve.fits := by
      rw [Test.resolve, Test.fits, Test.fits, hb.fits]
    refine agree_singleton hfits ?_
    cases bound with
    | none => exact .child hb.shape .nil
    | some n => exact .count n hb.shape .nil

theorem derive?_eq_bind (text : String) :
    Signature.derive? text = (parse text).toOption.bind Signature.ofPattern? := by
  rw [Signature.derive?]
  cases parse text <;> rfl

/-- Carrying out the marks, under whatever slashes, keeps the signature. -/
theorem derive?_resolveNode (h : Conjunctive brackets) (slashes slashes' : Nat) :
    Signature.derive? (conjunctiveText slashes' (resolveNode brackets)) =
      Signature.derive? (conjunctiveText slashes brackets) := by
  have hagree := agreeAt_resolveNode fun tests ht t hm => (h.valid tests ht t hm).agree
  rw [derive?_eq_bind, derive?_eq_bind, parse_conjunctiveText slashes' h.resolveNode,
    parse_conjunctiveText slashes h, ← hagree.fits]
  cases allFit brackets with
  | false => rfl
  | true => exact (Signature.ofPattern?_of_sameShape hagree.shape).symm

/-- A conjunctive pattern keeps its signature when it is normalized, once and once more. -/
theorem derive?_normalize (axis next : Axis) (slashes : Nat) (h : Conjunctive brackets) :
    Signature.derive? (normalize axis (conjunctiveText slashes brackets)) =
        Signature.derive? (conjunctiveText slashes brackets) ∧
      Signature.derive? (normalize next (normalize axis (conjunctiveText slashes brackets))) =
        Signature.derive? (conjunctiveText slashes brackets) := by
  have honce := derive?_resolveNode h slashes axis.slashes.length
  have htwice := derive?_resolveNode h.resolveNode axis.slashes.length next.slashes.length
  rw [normalize_conjunctiveText axis slashes h, normalize_conjunctiveText next _ h.resolveNode]
  exact ⟨honce, htwice.trans honce⟩

def sampleMarks : List (List Test) :=
  let mark := .attr "caseinsensitive" "yes"
  [[mark, .attr "cat" "np", .child [[mark], [.attr "rel" "su", .attr "word" "Wie"]] none,
    .child [[.attr "rel" "mod", .attr "word" "Fiets", mark]] (some 1), mark]]

theorem conjunctive_sampleMarks : Conjunctive sampleMarks := by
  have hmark : (Test.attr "caseinsensitive" "yes").Valid := .attr (by decide) (by decide)
  have hcat : (Test.attr "cat" "np").Valid := .attr (by decide) (by decide)
  have hsubject : (Test.attr "rel" "su").Valid := .attr (by decide) (by decide)
  have hword : (Test.attr "word" "Wie").Valid := .attr (by decide) (by decide)
  have hmodifier : (Test.attr "rel" "mod").Valid := .attr (by decide) (by decide)
  have hnoun : (Test.attr "word" "Fiets").Valid := .attr (by decide) (by decide)
  have hchild : (Test.child [[.attr "caseinsensitive" "yes"],
      [.attr "rel" "su", .attr "word" "Wie"]] none).Valid :=
    .child (by simp) (by simp [hmark, hsubject, hword])
  have hcount : (Test.child [[.attr "rel" "mod", .attr "word" "Fiets",
      .attr "caseinsensitive" "yes"]] (some 1)).Valid :=
    .child (by simp) (by simp [hmark, hmodifier, hnoun])
  exact ⟨by simp [sampleMarks], by simp [sampleMarks, hmark, hcat, hchild, hcount]⟩

theorem derive?_normalize_sampleMarks :
    conjunctiveText 2 sampleMarks = "//node[@caseinsensitive=\"yes\" and @cat=\"np\" and " ++
      "node[@caseinsensitive=\"yes\"][@rel=\"su\" and @word=\"Wie\"] and " ++
      "count(node[@rel=\"mod\" and @word=\"Fiets\" and @caseinsensitive=\"yes\"]) > 1 and " ++
      "@caseinsensitive=\"yes\"]" ∧
    normalize .root (conjunctiveText 2 sampleMarks) = "/node[@cat=\"np\" and " ++
      "node[@rel=\"su\" and @word=\"Wie\"] and " ++
      "count(node[@rel=\"mod\" and lower-case(@word)=\"fiets\"]) > 1 and " ++
      "@caseinsensitive=\"yes\"]" ∧
    Signature.derive? (conjunctiveText 2 sampleMarks) = some ⟨"npmod%_su%"⟩ ∧
    Signature.derive? (normalize .root (conjunctiveText 2 sampleMarks)) =
      Signature.derive? (conjunctiveText 2 sampleMarks) ∧
    Signature.derive? (normalize .anywhere (normalize .root (conjunctiveText 2 sampleMarks))) =
      Signature.derive? (conjunctiveText 2 sampleMarks) := by
  have hfits : allFit sampleMarks = true := by decide
  refine ⟨by decide +kernel, ?_, ?_, derive?_normalize .root .anywhere 2 conjunctive_sampleMarks⟩
  · rw [normalize_conjunctiveText .root 2 conjunctive_sampleMarks]
    decide +kernel
  · have hchildren : (NodeTest.mk (groupTerms sampleMarks)).children.filterMap Signature.childLabel? =
        ["su%", "mod%"] := by decide +kernel
    have hsorted : ["su%", "mod%"].mergeSort (fun a b => a ≤ b) = ["mod%", "su%"] := by
      simp [List.mergeSort]
    have hlabels : Signature.labels (NodeTest.mk (groupTerms sampleMarks)).children = ["mod%", "su%"] := by
      rw [Signature.labels, hchildren, hsorted]
    rw [derive?_eq_bind, parse_conjunctiveText 2 conjunctive_sampleMarks, hfits]
    simp only [if_true, Option.bind_some, Signature.ofPattern?_eq, hlabels]
    decide +kernel

end TreebankSearch.Pattern

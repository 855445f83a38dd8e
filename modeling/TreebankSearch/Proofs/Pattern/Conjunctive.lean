import TreebankSearch.Pattern.Normal
import TreebankSearch.Proofs.Pattern.Spelling
import TreebankSearch.Proofs.Text.LetterCase

/-!
# Conjunctive patterns

Patterns whose brackets are tests joined by the word `and`: tests of attributes, children and counts of
children, with marks for case insensitivity among them. Each such pattern has one text, with single spaces.
This module has the patterns with their texts, and what carrying out the marks is on them: in the first
bracket of a node, the tests before the first one with a bracket of its own are the reach of a mark.
-/

namespace TreebankSearch.Pattern

/-- One test in the bracket of a node. -/
inductive Test where
  | attr (name value : String)
  | lowered (name value : String)
  | child (brackets : List (List Test)) (bound : Option Nat)

/-- A value that needs no quotes around it to be told from the text of a pattern, and that holds no `@`. -/
def IsValue (value : String) : Prop :=
  ∀ c ∈ value.toList, c ≠ '@' ∧ Delimiter.ofChar c = .plain

instance (value : String) : Decidable (IsValue value) :=
  decidable_of_iff
    ((value.toList.all fun c => decide (c ≠ '@' ∧ Delimiter.ofChar c = .plain)) = true)
    (by simp only [IsValue, List.all_eq_true, decide_eq_true_eq])

theorem IsName.not_mem {name : String} (h : IsName name) {c : Char} (hc : isNameChar c = false) :
    c ∉ name.toList := fun hm => by
  rw [h.2 c hm] at hc
  cases hc

theorem IsValue.not_mem {value : String} (h : IsValue value) {c : Char} (hc : Delimiter.ofChar c ≠ .plain) :
    c ∉ value.toList := fun hm => hc (h c hm).2

theorem IsValue.not_mem_at {value : String} (h : IsValue value) : '@' ∉ value.toList := fun hm => (h '@' hm).1 rfl

inductive Test.Valid : Test → Prop
  | attr {name value : String} :
      IsName name → IsValue value → Valid (.attr name value)
  | lowered {name value : String} : IsName name → IsValue value → Valid (.lowered name value)
  | child {brackets : List (List Test)} {bound : Option Nat} :
      (∀ tests ∈ brackets, tests ≠ []) → (∀ tests ∈ brackets, ∀ t ∈ tests, Valid t) →
      Valid (.child brackets bound)

structure Conjunctive (brackets : List (List Test)) : Prop where
  nonempty : ∀ tests ∈ brackets, tests ≠ []
  valid : ∀ tests ∈ brackets, ∀ t ∈ tests, t.Valid

def joint : List Char := [' ', 'a', 'n', 'd', ' ']

def joints (ps : List (List Char)) : List Char := ps.flatMap (joint ++ ·)

def join : List (List Char) → List Char
  | [] => []
  | p :: ps => p ++ joints ps

@[simp] theorem joints_nil : joints [] = [] := rfl

theorem joints_cons (p : List Char) (ps : List (List Char)) :
    joints (p :: ps) = joint ++ (p ++ joints ps) := by
  rw [joints, List.flatMap_cons, List.append_assoc]
  rfl

theorem joints_append (ps qs : List (List Char)) : joints (ps ++ qs) = joints ps ++ joints qs :=
  List.flatMap_append

theorem join_append_cons (ps qs : List (List Char)) (p q : List Char) :
    join (ps ++ (p ++ q) :: qs) = join (ps ++ [p]) ++ (q ++ joints qs) := by
  cases ps with
  | nil => simp [join]
  | cons r ps => simp [join, joints_append, joints_cons]

theorem mem_join {c : Char} {ps : List (List Char)} (h : c ∈ join ps) : c ∈ joint ∨ ∃ p ∈ ps, c ∈ p := by
  cases ps with
  | nil => cases h
  | cons p ps =>
    rcases List.mem_append.1 h with h | h
    · exact .inr ⟨p, List.mem_cons_self, h⟩
    obtain ⟨q, hq, h⟩ := List.mem_flatMap.1 h
    rcases List.mem_append.1 h with h | h
    · exact .inl h
    · exact .inr ⟨q, List.mem_cons_of_mem p hq, h⟩

def nodeWord : List Char := ['n', 'o', 'd', 'e']

def countOpening : Option Nat → List Char
  | none => []
  | some _ => ['c', 'o', 'u', 'n', 't', '(']

def countClosing : Option Nat → List Char
  | none => []
  | some n => [')', ' ', '>', ' '] ++ Nat.toDigits 10 n

def equation (compared : List Char) (value : String) : List Char :=
  compared ++ ['=', '"'] ++ value.toList ++ ['"']

mutual
def Test.text : Test → List Char
  | .attr name value => equation ('@' :: name.toList) value
  | .lowered name value => equation ("lower-case(@".toList ++ name.toList ++ [')']) value
  | .child brackets bound =>
    countOpening bound ++ (nodeWord ++ (bracketsText brackets ++ countClosing bound))

def texts : List Test → List (List Char)
  | [] => []
  | t :: ts => t.text :: texts ts

def bracketsText : List (List Test) → List Char
  | [] => []
  | tests :: brackets => '[' :: (join (texts tests) ++ ']' :: bracketsText brackets)
end

def conjunctiveText (slashes : Nat) (brackets : List (List Test)) : String :=
  String.ofList (List.replicate slashes '/' ++ (nodeWord ++ bracketsText brackets))

theorem texts_eq_map (tests : List Test) : texts tests = tests.map Test.text := by
  induction tests with
  | nil => rfl
  | cons t ts ih => rw [texts, ih, List.map_cons]

namespace Test

def isMark : Test → Bool
  | .attr name value => name = "caseinsensitive" && value = "yes"
  | _ => false

def isFlat : Test → Bool
  | .child (_ :: _) _ => false
  | _ => true

def lower : Test → Test
  | .attr name value =>
    if name.toList ∈ CaseMark.lexicalNames ∧ value ≠ "" then
      .lowered name (String.ofList (Text.lower value.toList))
    else .attr name value
  | t => t

end Test

/-- The tests of a bracket that are in the reach of its marks. -/
def reach (tests : List Test) : List Test := tests.takeWhile Test.isFlat

def beyond (tests : List Test) : List Test := tests.dropWhile Test.isFlat

def settle (tests : List Test) : List Test :=
  if tests.any Test.isMark then (tests.filter fun t => !t.isMark).map Test.lower else tests

def keep (tests : List Test) : List (List Test) := if tests.isEmpty then [] else [tests]

mutual
def Test.resolve : Test → Test
  | .child brackets bound => .child (resolveNode brackets) bound
  | t => t

def resolveTests : List Test → List Test
  | [] => []
  | t :: ts => t.resolve :: resolveTests ts

def resolveBrackets : List (List Test) → List (List Test)
  | [] => []
  | tests :: brackets => resolveTests tests :: resolveBrackets brackets

def resolveNode : List (List Test) → List (List Test)
  | [] => []
  | tests :: brackets =>
    keep (settle (reach tests) ++ (resolveTests tests).drop (reach tests).length) ++
      resolveBrackets brackets
end

theorem resolveTests_eq_map (tests : List Test) : resolveTests tests = tests.map Test.resolve := by
  induction tests with
  | nil => rfl
  | cons t ts ih => rw [resolveTests, ih, List.map_cons]

theorem resolveBrackets_eq_map (brackets : List (List Test)) :
    resolveBrackets brackets = brackets.map (List.map Test.resolve) := by
  induction brackets with
  | nil => rfl
  | cons tests brackets ih => rw [resolveBrackets, ih, resolveTests_eq_map, List.map_cons]

def resolveFirst (tests : List Test) : List Test :=
  settle (reach tests) ++ (beyond tests).map Test.resolve

theorem resolveNode_cons (tests : List Test) (brackets : List (List Test)) :
    resolveNode (tests :: brackets) =
      keep (resolveFirst tests) ++ brackets.map (List.map Test.resolve) := by
  have hdrop : tests.drop (reach tests).length = beyond tests := by
    have h := congrArg (List.drop (reach tests).length)
      (List.takeWhile_append_dropWhile (p := Test.isFlat) (l := tests))
    rw [← h]
    exact List.drop_left
  rw [resolveNode, resolveTests_eq_map, ← List.map_drop, hdrop, resolveBrackets_eq_map]
  rfl

theorem mem_reach {tests : List Test} {t : Test} (h : t ∈ reach tests) :
    t ∈ tests ∧ t.isFlat = true :=
  ⟨(List.takeWhile_sublist _).mem h, List.all_eq_true.1 List.all_takeWhile t h⟩

theorem mem_beyond {tests : List Test} {t : Test} (h : t ∈ beyond tests) : t ∈ tests :=
  (List.dropWhile_sublist _).mem h

theorem mem_keep {tests kept : List Test} : kept ∈ keep tests ↔ kept = tests ∧ tests ≠ [] := by
  unfold keep
  cases tests with
  | nil => simp
  | cons t ts => simp

theorem isValue_lower {value : String} (h : IsValue value) :
    IsValue (String.ofList (Text.lower value.toList)) := by
  intro c hc
  rw [String.toList_ofList] at hc
  rcases Text.eq_or_le_of_mem_lower hc with hc | hle
  · exact h c hc
  · refine ⟨?_, Text.plain_of_le hle⟩
    rintro rfl
    revert hle
    decide

theorem Test.Valid.lower {t : Test} (h : t.Valid) : t.lower.Valid := by
  cases h with
  | attr hn hv =>
    simp only [Test.lower]
    split
    · exact .lowered hn (isValue_lower hv)
    · exact .attr hn hv
  | lowered hn hv => exact .lowered hn hv
  | child hne hv => exact .child hne hv

theorem valid_settle {tests : List Test} (h : ∀ t ∈ tests, t.Valid) :
    ∀ t ∈ settle tests, t.Valid := by
  unfold settle
  split
  · intro t ht
    obtain ⟨u, hu, rfl⟩ := List.mem_map.1 ht
    exact (h u (List.mem_filter.1 hu).1).lower
  · exact h

theorem Conjunctive.resolveNode_of {brackets : List (List Test)} (h : Conjunctive brackets)
    (hr : ∀ tests ∈ brackets, ∀ t ∈ tests, t.resolve.Valid) :
    Conjunctive (resolveNode brackets) := by
  cases brackets with
  | nil => exact h
  | cons first brackets =>
    obtain ⟨hv, _⟩ := List.forall_mem_cons.1 h.valid
    obtain ⟨hrfirst, hrmore⟩ := List.forall_mem_cons.1 hr
    rw [resolveNode_cons]
    refine ⟨fun tests ht => ?_, fun tests ht t hmem => ?_⟩
    · rcases List.mem_append.1 ht with hk | hm
      · obtain ⟨rfl, hne⟩ := mem_keep.1 hk
        exact hne
      · obtain ⟨more, hmore, rfl⟩ := List.mem_map.1 hm
        exact mt List.map_eq_nil_iff.1 (h.nonempty more (List.mem_cons_of_mem first hmore))
    · rcases List.mem_append.1 ht with hk | hm
      · obtain ⟨rfl, _⟩ := mem_keep.1 hk
        rcases List.mem_append.1 hmem with hs | hb
        · exact valid_settle (fun u hu => hv u (mem_reach hu).1) t hs
        · obtain ⟨u, hu, rfl⟩ := List.mem_map.1 hb
          exact hrfirst u (mem_beyond hu)
      · obtain ⟨more, hmore, rfl⟩ := List.mem_map.1 hm
        obtain ⟨u, hu, rfl⟩ := List.mem_map.1 hmem
        exact hrmore more hmore u hu

theorem Test.Valid.resolve {t : Test} (h : t.Valid) : t.resolve.Valid := by
  induction h with
  | attr hn hv => exact .attr hn hv
  | lowered hn hv => exact .lowered hn hv
  | child hne hv ih =>
    have hc := Conjunctive.resolveNode_of ⟨hne, hv⟩ ih
    exact .child hc.nonempty hc.valid

theorem Conjunctive.resolveNode {brackets : List (List Test)} (h : Conjunctive brackets) :
    Conjunctive (resolveNode brackets) :=
  h.resolveNode_of fun tests ht t hm => (h.valid tests ht t hm).resolve

end TreebankSearch.Pattern

import TreebankSearch.Proofs.Pattern.Shape

/-!
# Terms with their groups opened

The reading of a node is the list of its terms from left to right, with every group opened in its place,
at any depth, and no child entered. The attributes and the children of a node depend on its reading only:
the value of a name is that of the first test in it that requires one, and the children are those of the
child tests in it, of which a count is as many as it says.
-/

namespace TreebankSearch

mutual
/-- The terms that a group holds, opened in their turn, and for any other term the term itself. -/
def Term.opened : Term → List Term
  | .group _ terms => Term.openedIn terms
  | term => [term]

def Term.openedIn : List Term → List Term
  | [] => []
  | t :: ts => t.opened ++ Term.openedIn ts
end

def Term.isChildTest : Term → Bool
  | .child _ => true
  | .count _ _ => true
  | _ => false

def Term.multiplicity : Term → Nat
  | .child _ => 1
  | .count _ n => n
  | _ => 0

namespace NodeTest

def reading (node : NodeTest) : List Term := Term.openedIn node.brackets.flatten

def childTests (node : NodeTest) : List Term := node.reading.filter Term.isChildTest

/-- How many children a node has when its counts are expanded. -/
def childTotal (node : NodeTest) : Nat :=
  node.childTests.foldr (fun test total => test.multiplicity + total) 0

end NodeTest

namespace Term

theorem openedIn_append (ts us : List Term) : openedIn (ts ++ us) = openedIn ts ++ openedIn us := by
  induction ts with
  | nil => rw [List.nil_append, openedIn.eq_1, List.nil_append]
  | cons t ts ih => rw [List.cons_append, openedIn, openedIn, ih, List.append_assoc]

mutual
theorem value?_eq_opened (name : String) :
    ∀ term : Term, term.value? name = term.opened.findSome? (·.value? name)
  | .group _ terms => valueIn?_eq_openedIn name terms
  | .attr _ => List.findSome?_singleton.symm
  | .child _ => rfl
  | .count _ _ => rfl
  | .order => rfl
  | .connective _ => rfl
  | .verbatim _ => rfl

theorem valueIn?_eq_openedIn (name : String) :
    ∀ terms : List Term, valueIn? name terms = (openedIn terms).findSome? (·.value? name)
  | [] => rfl
  | t :: ts => by
    rw [valueIn?, openedIn, List.findSome?_append, ← value?_eq_opened name t,
      ← valueIn?_eq_openedIn name ts]
    cases t.value? name <;> rfl
end

mutual
theorem hasChild_eq_opened : ∀ term : Term, term.hasChild = term.opened.any isChildTest
  | .group _ terms => anyChild_eq_openedIn terms
  | .attr _ => rfl
  | .child _ => rfl
  | .count _ _ => rfl
  | .order => rfl
  | .connective _ => rfl
  | .verbatim _ => rfl

theorem anyChild_eq_openedIn : ∀ terms : List Term, anyChild terms = (openedIn terms).any isChildTest
  | [] => rfl
  | t :: ts => by
    rw [anyChild, openedIn, List.any_append, ← hasChild_eq_opened t, ← anyChild_eq_openedIn ts]
end

mutual
theorem children_eq_opened :
    ∀ term : Term, term.children = (term.opened.filter isChildTest).flatMap children
  | .group _ terms => childrenIn_eq_openedIn terms
  | .attr _ => rfl
  | .child _ => rfl
  | .count brackets n => (List.flatMap_singleton children (count brackets n)).symm
  | .order => rfl
  | .connective _ => rfl
  | .verbatim _ => rfl

theorem childrenIn_eq_openedIn :
    ∀ terms : List Term, childrenIn terms = ((openedIn terms).filter isChildTest).flatMap children
  | [] => rfl
  | t :: ts => by
    rw [childrenIn, openedIn, List.filter_append, List.flatMap_append, ← children_eq_opened t,
      ← childrenIn_eq_openedIn ts]
end

theorem length_children {term : Term} (h : term.isChildTest = true) :
    term.children.length = term.multiplicity := by
  cases term with
  | child brackets => rfl
  | count brackets n => exact List.length_replicate
  | _ => cases h

theorem length_flatMap_children {tests : List Term} (h : ∀ t ∈ tests, t.isChildTest = true) :
    (tests.flatMap children).length = tests.foldr (fun test total => test.multiplicity + total) 0 := by
  induction tests with
  | nil => rfl
  | cons test tests ih =>
    obtain ⟨htest, htests⟩ := List.forall_mem_cons.1 h
    rw [List.flatMap_cons, List.length_append, length_children htest, ih htests, List.foldr_cons]

mutual
theorem childCount_eq_length :
    ∀ term : Term, min term.childCount maxCount = min term.children.length maxCount
  | .group _ terms => by
    rw [childCount, children, childCounts_eq_length terms, Nat.min_assoc, Nat.min_self]
  | .count _ n => by rw [childCount, children, List.length_replicate]
  | .child _ => rfl
  | .attr _ => rfl
  | .order => rfl
  | .connective _ => rfl
  | .verbatim _ => rfl

/-- The addition that stops at a bound gives the exact number, or the bound if that is less. -/
theorem childCounts_eq_length :
    ∀ terms : List Term, childCounts terms = min (childrenIn terms).length maxCount
  | [] => rfl
  | t :: ts => by
    have ht := childCount_eq_length t
    have hts := childCounts_eq_length ts
    rw [childCounts, childrenIn, List.length_append, addCounts]
    omega
end

end Term

namespace NodeTest

variable (node : NodeTest)

theorem children_eq_childTests : node.children = node.childTests.flatMap Term.children := by
  rw [children_eq, Term.childrenIn_eq_openedIn, childTests, reading]

theorem hasChildren_eq_false_iff : node.hasChildren = false ↔ node.childTests = [] := by
  rw [hasChildren_eq, Term.anyChild_eq_openedIn, childTests, List.filter_eq_nil_iff,
    List.any_eq_false, reading]

theorem length_children : node.children.length = node.childTotal := by
  rw [children_eq_childTests, childTotal]
  exact Term.length_flatMap_children fun _ hm => (List.mem_filter.1 hm).2

theorem childCount_eq_min : node.childCount = min node.childTotal maxCount := by
  rw [childCount_eq, Term.childCounts_eq_length, ← children_eq, length_children]

theorem childCount_le_iff {n : Nat} (h : n < maxCount) : node.childCount ≤ n ↔ node.childTotal ≤ n := by
  rw [childCount_eq_min]
  omega

theorem few_children_iff : (node.hasChildren && node.childCount ≤ maxChildren) = true ↔
    node.hasChildren = true ∧ node.childTotal ≤ maxChildren := by
  rw [Bool.and_eq_true, decide_eq_true_eq, childCount_le_iff _ (by decide)]

end NodeTest

/-- A pattern has no signature just if its root has no child tests, or stands for too many children. -/
theorem Signature.ofPattern?_eq_none_iff {p : Pattern} :
    ofPattern? p = none ↔ p.root.childTests = [] ∨ maxChildren < p.root.childTotal := by
  rw [ofPattern?_eq, ite_eq_right_iff, NodeTest.few_children_iff, ← NodeTest.hasChildren_eq_false_iff]
  simp only [reduceCtorEq, imp_false, Decidable.not_and_iff_not_or_not, Bool.not_eq_true, Nat.not_le]

end TreebankSearch

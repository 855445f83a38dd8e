import TreebankSearch.Pattern.Basic
import TreebankSearch.Pattern.Grammar

/-!
# The shape of a pattern

What a node test says about its own node and about the nodes right below it. Groups are read as if
their parentheses were not there; the brackets of a child are never entered. A `count` test above
`n` stands for `n` children, and children are counted without being listed, by an addition that
stops at `maxCount`.

The signature of a pattern names the category at its top and the relation and category of each
child, in sorted order, so that patterns of one shape share it. A pattern without children, or with
more than `maxChildren`, has none.
-/

namespace TreebankSearch

mutual
def Term.value? (name : String) : Term → Option String
  | .attr test => if test.name = name then test.required? else none
  | .group _ terms => Term.valueIn? name terms
  | _ => none

def Term.valueIn? (name : String) : List Term → Option String
  | [] => none
  | t :: ts =>
    match t.value? name with
    | some value => some value
    | none => Term.valueIn? name ts
end

mutual
def Term.hasChild : Term → Bool
  | .child _ => true
  | .count _ _ => true
  | .group _ terms => Term.anyChild terms
  | _ => false

def Term.anyChild : List Term → Bool
  | [] => false
  | t :: ts => t.hasChild || Term.anyChild ts
end

def addCounts (m n : Nat) : Nat := min (m + n) maxCount

mutual
def Term.childCount : Term → Nat
  | .child _ => 1
  | .count _ n => n
  | .group _ terms => Term.childCounts terms
  | _ => 0

def Term.childCounts : List Term → Nat
  | [] => 0
  | t :: ts => addCounts t.childCount (Term.childCounts ts)
end

mutual
def Term.children : Term → List NodeTest
  | .child brackets => [⟨brackets⟩]
  | .count brackets n => List.replicate n ⟨brackets⟩
  | .group _ terms => Term.childrenIn terms
  | _ => []

def Term.childrenIn : List Term → List NodeTest
  | [] => []
  | t :: ts => t.children ++ Term.childrenIn ts
end

namespace NodeTest

def attribute? (node : NodeTest) (name : String) : Option String :=
  node.brackets.findSome? (Term.valueIn? name)

/-- The value that the first equality test for `name` requires, if that test stands before every
test for children. A group counts as one term, which holds children as soon as one is inside it. -/
def leadingIn? (name : String) : List Term → Option String
  | [] => none
  | t :: ts =>
    if t.hasChild then none
    else
      match t.value? name with
      | some value => some value
      | none => leadingIn? name ts

@[inherit_doc leadingIn?]
def leadingAttribute? (node : NodeTest) (name : String) : Option String :=
  leadingIn? name node.brackets.flatten

def childCount (node : NodeTest) : Nat :=
  (node.brackets.map Term.childCounts).foldr addCounts 0

def hasChildren (node : NodeTest) : Bool := node.brackets.any Term.anyChild

def children (node : NodeTest) : List NodeTest := node.brackets.flatMap Term.childrenIn

end NodeTest

def anyCategory : String := "ALL"

def maxChildren : Nat := 64

structure Signature where
  text : String
  deriving Repr, DecidableEq

namespace Signature

/-- The relation of a child and its category, or else its part of speech. A child whose relation is
open is left out of the signature. -/
def childLabel? (child : NodeTest) : Option String :=
  (child.attribute? "rel").map fun rel =>
    rel ++ "%" ++ ((child.attribute? "cat") <|> (child.attribute? "pt")).getD ""

def labels (children : List NodeTest) : List String :=
  (children.filterMap childLabel?).mergeSort fun a b => a ≤ b

/-- The signature of a pattern, where it is an operation of its own to list the children of a node. -/
def ofPatternWith? {m : Type → Type} [Monad m] (list : NodeTest → m (List NodeTest))
    (pattern : Pattern) : m (Option Signature) := do
  let root := pattern.root
  if root.hasChildren && root.childCount ≤ maxChildren then
    let children ← list root
    return some ⟨(root.leadingAttribute? "cat").getD anyCategory ++ "_".intercalate (labels children)⟩
  else
    return none

def ofPattern? (pattern : Pattern) : Option Signature :=
  Id.run (ofPatternWith? (fun node => pure node.children) pattern)

theorem ofPattern?_eq (pattern : Pattern) : ofPattern? pattern =
    if pattern.root.hasChildren && pattern.root.childCount ≤ maxChildren then
      some ⟨(pattern.root.leadingAttribute? "cat").getD anyCategory ++
        "_".intercalate (labels pattern.root.children)⟩
    else none := by
  unfold ofPattern? ofPatternWith?
  dsimp only
  split
  · rfl
  · rfl

def derive? (text : String) : Option Signature :=
  match Pattern.parse text with
  | .ok pattern => ofPattern? pattern
  | .error _ => none

end Signature
end TreebankSearch

/-!
# Structural patterns

A pattern is a node test under a number of leading slashes. A node test is a list of brackets, each
a list of terms. The terms that say something about the shape of the tree have constructors of their
own; whatever else stands in a bracket is kept as text.
-/

namespace TreebankSearch

inductive Comparison where
  | eq
  | ne
  | lt
  | le
  | gt
  | ge
  deriving Repr, DecidableEq

namespace Comparison

def all : List Comparison := [.eq, .ne, .lt, .le, .gt, .ge]

def symbol : Comparison → String
  | .eq => "="
  | .ne => "!="
  | .lt => "<"
  | .le => "<="
  | .gt => ">"
  | .ge => ">="

def ofSymbol? (s : String) : Option Comparison := all.find? (·.symbol = s)

end Comparison

structure AttributeTest where
  name : String
  comparison : Option (Comparison × String)
  deriving Repr, DecidableEq

def AttributeTest.required? (test : AttributeTest) : Option String :=
  match test.comparison with
  | some (.eq, value) => some value
  | _ => none

inductive Connective where
  | and
  | or
  deriving Repr, DecidableEq

/-- One item in the bracket of a node test. A child node test is given by its brackets. -/
inductive Term where
  | attr (test : AttributeTest)
  | child (brackets : List (List Term))
  | count (brackets : List (List Term)) (n : Nat)
  /-- A comparison of two `number(..)` calls: word order, which is no part of the shape. -/
  | order
  | group (name : Option String) (terms : List Term)
  | connective (connective : Connective)
  /-- Text of any other kind, as it is written in the pattern. -/
  | verbatim (text : String)
  deriving Repr

structure NodeTest where
  brackets : List (List Term)
  deriving Repr

structure Pattern where
  slashes : Nat
  root : NodeTest
  deriving Repr

/-- The largest number that a `count` test may name, and the bound of every count of children. -/
def maxCount : Nat := UInt64.size - 1

inductive PatternError where
  | malformed
  | countTooLarge (digits : String)
  deriving Repr, DecidableEq

def PatternError.message : PatternError → String
  | .malformed => "Pattern error: not a node test with balanced brackets"
  | .countTooLarge digits =>
    "Pattern error: count must be a non-negative integer, got " ++ digits

end TreebankSearch

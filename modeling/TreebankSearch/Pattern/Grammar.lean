import TreebankSearch.Pattern.Basic
import TreebankSearch.Text.Basic
import TreebankSearch.Text.Delimiter

/-!
# The grammar of patterns

Each rule of the grammar is a function from a text to what the rule makes of its front and to the text
after that; a rule that does not fit gives `none`. Where a rule has alternatives they are tried in
order. The first that fits is taken, and it is not given up again when what follows it does not fit.
Between the parts of a rule space is skipped, but not inside of names, numbers, literals, calls
`number(..)` and verbatim text.

The rules that nest are a fixed point, with a further `none` for a text on which they do not end. There
is no such text, which is for the proofs to show. They are written as steps of a text, `s |>.item`.
-/

namespace TreebankSearch.Pattern

def isSpace (c : Char) : Bool := c = ' ' || c = '\t' || c = '\r' || c = '\n'

def isNameChar (c : Char) : Bool := c.isAlphanum || c = '_' || c = '-' || c = ':'

def isFunctionChar (c : Char) : Bool := c.isAlphanum || c = '-' || c = '_'

def readCount (digits : List Char) : Except PatternError Nat :=
  let n := Nat.ofDigitChars 10 digits 0
  if n ≤ maxCount then .ok n else .error (.countTooLarge (String.ofList digits))

namespace Grammar

abbrev Input := List Char

def skip (s : Input) : Input := s.dropWhile isSpace

def run? (p : Char → Bool) (s : List Char) : Option (List Char × List Char) :=
  if s.takeWhile p = [] then none else some (s.takeWhile p, s.dropWhile p)

/-- The keyword `w`; a longer name that starts with `w` is not the keyword. -/
def keyword? (w s : List Char) : Option (List Char) :=
  (Text.after? w s).filter fun rest => !rest.head?.any isNameChar

def connective? (s : List Char) : Option (Connective × List Char) :=
  match keyword? ['a', 'n', 'd'] s with
  | some rest => some (.and, rest)
  | none => (keyword? ['o', 'r'] s).map fun rest => (.or, rest)

def comparison? (s : List Char) : Option (Comparison × List Char) :=
  [.ne, .le, .ge, .eq, .lt, .gt].findSome? fun op : Comparison =>
    (Text.after? op.symbol.toList s).map fun rest => (op, rest)

def quotedBody? (q : Quote) (s : List Char) : Option (List Char × List Char) :=
  match s.dropWhile (· ≠ q.mark) with
  | [] => none
  | _ :: rest => some (s.takeWhile (· ≠ q.mark), rest)

def quoted? : List Char → Option (List Char × List Char)
  | [] => none
  | c :: s =>
    match Delimiter.ofChar c with
    | .quote q => quotedBody? q s
    | _ => none

def fraction? (s : List Char) : Option (List Char × List Char) := do
  run? Char.isDigit (← Text.after? ['.'] s)

def unsigned? (s : List Char) : Option (List Char × List Char) := do
  let (whole, s) ← run? Char.isDigit s
  match fraction? s with
  | some (fraction, rest) => some (whole ++ '.' :: fraction, rest)
  | none => some (whole, s)

def number? (s : List Char) : Option (List Char × List Char) :=
  match Text.after? ['-'] s with
  | some s => (unsigned? s).map fun (number, rest) => ('-' :: number, rest)
  | none => unsigned? s

def literal? (s : List Char) : Option (List Char × List Char) :=
  match quoted? s with
  | some found => some found
  | none => number? s

def requirement? (s : List Char) : Option ((Comparison × String) × List Char) := do
  let (op, s) ← comparison? s
  let (value, rest) ← literal? (skip s)
  some ((op, String.ofList value), rest)

def attributeTest? (s : List Char) : Option (AttributeTest × List Char) := do
  let s ← Text.after? ['@'] s
  let (name, s) ← run? isNameChar (skip s)
  match requirement? (skip s) with
  | some (requirement, rest) => some (⟨String.ofList name, some requirement⟩, rest)
  | none => some (⟨String.ofList name, none⟩, skip s)

mutual
def Input.solid : Input → Option (Option Input)
  | [] => some none
  | c :: (s : Input) =>
    match Delimiter.ofChar c with
    | .quote q => some ((quotedBody? q s).map (·.2))
    | .opening b => do return Text.after? [b.closing] (← s |>.balanced)
    | _ => some none
partial_fixpoint

def Input.balanced (s : Input) : Option Input := do
  match ← s |>.solid with
  | some rest => rest |>.balanced
  | none =>
    match s with
    | [] => return []
    | c :: (rest : Input) => if Delimiter.ofChar c = .plain then rest |>.balanced else return s
partial_fixpoint
end

def lump (s : Input) : Option (Option Input) := do
  match ← s |>.solid with
  | some rest => return some rest
  | none =>
    match s with
    | [] => return none
    | c :: rest =>
      return if Delimiter.ofChar c = .plain ∧ isSpace c = false then some rest else none

def Input.lumps (s : Input) : Option Input := do
  match ← lump s with
  | some rest => rest |>.lumps
  | none => return s
partial_fixpoint

def verbatim (s : Input) : Option (Option (List Char × Input)) := do
  let some rest ← lump s | return none
  let rest ← rest |>.lumps
  return some (s.take (s.length - rest.length), rest)

def numberCall (s : Input) : Option (Option Input) := do
  let some s := Text.after? ['n', 'u', 'm', 'b', 'e', 'r'] s | return none
  let some (s : Input) := Text.after? ['('] s | return none
  return Text.after? [')'] (← s |>.balanced)

def orderTest (s : Input) : Option (Option Input) := do
  let some s ← numberCall s | return none
  let some (_, s) := comparison? (skip s) | return none
  numberCall (skip s)

def functionName? : List Char → Option (List Char × List Char)
  | [] => none
  | c :: s =>
    if c.isAlpha then some (c :: s.takeWhile isFunctionChar, s.dropWhile isFunctionChar) else none

def bound? (s : List Char) : Option (List Char × List Char) := do
  run? Char.isDigit (skip (← Text.after? ['>'] s))

mutual
def Input.node (s : Input) : Option (Option (Except PatternError NodeTest × Input)) := do
  let some s := keyword? ['n', 'o', 'd', 'e'] s | return none
  let (brackets, rest) ← skip s |>.brackets
  return some (brackets.map NodeTest.mk, rest)
partial_fixpoint

def Input.brackets (s : Input) : Option (Except PatternError (List (List Term)) × Input) := do
  let some (terms, rest) ← skip s |>.enclosed .square | return (.ok [], s)
  let (more, rest) ← rest |>.brackets
  return (do return (← terms) :: (← more), rest)
partial_fixpoint

def Input.enclosed (b : Bracket) (s : Input) :
    Option (Option (Except PatternError (List Term) × Input)) := do
  let some (s : Input) := Text.after? [b.opening] s | return none
  let (terms, s) ← s |>.content
  let some rest := Text.after? [b.closing] s | return none
  return some (terms, rest)
partial_fixpoint

def Input.content (s : Input) : Option (Except PatternError (List Term) × Input) := do
  let some (first, rest) ← skip s |>.item | return (.ok [], skip s)
  let (more, rest) ← skip rest |>.items
  return (do return (← first) :: (← more), skip rest)
partial_fixpoint

def Input.items (s : Input) : Option (Except PatternError (List Term) × Input) := do
  let some (first, rest) ← skip s |>.item | return (.ok [], s)
  let (more, rest) ← rest |>.items
  return (do return (← first) :: (← more), rest)
partial_fixpoint

def Input.counted (s : Input) : Option (Option (Except PatternError NodeTest × Input)) := do
  let some s := Text.after? ['('] s | return none
  let some (node, s) ← skip s |>.node | return none
  let some rest := Text.after? [')'] (skip s) | return none
  return some (node, rest)
partial_fixpoint

def Input.countTest (s : Input) : Option (Option (Except PatternError Term × Input)) := do
  let some s := Text.after? ['c', 'o', 'u', 'n', 't'] s | return none
  let some (node, s) ← skip s |>.counted | return none
  let some (digits, rest) := bound? (skip s) | return none
  return some (do return .count (← node).brackets (← readCount digits), rest)
partial_fixpoint

def Input.group (s : Input) : Option (Option (Except PatternError Term × Input)) := do
  let (name, s) :=
    match functionName? s with
    | some (name, rest) => (some (String.ofList name), rest)
    | none => (none, s)
  let some (terms, rest) ← skip s |>.enclosed .round | return none
  return some (terms.map (.group name), rest)
partial_fixpoint

def Input.item (s : Input) : Option (Option (Except PatternError Term × Input)) := do
  if let some (c, rest) := connective? s then return some (.ok (.connective c), rest)
  if let some found ← s |>.countTest then return some found
  if let some rest ← orderTest s then return some (.ok .order, rest)
  if let some (node, rest) ← s |>.node then return some (node.map fun n => .child n.brackets, rest)
  if let some (test, rest) := attributeTest? s then return some (.ok (.attr test), rest)
  if let some found ← s |>.group then return some found
  let some (text, rest) ← verbatim s | return none
  return some (.ok (.verbatim (String.ofList text)), rest)
partial_fixpoint
end

def pattern (s : List Char) : Option (Option (Except PatternError Pattern)) := do
  let slashes := (skip s).takeWhile (· = '/')
  let some (root, rest) ← skip ((skip s).dropWhile (· = '/')) |>.node | return none
  return if skip rest = [] then some (root.map (Pattern.mk slashes.length)) else none

end Grammar

def parse (text : String) : Except PatternError Pattern :=
  match Grammar.pattern text.toList with
  | some (some result) => result
  | _ => .error .malformed

end TreebankSearch.Pattern

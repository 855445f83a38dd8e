/-!
# Delimiters

The characters that give a text its structure: quotes around literals, and square and round brackets.
Inside of a literal each character, brackets and the other quote included, stands for itself.
-/

namespace TreebankSearch

inductive Quote where
  | single
  | double
  deriving Repr, DecidableEq

def Quote.mark : Quote → Char
  | .single => '\''
  | .double => '"'

inductive Bracket where
  | square
  | round
  deriving Repr, DecidableEq

def Bracket.opening : Bracket → Char
  | .square => '['
  | .round => '('

def Bracket.closing : Bracket → Char
  | .square => ']'
  | .round => ')'

inductive Delimiter where
  | quote (quote : Quote)
  | opening (bracket : Bracket)
  | closing (bracket : Bracket)
  | plain
  deriving Repr, DecidableEq

def Delimiter.ofChar : Char → Delimiter
  | '\'' => .quote .single
  | '"' => .quote .double
  | '[' => .opening .square
  | ']' => .closing .square
  | '(' => .opening .round
  | ')' => .closing .round
  | _ => .plain

theorem Delimiter.ofChar_mark (q : Quote) : ofChar q.mark = .quote q := by cases q <;> rfl

theorem Delimiter.ofChar_opening (b : Bracket) : ofChar b.opening = .opening b := by cases b <;> rfl

theorem Delimiter.ofChar_closing (b : Bracket) : ofChar b.closing = .closing b := by cases b <;> rfl

theorem Delimiter.mark_ne_plain (q : Quote) : ofChar q.mark ≠ .plain := by cases q <;> decide

theorem Delimiter.opening_ne_plain (b : Bracket) : ofChar b.opening ≠ .plain := by
  cases b <;> decide

theorem Delimiter.closing_ne_plain (b : Bracket) : ofChar b.closing ≠ .plain := by
  cases b <;> decide

theorem Delimiter.eq_mark_of_ofChar {c : Char} {q : Quote} (h : ofChar c = .quote q) :
    c = q.mark := by
  unfold ofChar at h
  split at h <;> cases h <;> rfl

theorem Delimiter.eq_opening_of_ofChar {c : Char} {b : Bracket} (h : ofChar c = .opening b) :
    c = b.opening := by
  unfold ofChar at h
  split at h <;> cases h <;> rfl

theorem Delimiter.eq_closing_of_ofChar {c : Char} {b : Bracket} (h : ofChar c = .closing b) :
    c = b.closing := by
  unfold ofChar at h
  split at h <;> cases h <;> rfl

end TreebankSearch

/-!
# JSON values

A JSON value as it stands in a document: members keep their order and may repeat a name, numbers
keep their text. A string literal may fail to spell a text, when it holds an unpaired surrogate or
bytes that are no character; such a literal is held as `none`, so that whoever wants a text from it
is refused, while a reader that skips over it does not notice.

The compact form of a value has no space, its members in their order, and in strings an escape for the
quote, the backslash and the control characters below the blank only.

Records are read from documents by accessors. A record is an object, in which unknown names are passed
over and a known name may not repeat, or the array of its fields in their declared order. A numeral
counts as a natural number only if it is written as one: no sign, no fraction, no exponent.
-/

namespace TreebankSearch

inductive Json where
  | null
  | bool (value : Bool)
  | number (text : String)
  | string (text : Option String)
  | array (items : List Json)
  | object (members : List (Option String × Json))
  deriving Repr, Inhabited

namespace Json

def ofText (text : String) : Json := .string (some text)

def ofNat (n : Nat) : Json := .number (toString n)

def ofList {α : Type} (f : α → Json) (items : List α) : Json := .array (items.map f)

def ofOption {α : Type} (f : α → Json) : Option α → Json
  | some a => f a
  | none => .null

def record (members : List (String × Json)) : Json :=
  .object (members.map fun (name, value) => (some name, value))

def hexDigit (n : Nat) : Char := if n < 10 then Char.ofNat (48 + n) else Char.ofNat (87 + n)

def writeChar (c : Char) : List Char :=
  if c = '"' then ['\\', '"']
  else if c = '\\' then ['\\', '\\']
  else if c = '\x08' then ['\\', 'b']
  else if c = '\x0c' then ['\\', 'f']
  else if c = '\n' then ['\\', 'n']
  else if c = '\r' then ['\\', 'r']
  else if c = '\t' then ['\\', 't']
  else if c.toNat < 0x20 then
    ['\\', 'u', '0', '0', hexDigit (c.toNat / 16), hexDigit (c.toNat % 16)]
  else [c]

def writeString : Option String → List Char
  | some text => '"' :: (text.toList.flatMap writeChar ++ ['"'])
  | none => ['"', '\\', 'u', 'd', '8', '0', '0', '"']

mutual
def writeChars : Json → List Char
  | .null => ['n', 'u', 'l', 'l']
  | .bool true => ['t', 'r', 'u', 'e']
  | .bool false => ['f', 'a', 'l', 's', 'e']
  | .number text => text.toList
  | .string text => writeString text
  | .array [] => ['[', ']']
  | .array (item :: items) => '[' :: (writeChars item ++ writeItems items)
  | .object [] => ['{', '}']
  | .object ((name, value) :: members) =>
    '{' :: (writeString name ++ ':' :: (writeChars value ++ writeMembers members))

def writeItems : List Json → List Char
  | [] => [']']
  | item :: items => ',' :: (writeChars item ++ writeItems items)

def writeMembers : List (Option String × Json) → List Char
  | [] => ['}']
  | (name, value) :: members =>
    ',' :: (writeString name ++ ':' :: (writeChars value ++ writeMembers members))
end

def write (value : Json) : String := String.ofList (writeChars value)

def text? : Json → Option String
  | .string text => text
  | _ => none

def bool? : Json → Option Bool
  | .bool value => some value
  | _ => none

def nat? (bound : Nat) : Json → Option Nat
  | .number text =>
    if text.toList.all Char.isDigit then
      let n := Nat.ofDigitChars 10 text.toList 0
      if n ≤ bound then some n else none
    else none
  | _ => none

def list? {α : Type} (f : Json → Option α) : Json → Option (List α)
  | .array items => items.mapM f
  | _ => none

def nullable? {α : Type} (f : Json → Option α) : Json → Option (Option α)
  | .null => some none
  | value => (f value).map some

/-- One of the names listed, or an object whose only member has that name and the value null. -/
def choice? {α : Type} (choices : List (String × α)) : Json → Option α
  | .string (some name) => choices.lookup name
  | .object [(some name, .null)] => choices.lookup name
  | _ => none

def table? {α : Type} (f : Json → Option α) : Json → Option (List (String × α))
  | .object members => members.mapM fun (name, value) => do return (← name, ← f value)
  | _ => none

def member? (name : String) (members : List (Option String × Json)) : Option Json :=
  members.lookup (some name)

def isRecord (names : List String) (members : List (Option String × Json)) : Bool :=
  members.all (·.1.isSome) &&
    names.all fun name => (members.filter (·.1 = some name)).length ≤ 1

def fields? (names : List String) : Json → Option (String → Option Json)
  | .object members => if isRecord names members then some (member? · members) else none
  | .array items =>
    if items.length ≤ names.length then some fun name => (names.zip items).lookup name else none
  | _ => none

def defaulted? {α : Type} (default : α) (f : Json → Option α) : Option Json → Option α
  | some value => f value
  | none => some default

def maxDepth : Nat := 127

def numberParts (text : List Char) : List Char × Nat × List Char :=
  let unsigned := text.dropWhile (· = '-')
  let mantissa := unsigned.takeWhile fun c => c ≠ 'e' && c ≠ 'E'
  let whole := mantissa.takeWhile (· ≠ '.')
  (mantissa.filter Char.isDigit, whole.length, (unsigned.drop mantissa.length).drop 1)

def exponent : List Char → Int
  | '-' :: digits => -(Nat.ofDigitChars 10 digits 0 : Int)
  | '+' :: digits => Nat.ofDigitChars 10 digits 0
  | digits => Nat.ofDigitChars 10 digits 0

def tooLarge : Nat := Nat.pow 2 1024 - Nat.pow 2 970

/-- Whether a number is in range. The place of the leading digit decides, except for the numbers with
309 digits before the point. -/
def inRange (text : String) : Bool :=
  let (digits, whole, exp) := numberParts text.toList
  let significant := digits.dropWhile (· = '0')
  let place : Int := exponent exp + whole - (digits.length - significant.length : Nat)
  if significant.isEmpty || place < 309 then true
  else if 309 < place then false
  else
    Nat.ofDigitChars 10 significant 0 * Nat.pow 10 (309 - significant.length) <
      tooLarge * Nat.pow 10 (significant.length - 309)

mutual
def isPlain : Nat → Json → Bool
  | _, .null => true
  | _, .bool _ => true
  | _, .number text => inRange text
  | _, .string text => text.isSome
  | 0, .array _ => false
  | depth + 1, .array items => arePlain depth items
  | 0, .object _ => false
  | depth + 1, .object members => arePlainMembers depth members

def arePlain : Nat → List Json → Bool
  | _, [] => true
  | depth, item :: items => isPlain depth item && arePlain depth items

def arePlainMembers : Nat → List (Option String × Json) → Bool
  | _, [] => true
  | depth, (name, value) :: members =>
    name.isSome && isPlain depth value && arePlainMembers depth members
end

end Json
end TreebankSearch

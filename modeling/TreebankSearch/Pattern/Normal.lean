import TreebankSearch.Text.Basic
import TreebankSearch.Text.LetterCase

/-!
# Normal form of a pattern text

A pattern is sent to the engine under one axis: anywhere below the root of a document, or at the root
itself. Whatever slashes its text starts with are replaced by those of the axis.

A node test that carries the test `caseMark` is meant to ignore letter case. The engine does not know
that mark, so it is taken out of the text of the pattern, and the equality tests for the word and the
lemma beside it are turned into tests of the lower-cased value. All this works on the text, so that
it also does what it can for texts that are no pattern.

The reach of a mark is its segment: what stands between `node[` and the next `]` or `node[`. A
segment that runs to the end of the text is left as it is.
-/

namespace TreebankSearch

inductive Axis where
  | root
  | anywhere
  deriving Repr, DecidableEq

namespace Axis

def slashes : Axis → List Char
  | .root => ['/']
  | .anywhere => ['/', '/']

def strip (s : List Char) : List Char := (Text.trim s).dropWhile (· = '/')

def attach (axis : Axis) (s : List Char) : List Char := axis.slashes ++ strip s

def place (axis : Axis) (pattern : String) : String := String.ofList (axis.attach pattern.toList)

theorem toList_place (axis : Axis) (pattern : String) :
    (axis.place pattern).toList = axis.attach pattern.toList := String.toList_ofList

end Axis

namespace CaseMark

def caseMark : List Char := "@caseinsensitive=\"yes\"".toList

def nodeOpen : List Char := ['n', 'o', 'd', 'e', '[']

def afterBlanks? : List Char → Option (List Char)
  | c :: rest => if Text.isBlank c then some (Text.trimStart rest) else none
  | [] => none

def wordStart? (inWord : Bool) (s : List Char) : Option (List Char) :=
  if inWord then afterBlanks? s else some (Text.trimStart s)

def afterJoinedMark? (inWord : Bool) (s : List Char) : Option (List Char) := do
  let rest ← Text.after? ['a', 'n', 'd'] (← wordStart? inWord s)
  Text.after? caseMark (← afterBlanks? rest)

def afterMarkJoined? (s : List Char) : Option (List Char) := do
  let rest ← Text.after? caseMark s
  let rest ← Text.after? ['a', 'n', 'd'] (← afterBlanks? rest)
  if Text.startsWithWord rest then none else some (Text.trimStart rest)

/-- What follows a mark that is to be taken out here, with the `and` on one side of it. -/
def afterMark? (inWord : Bool) (s : List Char) : Option (List Char) :=
  match afterJoinedMark? inWord s with
  | some rest => some rest
  | none =>
    match afterMarkJoined? s with
    | some rest => some rest
    | none => Text.after? caseMark s

theorem length_trimStart_le (s : List Char) : (Text.trimStart s).length ≤ s.length :=
  (List.dropWhile_suffix _).length_le

theorem length_of_afterBlanks? {s rest : List Char} (h : afterBlanks? s = some rest) :
    rest.length < s.length := by
  unfold afterBlanks? at h
  split at h
  · next c more =>
    split at h
    · cases h
      have := length_trimStart_le more
      simp; omega
    · cases h
  · cases h

theorem length_of_wordStart? {inWord : Bool} {s rest : List Char}
    (h : wordStart? inWord s = some rest) : rest.length ≤ s.length := by
  unfold wordStart? at h
  split at h
  · exact Nat.le_of_lt (length_of_afterBlanks? h)
  · cases h; exact length_trimStart_le s

theorem length_of_afterMark? {inWord : Bool} {s rest : List Char}
    (h : afterMark? inWord s = some rest) : rest.length < s.length := by
  unfold afterMark? at h
  split at h
  · next h₀ =>
    cases h
    obtain ⟨word, h₁, h₂⟩ := Option.bind_eq_some_iff.1 h₀
    obtain ⟨more, h₃, h₄⟩ := Option.bind_eq_some_iff.1 h₂
    obtain ⟨mark, h₅, h₆⟩ := Option.bind_eq_some_iff.1 h₄
    have l₁ := length_of_wordStart? h₁
    have l₂ := Text.length_of_after? h₃
    have l₃ := length_of_afterBlanks? h₅
    have l₄ := Text.length_of_after? h₆
    omega
  split at h
  · next h₀ =>
    cases h
    obtain ⟨more, h₁, h₂⟩ := Option.bind_eq_some_iff.1 h₀
    obtain ⟨word, h₃, h₄⟩ := Option.bind_eq_some_iff.1 h₂
    obtain ⟨last, h₅, h₆⟩ := Option.bind_eq_some_iff.1 h₄
    have l₁ := Text.length_of_after? h₁
    have l₂ := length_of_afterBlanks? h₃
    have l₃ := Text.length_of_after? h₅
    split at h₆
    · cases h₆
    · cases h₆
      have := length_trimStart_le last
      omega
  · have := Text.length_of_after? h
    have : 0 < caseMark.length := by decide
    omega

/-- A segment without its marks. `inWord` says whether a word character stands in front of it;
nothing that follows a mark goes on with a word that started before it. -/
def dropMarks (inWord : Bool) (s : List Char) : List Char :=
  match h : afterMark? inWord s with
  | some rest =>
    have := length_of_afterMark? h
    dropMarks false rest
  | none =>
    match s with
    | [] => []
    | c :: rest => c :: dropMarks (Text.isWordChar c) rest
termination_by s.length

def lexicalNames : List (List Char) := [['w', 'o', 'r', 'd'], ['l', 'e', 'm', 'm', 'a']]

def testOf? (name s : List Char) : Option (List Char × List Char) := do
  let rest ← Text.after? ('@' :: (name ++ ['=', '"'])) s
  match rest.takeWhile (· ≠ '"'), rest.dropWhile (· ≠ '"') with
  | c :: value, _ :: rest => some (c :: value, rest)
  | _, _ => none

def lowerTest (name value : List Char) : List Char :=
  "lower-case(@".toList ++ name ++ [')', '=', '"'] ++ Text.lower value ++ ['"']

def lexicalTest? (s : List Char) : Option (List Char × List Char) :=
  lexicalNames.findSome? fun name =>
    (testOf? name s).map fun (value, rest) => (lowerTest name value, rest)

theorem length_of_testOf? {name s value rest : List Char} (h : testOf? name s = some (value, rest)) :
    rest.length < s.length := by
  obtain ⟨more, h₁, h₂⟩ := Option.bind_eq_some_iff.1 h
  have l₁ := Text.length_of_after? h₁
  split at h₂
  · next c v d r hv hr =>
    cases h₂
    have l₂ := (List.dropWhile_suffix (l := more) (· ≠ '"')).length_le
    rw [hr] at l₂
    simp at l₂
    omega
  · cases h₂

theorem length_of_lexicalTest? {s test rest : List Char} (h : lexicalTest? s = some (test, rest)) :
    rest.length < s.length := by
  obtain ⟨name, _, h⟩ := List.exists_of_findSome?_eq_some h
  obtain ⟨⟨value, more⟩, ht, he⟩ := Option.map_eq_some_iff.1 h
  cases he
  exact length_of_testOf? ht

def lowerTests (s : List Char) : List Char :=
  match h : lexicalTest? s with
  | some (test, rest) =>
    have := length_of_lexicalTest? h
    test ++ lowerTests rest
  | none =>
    match s with
    | [] => []
    | c :: rest => c :: lowerTests rest
termination_by s.length

def rewriteSegment (segment : List Char) : List Char := lowerTests (dropMarks false segment)

def splitSegment : List Char → List Char × List Char
  | [] => ([], [])
  | c :: rest =>
    if c = ']' || (Text.after? nodeOpen (c :: rest)).isSome then ([], c :: rest)
    else
      let (segment, rest) := splitSegment rest
      (c :: segment, rest)

theorem splitSegment_append (s : List Char) : (splitSegment s).1 ++ (splitSegment s).2 = s := by
  fun_induction splitSegment s with
  | case1 => rfl
  | case2 => rfl
  | case3 c rest h segment more heq ih => simpa [heq] using ih

theorem length_splitSegment_le (s : List Char) : (splitSegment s).2.length ≤ s.length := by
  have := congrArg List.length (splitSegment_append s)
  simp only [List.length_append] at this
  omega

/-- A segment that is followed by `rest`, with its opening bracket, and what then remains of `rest`.
A segment of which nothing is left loses its brackets. -/
def closeSegment (segment rest : List Char) : List Char × List Char :=
  if rest.isEmpty || !Text.occursIn caseMark segment then (nodeOpen ++ segment, rest)
  else
    let rewritten := rewriteSegment segment
    match rest with
    | ']' :: more =>
      if rewritten.all Text.isBlank then (nodeOpen.dropLast, more) else (nodeOpen ++ rewritten, rest)
    | _ => (nodeOpen ++ rewritten, rest)

theorem length_closeSegment_le (segment rest : List Char) :
    (closeSegment segment rest).2.length ≤ rest.length := by
  unfold closeSegment
  split
  · exact Nat.le_refl _
  simp only
  split
  · split <;> simp
  · exact Nat.le_refl _

def closeNext (s : List Char) : List Char × List Char :=
  closeSegment (splitSegment s).1 (splitSegment s).2

theorem length_closeNext_lt {s after : List Char} (h : Text.after? nodeOpen s = some after) :
    (closeNext after).2.length < s.length := by
  have l₁ := Text.length_of_after? h
  have l₂ := length_splitSegment_le after
  have l₃ := length_closeSegment_le (splitSegment after).1 (splitSegment after).2
  have l₄ : nodeOpen.length = 5 := rfl
  simp only [closeNext]
  omega

def carryOut (s : List Char) : List Char :=
  match h : Text.after? nodeOpen s with
  | some after =>
    have := length_closeNext_lt h
    (closeNext after).1 ++ carryOut (closeNext after).2
  | none =>
    match s with
    | [] => []
    | c :: rest => c :: carryOut rest
termination_by s.length

def resolve (pattern : String) : String := String.ofList (carryOut pattern.toList)

end CaseMark

namespace Pattern

def normalize (axis : Axis) (pattern : String) : String := CaseMark.resolve (axis.place pattern)

end Pattern
end TreebankSearch

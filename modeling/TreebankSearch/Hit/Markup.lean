import TreebankSearch.Table
import TreebankSearch.Text.Basic

/-!
# Metadata and variables of a hit

The two kinds of element in which an engine returns the metadata of a document and the variables of
a match. Only these elements and their attributes are looked for, wherever they stand; the rest of
the text need not be well formed.
-/

namespace TreebankSearch.Markup

inductive ElementKind where
  | metadata
  | binding
  deriving Repr, DecidableEq

def ElementKind.opening : ElementKind → List Char
  | .metadata => ['<', 'm', 'e', 't', 'a']
  | .binding => ['<', 'v', 'a', 'r']

def afterOpening? (kind : ElementKind) (s : List Char) : Option (List Char) :=
  (Text.after? kind.opening s).filter fun rest => !Text.startsWithWord rest

def tagOf? (kind : ElementKind) (s : List Char) : Option (List Char × List Char) := do
  let inside ← afterOpening? kind s
  match inside.dropWhile (· ≠ '>') with
  | _ :: rest => some (inside.takeWhile (· ≠ '>'), rest)
  | [] => none

def tag? (s : List Char) : Option ((ElementKind × List Char) × List Char) :=
  [ElementKind.metadata, .binding].findSome? fun kind =>
    (tagOf? kind s).map fun (inside, rest) => ((kind, inside), rest)

theorem length_of_tagOf? {kind : ElementKind} {s inside rest : List Char}
    (h : tagOf? kind s = some (inside, rest)) : rest.length < s.length := by
  obtain ⟨more, h₁, h₂⟩ := Option.bind_eq_some_iff.1 h
  have l₁ := Text.length_of_after? (Option.filter_eq_some_iff.1 h₁).1
  split at h₂
  · next d r hr =>
    cases h₂
    have l₂ := (List.dropWhile_suffix (l := more) (· ≠ '>')).length_le
    rw [hr] at l₂
    simp at l₂
    omega
  · cases h₂

theorem length_of_tag? {s rest : List Char} {tag : ElementKind × List Char}
    (h : tag? s = some (tag, rest)) : rest.length < s.length := by
  obtain ⟨kind, _, h⟩ := List.exists_of_findSome?_eq_some h
  obtain ⟨⟨inside, more⟩, ht, he⟩ := Option.map_eq_some_iff.1 h
  cases he
  exact length_of_tagOf? ht

def tags (s : List Char) : List (ElementKind × List Char) :=
  match h : tag? s with
  | some (tag, rest) =>
    have := length_of_tag? h
    tag :: tags rest
  | none =>
    match s with
    | [] => []
    | _ :: rest => tags rest
termination_by s.length

def entities : List (List Char × Char) :=
  [("&quot;".toList, '"'), ("&apos;".toList, '\''), ("&lt;".toList, '<'), ("&gt;".toList, '>'),
    ("&amp;".toList, '&')]

def entity? (s : List Char) : Option (Char × List Char) :=
  entities.findSome? fun (name, c) => (Text.after? name s).map fun rest => (c, rest)

theorem length_of_entity? {s rest : List Char} {c : Char} (h : entity? s = some (c, rest)) :
    rest.length < s.length := by
  obtain ⟨⟨name, d⟩, hmem, h⟩ := List.exists_of_findSome?_eq_some h
  obtain ⟨more, ha, he⟩ := Option.map_eq_some_iff.1 h
  cases he
  have := Text.length_of_after? ha
  have : 0 < name.length := by
    have all : ∀ e ∈ entities, 0 < e.1.length := by decide
    exact all _ hmem
  omega

def unescape (s : List Char) : List Char :=
  match h : entity? s with
  | some (c, rest) =>
    have := length_of_entity? h
    c :: unescape rest
  | none =>
    match s with
    | [] => []
    | c :: rest => c :: unescape rest
termination_by s.length

def isNameStart (c : Char) : Bool := c.isAlpha || c = '_'

def isNameChar (c : Char) : Bool := Text.isWordChar c || c = ':' || c = '.' || c = '-'

def quoted? : List Char → Option (List Char × List Char)
  | quote :: s =>
    if quote = '"' || quote = '\'' then
      match s.dropWhile (· ≠ quote) with
      | _ :: rest => some (s.takeWhile (· ≠ quote), rest)
      | [] => none
    else none
  | [] => none

def attribute? : List Char → Option ((List Char × List Char) × List Char)
  | c :: s =>
    if isNameStart c then
      match Text.trimStart (s.dropWhile isNameChar) with
      | '=' :: rest =>
        (quoted? (Text.trimStart rest)).map fun (value, rest) =>
          ((c :: s.takeWhile isNameChar, unescape value), rest)
      | _ => none
    else none
  | [] => none

theorem length_of_quoted? {s value rest : List Char} (h : quoted? s = some (value, rest)) :
    rest.length < s.length := by
  unfold quoted? at h
  split at h
  · next quote s =>
    split at h
    · split at h
      · next d r hr =>
        cases h
        have l := (List.dropWhile_suffix (l := s) (· ≠ quote)).length_le
        rw [hr] at l
        simp at l ⊢
        omega
      · cases h
    · cases h
  · cases h

theorem length_of_attribute? {s rest : List Char} {found : List Char × List Char}
    (h : attribute? s = some (found, rest)) : rest.length < s.length := by
  unfold attribute? at h
  split at h
  · next c s =>
    split at h
    · split at h
      · next more hm =>
        obtain ⟨⟨value, r⟩, hq, he⟩ := Option.map_eq_some_iff.1 h
        cases he
        have l₁ := length_of_quoted? hq
        have l₂ := (List.dropWhile_suffix (l := more) Text.isBlank).length_le
        have l₃ := (List.dropWhile_suffix (l := s.dropWhile isNameChar) Text.isBlank).length_le
        have l₄ := (List.dropWhile_suffix (l := s) isNameChar).length_le
        simp only [Text.trimStart] at hm l₁
        rw [hm] at l₃
        simp only [List.length_cons] at l₃ ⊢
        omega
      · cases h
    · cases h
  · cases h

def attributes (s : List Char) : List (List Char × List Char) :=
  match h : attribute? s with
  | some (found, rest) =>
    have := length_of_attribute? h
    found :: attributes rest
  | none =>
    match s with
    | [] => []
    | _ :: rest => attributes rest
termination_by s.length

def attributeTable (inside : List Char) : Table String :=
  .ofList ((attributes inside).map fun (name, value) => (String.ofList name, String.ofList value))

def elements (kind : ElementKind) (text : String) : List (Table String) :=
  ((tags text.toList).filter (·.1 = kind)).map fun tag => attributeTable tag.2

def metadata (text : String) : Table String :=
  .ofList <| (elements .metadata text).filterMap fun attributes =>
    (attributes.get? "name").map fun name => (name, (attributes.get? "value").getD "")

def bindings (text : String) : Table (Table String) :=
  .ofList <| (elements .binding text).filterMap fun attributes =>
    (attributes.get? "name").map fun name => (name, attributes)

end TreebankSearch.Markup

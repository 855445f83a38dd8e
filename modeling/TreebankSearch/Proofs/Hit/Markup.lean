import TreebankSearch.Proofs.Hit.Entity
import TreebankSearch.Proofs.Table
import TreebankSearch.Text.Delimiter

/-!
# Elements written out and read back

Elements with their attributes, and the text that they are written in. What is read in such a text are the
elements with the values that they were written with: of two attributes with the same key, or two elements
with the same name, the last one counts.
-/

namespace TreebankSearch.Markup

def IsKey : List Char → Prop
  | [] => False
  | c :: s => (c.isAlpha = true ∨ c = '_') ∧ ∀ d ∈ s, d.isAlphanum = true ∨ d ∈ ['_', '.', '-', ':']

instance : DecidablePred IsKey
  | [] => .isFalse id
  | _ :: s => @instDecidableAnd _ _ inferInstance (List.decidableBAll _ s)

structure Attribute where
  key : String
  quote : Quote
  value : String
  isKey : IsKey key.toList

structure Element where
  kind : ElementKind
  attributes : List Attribute

def Attribute.text (a : Attribute) : List Char :=
  ' ' :: (a.key.toList ++ '=' :: a.quote.mark :: (escape a.value.toList ++ [a.quote.mark]))

def inside (attributes : List Attribute) : List Char := attributes.flatMap Attribute.text ++ ['/']

def Element.text (e : Element) : List Char :=
  match e.kind with
  | .metadata => '<' :: 'm' :: 'e' :: 't' :: 'a' :: (inside e.attributes ++ ['>'])
  | .binding => '<' :: 'v' :: 'a' :: 'r' :: (inside e.attributes ++ ['>'])

def document (elements : List Element) : String := String.ofList (elements.flatMap Element.text)

def Element.value? (e : Element) (key : String) : Option String :=
  ((e.attributes.filter fun a => a.key = key).getLast?).map Attribute.value

/-- The last element of one kind that has a name. -/
def lastNamed (kind : ElementKind) (name : String) (elements : List Element) : Option Element :=
  (elements.filter fun e => e.kind = kind ∧ e.value? "name" = some name).getLast?

theorem isNameChar_of_isAlphanum {c : Char} (h : c.isAlphanum = true) : isNameChar c = true := by
  have hrange : ∀ first last : UInt32, (first.toNat, last.toNat) ∈ Text.wordChars.ranges →
      c.val ≥ first ∧ c.val ≤ last → isNameChar c = true := fun first last hmem hc => by
    have hword : Text.isWordChar c = true := List.any_eq_true.2 ⟨_, hmem, Bool.and_eq_true_iff.2
      ⟨decide_eq_true (UInt32.le_iff_toNat_le.1 hc.1), decide_eq_true (UInt32.le_iff_toNat_le.1 hc.2)⟩⟩
    simp [isNameChar, hword]
  rcases Bool.or_eq_true_iff.1 h with halpha | hdigit
  · rcases Bool.or_eq_true_iff.1 halpha with hupper | hlower
    · exact hrange 0x41 0x5A (.tail _ (.head _)) (of_decide_eq_true hupper)
    · exact hrange 0x61 0x7A (.tail _ (.tail _ (.tail _ (.head _))))
        ((Bool.and_eq_true_iff.1 hlower).imp of_decide_eq_true of_decide_eq_true)
  · exact hrange 0x30 0x39 (.head _)
      ((Bool.and_eq_true_iff.1 hdigit).imp of_decide_eq_true of_decide_eq_true)

theorem isNameChar_sign : ∀ c ∈ ['_', '.', '-', ':'], isNameChar c = true :=
  List.all_eq_true.1 (by decide +kernel)

theorem isNameChar_equals : isNameChar '=' = false := by decide +kernel

theorem startsWithWord_inside (attributes : List Attribute) (rest : List Char) :
    Text.startsWithWord (inside attributes ++ rest) = false := by
  have hslash : Text.isWordChar '/' = false := by decide +kernel
  have hblank : Text.isWordChar ' ' = false := by decide +kernel
  cases attributes with
  | nil => exact hslash
  | cons a attributes => exact hblank

theorem IsKey.exists_cons {key : List Char} (h : IsKey key) : ∃ c s, key = c :: s ∧
    isNameStart c = true ∧ (∀ d ∈ s, isNameChar d = true) ∧ '>' ∉ key := by
  cases key with
  | nil => exact h.elim
  | cons c s =>
    obtain ⟨hstart, hs⟩ := h
    refine ⟨c, s, rfl, by simpa [isNameStart] using hstart, fun d hd => ?_, fun hm => ?_⟩
    · rcases hs d hd with halpha | hsign
      · exact isNameChar_of_isAlphanum halpha
      · exact isNameChar_sign d hsign
    · rcases List.mem_cons.1 hm with rfl | hm
      · exact absurd hstart (by decide)
      · exact absurd (hs _ hm) (by decide)

theorem attributes_nil : attributes [] = [] := by
  rw [attributes]
  rfl

theorem attributes_cons {c : Char} {s : List Char} (h : attribute? (c :: s) = none) :
    attributes (c :: s) = attributes s := by
  rw [attributes]
  split
  · next hsome =>
    rw [h] at hsome
    cases hsome
  · rfl

theorem attributes_of_attribute? {s rest : List Char} {found : List Char × List Char}
    (h : attribute? s = some (found, rest)) : attributes s = found :: attributes rest := by
  rw [attributes]
  split
  · next hsome =>
    rw [h] at hsome
    cases hsome
    rfl
  · next hnone =>
    rw [h] at hnone
    cases hnone

theorem quoted?_mark (quote : Quote) {s : List Char} (h : quote.mark ∉ s) (rest : List Char) :
    quoted? (quote.mark :: (s ++ quote.mark :: rest)) = some (s, rest) := by
  have hmark : (quote.mark = '"' || quote.mark = '\'') = true := by cases quote <;> decide
  obtain ⟨htake, hdrop⟩ := Text.takeWhile_ne_append h rest
  rw [quoted?, if_pos hmark, hdrop, htake]

theorem mark_mem (quote : Quote) : quote.mark ∈ ['"', '\'', '<', '>'] := by cases quote <;> decide

theorem attribute?_text (a : Attribute) (rest : List Char) :
    attribute? (a.text.tail ++ rest) = some ((a.key.toList, a.value.toList), rest) := by
  obtain ⟨c, s, hkey, hstart, hs, -⟩ := a.isKey.exists_cons
  have htext : a.text.tail ++ rest =
      c :: (s ++ '=' :: a.quote.mark :: (escape a.value.toList ++ a.quote.mark :: rest)) := by
    simp [Attribute.text, hkey]
  have hquoted := quoted?_mark a.quote (not_mem_escape (mark_mem a.quote) a.value.toList) rest
  have hequals : Text.isBlank '=' = false := by decide
  have hmark : Text.isBlank a.quote.mark = false := by cases a.quote <;> decide
  rw [htext, attribute?, if_pos hstart, List.dropWhile_append_of_pos hs,
    List.takeWhile_append_of_pos hs, List.dropWhile_cons_of_neg (by simp [isNameChar_equals]),
    List.takeWhile_cons_of_neg (by simp [isNameChar_equals]), List.append_nil, Text.trimStart,
    List.dropWhile_cons_of_neg (by simp [hequals])]
  simp only [Text.trimStart]
  rw [List.dropWhile_cons_of_neg (by simp [hmark]), hquoted, hkey]
  simp [unescape_escape]

theorem attributes_inside (as : List Attribute) :
    attributes (inside as) = as.map fun a => (a.key.toList, a.value.toList) := by
  have hsign : ∀ c ∈ [' ', '/'], ∀ s, attribute? (c :: s) = none := by
    intro c hc s
    have hstart : ∀ c ∈ [' ', '/'], ¬ isNameStart c = true := List.any_eq_false.1 (by decide)
    rw [attribute?, if_neg (hstart c hc)]
  induction as with
  | nil => exact (attributes_cons (hsign '/' (by decide) [])).trans attributes_nil
  | cons a as ih =>
    have htext : inside (a :: as) = ' ' :: (a.text.tail ++ inside as) := by
      simp [inside, Attribute.text]
    rw [htext, attributes_cons (hsign ' ' (by decide) _), attributes_of_attribute? (attribute?_text a _), ih,
      List.map_cons]

theorem get?_attributeTable (e : Element) :
    (attributeTable (inside e.attributes)).get? = e.value? := by
  funext key
  rw [attributeTable, attributes_inside, List.map_map]
  simp only [Function.comp_def, String.ofList_toList]
  exact Table.get?_ofList_map Attribute.key Attribute.value e.attributes key

theorem not_mem_inside (as : List Attribute) : '>' ∉ inside as := by
  intro hm
  rcases List.mem_append.1 hm with hm | hm
  · obtain ⟨a, -, ha⟩ := List.mem_flatMap.1 hm
    obtain ⟨c, s, -, -, -, hkey⟩ := a.isKey.exists_cons
    have hmark : '>' ≠ a.quote.mark := by cases a.quote <;> decide
    have hvalue : '>' ∉ escape a.value.toList := not_mem_escape (by decide) _
    simp [Attribute.text, hkey, hmark, hvalue] at ha
  · exact absurd hm (by decide)

theorem text_append (e : Element) (rest : List Char) :
    e.text ++ rest = e.kind.opening ++ (inside e.attributes ++ '>' :: rest) := by
  unfold Element.text
  cases e.kind <;> simp [ElementKind.opening]

theorem tagOf?_text (e : Element) (rest : List Char) :
    tagOf? e.kind (e.text ++ rest) = some (inside e.attributes, rest) := by
  obtain ⟨htake, hdrop⟩ := Text.takeWhile_ne_append (not_mem_inside e.attributes) rest
  have hafter : afterOpening? e.kind (e.text ++ rest) = some (inside e.attributes ++ '>' :: rest) := by
    rw [afterOpening?, text_append, Text.after?_append, Option.filter_some, startsWithWord_inside]
    rfl
  rw [tagOf?, hafter, Option.bind_eq_bind, Option.bind_some, hdrop, htake]

theorem tag?_text (e : Element) (rest : List Char) :
    tag? (e.text ++ rest) = some ((e.kind, inside e.attributes), rest) := by
  have htag := tagOf?_text e rest
  unfold tag?
  cases hkind : e.kind with
  | metadata =>
    rw [hkind] at htag
    rw [List.findSome?_cons, htag]
    rfl
  | binding =>
    have hother : tagOf? .metadata (e.text ++ rest) = none := by
      simp [tagOf?, afterOpening?, text_append, hkind, ElementKind.opening, Text.after?]
    rw [hkind] at htag
    rw [List.findSome?_cons, hother, List.findSome?_cons, htag]
    rfl

theorem tags_of_tag? {s rest : List Char} {tag : ElementKind × List Char}
    (h : tag? s = some (tag, rest)) : tags s = tag :: tags rest := by
  rw [tags]
  split
  · next hsome =>
    rw [h] at hsome
    cases hsome
    rfl
  · next hnone =>
    rw [h] at hnone
    cases hnone

theorem tags_text (elements : List Element) :
    tags (elements.flatMap Element.text) = elements.map fun e => (e.kind, inside e.attributes) := by
  induction elements with
  | nil =>
    rw [List.flatMap_nil, tags]
    rfl
  | cons e elements ih => rw [List.flatMap_cons, tags_of_tag? (tag?_text e _), ih, List.map_cons]

theorem elements_document (kind : ElementKind) (elements : List Element) :
    Markup.elements kind (document elements) =
      (elements.filter fun e => e.kind = kind).map fun e => attributeTable (inside e.attributes) := by
  rw [Markup.elements, document, String.toList_ofList, tags_text, List.filter_map, List.map_map]
  rfl

theorem getLast?_elements (kind : ElementKind) (name : String) (elements : List Element) :
    ((Markup.elements kind (document elements)).filter fun table => table.get? "name" = some name).getLast? =
      (lastNamed kind name elements).map fun e => attributeTable (inside e.attributes) := by
  rw [elements_document, List.filter_map, List.getLast?_map, lastNamed, List.filter_filter]
  congr 3
  funext e
  rw [Function.comp_apply, get?_attributeTable, Bool.decide_and, Bool.and_comm]

/-- What is read in a document of elements is what was written in it: each name once, with what the last
element of that name has. -/
theorem read_document (elements : List Element) :
    (∀ name, (metadata (document elements)).get? name =
      (lastNamed .metadata name elements).map fun e => (e.value? "value").getD "") ∧
    (∀ name, ((bindings (document elements)).get? name).map Table.get? =
      (lastNamed .binding name elements).map Element.value?) ∧
    (metadata (document elements)).keys.Nodup ∧ (bindings (document elements)).keys.Nodup ∧
    ∀ name table, (bindings (document elements)).get? name = some table → table.keys.Nodup := by
  have hbindings : ∀ name, (bindings (document elements)).get? name =
      (lastNamed .binding name elements).map fun e => attributeTable (inside e.attributes) := fun name => by
    rw [bindings, Table.get?_ofList_filterMap, getLast?_elements, Option.map_map]
    rfl
  refine ⟨fun name => ?_, fun name => ?_, Table.nodup_keys_ofList _, Table.nodup_keys_ofList _,
    fun name table h => ?_⟩
  · rw [metadata, Table.get?_ofList_filterMap, getLast?_elements, Option.map_map]
    simp only [Function.comp_def, get?_attributeTable]
  · rw [hbindings, Option.map_map]
    simp only [Function.comp_def, get?_attributeTable]
  · rw [hbindings] at h
    obtain ⟨e, -, rfl⟩ := Option.map_eq_some_iff.1 h
    exact Table.nodup_keys_ofList _

def sampleElements : List Element :=
  [⟨.metadata, [⟨"name", .double, "genre", by decide⟩, ⟨"value", .single, "prose", by decide⟩]⟩,
    ⟨.metadata, [⟨"value", .double, "verse", by decide⟩]⟩,
    ⟨.binding, [⟨"name", .double, "n", by decide⟩, ⟨"pos", .double, "verb", by decide⟩]⟩,
    ⟨.metadata, [⟨"name", .double, "year", by decide⟩, ⟨"name", .single, "genre", by decide⟩,
      ⟨"value", .single, "1990", by decide⟩, ⟨"value", .double, "\"Q&A\" <'>", by decide⟩]⟩,
    ⟨.binding, [⟨"pos", .single, "noun", by decide⟩]⟩,
    ⟨.binding, [⟨"name", .single, "n", by decide⟩, ⟨"lemma", .double, "&amp;", by decide⟩]⟩,
    ⟨.metadata, [⟨"name", .double, "date", by decide⟩]⟩]

theorem read_document_sample :
    (metadata (document sampleElements)).get? "genre" = some "\"Q&A\" <'>" ∧
    (metadata (document sampleElements)).get? "date" = some "" ∧
    (metadata (document sampleElements)).get? "year" = none ∧
    (metadata (document sampleElements)).keys.Nodup ∧
    ∃ table, (bindings (document sampleElements)).get? "n" = some table ∧ table.get? "name" = some "n" ∧
      table.get? "lemma" = some "&amp;" ∧ table.get? "pos" = none ∧ table.keys.Nodup := by
  obtain ⟨hmetadata, hbindings, hkeys, -, htable⟩ := read_document sampleElements
  have hlast : lastNamed .binding "n" sampleElements = some
      ⟨.binding, [⟨"name", .single, "n", by decide⟩, ⟨"lemma", .double, "&amp;", by decide⟩]⟩ := rfl
  have hn := hbindings "n"
  rw [hlast] at hn
  obtain ⟨table, ht, he⟩ := Option.map_eq_some_iff.1 hn
  refine ⟨?_, ?_, ?_, hkeys, table, ht, ?_, ?_, ?_, htable _ _ ht⟩
  · rw [hmetadata]
    decide
  · rw [hmetadata]
    decide
  · rw [hmetadata]
    decide
  · rw [he]
    decide
  · rw [he]
    decide
  · rw [he]
    decide

end TreebankSearch.Markup

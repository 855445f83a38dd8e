import TreebankSearch.Hit.Markup
import TreebankSearch.Proofs.Filter.Clause
import TreebankSearch.Proofs.Text.Replace

/-!
# Entities

Values are written with entities for the characters that have a meaning in markup. Reading them back in one
pass is the same as replacing one entity after the other, as long as the one for `&` comes last.

The value of a facet is taken from the metadata of a hit and written into a filter, from where it is read
with its entities replaced. Escaping replaces `&` first and unescaping replaces its entity last, so that no
replacement takes up what another one has left.
-/

namespace TreebankSearch.Markup

variable {c : Char} {s rest name : List Char}

theorem unescape_nil : unescape [] = [] := by
  rw [unescape]
  rfl

theorem unescape_cons (h : entity? (c :: s) = none) : unescape (c :: s) = c :: unescape s := by
  rw [unescape]
  split
  · next hsome =>
    rw [h] at hsome
    cases hsome
  · rfl

theorem unescape_of_entity? (h : entity? s = some (c, rest)) : unescape s = c :: unescape rest := by
  rw [unescape]
  split
  · next hsome =>
    rw [h] at hsome
    cases hsome
    rfl
  · next hnone =>
    rw [h] at hnone
    cases hnone

theorem entity?_cons_of_ne (h : c ≠ '&') (s : List Char) : entity? (c :: s) = none := by
  simp [entity?, entities, Text.after?, Ne.symm h]

theorem entity?_append (h : (name, c) ∈ entities) (rest : List Char) :
    entity? (name ++ rest) = some (c, rest) := by
  simp only [entities, List.mem_cons, List.not_mem_nil, or_false, Prod.mk.injEq] at h
  rcases h with ⟨rfl, rfl⟩ | ⟨rfl, rfl⟩ | ⟨rfl, rfl⟩ | ⟨rfl, rfl⟩ | ⟨rfl, rfl⟩ <;>
    simp [entity?, entities, Text.after?]

theorem exists_of_entity? (h : entity? s = some (c, rest)) :
    ∃ name, (name, c) ∈ entities ∧ s = name ++ rest := by
  obtain ⟨⟨name, d⟩, hmem, h⟩ := List.exists_of_findSome?_eq_some h
  obtain ⟨more, hafter, he⟩ := Option.map_eq_some_iff.1 h
  cases he
  exact ⟨name, hmem, Text.after?_eq_some_iff.1 hafter⟩

theorem enclosed_of_mem_entities : ∀ entity ∈ entities, Text.Enclosed '&' ';' entity.1 := by
  intro entity he
  refine ⟨(entity.1.drop 1).dropLast, ?_⟩
  revert entity
  decide

theorem successive_entities : Text.Successive entities := by
  unfold Text.Successive
  decide

theorem unescape_eq_replaceEach (s : List Char) : unescape s = Text.replaceEach entities s := by
  fun_induction unescape s with
  | case1 s c rest h _ ih =>
    obtain ⟨name, hmem, rfl⟩ := exists_of_entity? h
    rw [ih, successive_entities.replaceEach_append enclosed_of_mem_entities hmem]
  | case2 => exact (Text.replaceEach_nil _).symm
  | case3 c rest h ih =>
    have hnone : ∀ entity ∈ entities, Text.after? entity.1 (c :: rest) = none := by
      intro entity hmem
      have hfound := List.findSome?_eq_none_iff.1 h entity hmem
      exact Option.map_eq_none_iff.1 hfound
    rw [ih, successive_entities.replaceEach_cons hnone]

/-- Each character is written as an entity that stands for it, or, if it is not `&`, as it is. -/
def Writes (write : Char → List Char) : Prop :=
  ∀ c, (write c, c) ∈ entities ∨ write c = [c] ∧ c ≠ '&'

variable {write : Char → List Char}

theorem Writes.unescape_flatMap (h : Writes write) (s : List Char) : unescape (s.flatMap write) = s := by
  induction s with
  | nil => exact unescape_nil
  | cons c s ih =>
    rw [List.flatMap_cons]
    rcases h c with hmem | ⟨hplain, hamp⟩
    · rw [unescape_of_entity? (entity?_append hmem _), ih]
    · rw [hplain, List.singleton_append, unescape_cons (entity?_cons_of_ne hamp _), ih]

theorem Writes.exists_cons (h : Writes write) (c : Char) : ∃ d tail, write c = d :: tail ∧ '&' ∉ tail := by
  rcases h c with hmem | ⟨hplain, -⟩
  · obtain ⟨name, hname, -, he⟩ := enclosed_of_mem_entities _ hmem
    exact ⟨'&', name ++ [';'], he, hname⟩
  · exact ⟨c, [], hplain, List.not_mem_nil⟩

theorem Writes.exists_entity (h : Writes write) {front : List Char}
    (he : s.flatMap write = front ++ '&' :: rest) :
    ∃ c, (write c, c) ∈ entities ∧ write c <+: '&' :: rest := by
  induction s generalizing front with
  | nil => exact absurd he.symm (List.append_ne_nil_of_right_ne_nil front (List.cons_ne_nil '&' rest))
  | cons c s ih =>
    rw [List.flatMap_cons] at he
    cases front with
    | nil =>
      rcases h c with hmem | ⟨hplain, hamp⟩
      · exact ⟨c, hmem, _, he⟩
      · rw [hplain] at he
        exact absurd (List.cons.inj he).1 hamp
    | cons d front =>
      obtain ⟨d', tail, hwrite, htail⟩ := h.exists_cons c
      rw [hwrite, List.cons_append, List.cons_append] at he
      have hrest : tail ++ s.flatMap write = front ++ '&' :: rest := (List.cons.inj he).2
      obtain ⟨more, rfl⟩ := prefix_of_append_cons_eq htail hrest.symm
      rw [List.append_assoc] at hrest
      exact ih (List.append_cancel_left hrest)

def escapeChar : Char → List Char
  | '&' => "&amp;".toList
  | '"' => "&quot;".toList
  | '\'' => "&apos;".toList
  | '<' => "&lt;".toList
  | '>' => "&gt;".toList
  | c => [c]

def escape (s : List Char) : List Char := s.flatMap escapeChar

theorem escapeChar_cases (c : Char) :
    (escapeChar c, c) ∈ entities ∨
      escapeChar c = [c] ∧ c ∉ ['&', '"', '\'', '<', '>'] := by
  unfold escapeChar
  split
  · exact .inl (by decide)
  · exact .inl (by decide)
  · exact .inl (by decide)
  · exact .inl (by decide)
  · exact .inl (by decide)
  · next h₁ h₂ h₃ h₄ h₅ => exact .inr ⟨rfl, by simpa using ⟨h₁, h₂, h₃, h₄, h₅⟩⟩

theorem unescape_escape (s : List Char) : unescape (escape s) = s := by
  have hwrites : Writes escapeChar := fun c =>
    (escapeChar_cases c).imp_right (And.imp_right fun hc he => hc (he ▸ List.mem_cons_self))
  exact hwrites.unescape_flatMap s

theorem not_mem_escape (hc : c ∈ ['"', '\'', '<', '>']) (s : List Char) : c ∉ escape s := by
  intro hm
  obtain ⟨d, -, hd⟩ := List.mem_flatMap.1 hm
  rcases escapeChar_cases d with hmem | ⟨hplain, hplain'⟩
  · have hentities : ∀ entity ∈ entities, ∀ c ∈ ['"', '\'', '<', '>'], c ∉ entity.1 := by
      simp [entities]
    exact hentities _ hmem c hc hd
  · rw [hplain, List.mem_singleton] at hd
    exact hplain' (List.mem_cons_of_mem _ (hd ▸ hc))

end TreebankSearch.Markup

namespace TreebankSearch.Filter

theorem escape_eq_replace (text : String) :
    (escape text).toList =
      Text.replace ['"'] "&quot;".toList (Text.replace ['&'] "&amp;".toList text.toList) := by
  rw [Text.replace_singleton, Text.replace_singleton, List.flatMap_assoc, escape, String.toList_ofList]
  congr 1
  funext c
  unfold escapeChar
  split
  · rfl
  · rfl
  · next hamp hquote => rw [if_neg hamp, List.flatMap_singleton, if_neg hquote]

theorem writes_escapeChar : Markup.Writes escapeChar := by
  intro c
  unfold escapeChar
  split
  · exact .inl (by decide)
  · exact .inl (by decide)
  · next hamp _ => exact .inr ⟨rfl, hamp⟩

theorem escapeChar_of_prefix {c : Char} {rest : List Char} (h : escapeChar c <+: '&' :: rest) :
    "&amp;".toList <+: '&' :: rest ∨ "&quot;".toList <+: '&' :: rest := by
  unfold escapeChar at h
  split at h
  · exact .inl h
  · exact .inr h
  · next hamp _ => exact absurd (List.cons_prefix_cons.1 h).1 hamp

/-- A value that is escaped is read back as it was, in one pass or with one entity replaced after the other.
There is no quote in the escaped value, and no `&` but at the start of one of the two entities that it is
written with. -/
theorem unescape_value (value : String) :
    Markup.unescape (escape value).toList = value.toList ∧
      Text.replaceEach [("&quot;".toList, '"'), ("&apos;".toList, '\''), ("&lt;".toList, '<'),
          ("&gt;".toList, '>'), ("&amp;".toList, '&')]
        (Text.replace ['"'] "&quot;".toList (Text.replace ['&'] "&amp;".toList value.toList)) =
          value.toList ∧
      '"' ∉ (escape value).toList ∧
      ∀ front rest, (escape value).toList = front ++ '&' :: rest →
        "&amp;".toList <+: '&' :: rest ∨ "&quot;".toList <+: '&' :: rest := by
  have hwritten : (escape value).toList = value.toList.flatMap escapeChar := String.toList_ofList
  have hread : Markup.unescape (escape value).toList = value.toList := by
    rw [hwritten, writes_escapeChar.unescape_flatMap]
  refine ⟨hread, ?_, mark_not_mem_escape value, fun front rest he => ?_⟩
  · rw [← escape_eq_replace]
    exact (Markup.unescape_eq_replaceEach _).symm.trans hread
  · obtain ⟨c, -, hprefix⟩ := writes_escapeChar.exists_entity (hwritten.symm.trans he)
    exact escapeChar_of_prefix hprefix

end TreebankSearch.Filter

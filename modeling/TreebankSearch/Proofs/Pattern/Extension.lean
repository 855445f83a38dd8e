import TreebankSearch.Proofs.Pattern.Accepted
import TreebankSearch.Proofs.Pattern.Shape

/-!
# Groups behind a pattern

A pattern that is followed by more groups `[..]` is read as the pattern with the brackets of these
groups behind its own: no part of the pattern is read in another way because of what follows it.
Groups that say nothing about the node and its children leave the shape signature as it was.
-/

namespace TreebankSearch

theorem Signature.ofPattern?_append (pattern : Pattern) {more : List (List Term)}
    (h : ∀ terms ∈ more, ∀ term ∈ terms, term.Silent) :
    ofPattern? ⟨pattern.slashes, ⟨pattern.root.brackets ++ more⟩⟩ = ofPattern? pattern := by
  have hsilent : ∀ term ∈ more.flatten, term.Silent := fun term hm => by
    obtain ⟨terms, hterms, hm⟩ := List.mem_flatten.1 hm
    exact h terms hterms term hm
  have hshape := (SameShape.refl pattern.root.brackets.flatten).append (SameShape.of_silent hsilent)
  rw [List.append_nil, ← List.flatten_append] at hshape
  exact ofPattern?_of_sameShape hshape

namespace Pattern

variable {ts us : List Token} {brackets more : List (List Term)} {p : Pattern}

theorem Breaks.append {q : Char → Bool} (ht : Breaks q ts) (hu : Breaks q us) :
    Breaks q (ts ++ us) := by
  cases ts with
  | nil => exact hu
  | cons t ts =>
    intro c rest he
    exact ht c ts (by rw [(List.cons.inj he).1])

theorem readBrackets_append (ht : readBrackets ts = (.ok brackets, [])) (us : List Token) :
    readBrackets (ts ++ us) =
      ((readBrackets us).1.map (brackets ++ ·), (readBrackets us).2) := by
  fun_induction readBrackets ts generalizing brackets with
  | case1 c ts hc ih => rw [List.cons_append, readBrackets, if_pos hc, ih ht]
  | case2 c ts hc => cases ht
  | case3 inner terms ts more rest heq ih =>
    obtain ⟨hread, rfl⟩ := Prod.mk.inj ht
    cases terms with
    | error error => cases hread
    | ok terms =>
      cases more with
      | error error => cases hread
      | ok more =>
        cases hread
        rw [List.cons_append, readBrackets, ih heq]
        cases (readBrackets us).1 <;> rfl
  | case4 ts hchar henc =>
    cases ht
    rw [List.nil_append]
    cases readBrackets us with
    | mk found rest => cases found <;> rfl

/-- The parts of a text that is read as a pattern: space, slashes, space, the word `node`, and the
groups, whose tokens are read as the brackets of the root. -/
def Parted (s : List Char) (p : Pattern) : Prop :=
  ∃ (front slashes gap groups : List Char) (ts : List Token),
    s = front ++ (slashes ++ (gap ++ (['n', 'o', 'd', 'e'] ++ groups))) ∧
    Spaces front ∧ (∀ c ∈ slashes, c = '/') ∧ slashes.length = p.slashes ∧ Spaces gap ∧
    Lexed groups ts ∧ Breaks isNameChar ts ∧ readBrackets ts = (.ok p.root.brackets, [])

theorem parse_eq_ok_iff {text : String} : parse text = .ok p ↔ Parted text.toList p := by
  constructor
  · intro h
    obtain ⟨front, slashes, gap, groups, htext, hf, hs, hg, hgr⟩ :=
      accepted_of_parse (by rw [h]; exact fun he => by cases he)
    obtain ⟨ts, hl, hr, hb⟩ := hgr.lexed
    have hlex := (lexed_spaces hf).append ((lexed_slashes hs).append
      ((lexed_spaces hg).append (lexed_node.append hl)))
    rw [← htext] at hlex
    rw [parse_of_lexed hlex, ofTokens_append hf hs hg hb hr] at h
    cases hread : readBrackets ts with
    | mk found rest =>
      rw [hread] at h hr
      cases found with
      | error error => cases h
      | ok brackets =>
        cases h
        cases hr
        exact ⟨front, slashes, gap, groups, ts, htext, hf, hs, rfl, hg, hl, hb, hread⟩
  · rintro ⟨front, slashes, gap, groups, ts, htext, hf, hs, hlen, hg, hl, hb, hr⟩
    have hlex := (lexed_spaces hf).append ((lexed_slashes hs).append
      ((lexed_spaces hg).append (lexed_node.append hl)))
    rw [← htext] at hlex
    rw [parse_of_lexed hlex, ofTokens_append hf hs hg hb (by rw [hr]), hr, hlen]
    rfl

/-- Groups behind a pattern are read as further brackets of its root. -/
theorem parse_append {text groups : String} (h : parse text = .ok p) (hl : Lexed groups.toList us)
    (hb : Breaks isNameChar us) (hr : readBrackets us = (.ok more, [])) :
    parse (text ++ groups) = .ok ⟨p.slashes, ⟨p.root.brackets ++ more⟩⟩ := by
  obtain ⟨front, slashes, gap, own, ts, htext, hf, hs, hlen, hg, hlo, hbo, hro⟩ :=
    parse_eq_ok_iff.1 h
  refine parse_eq_ok_iff.2 ⟨front, slashes, gap, own ++ groups.toList, ts ++ us, ?_, hf, hs, hlen, hg,
    hlo.append hl, hbo.append hb, ?_⟩
  · rw [String.toList_append, htext]
    simp only [List.append_assoc]
  · rw [readBrackets_append hro, hr]
    rfl

end Pattern
end TreebankSearch

import TreebankSearch.Proofs.Pattern.Opened
import TreebankSearch.Proofs.Pattern.RoundTrip

/-!
# The leading attribute

The value of a name that stands before all children of a node. It is the one of the first equality test in
the reading of the node, if no child test comes before that; but a term in whose parentheses there is a
child test at all is passed over together with the attributes in front of the child.
-/

namespace TreebankSearch

def Term.requiring (name value : String) : Term := .attr ⟨name, some (.eq, value)⟩

def Term.Passive (name : String) (term : Term) : Prop :=
  term.isChildTest = false ∧ ∀ value, term ≠ requiring name value

/-- Read from left to right, the terms have `@name="value"` as their first equality test for `name`, and no
child test before it. -/
def Term.Leads (name value : String) (reading : List Term) : Prop :=
  ∃ before after, reading = before ++ requiring name value :: after ∧ ∀ t ∈ before, t.Passive name

/-- The test that leads in the reading of the node stands in `term`, one of the terms of its brackets. -/
def NodeTest.LeadsIn (node : NodeTest) (name value : String) (term : Term) : Prop :=
  ∃ front rest, node.brackets.flatten = front ++ term :: rest ∧
    (∀ t ∈ Term.openedIn front, t.Passive name) ∧ Term.Leads name value term.opened

namespace Term

variable {name value : String} {term : Term} {terms ts us : List Term}

theorem openedIn_eq_flatMap (terms : List Term) : openedIn terms = terms.flatMap opened := by
  induction terms with
  | nil => rfl
  | cons t ts ih => rw [openedIn, ih, List.flatMap_cons]

mutual
theorem not_group_of_mem_opened {t : Term} :
    ∀ term : Term, t ∈ term.opened → ∀ name terms, t ≠ group name terms
  | .group _ inner, h, name, terms => not_group_of_mem_openedIn inner h name terms
  | .attr _, h, _, _ => fun he => by cases List.mem_singleton.1 (he ▸ h)
  | .child _, h, _, _ => fun he => by cases List.mem_singleton.1 (he ▸ h)
  | .count _ _, h, _, _ => fun he => by cases List.mem_singleton.1 (he ▸ h)
  | .order, h, _, _ => fun he => by cases List.mem_singleton.1 (he ▸ h)
  | .connective _, h, _, _ => fun he => by cases List.mem_singleton.1 (he ▸ h)
  | .verbatim _, h, _, _ => fun he => by cases List.mem_singleton.1 (he ▸ h)

theorem not_group_of_mem_openedIn {t : Term} :
    ∀ terms : List Term, t ∈ openedIn terms → ∀ name terms, t ≠ group name terms
  | [], h => absurd h List.not_mem_nil
  | u :: us, h => by
    rw [openedIn, List.mem_append] at h
    rcases h with h | h
    · exact not_group_of_mem_opened u h
    · exact not_group_of_mem_openedIn us h
end

theorem value?_eq_some_iff_requiring (h : ∀ name terms, term ≠ group name terms) :
    term.value? name = some value ↔ term = requiring name value := by
  cases term with
  | attr test =>
    obtain ⟨other, comparison⟩ := test
    rw [value?, requiring, attr.injEq, AttributeTest.mk.injEq]
    by_cases he : other = name
    · rw [if_pos he, and_iff_right he]
      rcases comparison with _ | ⟨op, text⟩
      · simp [AttributeTest.required?]
      · cases op <;> simp [AttributeTest.required?]
    · simp [he]
  | group other terms => exact absurd rfl (h other terms)
  | _ => simp [value?, requiring]

theorem value?_eq_none_iff_requiring (h : ∀ name terms, term ≠ group name terms) :
    term.value? name = none ↔ ∀ value, term ≠ requiring name value := by
  rw [Option.eq_none_iff_forall_ne_some]
  exact forall_congr' fun value => not_congr (value?_eq_some_iff_requiring h)

theorem passive_opened_iff :
    (∀ t ∈ term.opened, t.Passive name) ↔ term.hasChild = false ∧ term.value? name = none := by
  rw [hasChild_eq_opened, value?_eq_opened, List.any_eq_false, List.findSome?_eq_none_iff]
  constructor
  · intro h
    refine ⟨fun t ht => by simp [(h t ht).1], fun t ht => ?_⟩
    exact (value?_eq_none_iff_requiring (not_group_of_mem_opened term ht)).2 (h t ht).2
  · rintro ⟨hchild, hvalue⟩ t ht
    refine ⟨Bool.eq_false_iff.2 (hchild t ht), ?_⟩
    exact (value?_eq_none_iff_requiring (not_group_of_mem_opened term ht)).1 (hvalue t ht)

theorem passive_openedIn_iff :
    (∀ t ∈ openedIn terms, t.Passive name) ↔
      ∀ t ∈ terms, t.hasChild = false ∧ t.value? name = none := by
  simp only [openedIn_eq_flatMap, List.mem_flatMap, forall_exists_index, and_imp]
  rw [forall_comm]
  exact forall_congr' fun t => by
    rw [← passive_opened_iff]
    exact forall_comm

theorem value?_eq_some_iff_leads (h : term.hasChild = false) :
    term.value? name = some value ↔ Leads name value term.opened := by
  rw [hasChild_eq_opened, List.any_eq_false] at h
  rw [value?_eq_opened, List.findSome?_eq_some_iff]
  constructor
  · rintro ⟨before, t, after, he, ht, hbefore⟩
    have hgroup : ∀ u ∈ before ++ t :: after, ∀ other inner, u ≠ group other inner := fun u hu =>
      not_group_of_mem_opened term (he ▸ hu)
    obtain rfl := (value?_eq_some_iff_requiring (hgroup t (by simp))).1 ht
    refine ⟨before, after, he, fun u hu => ⟨?_, ?_⟩⟩
    · exact Bool.eq_false_iff.2 (h u (he ▸ List.mem_append_left _ hu))
    · exact (value?_eq_none_iff_requiring (hgroup u (List.mem_append_left _ hu))).1 (hbefore u hu)
  · rintro ⟨before, after, he, hbefore⟩
    refine ⟨before, requiring name value, after, he, if_pos rfl, fun u hu => ?_⟩
    have hgroup := not_group_of_mem_opened term (he ▸ List.mem_append_left _ hu)
    exact (value?_eq_none_iff_requiring hgroup).2 (hbefore u hu).2

theorem leads_append :
    Leads name value (ts ++ us) ↔
      Leads name value ts ∨ (∀ t ∈ ts, t.Passive name) ∧ Leads name value us := by
  constructor
  · rintro ⟨before, after, he, hbefore⟩
    rcases List.append_eq_append_iff.1 he with ⟨more, rfl, hus⟩ | ⟨more, rfl, htest⟩
    · -- the test stands in `us`
      obtain ⟨hts, hmore⟩ := List.forall_mem_append.1 hbefore
      exact .inr ⟨hts, more, after, hus, hmore⟩
    · cases more with
      | nil =>
        rw [List.append_nil]
        exact .inr ⟨hbefore, [], after, htest.symm, fun _ hm => absurd hm List.not_mem_nil⟩
      | cons test more =>
        obtain ⟨rfl, -⟩ := List.cons.inj htest
        exact .inl ⟨before, more, rfl, hbefore⟩
  · rintro (⟨before, after, rfl, hbefore⟩ | ⟨hts, before, after, rfl, hbefore⟩)
    · exact ⟨before, after ++ us, by simp, hbefore⟩
    · exact ⟨ts ++ before, after, by simp, List.forall_mem_append.2 ⟨hts, hbefore⟩⟩

/-- The test that leads in a reading stands in one of the terms, behind passive ones. -/
theorem exists_leads_iff :
    Leads name value (openedIn terms) ↔
      ∃ term front rest, terms = front ++ term :: rest ∧
        (∀ t ∈ openedIn front, t.Passive name) ∧ Leads name value term.opened := by
  constructor
  · intro h
    induction terms with
    | nil =>
      obtain ⟨before, after, he, -⟩ := h
      simp [openedIn] at he
    | cons t ts ih =>
      rw [openedIn] at h
      rcases leads_append.1 h with h | ⟨ht, h⟩
      · exact ⟨t, [], ts, rfl, fun _ hm => absurd hm List.not_mem_nil, h⟩
      · obtain ⟨term, front, rest, rfl, hfront, hleads⟩ := ih h
        refine ⟨term, t :: front, rest, rfl, ?_, hleads⟩
        rw [openedIn]
        exact List.forall_mem_append.2 ⟨ht, hfront⟩
  · rintro ⟨term, front, rest, rfl, hfront, hleads⟩
    rw [openedIn_append, openedIn]
    exact leads_append.2 (.inr ⟨hfront, leads_append.2 (.inl hleads)⟩)

end Term

namespace NodeTest

variable {name value : String} {terms : List Term}

theorem leadingIn?_eq_some_iff :
    leadingIn? name terms = some value ↔
      ∃ term front rest, terms = front ++ term :: rest ∧
        (∀ t ∈ front, t.hasChild = false ∧ t.value? name = none) ∧
        term.hasChild = false ∧ term.value? name = some value := by
  constructor
  · intro h
    induction terms with
    | nil => cases h
    | cons t ts ih =>
      rw [leadingIn?] at h
      cases hc : t.hasChild with
      | true =>
        rw [if_pos hc] at h
        cases h
      | false =>
        rw [if_neg (by simp [hc])] at h
        cases hv : t.value? name with
        | some first =>
          rw [hv] at h
          exact ⟨t, [], ts, rfl, by simp, hc, hv.trans h⟩
        | none =>
          rw [hv] at h
          obtain ⟨term, front, rest, rfl, hfront, hterm⟩ := ih h
          exact ⟨term, t :: front, rest, rfl, List.forall_mem_cons.2 ⟨⟨hc, hv⟩, hfront⟩, hterm⟩
  · rintro ⟨term, front, rest, rfl, hfront, hc, hv⟩
    induction front with
    | nil => rw [List.nil_append, leadingIn?, if_neg (by simp [hc]), hv]
    | cons t front ih =>
      obtain ⟨⟨htc, htv⟩, hfront⟩ := List.forall_mem_cons.1 hfront
      rw [List.cons_append, leadingIn?, if_neg (by simp [htc]), htv]
      exact ih hfront

/-- The leading attribute is required by the first equality test for its name, in a reading of the node in
which no child test stands before that; and the term that holds the test holds no child test behind it
either. -/
theorem leadingAttribute?_eq_some_iff (node : NodeTest) (name value : String) :
    (node.leadingAttribute? name = some value ↔
      ∃ term, node.LeadsIn name value term ∧ ∀ t ∈ term.opened, t.isChildTest = false) ∧
    ((∃ term, node.LeadsIn name value term) ↔ Term.Leads name value node.reading) := by
  refine ⟨?_, Term.exists_leads_iff.symm⟩
  rw [leadingAttribute?, leadingIn?_eq_some_iff]
  refine exists_congr fun term => ?_
  have hchild : (∀ t ∈ term.opened, t.isChildTest = false) ↔ term.hasChild = false := by
    simp [Term.hasChild_eq_opened]
  rw [hchild]
  constructor
  · rintro ⟨front, rest, he, hfront, hc, hv⟩
    exact ⟨⟨front, rest, he, Term.passive_openedIn_iff.2 hfront,
      (Term.value?_eq_some_iff_leads hc).1 hv⟩, hc⟩
  · rintro ⟨⟨front, rest, he, hfront, hleads⟩, hc⟩
    exact ⟨front, rest, he, Term.passive_openedIn_iff.1 hfront, hc,
      (Term.value?_eq_some_iff_leads hc).2 hleads⟩

end NodeTest

namespace Pattern

def mixedGroup : Pattern :=
  ⟨2, ⟨[[.group none [.requiring "cat" "np", .connective .and, .child [[.requiring "rel" "su"]]]]]⟩⟩

/-- The attribute stands before all children and is passed over, so that the signature lacks the category. -/
theorem leadingAttribute?_mixedGroup :
    parse "//node[(@cat=\"np\" and node[@rel=\"su\"])]" = .ok mixedGroup ∧
      Term.Leads "cat" "np" mixedGroup.root.reading ∧
      mixedGroup.root.leadingAttribute? "cat" = none ∧
      Signature.ofPattern? mixedGroup = some ⟨"ALLsu%"⟩ := by
  have none : Spaces [] := by decide
  have one : Spaces [' '] := by decide
  have hcat : Spelled (.operand (.requiring "cat" "np")) _ :=
    .comparison .eq .double (by decide) none none (by decide)
  have hrel : Spelled (.operand (.requiring "rel" "su")) _ :=
    .comparison .eq .double (by decide) none none (by decide)
  have hchild := Spelled.child (.bracket none (.content none (.single hrel) none) .noBrackets)
  have hgroup := Spelled.nameless (.content none
    (.join .and hcat one (by decide) one (by decide) (.single hchild)) none)
  have hs : Spells mixedGroup "//node[(@cat=\"np\" and node[@rel=\"su\"])]".toList :=
    ⟨[], [], _, [], none, none, .bracket none (.content none (.single hgroup) none) .noBrackets, none,
      by decide⟩
  refine ⟨hs.parse, ⟨[], [.connective .and, .child [[.requiring "rel" "su"]]], rfl, by simp⟩, rfl, ?_⟩
  decide +kernel

end Pattern
end TreebankSearch

import Mathlib.Logic.Relation
import TreebankSearch.Proofs.Pattern.Opened

/-!
# Changes that keep the shape

What may be changed in a pattern without a change of its signature: the order of the child tests at the root,
the way in which several like children are asked for, the terms that are no tests, whatever is asked of the
children of the children, and the number of slashes.
-/

namespace TreebankSearch

/-- Lists of terms that differ in one stretch, changed by `edit`: a stretch of the lists themselves or of
the terms of a group in them, at any depth. -/
inductive Term.Edited (edit : List Term → List Term → Prop) : List Term → List Term → Prop
  | here (front rest : List Term) {ts us : List Term} :
      edit ts us → Edited edit (front ++ ts ++ rest) (front ++ us ++ rest)
  | group (front rest : List Term) (name : Option String) {ts us : List Term} :
      Edited edit ts us → Edited edit (front ++ .group name ts :: rest) (front ++ .group name us :: rest)

inductive NodeTest.Edited (edit : List Term → List Term → Prop) : NodeTest → NodeTest → Prop
  | bracket (front rest : List (List Term)) {ts us : List Term} :
      Term.Edited edit ts us → Edited edit ⟨front ++ ts :: rest⟩ ⟨front ++ us :: rest⟩

inductive NodeTest.Padded : NodeTest → NodeTest → Prop
  | bracket (front rest : List (List Term)) : Padded ⟨front ++ rest⟩ ⟨front ++ [] :: rest⟩

inductive Term.Inside (change : NodeTest → NodeTest → Prop) : List Term → List Term → Prop
  | child {brackets brackets' : List (List Term)} :
      change ⟨brackets⟩ ⟨brackets'⟩ → Inside change [.child brackets] [.child brackets']
  | count {brackets brackets' : List (List Term)} (n : Nat) :
      change ⟨brackets⟩ ⟨brackets'⟩ → Inside change [.count brackets n] [.count brackets' n]

/-- Nodes that differ by a change at a depth: at depth zero of the node itself, at depth one of one of its
children, and so on. -/
def NodeTest.ChangedAt (change : NodeTest → NodeTest → Prop) : Nat → NodeTest → NodeTest → Prop
  | 0 => change
  | depth + 1 => NodeTest.Edited (Term.Inside (ChangedAt change depth))

def Term.isIdle : Term → Bool
  | .order => true
  | .connective _ => true
  | .verbatim _ => true
  | _ => false

def Term.Replaced (kind : Term → Bool) (ts us : List Term) : Prop :=
  ∀ t ∈ ts ++ us, kind t = true

/-- A count of at least one stands for as many children. -/
inductive Term.Expanded : List Term → List Term → Prop
  | count (brackets : List (List Term)) {n : Nat} :
      1 ≤ n → Expanded [.count brackets n] (List.replicate n (.child brackets))

mutual
def Term.outline : Term → Term
  | .child _ => .child []
  | .count _ _ => .child []
  | .group name terms => .group name (Term.outlineIn terms)
  | term => term

def Term.outlineIn : List Term → List Term
  | [] => []
  | t :: ts => t.outline :: Term.outlineIn ts
end

/-- The child tests have taken each other's places, in the brackets and in their groups. -/
structure NodeTest.Permuted (node node' : NodeTest) : Prop where
  places : node.brackets.map Term.outlineIn = node'.brackets.map Term.outlineIn
  childTests : node.childTests.Perm node'.childTests

/-- One change that keeps the shape. Each of them may be made backwards too. -/
inductive Pattern.Change : Pattern → Pattern → Prop
  | slashes (root : NodeTest) (m n : Nat) : Change ⟨m, root⟩ ⟨n, root⟩
  | permute (slashes : Nat) {root root' : NodeTest} :
      root.Permuted root' → Change ⟨slashes, root⟩ ⟨slashes, root'⟩
  | expand (slashes : Nat) {root root' : NodeTest} :
      root.Edited Term.Expanded root' → Change ⟨slashes, root⟩ ⟨slashes, root'⟩
  | idle (slashes depth : Nat) {root root' : NodeTest} :
      NodeTest.ChangedAt (NodeTest.Edited (Term.Replaced Term.isIdle)) depth root root' →
      Change ⟨slashes, root⟩ ⟨slashes, root'⟩
  | below (slashes depth : Nat) {root root' : NodeTest} :
      NodeTest.ChangedAt (NodeTest.Edited (Term.Replaced Term.isChildTest)) (depth + 1) root root' →
      Change ⟨slashes, root⟩ ⟨slashes, root'⟩
  | pad (slashes depth : Nat) {root root' : NodeTest} :
      NodeTest.ChangedAt NodeTest.Padded depth root root' → Change ⟨slashes, root⟩ ⟨slashes, root'⟩

theorem Term.silent_of_isIdle {term : Term} (h : term.isIdle = true) : term.Silent := by
  cases term with
  | order => exact ⟨fun _ => rfl, rfl, rfl, rfl⟩
  | connective c => exact silent_connective c
  | verbatim text => exact silent_verbatim text
  | _ => cases h

structure Term.Compatible (R : List Term → List Term → Prop) : Prop where
  frame : ∀ (front rest : List Term) {ts us : List Term},
    R ts us → R (front ++ ts ++ rest) (front ++ us ++ rest)
  group : ∀ (name : Option String) {ts us : List Term},
    R ts us → R [.group name ts] [.group name us]

def Term.SameValues (ts us : List Term) : Prop :=
  ∀ name ∈ shapeNames, valueIn? name ts = valueIn? name us

section Edited

variable {edit R : List Term → List Term → Prop} {change : NodeTest → NodeTest → Prop}
variable {ts us : List Term} {node node' : NodeTest}

theorem Term.Edited.of_compatible (hR : Term.Compatible R) (he : ∀ {ts us}, edit ts us → R ts us)
    (h : Term.Edited edit ts us) : R ts us := by
  induction h with
  | here front rest h => exact hR.frame front rest (he h)
  | group front rest name _ ih => simpa using hR.frame front rest (hR.group name ih)

theorem NodeTest.Edited.of_compatible (hR : Term.Compatible R) (he : ∀ {ts us}, edit ts us → R ts us)
    (h : node.Edited edit node') : R node.brackets.flatten node'.brackets.flatten := by
  obtain ⟨front, rest, h⟩ := h
  simpa using hR.frame front.flatten rest.flatten (h.of_compatible hR he)

theorem Term.valueIn?_singleton (name : String) (term : Term) :
    Term.valueIn? name [term] = term.value? name := by
  rw [valueIn?, valueIn?]
  cases term.value? name <;> rfl

theorem Term.compatible_sameValues : Term.Compatible Term.SameValues where
  frame := fun front rest _ _ h name hn => by
    simp only [Term.valueIn?_append, h name hn]
  group := fun name _ _ h other hn => by
    rw [Term.valueIn?_singleton, Term.valueIn?_singleton]
    exact h other hn

theorem Term.Inside.sameValues (h : Term.Inside change ts us) : Term.SameValues ts us := by
  cases h <;> exact fun _ _ => rfl

theorem NodeTest.ChangedAt.sameValues {depth : Nat}
    (hc : ∀ {node node'}, change node node' →
      Term.SameValues node.brackets.flatten node'.brackets.flatten)
    (h : NodeTest.ChangedAt change depth node node') :
    Term.SameValues node.brackets.flatten node'.brackets.flatten := by
  cases depth with
  | zero => exact hc h
  | succ depth => exact NodeTest.Edited.of_compatible Term.compatible_sameValues Term.Inside.sameValues h

end Edited

namespace NodeTest

theorem leadingIn?_append (name : String) (ts us : List Term) :
    leadingIn? name (ts ++ us) =
      (leadingIn? name ts).or (if Term.anyChild ts then none else leadingIn? name us) := by
  induction ts with
  | nil => rw [List.nil_append, leadingIn?.eq_1, Option.none_or, Term.anyChild.eq_1, if_neg Bool.false_ne_true]
  | cons t ts ih =>
    rw [List.cons_append, leadingIn?, leadingIn?, ih, Term.anyChild]
    cases t.hasChild <;> cases t.value? name <;> simp

theorem leadingIn?_group (name : String) (function : Option String) (ts : List Term) :
    leadingIn? name [.group function ts] =
      if Term.anyChild ts then none else Term.valueIn? name ts := by
  rw [leadingIn?, leadingIn?, Term.hasChild, Term.value?]
  cases Term.valueIn? name ts <;> rfl

end NodeTest

namespace Term

theorem outlineIn_eq_map (terms : List Term) : outlineIn terms = terms.map outline := by
  induction terms with
  | nil => rfl
  | cons t ts ih => rw [outlineIn, ih, List.map_cons]

theorem outlineIn_flatten (brackets : List (List Term)) :
    outlineIn brackets.flatten = (brackets.map outlineIn).flatten := by
  rw [outlineIn_eq_map, List.map_flatten, List.map_congr_left fun terms _ => outlineIn_eq_map terms]

mutual
theorem value?_outline (name : String) : ∀ term : Term, term.outline.value? name = term.value? name
  | .group _ terms => valueIn?_outlineIn name terms
  | .attr _ => rfl
  | .child _ => rfl
  | .count _ _ => rfl
  | .order => rfl
  | .connective _ => rfl
  | .verbatim _ => rfl

theorem valueIn?_outlineIn (name : String) :
    ∀ terms : List Term, valueIn? name (outlineIn terms) = valueIn? name terms
  | [] => rfl
  | t :: ts => by rw [outlineIn, valueIn?, valueIn?, value?_outline name t, valueIn?_outlineIn name ts]
end

mutual
theorem hasChild_outline : ∀ term : Term, term.outline.hasChild = term.hasChild
  | .group _ terms => anyChild_outlineIn terms
  | .attr _ => rfl
  | .child _ => rfl
  | .count _ _ => rfl
  | .order => rfl
  | .connective _ => rfl
  | .verbatim _ => rfl

theorem anyChild_outlineIn : ∀ terms : List Term, anyChild (outlineIn terms) = anyChild terms
  | [] => rfl
  | t :: ts => by rw [outlineIn, anyChild, anyChild, hasChild_outline t, anyChild_outlineIn ts]
end

theorem leadingIn?_outlineIn (name : String) (terms : List Term) :
    NodeTest.leadingIn? name (outlineIn terms) = NodeTest.leadingIn? name terms := by
  induction terms with
  | nil => rfl
  | cons t ts ih =>
    rw [outlineIn, NodeTest.leadingIn?, NodeTest.leadingIn?, hasChild_outline, value?_outline, ih]

theorem childrenIn_replicate (brackets : List (List Term)) (n : Nat) :
    childrenIn (List.replicate n (.child brackets)) = List.replicate n ⟨brackets⟩ := by
  induction n with
  | zero => rfl
  | succ n ih =>
    rw [List.replicate_succ, childrenIn, ih]
    rfl

theorem valueIn?_of_childTests (name : String) {terms : List Term}
    (h : ∀ t ∈ terms, t.isChildTest = true) : valueIn? name terms = none := by
  induction terms with
  | nil => rfl
  | cons t ts ih =>
    obtain ⟨ht, hts⟩ := List.forall_mem_cons.1 h
    rw [valueIn?, ih hts]
    cases t with
    | child brackets => rfl
    | count brackets n => rfl
    | _ => cases ht

theorem sameValues_of_childTests {ts us : List Term} (h : Replaced isChildTest ts us) :
    SameValues ts us := by
  obtain ⟨hts, hus⟩ := List.forall_mem_append.1 h
  exact fun name _ => (valueIn?_of_childTests name hts).trans (valueIn?_of_childTests name hus).symm

end Term

namespace SameOutlook

variable {ts us vs : List Term}

theorem refl (ts : List Term) : SameOutlook ts ts :=
  ⟨fun _ _ => rfl, fun _ _ => rfl, rfl, rfl, .refl _⟩

theorem symm (h : SameOutlook ts us) : SameOutlook us ts :=
  ⟨fun name hn => (h.value name hn).symm, fun name hn => (h.leading name hn).symm, h.anyChild.symm,
    h.childCounts.symm, h.labels.symm⟩

theorem trans (h : SameOutlook ts us) (h' : SameOutlook us vs) : SameOutlook ts vs :=
  ⟨fun name hn => (h.value name hn).trans (h'.value name hn),
    fun name hn => (h.leading name hn).trans (h'.leading name hn), h.anyChild.trans h'.anyChild,
    h.childCounts.trans h'.childCounts, h.labels.trans h'.labels⟩

theorem frame (front rest : List Term) (h : SameOutlook ts us) :
    SameOutlook (front ++ ts ++ rest) (front ++ us ++ rest) where
  value := fun name hn => by simp only [Term.valueIn?_append, h.value name hn]
  leading := fun name hn => by
    simp only [NodeTest.leadingIn?_append, Term.anyChild_append, h.leading name hn, h.anyChild]
  anyChild := by simp only [Term.anyChild_append, h.anyChild]
  childCounts := by simp only [Term.childCounts_append, h.childCounts]
  labels := by
    simp only [Term.childrenIn_append, List.filterMap_append]
    exact (h.labels.append_left _).append_right _

theorem group (name : Option String) (h : SameOutlook ts us) :
    SameOutlook [.group name ts] [.group name us] where
  value := fun other hn => by
    rw [Term.valueIn?_singleton, Term.valueIn?_singleton]
    exact h.value other hn
  leading := fun other hn => by
    rw [NodeTest.leadingIn?_group, NodeTest.leadingIn?_group, h.anyChild, h.value other hn]
  anyChild := by simp only [Term.anyChild, Term.hasChild, h.anyChild]
  childCounts := by simp only [Term.childCounts, Term.childCount, h.childCounts]
  labels := by
    simp only [Term.childrenIn, Term.children, List.append_nil]
    exact h.labels

theorem compatible : Term.Compatible SameOutlook where
  frame := fun front rest _ _ h => h.frame front rest
  group := fun name _ _ h => h.group name

theorem of_idle (h : Term.Replaced Term.isIdle ts us) : SameOutlook ts us := by
  have hnone : ∀ {terms}, (∀ t ∈ terms, t.isIdle = true) → SameOutlook terms [] := fun ht =>
    (SameShape.of_silent fun t hm => Term.silent_of_isIdle (ht t hm)).outlook
  obtain ⟨hts, hus⟩ := List.forall_mem_append.1 h
  exact (hnone hts).trans (hnone hus).symm

theorem of_inside {change : NodeTest → NodeTest → Prop}
    (hc : ∀ {node node'}, change node node' →
      Term.SameValues node.brackets.flatten node'.brackets.flatten)
    (h : Term.Inside change ts us) : SameOutlook ts us := by
  cases h with
  | child h =>
    have hlabel := Signature.childLabel?_congr (hc h)
    refine ⟨fun _ _ => rfl, fun _ _ => rfl, rfl, rfl, .of_eq ?_⟩
    simp only [Term.childrenIn, Term.children, List.filterMap_append, List.filterMap_cons, hlabel]
  | count n h =>
    have hlabel := Signature.childLabel?_congr (hc h)
    refine ⟨fun _ _ => rfl, fun _ _ => rfl, rfl, rfl, .of_eq ?_⟩
    simp only [Term.childrenIn, Term.children, List.filterMap_append, List.filterMap_replicate, hlabel]

/-- Below the root, it is enough that the changed node requires the same values. -/
theorem of_changedBelow {change : NodeTest → NodeTest → Prop} {node node' : NodeTest} {depth : Nat}
    (hc : ∀ {node node'}, change node node' →
      Term.SameValues node.brackets.flatten node'.brackets.flatten)
    (h : NodeTest.ChangedAt change (depth + 1) node node') :
    SameOutlook node.brackets.flatten node'.brackets.flatten :=
  NodeTest.Edited.of_compatible compatible (of_inside fun h => NodeTest.ChangedAt.sameValues hc h) h

theorem of_changedAt {change : NodeTest → NodeTest → Prop} {node node' : NodeTest} {depth : Nat}
    (hc : ∀ {node node'}, change node node' →
      SameOutlook node.brackets.flatten node'.brackets.flatten)
    (h : NodeTest.ChangedAt change depth node node') :
    SameOutlook node.brackets.flatten node'.brackets.flatten := by
  cases depth with
  | zero => exact hc h
  | succ depth => exact of_changedBelow (fun h => (hc h).value) h

theorem of_expanded (h : Term.Expanded ts us) : SameOutlook ts us := by
  cases h with
  | count brackets hn =>
    obtain ⟨m, rfl⟩ := Nat.exists_eq_add_of_le' hn
    have hchildren : Term.childrenIn [.count brackets (m + 1)] =
        Term.childrenIn (List.replicate (m + 1) (.child brackets)) := by
      rw [Term.childrenIn_replicate, Term.childrenIn, Term.childrenIn, Term.children, List.append_nil]
    refine ⟨fun name _ => ?_, fun _ _ => rfl, rfl, ?_, .of_eq (by rw [hchildren])⟩
    · refine (Term.valueIn?_of_childTests name fun t hm => ?_).symm
      rw [List.eq_of_mem_replicate hm]
      rfl
    · rw [Term.childCounts_eq_length, Term.childCounts_eq_length, hchildren]

theorem of_permuted {node node' : NodeTest} (h : node.Permuted node') :
    SameOutlook node.brackets.flatten node'.brackets.flatten := by
  have hplaces : Term.outlineIn node.brackets.flatten = Term.outlineIn node'.brackets.flatten := by
    rw [Term.outlineIn_flatten, Term.outlineIn_flatten, h.places]
  have hchildren : (Term.childrenIn node.brackets.flatten).Perm
      (Term.childrenIn node'.brackets.flatten) := by
    rw [← NodeTest.children_eq, ← NodeTest.children_eq, NodeTest.children_eq_childTests,
      NodeTest.children_eq_childTests]
    exact h.childTests.flatMap_right Term.children
  refine ⟨fun name _ => ?_, fun name _ => ?_, ?_, ?_, hchildren.filterMap _⟩
  · rw [← Term.valueIn?_outlineIn, hplaces, Term.valueIn?_outlineIn]
  · rw [← Term.leadingIn?_outlineIn, hplaces, Term.leadingIn?_outlineIn]
  · rw [← Term.anyChild_outlineIn, hplaces, Term.anyChild_outlineIn]
  · rw [Term.childCounts_eq_length, Term.childCounts_eq_length, hchildren.length_eq]

end SameOutlook

namespace Pattern

variable {p q : Pattern}

theorem Change.outlook (h : Change p q) :
    SameOutlook p.root.brackets.flatten q.root.brackets.flatten := by
  cases h with
  | slashes root m n => exact .refl _
  | permute slashes h => exact .of_permuted h
  | expand slashes h => exact h.of_compatible SameOutlook.compatible SameOutlook.of_expanded
  | idle slashes depth h =>
    exact .of_changedAt (fun h => h.of_compatible SameOutlook.compatible SameOutlook.of_idle) h
  | below slashes depth h =>
    exact .of_changedBelow
      (fun h => h.of_compatible Term.compatible_sameValues Term.sameValues_of_childTests) h
  | pad slashes depth h =>
    refine .of_changedAt (fun h => ?_) h
    obtain ⟨front, rest⟩ := h
    simpa using SameOutlook.refl _

/-- The signature of a pattern is kept by any number of changes to and fro, each of which keeps the shape.
There is none just if the root asks for no children, or for more than 64 of them. -/
theorem ofPattern?_eq_of_changes (h : Relation.EqvGen Change p q) :
    Signature.ofPattern? p = Signature.ofPattern? q ∧
      (Signature.ofPattern? p = none ↔ p.root.childTests = [] ∨ 64 < p.root.childTotal) := by
  refine ⟨?_, Signature.ofPattern?_eq_none_iff⟩
  induction h with
  | rel p q h => exact Signature.ofPattern?_of_sameOutlook h.outlook
  | refl p => rfl
  | symm p q _ ih => exact ih.symm
  | trans p q r _ _ ih ih' => exact ih.trans ih'

def sampleShape (slashes : Nat) (first : Term) (grouped : List Term) : Pattern :=
  ⟨slashes, ⟨[[.attr ⟨"cat", some (.eq, "np")⟩, first,
    .group (some "not") (grouped ++ [.attr ⟨"word", none⟩])]]⟩⟩

def sampleHead (more : List Term) : Term := .child [.attr ⟨"rel", some (.eq, "hd")⟩ :: more]

def sampleModifier (more : List Term) : List Term :=
  .attr ⟨"rel", some (.eq, "mod")⟩ :: (more ++ [.attr ⟨"pt", some (.eq, "adj")⟩])

theorem ofPattern?_eq_of_changes_sample :
    Relation.EqvGen Change (sampleShape 2 (.count [sampleModifier []] 2) [sampleHead []])
        (sampleShape 1 (sampleHead [.count [] 3])
          [.child [sampleModifier [.order]], .child [sampleModifier []]]) ∧
      Signature.ofPattern? (sampleShape 2 (.count [sampleModifier []] 2) [sampleHead []]) =
        some ⟨"nphd%_mod%adj_mod%adj"⟩ ∧
      Signature.ofPattern? (sampleShape 1 (sampleHead [.count [] 3])
        [.child [sampleModifier [.order]], .child [sampleModifier []]]) =
        some ⟨"nphd%_mod%adj_mod%adj"⟩ := by
  have hslashes : Change (sampleShape 2 (.count [sampleModifier []] 2) [sampleHead []])
      (sampleShape 1 (.count [sampleModifier []] 2) [sampleHead []]) := .slashes _ 2 1
  have hpermute : Change (sampleShape 1 (.count [sampleModifier []] 2) [sampleHead []])
      (sampleShape 1 (sampleHead []) [.count [sampleModifier []] 2]) := .permute 1 ⟨rfl, .swap _ _ _⟩
  have hexpand : Change (sampleShape 1 (sampleHead []) [.count [sampleModifier []] 2])
      (sampleShape 1 (sampleHead []) [.child [sampleModifier []], .child [sampleModifier []]]) :=
    .expand 1 (.bracket [] [] (.group [_, _] [] _
      (.here [] [_] (Term.Expanded.count [sampleModifier []] (by decide : 1 ≤ 2)))))
  have hbelow : Change
      (sampleShape 1 (sampleHead []) [.child [sampleModifier []], .child [sampleModifier []]])
      (sampleShape 1 (sampleHead [.count [] 3]) [.child [sampleModifier []], .child [sampleModifier []]]) :=
    .below 1 0 (.bracket [] [] (.here [_] [_] (Term.Inside.child (.bracket [] []
      (@Term.Edited.here _ [_] [] [] [.count [] 3] (List.forall_mem_singleton.2 rfl))))))
  have hidle : Change
      (sampleShape 1 (sampleHead [.count [] 3]) [.child [sampleModifier []], .child [sampleModifier []]])
      (sampleShape 1 (sampleHead [.count [] 3])
        [.child [sampleModifier [.order]], .child [sampleModifier []]]) :=
    .idle 1 1 (.bracket [] [] (.group [_, _] [] _ (.here [] [_, _] (Term.Inside.child (.bracket [] []
      (@Term.Edited.here _ [_] [_] [] [.order] (List.forall_mem_singleton.2 rfl)))))))
  have hchanges := (((Relation.EqvGen.rel _ _ hslashes).trans _ _ _ (.rel _ _ hpermute)).trans _ _ _
    (.rel _ _ hexpand)).trans _ _ _ ((Relation.EqvGen.rel _ _ hbelow).trans _ _ _ (.rel _ _ hidle))
  have hlabels : Signature.labels (sampleShape 1 (sampleHead [.count [] 3])
      [.child [sampleModifier [.order]], .child [sampleModifier []]]).root.children =
      ["hd%", "mod%adj", "mod%adj"] := List.mergeSort_of_pairwise (by decide)
  have hsignature : Signature.ofPattern? (sampleShape 1 (sampleHead [.count [] 3])
      [.child [sampleModifier [.order]], .child [sampleModifier []]]) =
      some ⟨"nphd%_mod%adj_mod%adj"⟩ := by
    rw [Signature.ofPattern?_eq, hlabels]
    decide
  exact ⟨hchanges, (ofPattern?_eq_of_changes hchanges).1.trans hsignature, hsignature⟩

end Pattern
end TreebankSearch

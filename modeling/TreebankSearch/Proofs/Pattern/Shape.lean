import TreebankSearch.Pattern.Signature

/-!
# What a signature depends on

A signature names the children of the root, the relation and category of each, and the category of the root
before them. Terms that say nothing about any of these may come and go, in the root and in its children,
without a change of the signature.
-/

namespace TreebankSearch

def shapeNames : List String := ["rel", "cat", "pt"]

structure Term.Silent (term : Term) : Prop where
  value : ∀ name, term.value? name = none
  hasChild : term.hasChild = false
  childCount : term.childCount = 0
  children : term.children = []

/-- A term that stands for no child and requires no value that is in a signature. -/
structure Term.Quiet (term : Term) : Prop where
  value : ∀ name ∈ shapeNames, term.value? name = none
  hasChild : term.hasChild = false
  childCount : term.childCount = 0
  children : term.children = []

inductive SameShape : List Term → List Term → Prop
  | nil : SameShape [] []
  | left {t : Term} {ts us : List Term} : t.Quiet → SameShape ts us → SameShape (t :: ts) us
  | right {u : Term} {ts us : List Term} : u.Quiet → SameShape ts us → SameShape ts (u :: us)
  | same (t : Term) {ts us : List Term} : SameShape ts us → SameShape (t :: ts) (t :: us)
  | child {brackets brackets' : List (List Term)} {ts us : List Term} :
      SameShape brackets.flatten brackets'.flatten → SameShape ts us →
      SameShape (.child brackets :: ts) (.child brackets' :: us)
  | count {brackets brackets' : List (List Term)} (n : Nat) {ts us : List Term} :
      SameShape brackets.flatten brackets'.flatten → SameShape ts us →
      SameShape (.count brackets n :: ts) (.count brackets' n :: us)

/-- Lists of terms that contribute the same to a signature. -/
structure SameOutlook (ts us : List Term) : Prop where
  value : ∀ name ∈ shapeNames, Term.valueIn? name ts = Term.valueIn? name us
  leading : ∀ name ∈ shapeNames, NodeTest.leadingIn? name ts = NodeTest.leadingIn? name us
  anyChild : Term.anyChild ts = Term.anyChild us
  childCounts : Term.childCounts ts = Term.childCounts us
  labels : ((Term.childrenIn ts).filterMap Signature.childLabel?).Perm
    ((Term.childrenIn us).filterMap Signature.childLabel?)

namespace Term

variable {name : String} {term : Term} {terms ts us : List Term}

theorem Silent.quiet (h : term.Silent) : term.Quiet :=
  ⟨fun name _ => h.value name, h.hasChild, h.childCount, h.children⟩

theorem silent_verbatim (text : String) : (verbatim text).Silent := ⟨fun _ => rfl, rfl, rfl, rfl⟩

theorem anyChild_of_silent (h : ∀ term ∈ terms, term.Silent) : anyChild terms = false := by
  induction terms with
  | nil => rw [anyChild]
  | cons term terms ih =>
    obtain ⟨ht, hts⟩ := List.forall_mem_cons.1 h
    rw [anyChild, ht.hasChild, ih hts]
    rfl

theorem childCounts_of_silent (h : ∀ term ∈ terms, term.Silent) : childCounts terms = 0 := by
  induction terms with
  | nil => rw [childCounts]
  | cons term terms ih =>
    obtain ⟨ht, hts⟩ := List.forall_mem_cons.1 h
    rw [childCounts, ht.childCount, ih hts]
    rfl

theorem childrenIn_of_silent (h : ∀ term ∈ terms, term.Silent) : childrenIn terms = [] := by
  induction terms with
  | nil => rw [childrenIn]
  | cons term terms ih =>
    obtain ⟨ht, hts⟩ := List.forall_mem_cons.1 h
    rw [childrenIn, ht.children, ih hts]
    rfl

theorem silent_connective (c : Connective) : (connective c).Silent := ⟨fun _ => rfl, rfl, rfl, rfl⟩

theorem valueIn?_of_silent (h : ∀ term ∈ terms, term.Silent) : valueIn? name terms = none := by
  induction terms with
  | nil => rw [valueIn?]
  | cons term terms ih =>
    obtain ⟨ht, hts⟩ := List.forall_mem_cons.1 h
    rw [valueIn?, ht.value, ih hts]

theorem silent_group (name : Option String) (h : ∀ term ∈ terms, term.Silent) :
    (group name terms).Silent where
  value := fun _ => by rw [value?, valueIn?_of_silent h]
  hasChild := by rw [Term.hasChild, anyChild_of_silent h]
  childCount := by rw [Term.childCount, childCounts_of_silent h]
  children := by rw [Term.children, childrenIn_of_silent h]

theorem silent_bare (name : String) : (attr ⟨name, none⟩).Silent := ⟨fun _ => ite_self _, rfl, rfl, rfl⟩

theorem quiet_attr {test : AttributeTest} (h : test.name ∉ shapeNames) : (attr test).Quiet :=
  ⟨fun name hn => if_neg fun (he : test.name = name) => h (he ▸ hn), rfl, rfl, rfl⟩

theorem not_quiet_child {brackets : List (List Term)} : ¬ (child brackets).Quiet :=
  fun h => nomatch h.hasChild

theorem not_quiet_count {brackets : List (List Term)} {n : Nat} : ¬ (count brackets n).Quiet :=
  fun h => nomatch h.hasChild

theorem valueIn?_append (name : String) (ts us : List Term) :
    valueIn? name (ts ++ us) = (valueIn? name ts).or (valueIn? name us) := by
  induction ts with
  | nil => rw [List.nil_append, valueIn?.eq_1, Option.none_or]
  | cons t ts ih =>
    rw [List.cons_append, valueIn?, valueIn?, ih]
    cases t.value? name <;> rfl

theorem anyChild_append (ts us : List Term) : anyChild (ts ++ us) = (anyChild ts || anyChild us) := by
  induction ts with
  | nil => rw [List.nil_append, anyChild.eq_1, Bool.false_or]
  | cons t ts ih => rw [List.cons_append, anyChild, anyChild, ih, Bool.or_assoc]

theorem childCounts_le (ts : List Term) : childCounts ts ≤ maxCount := by
  cases ts with
  | nil => rw [childCounts]; exact Nat.zero_le _
  | cons t ts => rw [childCounts]; exact Nat.min_le_right _ _

theorem childCounts_append (ts us : List Term) :
    childCounts (ts ++ us) = addCounts (childCounts ts) (childCounts us) := by
  induction ts with
  | nil =>
    rw [List.nil_append, childCounts.eq_1, addCounts, Nat.zero_add, Nat.min_eq_left (childCounts_le us)]
  | cons t ts ih =>
    rw [List.cons_append, childCounts, childCounts, ih]
    simp only [addCounts]
    omega

theorem childrenIn_append (ts us : List Term) :
    childrenIn (ts ++ us) = childrenIn ts ++ childrenIn us := by
  induction ts with
  | nil => rw [List.nil_append, childrenIn.eq_1, List.nil_append]
  | cons t ts ih => rw [List.cons_append, childrenIn, childrenIn, ih, List.append_assoc]

end Term

namespace NodeTest

variable (node : NodeTest)

theorem attribute?_eq (name : String) :
    node.attribute? name = Term.valueIn? name node.brackets.flatten := by
  rw [attribute?]
  induction node.brackets with
  | nil => rw [List.flatten_nil, Term.valueIn?]; rfl
  | cons terms more ih =>
    rw [List.flatten_cons, Term.valueIn?_append, List.findSome?_cons, ih]
    cases Term.valueIn? name terms <;> rfl

theorem hasChildren_eq : node.hasChildren = Term.anyChild node.brackets.flatten := by
  rw [hasChildren]
  induction node.brackets with
  | nil => rw [List.flatten_nil, Term.anyChild]; rfl
  | cons terms more ih => rw [List.flatten_cons, Term.anyChild_append, List.any_cons, ih]

theorem childCount_eq : node.childCount = Term.childCounts node.brackets.flatten := by
  rw [childCount]
  induction node.brackets with
  | nil => rw [List.flatten_nil, Term.childCounts]; rfl
  | cons terms more ih =>
    rw [List.flatten_cons, Term.childCounts_append, List.map_cons, List.foldr_cons, ih]

theorem children_eq : node.children = Term.childrenIn node.brackets.flatten := by
  rw [children]
  induction node.brackets with
  | nil => rw [List.flatten_nil, Term.childrenIn]; rfl
  | cons terms more ih => rw [List.flatten_cons, Term.childrenIn_append, List.flatMap_cons, ih]

end NodeTest

theorem Signature.childLabel?_congr {brackets brackets' : List (List Term)}
    (h : ∀ name ∈ shapeNames,
      Term.valueIn? name brackets.flatten = Term.valueIn? name brackets'.flatten) :
    childLabel? ⟨brackets⟩ = childLabel? ⟨brackets'⟩ := by
  have hvalue : ∀ name ∈ shapeNames, NodeTest.attribute? ⟨brackets⟩ name =
      NodeTest.attribute? ⟨brackets'⟩ name := fun name hn => by
    rw [NodeTest.attribute?_eq, NodeTest.attribute?_eq, h name hn]
  rw [childLabel?, childLabel?, hvalue "rel" (by decide), hvalue "cat" (by decide),
    hvalue "pt" (by decide)]

namespace SameShape

variable {ts us vs ws : List Term} {brackets brackets' : List (List Term)} {t : Term}

theorem refl (ts : List Term) : SameShape ts ts := by
  induction ts with
  | nil => exact .nil
  | cons t ts ih => exact ih.same t

theorem append (h : SameShape ts us) (h' : SameShape vs ws) : SameShape (ts ++ vs) (us ++ ws) := by
  induction h with
  | nil => exact h'
  | left hq _ ih => exact ih.left hq
  | right hq _ ih => exact ih.right hq
  | same t _ ih => exact ih.same t
  | child hb _ _ ih => exact .child hb ih
  | count n hb _ _ ih => exact .count n hb ih

theorem symm (h : SameShape ts us) : SameShape us ts := by
  induction h with
  | nil => exact .nil
  | left hq _ ih => exact ih.right hq
  | right hq _ ih => exact ih.left hq
  | same t _ ih => exact ih.same t
  | child _ _ ihb ih => exact .child ihb ih
  | count n _ _ ihb ih => exact .count n ihb ih

theorem of_silent (h : ∀ term ∈ ts, term.Silent) : SameShape ts [] := by
  induction ts with
  | nil => exact .nil
  | cons t ts ih =>
    obtain ⟨ht, hts⟩ := List.forall_mem_cons.1 h
    exact (ih hts).left ht.quiet

theorem of_left (hq : t.Quiet) (h : SameShape (t :: ts) us) : SameShape ts us := by
  generalize hv : t :: ts = vs at h
  induction h with
  | nil => cases hv
  | left _ h _ => cases hv; exact h
  | right hu _ ih => exact (ih hv).right hu
  | same u h _ => cases hv; exact h.right hq
  | child _ _ _ _ =>
    cases hv
    exact absurd hq Term.not_quiet_child
  | count _ _ _ _ _ =>
    cases hv
    exact absurd hq Term.not_quiet_count

theorem valueIn? (h : SameShape ts us) {name : String} (hn : name ∈ shapeNames) :
    Term.valueIn? name ts = Term.valueIn? name us := by
  induction h with
  | nil => rfl
  | left hq _ ih => rw [Term.valueIn?, hq.value name hn, ih]
  | right hq _ ih => rw [ih, Term.valueIn?, hq.value name hn]
  | same t _ ih => rw [Term.valueIn?, Term.valueIn?, ih]
  | child _ _ _ ih => simp only [Term.valueIn?, Term.value?, ih]
  | count n _ _ _ ih => simp only [Term.valueIn?, Term.value?, ih]

theorem anyChild (h : SameShape ts us) : Term.anyChild ts = Term.anyChild us := by
  induction h with
  | nil => rfl
  | left hq _ ih => rw [Term.anyChild, hq.hasChild, ih, Bool.false_or]
  | right hq _ ih => rw [ih, Term.anyChild, hq.hasChild, Bool.false_or]
  | same t _ ih => rw [Term.anyChild, Term.anyChild, ih]
  | child _ _ _ ih => simp only [Term.anyChild, Term.hasChild, ih]
  | count n _ _ _ ih => simp only [Term.anyChild, Term.hasChild, ih]

theorem childCounts_cons_quiet (hq : t.Quiet) (ts : List Term) :
    Term.childCounts (t :: ts) = Term.childCounts ts := by
  rw [Term.childCounts, hq.childCount, addCounts, Nat.zero_add,
    Nat.min_eq_left (Term.childCounts_le ts)]

theorem childCounts (h : SameShape ts us) : Term.childCounts ts = Term.childCounts us := by
  induction h with
  | nil => rfl
  | left hq _ ih => rw [childCounts_cons_quiet hq, ih]
  | right hq _ ih => rw [childCounts_cons_quiet hq, ih]
  | same t _ ih => rw [Term.childCounts, Term.childCounts, ih]
  | child _ _ _ ih => simp only [Term.childCounts, Term.childCount, ih]
  | count n _ _ _ ih => simp only [Term.childCounts, Term.childCount, ih]

theorem leadingIn? (h : SameShape ts us) {name : String} (hn : name ∈ shapeNames) :
    NodeTest.leadingIn? name ts = NodeTest.leadingIn? name us := by
  induction h with
  | nil => rfl
  | left hq _ ih => simp only [NodeTest.leadingIn?, hq.hasChild, hq.value name hn, ih]; rfl
  | right hq _ ih => simp only [NodeTest.leadingIn?, hq.hasChild, hq.value name hn, ih]; rfl
  | same t _ ih => rw [NodeTest.leadingIn?, NodeTest.leadingIn?, ih]
  | child _ _ _ _ => simp only [NodeTest.leadingIn?, Term.hasChild, ↓reduceIte]
  | count n _ _ _ _ => simp only [NodeTest.leadingIn?, Term.hasChild, ↓reduceIte]

theorem childLabel? (h : SameShape brackets.flatten brackets'.flatten) :
    Signature.childLabel? ⟨brackets⟩ = Signature.childLabel? ⟨brackets'⟩ :=
  Signature.childLabel?_congr fun _ hn => h.valueIn? hn

theorem labels (h : SameShape ts us) : (Term.childrenIn ts).filterMap Signature.childLabel? =
    (Term.childrenIn us).filterMap Signature.childLabel? := by
  induction h with
  | nil => rfl
  | left hq _ ih => rw [Term.childrenIn, hq.children, List.nil_append, ih]
  | right hq _ ih => rw [ih, Term.childrenIn, hq.children, List.nil_append]
  | same t _ ih => rw [Term.childrenIn, Term.childrenIn, List.filterMap_append, List.filterMap_append, ih]
  | child hb _ _ ih =>
    simp only [Term.childrenIn, Term.children, List.filterMap_append, ih, List.filterMap_cons,
      hb.childLabel?]
  | count n hb _ _ ih =>
    simp only [Term.childrenIn, Term.children, List.filterMap_append, ih, List.filterMap_replicate,
      hb.childLabel?]

theorem outlook (h : SameShape ts us) : SameOutlook ts us where
  value := fun _ hn => h.valueIn? hn
  leading := fun _ hn => h.leadingIn? hn
  anyChild := h.anyChild
  childCounts := h.childCounts
  labels := .of_eq h.labels

end SameShape

namespace Signature

/-- The labels are sorted, so that the order of the children is of no account. -/
theorem labels_congr {children children' : List NodeTest}
    (h : (children.filterMap childLabel?).Perm (children'.filterMap childLabel?)) :
    labels children = labels children' := by
  have sorted : ∀ texts : List String,
      (texts.mergeSort fun a b => a ≤ b).Pairwise fun a b => a ≤ b := fun texts => by
    have htrans : ∀ a b c : String, decide (a ≤ b) = true → decide (b ≤ c) = true →
        decide (a ≤ c) = true := by simpa using fun _ _ _ => String.le_trans
    have htotal : ∀ a b : String, (decide (a ≤ b) || decide (b ≤ a)) = true := by
      simpa using String.le_total
    simpa using List.pairwise_mergeSort htrans htotal texts
  refine List.Perm.eq_of_pairwise (fun _ _ _ _ => String.le_antisymm) (sorted _) (sorted _) ?_
  exact (List.mergeSort_perm _ _).trans (h.trans (List.mergeSort_perm _ _).symm)

theorem ofPattern?_of_sameOutlook {p q : Pattern}
    (h : SameOutlook p.root.brackets.flatten q.root.brackets.flatten) :
    ofPattern? p = ofPattern? q := by
  have hcat : "cat" ∈ shapeNames := by decide
  have hlabels : labels p.root.children = labels q.root.children := by
    apply labels_congr
    rw [NodeTest.children_eq, NodeTest.children_eq]
    exact h.labels
  rw [ofPattern?_eq, ofPattern?_eq]
  simp only [NodeTest.hasChildren_eq, h.anyChild, NodeTest.childCount_eq, h.childCounts, hlabels,
    NodeTest.leadingAttribute?, h.leading _ hcat]

theorem ofPattern?_of_sameShape {p q : Pattern}
    (h : SameShape p.root.brackets.flatten q.root.brackets.flatten) :
    ofPattern? p = ofPattern? q :=
  ofPattern?_of_sameOutlook h.outlook

end Signature
end TreebankSearch

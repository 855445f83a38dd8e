import TreebankSearch.Pattern.Normal
import TreebankSearch.Proofs.Pattern.Closing
import TreebankSearch.Proofs.Pattern.Segment

/-!
# The normal form of a conjunctive pattern

The normal form of the text of a conjunctive pattern is the text of the pattern in which marks have been
carried out. The text is gone through from node to node: a segment ends at the first node in its bracket or at
the end of the bracket, and from there on each test and each bracket is carried out by itself.
-/

namespace TreebankSearch

namespace CaseMark

/-- No node with a bracket starts in the text when it is followed by `r`. -/
def Apart (r : List Char) : List Char → Prop
  | [] => True
  | c :: w => Text.after? nodeOpen (c :: (w ++ r)) = none ∧ Apart r w

def Off (r : List Char) : Prop := ∀ c s, r = c :: s → c ∉ nodeOpen

theorem off_cons {c : Char} (hc : c ∉ nodeOpen) (s : List Char) : Off (c :: s) := fun _ _ he => by
  rw [← (List.cons.inj he).1]
  exact hc

theorem off_nil : Off [] := fun _ _ he => nomatch he

variable {r w : List Char}

theorem apart_append {v : List Char} : Apart r (v ++ w) ↔ Apart (w ++ r) v ∧ Apart r w := by
  induction v with
  | nil => simp [Apart]
  | cons c v ih => simp [Apart, ih, and_assoc]

theorem after?_nodeOpen_of_off (hw : '[' ∉ w) (hr : Off r) :
    Text.after? nodeOpen (w ++ r) = none := by
  cases h : Text.after? nodeOpen (w ++ r) with
  | none => rfl
  | some rest =>
    rcases List.append_eq_append_iff.1 (Text.after?_eq_some_iff.1 h) with ⟨a, ha, hra⟩ | ⟨a, ha, _⟩
    · cases a with
      | nil =>
        rw [List.append_nil] at ha
        exact absurd (ha ▸ by decide) hw
      | cons c a => exact absurd (ha ▸ List.mem_append_right _ List.mem_cons_self) (hr c _ hra)
    · exact absurd (ha ▸ List.mem_append_left _ (by decide)) hw

theorem apart_of_off (hw : '[' ∉ w) (hr : Off r) : Apart r w := by
  induction w with
  | nil => trivial
  | cons c w ih =>
    exact ⟨after?_nodeOpen_of_off hw hr, ih (mt (List.mem_cons_of_mem c) hw)⟩

theorem apart_concat (hw : '[' ∉ w) {c : Char} (hc : c ∉ nodeOpen) (r : List Char) :
    Apart r (w ++ [c]) := by
  refine apart_append.2 ⟨apart_of_off hw (off_cons hc r), ?_, trivial⟩
  have hn : 'n' ≠ c := fun he => hc (he ▸ List.mem_cons_self)
  rw [nodeOpen, Text.after?, if_neg hn]

theorem carryOut_append (h : Apart r w) : carryOut (w ++ r) = w ++ carryOut r := by
  induction w with
  | nil => rfl
  | cons c w ih => exact (carryOut_cons h.1).trans (congrArg (c :: ·) (ih h.2))

theorem splitSegment_of_apart (h : Apart r w) (hc : ']' ∉ w) :
    splitSegment (w ++ r) = (w ++ (splitSegment r).1, (splitSegment r).2) := by
  induction w with
  | nil => rfl
  | cons c w ih =>
    rw [List.mem_cons, not_or] at hc
    rw [List.cons_append, splitSegment, h.1, ih h.2 hc.2, if_neg (by simp [Ne.symm hc.1])]
    rfl

end CaseMark

namespace Pattern

open CaseMark

variable {t : Test} {tests : List Test} {stub : List (List Char)} {brackets : List (List Test)}
  {r : List Char}

theorem bracket_not_mem_text (h : t.Valid) (hf : t.isFlat = true) {c : Char}
    (hc : c = '[' ∨ c = ']') : c ∉ t.text := by
  have hname : isNameChar c = false := by rcases hc with rfl | rfl <;> rfl
  have hplain : Delimiter.ofChar c ≠ .plain := by rcases hc with rfl | rfl <;> decide
  have hsigns : c ∉ ['@', '=', '"'] := by rcases hc with rfl | rfl <;> decide
  have hword : c ∉ "lower-case(@".toList := by rcases hc with rfl | rfl <;> decide
  have hround : c ≠ ')' := by rcases hc with rfl | rfl <;> decide
  simp only [List.mem_cons, List.not_mem_nil, or_false, not_or] at hsigns
  cases h with
  | attr hn hv =>
    simp [Test.text, equation, hsigns, hn.not_mem hname, hv.not_mem hplain]
  | lowered hn hv =>
    rw [Test.text]
    generalize "lower-case(@".toList = front at hword
    simp [equation, hword, hround, hsigns, hn.not_mem hname, hv.not_mem hplain]
  | @child brackets bound =>
    cases brackets with
    | cons => cases hf
    | nil =>
      rcases hc with rfl | rfl
      · exact not_mem_childText (by decide) (by decide) (by decide) rfl bound
      · exact not_mem_childText (by decide) (by decide) (by decide) rfl bound

theorem bracket_not_mem_join (hs : Stub stub) (hv : ∀ t ∈ tests, t.Valid ∧ t.isFlat = true)
    {c : Char} (hc : c = '[' ∨ c = ']') : c ∉ join (tests.map Test.text ++ stub) := by
  have hjoint : c ∉ joint := by rcases hc with rfl | rfl <;> decide
  have hopening : ∀ bound, c ∉ countOpening bound := by
    rcases hc with rfl | rfl <;> exact not_mem_countOpening (by decide)
  intro hm
  rcases mem_join hm with hj | ⟨p, hp, hcp⟩
  · exact hjoint hj
  rcases List.mem_append.1 hp with hp | hp
  · obtain ⟨t, ht, rfl⟩ := List.mem_map.1 hp
    exact bracket_not_mem_text (hv t ht).1 (hv t ht).2 hc hcp
  · cases hs with
    | none => cases hp
    | opening bound => exact hopening bound (List.mem_singleton.1 hp ▸ hcp)

theorem apart_countOpening (bound : Option Nat) (r : List Char) : Apart r (countOpening bound) := by
  cases bound with
  | none => trivial
  | some n => exact apart_concat (w := ['c', 'o', 'u', 'n', 't']) (by decide) (by decide) r

theorem off_countClosing (bound : Option Nat) (hr : Off r) : Off (countClosing bound ++ r) := by
  cases bound with
  | none => exact hr
  | some n => exact off_cons (by decide) _

theorem off_joints (ps : List (List Char)) (hr : Off r) : Off (joints ps ++ r) := by
  cases ps with
  | nil => exact hr
  | cons p ps =>
    rw [joints_cons]
    exact off_cons (by decide) _

def Carries (t : Test) : Prop :=
  ∀ r, Off r → carryOut (t.text ++ r) = t.resolve.text ++ carryOut r

theorem carryOut_joints (h : ∀ t ∈ tests, Carries t) (hr : Off r) :
    carryOut (joints (tests.map Test.text) ++ r) =
      joints ((tests.map Test.resolve).map Test.text) ++ carryOut r := by
  induction tests with
  | nil => rfl
  | cons t ts ih =>
    obtain ⟨ht, hts⟩ := List.forall_mem_cons.1 h
    have hjoint : ∀ s, Apart s joint :=
      apart_concat (w := [' ', 'a', 'n', 'd']) (by decide) (by decide)
    simp only [List.map_cons, joints_cons, List.append_assoc]
    rw [carryOut_append (hjoint _), ht _ (off_joints _ hr), ih hts]

theorem carryOut_join (h : ∀ t ∈ tests, Carries t) (hr : Off r) :
    carryOut (join (tests.map Test.text) ++ r) =
      join ((tests.map Test.resolve).map Test.text) ++ carryOut r := by
  cases tests with
  | nil => rfl
  | cons t ts =>
    obtain ⟨ht, hts⟩ := List.forall_mem_cons.1 h
    simp only [List.map_cons, join, List.append_assoc]
    rw [ht _ (off_joints _ hr), carryOut_joints hts hr]

theorem bracketsText_cons (tests : List Test) (brackets : List (List Test)) :
    bracketsText (tests :: brackets) =
      '[' :: (join (tests.map Test.text) ++ ']' :: bracketsText brackets) := by
  rw [bracketsText, texts_eq_map]

theorem bracketsText_singleton (tests : List Test) :
    bracketsText [tests] = '[' :: (join (tests.map Test.text) ++ [']']) := bracketsText_cons tests []

theorem bracketsText_append (brackets more : List (List Test)) :
    bracketsText (brackets ++ more) = bracketsText brackets ++ bracketsText more := by
  induction brackets with
  | nil => rfl
  | cons tests brackets ih => simp [bracketsText_cons, ih]

theorem carryOut_brackets (h : ∀ tests ∈ brackets, ∀ t ∈ tests, Carries t) (r : List Char) :
    carryOut (bracketsText brackets ++ r) =
      bracketsText (brackets.map (List.map Test.resolve)) ++ carryOut r := by
  induction brackets with
  | nil => rfl
  | cons tests brackets ih =>
    obtain ⟨ht, hts⟩ := List.forall_mem_cons.1 h
    simp only [List.map_cons, bracketsText_cons, List.cons_append, List.append_assoc]
    rw [carryOut_cons_of_ne (by decide), carryOut_join ht (off_cons (by decide) _),
      carryOut_cons_of_ne (by decide), ih hts]

theorem carries_of_flat (h : t.Valid) (hf : t.isFlat = true) : Carries t := by
  intro r hr
  have hresolve : t.resolve = t := by
    cases t with
    | attr name value => rfl
    | lowered name value => rfl
    | child brackets bound =>
      cases brackets with
      | cons => cases hf
      | nil => rw [Test.resolve, resolveNode]
  rw [hresolve]
  exact carryOut_append (apart_of_off (bracket_not_mem_text h hf (.inl rfl)) hr)

theorem apart_stub {ps : List (List Char)} {bound : Option Nat}
    (h : '[' ∉ join (ps ++ [countOpening bound])) (r : List Char) :
    Apart r (join (ps ++ [countOpening bound])) := by
  cases bound with
  | some n =>
    have hlast := join_append_cons ps [] ['c', 'o', 'u', 'n', 't'] ['(']
    rw [countOpening]
    simp only [List.cons_append, List.nil_append, joints_nil] at hlast
    rw [countOpening, hlast, List.mem_append, not_or] at h
    rw [hlast]
    exact apart_concat h.1 (by decide) r
  | none =>
    cases ps with
    | nil => trivial
    | cons p ps =>
      have hlast : join (p :: ps ++ [countOpening none]) =
          p ++ joints ps ++ [' ', 'a', 'n', 'd'] ++ [' '] := by
        simp [join, joints_append, joints_cons, countOpening, joint]
      rw [hlast, List.mem_append, not_or] at h
      rw [hlast]
      exact apart_concat h.1 (by decide) r

theorem exists_of_beyond {us : List Test} (h : beyond tests = t :: us) :
    ∃ first more bound, t = .child (first :: more) bound := by
  have hflat : t.isFlat = false := by
    have hnot := List.head?_dropWhile_not Test.isFlat tests
    rw [← beyond, h] at hnot
    exact hnot
  cases t with
  | attr => cases hflat
  | lowered => cases hflat
  | child brackets bound =>
    cases brackets with
    | nil => cases hflat
    | cons first more => exact ⟨first, more, bound, rfl⟩

theorem Carries.node {bound : Option Nat} (h : Carries (.child brackets bound)) (hr : Off r) :
    carryOut (nodeWord ++ (bracketsText brackets ++ (countClosing bound ++ r))) =
      nodeWord ++ (bracketsText (resolveNode brackets) ++ (countClosing bound ++ carryOut r)) := by
  have hc := h r hr
  rw [Test.resolve, Test.text, Test.text, List.append_assoc,
    carryOut_append (apart_countOpening bound _)] at hc
  simpa using hc

theorem join_child (before after : List Test) (brackets : List (List Test)) (bound : Option Nat) :
    join ((before ++ .child brackets bound :: after).map Test.text) =
      join (before.map Test.text ++ [countOpening bound]) ++ (nodeWord ++ (bracketsText brackets ++
        (countClosing bound ++ joints (after.map Test.text)))) := by
  rw [List.map_append, List.map_cons, Test.text, join_append_cons]
  simp only [List.append_assoc]

theorem carryOut_first (hv : ∀ t ∈ tests, t.Valid) (hne : tests ≠ []) (hc : ∀ t ∈ tests, Carries t)
    (r : List Char) :
    carryOut (nodeOpen ++ (join (tests.map Test.text) ++ ']' :: r)) =
      nodeWord ++ (bracketsText (keep (resolveFirst tests)) ++ carryOut r) := by
  have hsplit : reach tests ++ beyond tests = tests := List.takeWhile_append_dropWhile
  have hflat : ∀ t ∈ reach tests, t.Valid ∧ t.isFlat = true := fun t ht =>
    ⟨hv t (mem_reach ht).1, (mem_reach ht).2⟩
  rw [carryOut_nodeOpen, closeNext, resolveFirst]
  cases hb : beyond tests with
  | nil =>
    rw [hb, List.append_nil] at hsplit
    rw [hsplit] at hflat ⊢
    have hno := bracket_not_mem_join .none hflat (c := '[') (.inl rfl)
    have hno' := bracket_not_mem_join .none hflat (c := ']') (.inr rfl)
    rw [List.append_nil] at hno hno'
    rw [splitSegment_of_apart (apart_of_off hno (off_cons (by decide) r)) hno', (closes_bracket _).splitSegment,
      List.append_nil, closeSegment_closing hflat hne]
    cases hs : settle tests with
    | nil => rfl
    | cons t ts =>
      have hclosing := carryOut_cons_of_ne (c := ']') (by decide) r
      simp [keep, bracketsText_singleton, hclosing, nodeOpen, nodeWord]
  | cons u us =>
    obtain ⟨first, more, bound, rfl⟩ := exists_of_beyond hb
    have hcu := hc _ (mem_beyond (hb ▸ List.mem_cons_self))
    have hcus : ∀ t ∈ us, Carries t := fun t ht => hc t (mem_beyond (hb ▸ List.mem_cons_of_mem _ ht))
    have hno := bracket_not_mem_join (.opening bound) hflat (c := '[') (.inl rfl)
    have hno' := bracket_not_mem_join (.opening bound) hflat (c := ']') (.inr rfl)
    have hnode : ∀ s, nodeWord ++ (bracketsText (first :: more) ++ s) =
        nodeOpen ++ (join (first.map Test.text) ++ ']' :: (bracketsText more ++ s)) := fun s => by
      simp [bracketsText_cons, nodeOpen, nodeWord]
    have htext := join_child (reach tests) us (first :: more) bound
    rw [← hb, hsplit] at htext
    rw [htext]
    simp only [List.append_assoc]
    rw [hnode, splitSegment_of_apart (apart_stub hno _) hno', (closes_nodeOpen _).splitSegment, List.append_nil,
      closeSegment_opening (.opening bound) hflat, ← hnode, hcu.node (off_joints _ (off_cons (by decide) r)),
      carryOut_joints hcus (off_cons (by decide) r), carryOut_cons_of_ne (by decide)]
    have hresult := join_child (settle (reach tests)) (us.map Test.resolve)
      (resolveNode (first :: more)) bound
    have hkeep : keep (settle (reach tests) ++ .child (resolveNode (first :: more)) bound ::
        us.map Test.resolve) = [_] := if_neg (by simp)
    rw [List.map_cons, Test.resolve, hkeep, bracketsText_singleton, hresult]
    simp [nodeOpen, nodeWord]

theorem carryOut_node (h : Conjunctive brackets) (hc : ∀ tests ∈ brackets, ∀ t ∈ tests, Carries t)
    (hr : Off r) : carryOut (nodeWord ++ (bracketsText brackets ++ r)) =
      nodeWord ++ (bracketsText (resolveNode brackets) ++ carryOut r) := by
  cases brackets with
  | nil => exact carryOut_append (apart_of_off (by decide) hr)
  | cons first more =>
    obtain ⟨hcfirst, hcmore⟩ := List.forall_mem_cons.1 hc
    have hfirst := carryOut_first (List.forall_mem_cons.1 h.valid).1
      (h.nonempty first List.mem_cons_self) hcfirst (bracketsText more ++ r)
    have hopen : nodeWord ++ (bracketsText (first :: more) ++ r) =
        nodeOpen ++ (join (first.map Test.text) ++ ']' :: (bracketsText more ++ r)) := by
      simp [bracketsText_cons, nodeOpen, nodeWord]
    rw [hopen, hfirst, carryOut_brackets hcmore, resolveNode_cons, bracketsText_append,
      List.append_assoc]

theorem Test.Valid.carries (h : t.Valid) : Carries t := by
  induction h with
  | attr hn hv => exact carries_of_flat (.attr hn hv) rfl
  | lowered hn hv => exact carries_of_flat (.lowered hn hv) rfl
  | @child brackets bound hne hv ih =>
    intro r hr
    have hclosing : carryOut (countClosing bound ++ r) = countClosing bound ++ carryOut r :=
      carryOut_append (apart_of_off
        (not_mem_countClosing (by decide) rfl bound) hr)
    simp only [Test.resolve, Test.text, List.append_assoc]
    rw [carryOut_append (apart_countOpening bound _),
      carryOut_node ⟨hne, hv⟩ ih (off_countClosing bound hr), hclosing]

theorem carryOut_conjunctive (h : Conjunctive brackets) :
    carryOut (nodeWord ++ bracketsText brackets) =
      nodeWord ++ bracketsText (resolveNode brackets) := by
  have hnode := carryOut_node h (fun tests ht t hm => (h.valid tests ht t hm).carries) off_nil
  rwa [carryOut_nil, List.append_nil, List.append_nil] at hnode

theorem trimEnd_bracketsText (front : List Char) (brackets : List (List Test)) :
    Text.trimEnd (front ++ (nodeWord ++ bracketsText brackets)) =
      front ++ (nodeWord ++ bracketsText brackets) := by
  have hlast : ∃ init c, nodeWord ++ bracketsText brackets = init ++ [c] ∧ Text.isBlank c = false := by
    rcases List.eq_nil_or_concat brackets with rfl | ⟨more, tests, rfl⟩
    · exact ⟨['n', 'o', 'd'], 'e', rfl, by decide⟩
    · refine ⟨nodeWord ++ bracketsText more ++ '[' :: join (tests.map Test.text), ']', ?_, by decide⟩
      simp [bracketsText_append, bracketsText_singleton]
  obtain ⟨init, c, he, hc⟩ := hlast
  rw [he, ← List.append_assoc, Text.trimEnd_concat _ hc]

theorem strip_conjunctiveText (slashes : Nat) (brackets : List (List Test)) :
    Axis.strip (conjunctiveText slashes brackets).toList = nodeWord ++ bracketsText brackets := by
  have hstart : Text.trimStart (List.replicate slashes '/' ++ (nodeWord ++ bracketsText brackets)) =
      List.replicate slashes '/' ++ (nodeWord ++ bracketsText brackets) := by
    cases slashes with
    | zero => exact Text.trimStart_cons (by decide) _
    | succ n => exact Text.trimStart_cons (by decide) _
  rw [conjunctiveText, String.toList_ofList, Axis.strip, Text.trim, hstart, trimEnd_bracketsText,
    List.dropWhile_append_of_pos fun c hc => decide_eq_true (List.eq_of_mem_replicate hc)]
  exact List.dropWhile_cons_of_neg (by decide)

/-- The normal form of a conjunctive pattern is the one in which its marks have been carried out. -/
theorem normalize_conjunctiveText (axis : Axis) (slashes : Nat) (h : Conjunctive brackets) :
    normalize axis (conjunctiveText slashes brackets) =
      conjunctiveText axis.slashes.length (resolveNode brackets) := by
  have hslashes : axis.slashes = List.replicate axis.slashes.length '/' := by cases axis <;> rfl
  have hn : 'n' ∉ axis.slashes := by cases axis <;> decide
  rw [normalize, CaseMark.resolve, Axis.toList_place, Axis.attach, strip_conjunctiveText,
    carryOut_append_of_not_mem hn, carryOut_conjunctive h, conjunctiveText, ← hslashes]

end Pattern
end TreebankSearch

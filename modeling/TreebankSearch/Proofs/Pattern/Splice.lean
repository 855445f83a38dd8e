import TreebankSearch.Proofs.Encoding
import TreebankSearch.Proofs.Pattern.Pieces
import TreebankSearch.Proofs.Pattern.Rewriting

/-!
# Marks carried out by offsets

A text can be gone through by byte offsets: the places of `node[` and of closing brackets are looked for
among its bytes, and what is put out is sliced from the text. No slice is out of order, out of bounds or in
the middle of a character, and what is put out in the end are the settled pieces of the text.
-/

namespace TreebankSearch.CaseMark

open Utf8 (encode size slice? byte byteSlice? firstByte? occurrences)

variable {s before target piece : List Char} {pieces : List (List Char)}

structure Progress where
  out : List Char
  copied : Nat

def rewriteShort (segment : List Char) : List Char :=
  let bare := dropMarks false segment
  if Text.occursIn ['@', 'w', 'o', 'r', 'd'] bare || Text.occursIn ['@', 'l', 'e', 'm', 'm', 'a'] bare then
    lowerTests bare
  else bare

def segmentEnd? (bytes : List UInt8) (start next : Nat) : Option Nat :=
  (byteSlice? bytes start next).map fun inner =>
    match firstByte? (byte ']') inner with
    | some i => start + i
    | none => next

def editSegment? (s : List Char) (p : Progress) (start next : Nat) : Option Progress := do
  let stop ← segmentEnd? (encode s) start next
  if stop = size s then some p
  else
    let segment ← slice? s start stop
    if Text.occursIn caseMark segment = false then some p
    else if (Text.trim (rewriteShort segment)).isEmpty ∧ (encode s)[stop]? = some (byte ']') then
      (slice? s p.copied (start - 1)).map fun pending => ⟨p.out ++ pending, stop + 1⟩
    else
      (slice? s p.copied start).map fun pending => ⟨p.out ++ pending ++ rewriteShort segment, stop⟩

def nextNode (s : List Char) : List Nat → Nat
  | [] => size s
  | start :: _ => start - 5

def editSegments? (s : List Char) (p : Progress) : List Nat → Option Progress
  | [] => some p
  | start :: starts => do
    let p ← editSegment? s p start (nextNode s starts)
    editSegments? s p starts

def editAll? (s : List Char) : Option (List Char) := do
  let starts := (occurrences (encode nodeOpen) 0 (encode s)).map (· + 5)
  let p ← editSegments? s ⟨[], 0⟩ starts
  let pending ← slice? s p.copied (size s)
  return p.out ++ pending

def edit? (s : List Char) : Option (List Char) :=
  if Text.occursIn caseMark s then editAll? s else some s

theorem isEmpty_trim (s : List Char) : (Text.trim s).isEmpty = true ↔ s.all Text.isBlank = true := by
  rw [List.isEmpty_iff, List.all_eq_true]
  constructor
  · intro h
    obtain ⟨gap, he, hgap⟩ := Text.eq_trimStart s
    have hrest := List.dropWhile_eq_nil_iff.1 (List.reverse_eq_nil_iff.1 h)
    intro c hc
    rw [he] at hc
    rcases List.mem_append.1 hc with hc | hc
    · exact hgap c hc
    · exact hrest c (List.mem_reverse.2 hc)
  · intro h
    have hstart : Text.trimStart s = [] := List.dropWhile_eq_nil_iff.2 h
    rw [Text.trim, hstart]
    rfl

theorem lowerTests_of_not_occursIn {s : List Char}
    (hword : Text.occursIn ['@', 'w', 'o', 'r', 'd'] s = false)
    (hlemma : Text.occursIn ['@', 'l', 'e', 'm', 'm', 'a'] s = false) : lowerTests s = s := by
  induction s with
  | nil => exact lowerTests_nil
  | cons c s ih =>
    have hnone : lexicalTest? (c :: s) = none := by
      rw [Option.eq_none_iff_forall_ne_some]
      rintro ⟨new, rest⟩ h
      obtain ⟨part, he, @⟨_, name, value, _, hname, -, -⟩⟩ := (TestRule.foundBy.found none).1 h
      have hoccurs : Text.occursIn ('@' :: name) (c :: s) = true :=
        Text.occursIn_iff.2 ⟨[], '=' :: '"' :: (value ++ ['"']) ++ rest, by rw [he]; simp⟩
      simp only [List.mem_cons, List.not_mem_nil, or_false] at hname
      rcases hname with rfl | rfl
      · rw [hword] at hoccurs
        cases hoccurs
      · rw [hlemma] at hoccurs
        cases hoccurs
    have hsuffix := (List.suffix_cons c s).isInfix
    rw [lowerTests_cons hnone,
      ih (Text.occursIn_of_part hsuffix hword) (Text.occursIn_of_part hsuffix hlemma)]

theorem rewriteShort_eq (segment : List Char) : rewriteShort segment = rewriteSegment segment := by
  simp only [rewriteShort, rewriteSegment]
  split
  · rfl
  · next h =>
    rw [Bool.or_eq_true, not_or, Bool.not_eq_true, Bool.not_eq_true] at h
    exact (lowerTests_of_not_occursIn h.1 h.2).symm

def startsFrom (i : Nat) : List (List Char) → List Nat
  | [] => []
  | piece :: pieces => (i + 5) :: startsFrom (i + 5 + size piece) pieces

theorem size_nodeOpen : size nodeOpen = 5 := by decide

theorem isAscii_nodeOpen : Utf8.IsAscii nodeOpen := by
  simp [Utf8.IsAscii, nodeOpen]

theorem not_prefix_of_after? {w : List Char} (h : Text.after? w s = none) : ¬ w <+: s := by
  rintro ⟨rest, rfl⟩
  rw [Text.after?_append] at h
  cases h

theorem occurrences_of_apart {r w : List Char} (h : Apart r w) (i : Nat) :
    occurrences (encode nodeOpen) i (encode (w ++ r)) =
      occurrences (encode nodeOpen) (i + size w) (encode r) := by
  induction w generalizing i with
  | nil => rfl
  | cons c w ih =>
    have hno : ¬ nodeOpen <+: c :: (w ++ r) := not_prefix_of_after? h.1
    rw [List.cons_append, nodeOpen, Utf8.occurrences_skip isAscii_nodeOpen hno, ← nodeOpen, ih h.2,
      Utf8.size_cons, Nat.add_assoc]

theorem occurrences_joined {w : List Char} (hw : Text.occursIn nodeOpen w = false)
    (h : ∀ piece ∈ pieces, Text.occursIn nodeOpen piece = false) (i : Nat) :
    (occurrences (encode nodeOpen) i (encode (w ++ joined pieces))).map (· + 5) =
      startsFrom (i + size w) pieces := by
  induction pieces generalizing i w with
  | nil =>
    rw [occurrences_of_apart (apart_joined hw [])]
    exact congrArg (List.map (· + 5)) (Utf8.occurrences_nil _ _)
  | cons piece pieces ih =>
    obtain ⟨hpiece, hpieces⟩ := List.forall_mem_cons.1 h
    rw [occurrences_of_apart (apart_joined hw (piece :: pieces)), joined_cons, nodeOpen,
      Utf8.occurrences_append, ← nodeOpen, List.map_cons, ih hpiece hpieces, size_nodeOpen, startsFrom]

/-- The text before has been put out but for its end, which is still pending; together they are the
target. -/
def Progress.Upto (p : Progress) (before target : List Char) : Prop :=
  ∃ kept pending, before = kept ++ pending ∧ size kept = p.copied ∧ p.out ++ pending = target

theorem Progress.Upto.copy {p : Progress} (hp : p.Upto before target) (more : List Char) :
    p.Upto (before ++ more) (target ++ more) := by
  obtain ⟨kept, pending, rfl, hkept, rfl⟩ := hp
  exact ⟨kept, pending ++ more, List.append_assoc .., hkept, (List.append_assoc ..).symm⟩

theorem Progress.Upto.slice? {p : Progress} (hp : p.Upto before target) (more rest : List Char) :
    ∃ pending, Utf8.slice? (before ++ (more ++ rest)) p.copied (size before + size more) = some pending ∧
      p.out ++ pending = target ++ more := by
  obtain ⟨kept, pending, rfl, hkept, rfl⟩ := hp
  refine ⟨pending ++ more, Utf8.slice?_eq_some_iff.2 ⟨kept, rest, ?_, hkept, ?_⟩, ?_⟩
  · simp only [List.append_assoc]
  · simp only [Utf8.size_append, Nat.add_assoc]
  · simp only [List.append_assoc]

/-- A segment that is not the end of the text is left alone, or it goes with its brackets, or it is
rewritten. -/
theorem editSegment?_eq {p : Progress} {segment rest : List Char} {next : Nat} (hp : p.Upto before target)
    (hstop : segmentEnd? (encode (before ++ (nodeOpen ++ (segment ++ rest)))) (size before + 5) next =
      some (size before + 5 + size segment)) (hrest : rest ≠ []) :
    editSegment? (before ++ (nodeOpen ++ (segment ++ rest))) p (size before + 5) next = some (
      if Text.occursIn caseMark segment = false then p
      else if (rewriteSegment segment).all Text.isBlank = true ∧ rest.head? = some ']' then
        ⟨target ++ ['n', 'o', 'd', 'e'], size before + 5 + size segment + 1⟩
      else ⟨target ++ nodeOpen ++ rewriteSegment segment, size before + 5 + size segment⟩) := by
  have hsize : size (before ++ (nodeOpen ++ segment)) = size before + 5 + size segment := by
    rw [Utf8.size_append, Utf8.size_append, size_nodeOpen, Nat.add_assoc]
  have htext : before ++ (nodeOpen ++ (segment ++ rest)) = before ++ (nodeOpen ++ segment) ++ rest := by
    simp only [List.append_assoc]
  have hend : size before + 5 + size segment ≠ size (before ++ (nodeOpen ++ (segment ++ rest))) := by
    rw [htext, Utf8.size_append, hsize]
    exact fun he => hrest (Utf8.eq_nil_of_size (by omega))
  have hsegment : Utf8.slice? (before ++ (nodeOpen ++ (segment ++ rest))) (size before + 5)
      (size before + 5 + size segment) = some segment :=
    Utf8.slice?_eq_some_iff.2 ⟨before ++ nodeOpen, rest, by simp only [List.append_assoc],
      by rw [Utf8.size_append, size_nodeOpen], by rw [List.append_assoc, hsize]⟩
  have hbracket : (encode (before ++ (nodeOpen ++ (segment ++ rest))))[size before + 5 + size segment]? =
      some (byte ']') ↔ rest.head? = some ']' := by
    rw [htext, ← hsize]
    exact Utf8.getElem?_encode_iff (by decide) _ rest
  -- without its opening bracket the segment is one byte shorter at the front
  obtain ⟨pending, hslice, hpending⟩ := hp.slice? nodeOpen (segment ++ rest)
  obtain ⟨pending', hslice', hpending'⟩ := hp.slice? ['n', 'o', 'd', 'e'] ('[' :: (segment ++ rest))
  rw [size_nodeOpen] at hslice
  have hnode : ['n', 'o', 'd', 'e'] ++ '[' :: (segment ++ rest) = nodeOpen ++ (segment ++ rest) := rfl
  have hfour : size before + size ['n', 'o', 'd', 'e'] = size before + 5 - 1 := by
    have : size ['n', 'o', 'd', 'e'] = 4 := by decide
    omega
  rw [hnode, hfour] at hslice'
  rw [editSegment?, hstop, Option.bind_eq_bind, Option.bind_some, if_neg hend, hsegment, Option.bind_eq_bind,
    Option.bind_some, rewriteShort_eq, hslice, hslice', Option.map_some, Option.map_some, hpending, hpending']
  simp only [isEmpty_trim, hbracket]
  split
  · rfl
  split
  · rfl
  · rfl

theorem segmentEnd?_eq (before piece rest : List Char) :
    segmentEnd? (encode (before ++ (nodeOpen ++ (piece ++ rest)))) (size before + 5)
      (size before + 5 + size piece) =
        some (match firstByte? (byte ']') (encode piece) with
          | some i => size before + 5 + i
          | none => size before + 5 + size piece) := by
  have hstart : size (before ++ nodeOpen) = size before + 5 := by rw [Utf8.size_append, size_nodeOpen]
  have hslice := Utf8.byteSlice?_append (before ++ nodeOpen) piece rest
  rw [Utf8.size_append (before ++ nodeOpen), hstart] at hslice
  rw [segmentEnd?, ← List.append_assoc, ← List.append_assoc, hslice, Option.map_some]

theorem segmentEnd?_open (h : ']' ∉ piece) (before rest : List Char) :
    segmentEnd? (encode (before ++ (nodeOpen ++ (piece ++ rest)))) (size before + 5)
      (size before + 5 + size piece) = some (size before + 5 + size piece) := by
  rw [segmentEnd?_eq, Utf8.firstByte?_eq_none (by decide) h]

theorem segmentEnd?_closed {segment : List Char} (h : ']' ∉ segment) (before more rest : List Char) :
    segmentEnd? (encode (before ++ (nodeOpen ++ (segment ++ ']' :: more ++ rest)))) (size before + 5)
      (size before + 5 + size (segment ++ ']' :: more)) = some (size before + 5 + size segment) := by
  rw [segmentEnd?_eq, Utf8.firstByte?_append (by decide) h]

theorem editSegment?_open {p : Progress} (hp : p.Upto before target) (h : ']' ∉ piece)
    (pieces : List (List Char)) : ∃ p',
      editSegment? (before ++ joined (piece :: pieces)) p (size before + 5) (size before + 5 + size piece) =
        some p' ∧
      p'.Upto (before ++ (nodeOpen ++ piece)) (target ++ settlePiece pieces.isEmpty piece) := by
  have hstop := segmentEnd?_open h before (joined pieces)
  have hcopy := hp.copy (nodeOpen ++ piece)
  rw [joined_cons, settlePiece_open h]
  cases pieces with
  | nil =>
    have hend : size before + 5 + size piece = size (before ++ (nodeOpen ++ (piece ++ joined []))) := by
      simp only [Utf8.size_append, size_nodeOpen, joined_nil, Utf8.size_nil]
      omega
    refine ⟨p, ?_, by rwa [if_pos (.inr rfl)]⟩
    rw [editSegment?, hstop, Option.bind_eq_bind, Option.bind_some, if_pos hend]
  | cons next pieces =>
    have hhead : (joined (next :: pieces)).head? = some 'n' := by
      rw [joined_cons]
      rfl
    have hne : joined (next :: pieces) ≠ [] := by
      rw [joined_cons]
      exact List.cons_ne_nil _ _
    have hbracket : ¬ (joined (next :: pieces)).head? = some ']' := by
      rw [hhead]
      decide
    refine ⟨_, editSegment?_eq hp hstop hne, ?_⟩
    simp only [hbracket, and_false, if_false, List.isEmpty_cons, Bool.false_eq_true, or_false]
    split
    · exact hcopy
    · refine ⟨before ++ (nodeOpen ++ piece), [], (List.append_nil _).symm, ?_, ?_⟩
      · simp only [Utf8.size_append, size_nodeOpen, Nat.add_assoc]
      · simp only [List.append_nil, List.append_assoc]

theorem editSegment?_closed {p : Progress} (hp : p.Upto before target) {segment : List Char}
    (h : ']' ∉ segment) (rest : List Char) (pieces : List (List Char)) : ∃ p',
      editSegment? (before ++ joined ((segment ++ ']' :: rest) :: pieces)) p (size before + 5)
        (size before + 5 + size (segment ++ ']' :: rest)) = some p' ∧
      p'.Upto (before ++ (nodeOpen ++ (segment ++ ']' :: rest)))
        (target ++ settlePiece pieces.isEmpty (segment ++ ']' :: rest)) := by
  have hstop := segmentEnd?_closed h before rest (joined pieces)
  have hcopy := hp.copy (nodeOpen ++ (segment ++ ']' :: rest))
  have hone : size [']'] = 1 := by decide
  rw [joined_cons, settlePiece_closed h]
  rw [List.append_assoc] at hstop ⊢
  refine ⟨_, editSegment?_eq hp hstop (List.cons_ne_nil _ _), ?_⟩
  simp only [List.cons_append, List.head?_cons, and_true]
  split
  · exact hcopy
  split
  · refine ⟨before ++ (nodeOpen ++ (segment ++ [']'])), rest, ?_, ?_, ?_⟩
    · simp only [List.append_assoc, List.singleton_append]
    · simp only [Utf8.size_append, size_nodeOpen, hone, Nat.add_assoc]
    · exact List.append_assoc target ['n', 'o', 'd', 'e'] rest
  · refine ⟨before ++ (nodeOpen ++ segment), ']' :: rest, ?_, ?_, ?_⟩
    · simp only [List.append_assoc]
    · simp only [Utf8.size_append, size_nodeOpen, Nat.add_assoc]
    · simp only [List.append_assoc]

theorem editSegment?_piece {p : Progress} (hp : p.Upto before target) (piece : List Char)
    (pieces : List (List Char)) : ∃ p',
      editSegment? (before ++ joined (piece :: pieces)) p (size before + 5) (size before + 5 + size piece) =
        some p' ∧
      p'.Upto (before ++ (nodeOpen ++ piece)) (target ++ settlePiece pieces.isEmpty piece) := by
  rcases Text.not_mem_or_eq_append ']' piece with hclosing | ⟨segment, rest, rfl, hclosing⟩
  · exact editSegment?_open hp hclosing pieces
  · exact editSegment?_closed hp hclosing rest pieces

/-- What holds before the first of some pieces holds behind the last of them. -/
theorem editSegments?_joined {p : Progress} (hp : p.Upto before target) (pieces : List (List Char)) : ∃ p',
    editSegments? (before ++ joined pieces) p (startsFrom (size before) pieces) = some p' ∧
      p'.Upto (before ++ joined pieces) (target ++ settlePieces pieces) := by
  induction pieces generalizing before target p with
  | nil => exact ⟨p, rfl, by rwa [joined_nil, settlePieces, List.append_nil, List.append_nil]⟩
  | cons piece pieces ih =>
    obtain ⟨p₁, hstep, hp₁⟩ := editSegment?_piece hp piece pieces
    obtain ⟨p₂, hrun, hp₂⟩ := ih hp₁
    have htext : before ++ (nodeOpen ++ piece) ++ joined pieces = before ++ joined (piece :: pieces) := by
      simp only [joined_cons, List.append_assoc]
    have hsize : size (before ++ (nodeOpen ++ piece)) = size before + 5 + size piece := by
      simp only [Utf8.size_append, size_nodeOpen, Nat.add_assoc]
    have hnext : nextNode (before ++ joined (piece :: pieces))
        (startsFrom (size before + 5 + size piece) pieces) = size before + 5 + size piece := by
      cases pieces with
      | nil => rw [← htext, joined_nil, List.append_nil, startsFrom, nextNode, hsize]
      | cons => rw [startsFrom, nextNode, Nat.add_sub_cancel]
    -- the rest of the run starts behind the piece, in the same text
    rw [htext, hsize] at hrun
    rw [htext, List.append_assoc] at hp₂
    refine ⟨p₂, ?_, hp₂⟩
    rw [startsFrom, editSegments?, hnext, hstep, Option.bind_eq_bind, Option.bind_some, hrun]

theorem editAll?_of_cut {front : List Char} (h : Cut s front pieces) :
    editAll? s = some (front ++ settlePieces pieces) := by
  obtain ⟨hfront, hpieces⟩ := List.forall_mem_cons.1 h.apart
  have hstarts := occurrences_joined hfront hpieces 0
  have hempty : Progress.Upto ⟨[], 0⟩ front front := ⟨[], front, rfl, rfl, rfl⟩
  obtain ⟨p, hrun, hp⟩ := editSegments?_joined hempty pieces
  obtain ⟨pending, hslice, hpending⟩ := hp.slice? [] []
  rw [Nat.zero_add] at hstarts
  rw [List.append_nil, List.append_nil, Utf8.size_nil, Nat.add_zero] at hslice
  rw [← h.text, intercalate_eq_joined, editAll?, hstarts]
  simp only [hrun, hslice, Option.bind_eq_bind, Option.bind_some, Option.pure_def, hpending, List.append_nil]

/-- Going through a text by offsets, with or without a look for a mark at first, gives the text in which
marks have been carried out, and never fails to slice the text. That text consists of the settled pieces of
the text, in which a segment is rewritten in the one way that there is. -/
theorem edit?_eq_resolve (pattern : String) :
    edit? pattern.toList = some (resolve pattern).toList ∧
    editAll? pattern.toList = some (resolve pattern).toList ∧
    ∃ front pieces, Cut pattern.toList front pieces ∧
      (resolve pattern).toList = front ++ settlePieces pieces ∧
      ∀ segment t, Rewritten segment t ↔ t = rewriteSegment segment := by
  obtain ⟨front, pieces, hcut⟩ := exists_cut pattern.toList
  have hresolve : (resolve pattern).toList = front ++ settlePieces pieces := by
    rw [resolve, String.toList_ofList, carryOut_of_cut hcut]
  have hall : editAll? pattern.toList = some (resolve pattern).toList := by
    rw [editAll?_of_cut hcut, hresolve]
  refine ⟨?_, hall, front, pieces, hcut, hresolve, fun segment t => rewritten_iff⟩
  unfold edit?
  split
  · exact hall
  · next hmark =>
    rw [Bool.not_eq_true] at hmark
    rw [resolve, String.toList_ofList, carryOut_unmarked hmark]

end TreebankSearch.CaseMark

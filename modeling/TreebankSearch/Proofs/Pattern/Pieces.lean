import TreebankSearch.Proofs.Pattern.Resolve
import TreebankSearch.Proofs.Pattern.Unmarked

/-!
# The pieces of a text

A text is cut at each `node[`, and each of the pieces behind one is settled by itself: the part up to its
first closing bracket is rewritten if it holds a mark, and the rest of the piece stays. The last piece is
left alone if no bracket closes it.
-/

namespace TreebankSearch.CaseMark

variable {s r w front : List Char} {pieces : List (List Char)}

/-- A text cut at each `node[` in it. -/
structure Cut (s front : List Char) (pieces : List (List Char)) : Prop where
  text : nodeOpen.intercalate (front :: pieces) = s
  apart : ∀ piece ∈ front :: pieces, Text.occursIn nodeOpen piece = false

/-- What becomes of a piece and of the `node[` in front of it. -/
def settlePiece (last : Bool) (piece : List Char) : List Char :=
  let segment := piece.takeWhile (· ≠ ']')
  let rest := piece.dropWhile (· ≠ ']')
  if Text.occursIn caseMark segment = false ∨ last = true ∧ rest = [] then nodeOpen ++ piece
  else if (rewriteSegment segment).all Text.isBlank = true ∧ rest ≠ [] then
    ['n', 'o', 'd', 'e'] ++ rest.tail
  else nodeOpen ++ (rewriteSegment segment ++ rest)

def settlePieces : List (List Char) → List Char
  | [] => []
  | piece :: pieces => settlePiece pieces.isEmpty piece ++ settlePieces pieces

def joined (pieces : List (List Char)) : List Char := pieces.flatMap (nodeOpen ++ ·)

theorem joined_nil : joined [] = [] := rfl

theorem joined_cons (piece : List Char) (pieces : List (List Char)) :
    joined (piece :: pieces) = nodeOpen ++ (piece ++ joined pieces) := by
  rw [joined, List.flatMap_cons, List.append_assoc]
  rfl

theorem intercalate_eq_joined (front : List Char) (pieces : List (List Char)) :
    nodeOpen.intercalate (front :: pieces) = front ++ joined pieces := by
  induction pieces generalizing front with
  | nil => rw [joined_nil, List.intercalate_singleton, List.append_nil]
  | cons piece pieces ih => rw [List.intercalate_cons_cons, ih, joined_cons, List.append_assoc]

theorem after?_append_joined (c : Char) (w : List Char) (pieces : List (List Char)) :
    Text.after? nodeOpen (c :: (w ++ joined pieces)) =
      (Text.after? nodeOpen (c :: w)).map (· ++ joined pieces) := by
  cases pieces with
  | nil => simp [joined]
  | cons piece pieces =>
    rw [joined_cons]
    exact (closes_nodeOpen _).after?_append c w

theorem exists_cut (s : List Char) : ∃ front pieces, Cut s front pieces := by
  induction s with
  | nil => exact ⟨[], [], rfl, by simp [Text.occursIn, nodeOpen]⟩
  | cons c s ih =>
    obtain ⟨front, pieces, rfl, hapart⟩ := ih
    obtain ⟨hfront, hpieces⟩ := List.forall_mem_cons.1 hapart
    cases hafter : Text.after? nodeOpen (c :: front) with
    | none =>
      refine ⟨c :: front, pieces, ?_, List.forall_mem_cons.2 ⟨?_, hpieces⟩⟩
      · rw [intercalate_eq_joined, intercalate_eq_joined, List.cons_append]
      · rw [Text.occursIn, hafter, hfront]
        rfl
    | some rest =>
      have hopen := Text.after?_eq_some_iff.1 hafter
      have hrest : rest <:+ front := ⟨['o', 'd', 'e', '['], (List.cons.inj hopen).2.symm⟩
      refine ⟨[], rest :: pieces, ?_, List.forall_mem_cons.2 ⟨rfl, List.forall_mem_cons.2 ⟨?_, hpieces⟩⟩⟩
      · rw [intercalate_eq_joined, intercalate_eq_joined, ← List.cons_append, hopen, joined, joined,
          List.flatMap_cons, List.nil_append]
      · exact Text.occursIn_of_part hrest.isInfix hfront

theorem eq_nil_of_joined {a : List Char} {pieces' : List (List Char)}
    (ha : Text.occursIn nodeOpen a = false) (h : joined pieces = a ++ joined pieces') : a = [] := by
  cases a with
  | nil => rfl
  | cons c a =>
    cases pieces with
    | nil => cases h
    | cons piece pieces =>
      have hafter := after?_append_joined c a pieces'
      rw [← List.cons_append, ← h, joined_cons, Text.after?_append] at hafter
      rw [Text.occursIn, Bool.or_eq_false_iff, Option.isSome_eq_false_iff, Option.isNone_iff_eq_none] at ha
      rw [ha.1] at hafter
      cases hafter

theorem Cut.front_unique {front' : List Char} {pieces' : List (List Char)} (h : Cut s front pieces)
    (h' : Cut s front' pieces') : front = front' ∧ joined pieces = joined pieces' := by
  have heq := h.text.trans h'.text.symm
  rw [intercalate_eq_joined, intercalate_eq_joined] at heq
  rcases List.append_eq_append_iff.1 heq with ⟨a, rfl, hjoined⟩ | ⟨a, rfl, hjoined⟩
  · have ha := Text.occursIn_of_part (List.suffix_append front a).isInfix (h'.apart _ List.mem_cons_self)
    obtain rfl := eq_nil_of_joined ha hjoined
    exact ⟨(List.append_nil front).symm, hjoined⟩
  · have ha := Text.occursIn_of_part (List.suffix_append front' a).isInfix (h.apart _ List.mem_cons_self)
    obtain rfl := eq_nil_of_joined ha hjoined
    exact ⟨List.append_nil front', hjoined.symm⟩

theorem Cut.tail {piece : List Char} (h : Cut s front (piece :: pieces)) :
    Cut (piece ++ joined pieces) piece pieces :=
  ⟨intercalate_eq_joined piece pieces, (List.forall_mem_cons.1 h.apart).2⟩

/-- There is one way to cut a text. -/
theorem Cut.unique {front' : List Char} {pieces' : List (List Char)} (h : Cut s front pieces)
    (h' : Cut s front' pieces') : front = front' ∧ pieces = pieces' := by
  induction pieces generalizing s front front' pieces' with
  | nil =>
    obtain ⟨rfl, hjoined⟩ := h.front_unique h'
    cases pieces' with
    | nil => exact ⟨rfl, rfl⟩
    | cons => cases hjoined
  | cons piece pieces ih =>
    obtain ⟨rfl, hjoined⟩ := h.front_unique h'
    cases pieces' with
    | nil => cases hjoined
    | cons piece' pieces' =>
      have htail := h'.tail
      rw [joined_cons, joined_cons] at hjoined
      rw [← List.append_cancel_left hjoined] at htail
      obtain ⟨rfl, rfl⟩ := ih h.tail htail
      exact ⟨rfl, rfl⟩

theorem apart_joined (h : Text.occursIn nodeOpen w = false) (pieces : List (List Char)) :
    Apart (joined pieces) w := by
  induction w with
  | nil => trivial
  | cons c w ih =>
    rw [Text.occursIn, Bool.or_eq_false_iff, Option.isSome_eq_false_iff, Option.isNone_iff_eq_none] at h
    refine ⟨?_, ih h.2⟩
    rw [after?_append_joined, h.1]
    rfl

theorem splitSegment_joined (pieces : List (List Char)) :
    splitSegment (joined pieces) = ([], joined pieces) := by
  cases pieces with
  | nil => rfl
  | cons piece pieces =>
    rw [joined_cons]
    exact (closes_nodeOpen _).splitSegment

theorem settlePiece_open {piece : List Char} (h : ']' ∉ piece) (last : Bool) : settlePiece last piece =
    if Text.occursIn caseMark piece = false ∨ last = true then nodeOpen ++ piece
    else nodeOpen ++ rewriteSegment piece := by
  obtain ⟨hsegment, hrest⟩ := Text.takeWhile_ne_self h
  simp only [settlePiece, hsegment, hrest, ne_eq, not_true, and_true, and_false, if_false, List.append_nil]

theorem settlePiece_closed {segment : List Char} (h : ']' ∉ segment) (last : Bool) (rest : List Char) :
    settlePiece last (segment ++ ']' :: rest) =
      if Text.occursIn caseMark segment = false then nodeOpen ++ (segment ++ ']' :: rest)
      else if (rewriteSegment segment).all Text.isBlank = true then ['n', 'o', 'd', 'e'] ++ rest
      else nodeOpen ++ (rewriteSegment segment ++ ']' :: rest) := by
  obtain ⟨hsegment, hrest⟩ := Text.takeWhile_ne_append h rest
  simp only [settlePiece, hsegment, hrest, ne_eq, reduceCtorEq, not_false_eq_true, and_true, and_false,
    or_false, List.tail_cons]

theorem closeSegment_joined (segment : List Char) (pieces : List (List Char)) :
    closeSegment segment (joined pieces) =
      (if Text.occursIn caseMark segment = false ∨ pieces.isEmpty = true then nodeOpen ++ segment
        else nodeOpen ++ rewriteSegment segment, joined pieces) := by
  cases hmark : Text.occursIn caseMark segment with
  | false => rw [closeSegment_unmarked hmark, if_pos (.inl rfl)]
  | true =>
    cases pieces with
    | nil => simp [closeSegment, joined]
    | cons piece pieces =>
      rw [joined_cons, nodeOpen, List.cons_append]
      simp [closeSegment, nodeOpen, hmark]

theorem carryOut_open {piece : List Char} (h : Text.occursIn nodeOpen piece = false) (hclosing : ']' ∉ piece)
    (pieces : List (List Char)) : carryOut (nodeOpen ++ (piece ++ joined pieces)) =
      settlePiece pieces.isEmpty piece ++ carryOut (joined pieces) := by
  have hsplit : splitSegment (piece ++ joined pieces) = (piece, joined pieces) := by
    rw [splitSegment_of_apart (apart_joined h pieces) hclosing, splitSegment_joined, List.append_nil]
  rw [carryOut_nodeOpen, closeNext, hsplit, closeSegment_joined, settlePiece_open hclosing]

theorem carryOut_closed {segment rest : List Char}
    (h : Text.occursIn nodeOpen (segment ++ ']' :: rest) = false) (hclosing : ']' ∉ segment)
    (pieces : List (List Char)) : carryOut (nodeOpen ++ (segment ++ ']' :: rest ++ joined pieces)) =
      settlePiece pieces.isEmpty (segment ++ ']' :: rest) ++ carryOut (joined pieces) := by
  obtain ⟨hsegment, hrest⟩ := apart_append.1 (apart_joined h pieces)
  have hsplit : splitSegment (segment ++ ']' :: rest ++ joined pieces) =
      (segment, ']' :: rest ++ joined pieces) := by
    rw [List.append_assoc, splitSegment_of_apart hsegment hclosing, List.cons_append, (closes_bracket _).splitSegment,
      List.append_nil]
  have hcopied : carryOut (']' :: rest ++ joined pieces) = ']' :: rest ++ carryOut (joined pieces) :=
    carryOut_append hrest
  have hbracket : carryOut (']' :: rest ++ joined pieces) = ']' :: carryOut (rest ++ joined pieces) :=
    carryOut_cons_of_ne (by decide) _
  have hbehind : carryOut (rest ++ joined pieces) = rest ++ carryOut (joined pieces) :=
    (List.cons.inj (hbracket.symm.trans hcopied)).2
  rw [carryOut_nodeOpen, closeNext, hsplit, settlePiece_closed hclosing]
  cases hmark : Text.occursIn caseMark segment with
  | false =>
    rw [closeSegment_unmarked hmark, if_pos rfl, hcopied]
    simp only [List.append_assoc]
  | true =>
    by_cases hblank : (rewriteSegment segment).all Text.isBlank = true
    · have hclose : closeSegment segment (']' :: rest ++ joined pieces) =
          (nodeOpen.dropLast, rest ++ joined pieces) := by
        simp only [closeSegment, hmark, hblank]
        rfl
      rw [hclose, if_neg (by decide), if_pos hblank, hbehind, List.append_assoc]
      rfl
    · have hclose : closeSegment segment (']' :: rest ++ joined pieces) =
          (nodeOpen ++ rewriteSegment segment, ']' :: rest ++ joined pieces) := by
        simp only [closeSegment, hmark, hblank]
        rfl
      rw [hclose, if_neg (by decide), if_neg hblank, hcopied]
      simp only [List.append_assoc]

theorem carryOut_piece {piece : List Char} (h : Text.occursIn nodeOpen piece = false)
    (pieces : List (List Char)) : carryOut (nodeOpen ++ (piece ++ joined pieces)) =
      settlePiece pieces.isEmpty piece ++ carryOut (joined pieces) := by
  rcases Text.not_mem_or_eq_append ']' piece with hclosing | ⟨segment, rest, rfl, hclosing⟩
  · exact carryOut_open h hclosing pieces
  · exact carryOut_closed h hclosing pieces

theorem carryOut_joined (h : ∀ piece ∈ pieces, Text.occursIn nodeOpen piece = false) :
    carryOut (joined pieces) = settlePieces pieces := by
  induction pieces with
  | nil => exact carryOut_nil
  | cons piece pieces ih =>
    obtain ⟨hpiece, hpieces⟩ := List.forall_mem_cons.1 h
    rw [joined_cons]
    exact (carryOut_piece hpiece pieces).trans (congrArg _ (ih hpieces))

/-- Marks are carried out piece by piece. -/
theorem carryOut_of_cut (h : Cut s front pieces) : carryOut s = front ++ settlePieces pieces := by
  obtain ⟨hfront, hpieces⟩ := List.forall_mem_cons.1 h.apart
  rw [← h.text, intercalate_eq_joined, carryOut_append (apart_joined hfront pieces), carryOut_joined hpieces]

theorem Cut.append {t piece : List Char} {more : List (List Char)} (h : Cut s front pieces)
    (ht : Cut t piece more) : Cut (s ++ (nodeOpen ++ t)) front (pieces ++ piece :: more) where
  text := by
    have hjoined : joined (pieces ++ piece :: more) = joined pieces ++ joined (piece :: more) :=
      List.flatMap_append
    rw [← h.text, ← ht.text, intercalate_eq_joined, intercalate_eq_joined, intercalate_eq_joined, hjoined,
      joined_cons, List.append_assoc]
  apart := by
    obtain ⟨hfront, hpieces⟩ := List.forall_mem_cons.1 h.apart
    refine List.forall_mem_cons.2 ⟨hfront, fun p hp => ?_⟩
    exact (List.mem_append.1 hp).elim (hpieces p) (ht.apart p)

theorem settlePieces_append (pieces : List (List Char)) (piece : List Char) (more : List (List Char)) :
    settlePieces (pieces ++ piece :: more) =
      pieces.flatMap (settlePiece false) ++ settlePieces (piece :: more) := by
  induction pieces with
  | nil => rfl
  | cons p pieces ih =>
    have hlast : (pieces ++ piece :: more).isEmpty = false := by simp
    rw [List.cons_append, settlePieces, hlast, ih, List.flatMap_cons, List.append_assoc]

theorem exists_carryOut_before (before : List Char) : ∃ front, carryOut (before ++ nodeOpen) = front ++ nodeOpen ∧
    ∀ after, carryOut (before ++ (nodeOpen ++ after)) = front ++ carryOut (nodeOpen ++ after) := by
  obtain ⟨front, pieces, hbefore⟩ := exists_cut before
  have hsettled : ∀ after, carryOut (before ++ (nodeOpen ++ after)) =
      front ++ pieces.flatMap (settlePiece false) ++ carryOut (nodeOpen ++ after) := by
    intro after
    obtain ⟨piece, more, hafter⟩ := exists_cut after
    have hnone : Cut [] [] [] := ⟨rfl, by decide⟩
    have hnode := carryOut_of_cut (hnone.append hafter)
    simp only [List.nil_append] at hnode
    rw [carryOut_of_cut (hbefore.append hafter), settlePieces_append, hnode, List.append_assoc]
  have hopen : carryOut (nodeOpen ++ []) = nodeOpen := by
    rw [carryOut_nodeOpen]
    exact congrArg (nodeOpen ++ ·) carryOut_nil
  refine ⟨_, ?_, hsettled⟩
  have h := hsettled []
  rwa [hopen, List.append_nil] at h

theorem IsSegment.exists_carryOut {before segment rest : List Char} (h : IsSegment s before segment rest) :
    ∃ front, carryOut (before ++ nodeOpen) = front ++ nodeOpen ∧ carryOut s =
      front ++ ((closeSegment segment rest).1 ++ carryOut (closeSegment segment rest).2) := by
  obtain ⟨front, hfront, hsettled⟩ := exists_carryOut_before before
  refine ⟨front, hfront, ?_⟩
  rw [h.text, hsettled, carryOut_nodeOpen, closeNext, h.splitSegment]

theorem IsSegment.exists_piece {before segment rest : List Char} (h : IsSegment s before segment rest)
    (hcut : Cut s front pieces) : ∃ piece ∈ pieces, piece.takeWhile (· ≠ ']') = segment := by
  have hpiece : ∃ piece more, Cut (segment ++ rest) piece more ∧ piece.takeWhile (· ≠ ']') = segment := by
    rcases h.closed with hclosed | ⟨rest', rfl⟩
    · obtain ⟨rest', rfl⟩ := List.head?_eq_some_iff.1 hclosed
      obtain ⟨piece, more, hrest⟩ := exists_cut rest'
      obtain ⟨hpiece, hmore⟩ := List.forall_mem_cons.1 hrest.apart
      refine ⟨segment ++ ']' :: piece, more, ⟨?_, List.forall_mem_cons.2 ⟨?_, hmore⟩⟩,
        (Text.takeWhile_ne_append h.closing piece).1⟩
      · rw [← hrest.text, intercalate_eq_joined, intercalate_eq_joined, List.append_assoc, List.cons_append]
      · rw [Text.occursIn_append_cons (by decide), h.opening, hpiece]
        rfl
    · obtain ⟨piece, more, hrest⟩ := exists_cut rest'
      have hsegment : Cut segment segment [] :=
        ⟨List.intercalate_singleton, List.forall_mem_cons.2 ⟨h.opening, by simp⟩⟩
      exact ⟨segment, piece :: more, hsegment.append hrest, (Text.takeWhile_ne_self h.closing).1⟩
  obtain ⟨piece, more, hpiece, htake⟩ := hpiece
  obtain ⟨front', pieces', hbefore⟩ := exists_cut before
  rw [h.text] at hcut
  obtain ⟨-, rfl⟩ := hcut.unique (hbefore.append hpiece)
  exact ⟨piece, List.mem_append_right pieces' List.mem_cons_self, htake⟩

end TreebankSearch.CaseMark

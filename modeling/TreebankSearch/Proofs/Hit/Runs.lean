import Mathlib.Data.List.Chain
import TreebankSearch.Proofs.Hit.Context

/-!
# Runs of matched words

The words of a hit fall into runs of matched words and single words that are not matched. Each run is set
in one pair of tags, and a word stands between the tags of a pair just if it is matched. There is one
exception: whether a run goes on is read off the places of the matches, and these need not be places of
words. If the last word is matched and the place after it is a match as well, then the last pair is left
open.
-/

namespace TreebankSearch.Highlight

abbrev Word := List Char × Nat

inductive Piece where
  | opening
  | closing
  | word (word : Word)
  | blank

def Piece.render (tag : List Char) : Piece → List Char
  | .opening => '<' :: (tag ++ ['>'])
  | .closing => '<' :: '/' :: (tag ++ ['>'])
  | .word (text, _) => text
  | .blank => [' ']

/-- Tags open and close by turns, and the words between a tag and the one that closes it are the matched
ones. `inside` says whether a tag is open in front of the pieces; behind them none is. -/
def Paired (starts : List Nat) : Bool → List Piece → Prop
  | inside, [] => inside = false
  | inside, .opening :: pieces => inside = false ∧ Paired starts true pieces
  | inside, .closing :: pieces => inside = true ∧ Paired starts false pieces
  | inside, .word (_, i) :: pieces => (inside = true ↔ i ∈ starts) ∧ Paired starts inside pieces
  | inside, .blank :: pieces => Paired starts inside pieces

inductive Stretch where
  | run (words : List Word)
  | other (word : Word)

namespace Stretch

def words : Stretch → List Word
  | run words => words
  | other word => [word]

def isRun : Stretch → Bool
  | run _ => true
  | other _ => false

end Stretch

def spaced (pieces : List (List Piece)) : List Piece := [Piece.blank].intercalate pieces

def Stretch.pieces : Stretch → List Piece
  | run words => .opening :: (spaced (words.map fun word => [.word word]) ++ [.closing])
  | other word => [.word word]

def layOut (stretches : List Stretch) : List Piece := spaced (stretches.map Stretch.pieces)

/-- The words in their order, in runs that are as long as they can be and single words. -/
structure Stretches (starts : List Nat) (words : List Word) (stretches : List Stretch) : Prop where
  words : stretches.flatMap Stretch.words = words
  run : ∀ ws, .run ws ∈ stretches → ws ≠ [] ∧ ∀ w ∈ ws, w.2 ∈ starts
  other : ∀ w, .other w ∈ stretches → w.2 ∉ starts
  apart : stretches.IsChain fun s t => s.isRun = false ∨ t.isRun = false

variable {starts : List Nat} {inside : Bool} {pieces : List Piece} {stretches : List Stretch}

def lengthen (word : Word) : List Stretch → List Stretch
  | .run words :: stretches => .run (word :: words) :: stretches
  | stretches => .run [word] :: stretches

def stretchesOf (starts : List Nat) : List Word → List Stretch
  | [] => []
  | word :: words =>
    if word.2 ∈ starts then lengthen word (stretchesOf starts words)
    else .other word :: stretchesOf starts words

theorem Stretches.lengthen {words : List Word} (h : Stretches starts words stretches) {word : Word}
    (hw : word.2 ∈ starts) : Stretches starts (word :: words) (lengthen word stretches) := by
  obtain ⟨hwords, hrun, hother, hapart⟩ := h
  match stretches with
  | .run ws :: rest =>
    obtain ⟨-, hws⟩ := hrun ws List.mem_cons_self
    refine ⟨by simpa [Highlight.lengthen, Stretch.words] using hwords, ?_, ?_, ?_⟩
    · intro vs hvs
      rcases List.mem_cons.1 hvs with he | hvs
      · cases he
        exact ⟨List.cons_ne_nil _ _, List.forall_mem_cons.2 ⟨hw, hws⟩⟩
      · exact hrun vs (List.mem_cons_of_mem _ hvs)
    · intro w hm
      exact hother w (List.mem_cons_of_mem _ ((List.mem_cons.1 hm).resolve_left nofun))
    · exact List.isChain_cons.2 (List.isChain_cons.1 hapart)
  | .other w :: rest =>
    refine ⟨by simpa [Highlight.lengthen, Stretch.words] using hwords, ?_, ?_, ?_⟩
    · intro vs hvs
      rcases List.mem_cons.1 hvs with he | hvs
      · cases he
        exact ⟨List.cons_ne_nil _ _, List.forall_mem_singleton.2 hw⟩
      · exact hrun vs hvs
    · intro w hm
      exact hother w ((List.mem_cons.1 hm).resolve_left nofun)
    · exact List.isChain_cons.2 ⟨by simp [Stretch.isRun], hapart⟩
  | [] =>
    refine ⟨by simpa [Highlight.lengthen, Stretch.words] using hwords, ?_, ?_, ?_⟩
    · intro vs hvs
      cases List.mem_singleton.1 hvs
      exact ⟨List.cons_ne_nil _ _, List.forall_mem_singleton.2 hw⟩
    · intro w hm
      cases List.mem_singleton.1 hm
    · exact List.isChain_singleton _

theorem stretches_stretchesOf (starts : List Nat) (words : List Word) :
    Stretches starts words (stretchesOf starts words) := by
  induction words with
  | nil => exact ⟨rfl, nofun, nofun, List.isChain_nil⟩
  | cons word words ih =>
    rw [stretchesOf]
    split
    · next hw => exact ih.lengthen hw
    · next hw =>
      refine ⟨by simp [Stretch.words, ih.words], ?_, ?_, ?_⟩
      · intro vs hvs
        exact ih.run vs ((List.mem_cons.1 hvs).resolve_left nofun)
      · intro w hm
        rcases List.mem_cons.1 hm with he | hm
        · cases he
          exact hw
        · exact ih.other w hm
      · exact List.isChain_cons.2 ⟨fun _ _ => .inl rfl, ih.apart⟩

theorem spaced_cons {first : List Piece} {more : List (List Piece)} (h : more ≠ []) :
    spaced (first :: more) = first ++ .blank :: spaced more := by
  rw [spaced, List.intercalate_cons_of_ne_nil h]
  simp [spaced]

theorem paired_words {words : List Word} (hw : ∀ w ∈ words, (inside = true ↔ w.2 ∈ starts)) :
    Paired starts inside (spaced (words.map fun word => [.word word]) ++ pieces) ↔
      Paired starts inside pieces := by
  induction words with
  | nil => rfl
  | cons w words ih =>
    obtain ⟨hfirst, hmore⟩ := List.forall_mem_cons.1 hw
    cases words with
    | nil => simp [spaced, Paired, hfirst]
    | cons v words =>
      rw [List.map_cons, spaced_cons (by simp)]
      exact (and_iff_right hfirst).trans (ih hmore)

theorem paired_stretch {stretch : Stretch}
    (hrun : ∀ ws, stretch = .run ws → ∀ w ∈ ws, w.2 ∈ starts)
    (hother : ∀ w, stretch = .other w → w.2 ∉ starts) :
    Paired starts false (stretch.pieces ++ pieces) ↔ Paired starts false pieces := by
  cases stretch with
  | run ws =>
    rw [Stretch.pieces, List.cons_append, List.append_assoc, Paired,
      paired_words (by simpa using hrun ws rfl)]
    simp [Paired]
  | other w => simp [Stretch.pieces, Paired, hother w rfl]

theorem paired_layOut {words : List Word} (h : Stretches starts words stretches) :
    Paired starts false (layOut stretches) := by
  have hpieces : ∀ stretch ∈ stretches, ∀ pieces, Paired starts false (stretch.pieces ++ pieces) ↔
      Paired starts false pieces := by
    intro stretch hs pieces
    exact paired_stretch (fun ws he => (h.run ws (he ▸ hs)).2) fun w he => h.other w (he ▸ hs)
  clear h
  induction stretches with
  | nil => rfl
  | cons stretch stretches ih =>
    obtain ⟨hfirst, hmore⟩ := List.forall_mem_cons.1 hpieces
    cases stretches with
    | nil => simpa [layOut, spaced] using (hfirst []).2 rfl
    | cons next stretches =>
      rw [layOut, List.map_cons, spaced_cons (by simp), hfirst]
      exact ih hmore

theorem not_paired_of_closing (h : Paired starts inside (pieces ++ [.closing])) :
    ¬ Paired starts inside pieces := by
  induction pieces generalizing inside with
  | nil =>
    rw [h.1]
    exact nofun
  | cons piece pieces ih =>
    cases piece with
    | opening => exact fun hp => ih h.2 hp.2
    | closing => exact fun hp => ih h.2 hp.2
    | word => exact fun hp => ih h.2 hp.2
    | blank => exact fun hp => ih h hp

def marked (starts : List Nat) (word : Word) : List Piece :=
  if word.2 ∈ starts then
    (if 0 < word.2 ∧ word.2 - 1 ∈ starts then [] else [.opening]) ++
      .word word :: (if word.2 + 1 ∈ starts then [] else [.closing])
  else [.word word]

theorem lengthen_ne_nil (word : Word) (stretches : List Stretch) : lengthen word stretches ≠ [] := by
  unfold lengthen
  split <;> exact List.cons_ne_nil _ _

theorem stretchesOf_ne_nil (word : Word) (words : List Word) :
    stretchesOf starts (word :: words) ≠ [] := by
  rw [stretchesOf]
  split
  · exact lengthen_ne_nil _ _
  · exact List.cons_ne_nil _ _

theorem exists_layOut_lengthen (word : Word) (stretches : List Stretch) :
    ∃ pieces, layOut (lengthen word stretches) = .opening :: pieces ∧
      ∀ first, layOut (lengthen first (lengthen word stretches)) =
        .opening :: .word first :: .blank :: pieces := by
  have hrun : ∀ words rest, ∃ pieces, layOut (.run (word :: words) :: rest) = .opening :: pieces ∧
      ∀ first, layOut (.run (first :: word :: words) :: rest) =
        .opening :: .word first :: .blank :: pieces := by
    intro words rest
    refine ⟨_, List.intercalate_cons_cons_left, fun first => ?_⟩
    rw [layOut, spaced, List.map_cons, Stretch.pieces, List.intercalate_cons_cons_left, List.map_cons,
      List.map_cons, spaced_cons (List.cons_ne_nil _ _), List.cons_append, List.nil_append,
      List.cons_append, List.cons_append, List.intercalate_cons_cons_left,
      List.intercalate_cons_cons_left]
  match stretches with
  | .run words :: rest => exact hrun words rest
  | .other w :: rest => exact hrun [] (.other w :: rest)
  | [] => exact hrun [] []

/-- Marking a hit word by word sets its runs in pairs of tags, but for a run that it starts in the midst
of, and for a run that goes on behind it. -/
theorem layOut_stretchesOf (word : List Char) (words : List (List Char)) (n : Nat) :
    layOut (stretchesOf starts ((word :: words).zipIdx n)) =
      (if n ∈ starts ∧ 0 < n ∧ n - 1 ∈ starts then [.opening] else []) ++
        (spaced (((word :: words).zipIdx n).map (marked starts)) ++
          if n + words.length ∈ starts ∧ n + words.length + 1 ∈ starts then [.closing] else []) := by
  induction words generalizing word n with
  | nil =>
    by_cases hn : n ∈ starts <;> by_cases hprev : 0 < n ∧ n - 1 ∈ starts <;>
      by_cases hnext : n + 1 ∈ starts <;>
      simp [stretchesOf, lengthen, layOut, spaced, Stretch.pieces, marked, hn, hprev, hnext]
  | cons next words ih =>
    have hlast : n + (next :: words).length = n + 1 + words.length := by
      rw [List.length_cons]
      omega
    specialize ih next (n + 1)
    rw [hlast, List.zipIdx_cons, stretchesOf, List.map_cons, spaced_cons (by simp)]
    by_cases hn : n ∈ starts
    · rw [if_pos hn]
      by_cases hnext : n + 1 ∈ starts
      · have hrun : stretchesOf starts ((next :: words).zipIdx (n + 1)) =
            lengthen (next, n + 1) (stretchesOf starts (words.zipIdx (n + 1 + 1))) := if_pos hnext
        obtain ⟨pieces, hpieces, hlengthen⟩ :=
          exists_layOut_lengthen (next, n + 1) (stretchesOf starts (words.zipIdx (n + 1 + 1)))
        rw [hrun, hpieces, if_pos ⟨hnext, Nat.succ_pos n, hn⟩] at ih
        rw [hrun, hlengthen, (List.cons.inj ih).2]
        by_cases hprev : 0 < n ∧ n - 1 ∈ starts <;> simp [marked, hn, hnext, hprev]
      · have hother : stretchesOf starts ((next :: words).zipIdx (n + 1)) =
            .other (next, n + 1) :: stretchesOf starts (words.zipIdx (n + 1 + 1)) := if_neg hnext
        rw [if_neg (fun h => hnext h.1)] at ih
        have hlengthen : layOut (lengthen (word, n) (stretchesOf starts
              ((next :: words).zipIdx (n + 1)))) =
            Stretch.pieces (.run [(word, n)]) ++
              .blank :: layOut (stretchesOf starts ((next :: words).zipIdx (n + 1))) := by
          rw [hother]
          exact spaced_cons (List.cons_ne_nil _ _)
        rw [hlengthen, ih]
        by_cases hprev : 0 < n ∧ n - 1 ∈ starts <;>
          simp [Stretch.pieces, spaced, marked, hn, hnext, hprev]
    · rw [if_neg (fun h => hn h.2.2)] at ih
      have hother : layOut (.other (word, n) :: stretchesOf starts ((next :: words).zipIdx (n + 1))) =
          .word (word, n) :: .blank :: layOut (stretchesOf starts ((next :: words).zipIdx (n + 1))) :=
        spaced_cons (by simpa using stretchesOf_ne_nil _ _)
      rw [if_neg hn, hother, ih]
      simp [marked, hn]

theorem flatMap_spaced (tag : List Char) (pieces : List (List Piece)) :
    (spaced pieces).flatMap (Piece.render tag) =
      [' '].intercalate (pieces.map fun ps => ps.flatMap (Piece.render tag)) := by
  induction pieces with
  | nil => rfl
  | cons first more ih =>
    cases more with
    | nil => simp [spaced]
    | cons next more =>
      rw [spaced_cons (List.cons_ne_nil _ _), List.flatMap_append, List.flatMap_cons, ih, List.map_cons,
        List.map_cons, List.map_cons, List.intercalate_cons_cons]
      simp [Piece.render]

theorem flatMap_marked (tag : List Char) (word : Word) :
    (marked starts word).flatMap (Piece.render tag) = markWord starts tag word.2 word.1 := by
  obtain ⟨text, i⟩ := word
  by_cases hi : i ∈ starts <;> by_cases hprev : 0 < i ∧ i - 1 ∈ starts <;>
    by_cases hnext : i + 1 ∈ starts <;>
    simp [marked, markWord, openTag, closeTag, Piece.render, hi, hprev, hnext]

theorem markWords_eq (tag s : List Char) :
    markWords starts tag s =
      (spaced ((s.splitOn ' ').zipIdx.map (marked starts))).flatMap (Piece.render tag) := by
  rw [flatMap_spaced, markWords, List.mapIdx_eq_zipIdx_map, List.map_map]
  congr 2
  funext word
  exact (flatMap_marked tag word).symm

abbrev Overrun (starts : List Nat) (words : List (List Char)) : Prop :=
  words.length - 1 ∈ starts ∧ words.length ∈ starts

theorem layOut_words {words : List (List Char)} (h : words ≠ []) :
    layOut (stretchesOf starts words.zipIdx) =
      spaced (words.zipIdx.map (marked starts)) ++
        if Overrun starts words then [.closing] else [] := by
  obtain ⟨word, words, rfl⟩ := List.exists_cons_of_ne_nil h
  simpa [Overrun] using layOut_stretchesOf word words 0

/-- The hit of a sentence is cut into runs of matched words and single words that are not matched. With a
pair of tags for each run, tags open and close by turns and the words between them are the matched ones;
and that is what the sentence is given, whatever the tag is, but for the last tag in an overrun. -/
theorem paired_sentence_iff (text : String) (starts : List Nat) :
    ∃ front hit back stretches pieces, Layout text.toList front hit back ∧
      Stretches starts (hit.splitOn ' ').zipIdx stretches ∧
      Paired starts false (layOut stretches) ∧
      (∀ tag, (sentence text starts tag).toList =
        front ++ (pieces.flatMap (Piece.render tag.toList) ++ back)) ∧
      layOut stretches = pieces ++ (if Overrun starts (hit.splitOn ' ') then [.closing] else []) ∧
      (Paired starts false pieces ↔ ¬ Overrun starts (hit.splitOn ' ')) := by
  obtain ⟨front, hit, back, hlayout, hsentence⟩ := exists_layout text
  have hstretches := stretches_stretchesOf starts (hit.splitOn ' ').zipIdx
  have hpaired := paired_layOut hstretches
  have hpieces := @layOut_words starts _ (List.splitOn_ne_nil ' ' hit)
  refine ⟨front, hit, back, _, _, hlayout, hstretches, hpaired, fun tag => ?_, hpieces, ?_⟩
  · rw [hsentence, markWords_eq]
  · rw [hpieces] at hpaired
    by_cases h : Overrun starts (hit.splitOn ' ')
    · rw [if_pos h] at hpaired
      exact iff_of_false (not_paired_of_closing hpaired) (not_not_intro h)
    · rw [if_neg h, List.append_nil] at hpaired
      exact iff_of_true hpaired h

def Piece.isTag : Piece → Bool
  | .opening | .closing => true
  | _ => false

theorem Paired.even (h : Paired starts inside pieces) :
    pieces.countP Piece.isTag % 2 = inside.toNat := by
  induction pieces generalizing inside with
  | nil =>
    rw [Paired] at h
    subst h
    rfl
  | cons piece pieces ih =>
    cases piece with
    | opening =>
      obtain ⟨rfl, h⟩ := h
      have := ih h
      rw [List.countP_cons_of_pos rfl]
      simp at this ⊢
      omega
    | closing =>
      obtain ⟨rfl, h⟩ := h
      have := ih h
      rw [List.countP_cons_of_pos rfl]
      simp at this ⊢
      omega
    | word => simpa [Piece.isTag] using ih h.2
    | blank => simpa [Piece.isTag] using ih h

theorem length_render (tag : List Char) (pieces : List Piece) :
    (pieces.flatMap (Piece.render tag)).length =
      (pieces.flatMap (Piece.render [])).length + tag.length * pieces.countP Piece.isTag := by
  induction pieces with
  | nil => rfl
  | cons piece pieces ih =>
    rw [List.flatMap_cons, List.flatMap_cons, List.length_append, List.length_append, ih]
    cases piece with
    | opening =>
      rw [List.countP_cons_of_pos rfl, Nat.mul_succ]
      simp only [Piece.render, List.length_cons, List.length_append, List.length_nil]
      omega
    | closing =>
      rw [List.countP_cons_of_pos rfl, Nat.mul_succ]
      simp only [Piece.render, List.length_cons, List.length_append, List.length_nil]
      omega
    | word =>
      rw [List.countP_cons_of_neg (by simp [Piece.isTag]), Nat.add_assoc]
      rfl
    | blank =>
      rw [List.countP_cons_of_neg (by simp [Piece.isTag]), Nat.add_assoc]
      rfl

/-- The second word is the last one, and a match at the place of a third keeps its tag open. -/
theorem sentence_left_open :
    sentence "a b" [1, 2] "strong" = "a <strong>b" ∧
      ¬ ∃ pieces, Paired [1, 2] false pieces ∧
        ∀ tag, (sentence "a b" [1, 2] tag).toList = pieces.flatMap (Piece.render tag.toList) := by
  refine ⟨by decide +kernel, ?_⟩
  rintro ⟨pieces, hpaired, hsentence⟩
  -- each tag is longer by one with a longer name, and the sentence has just one of them
  have hlength := length_render ['x'] pieces
  have hlong : (sentence "a b" [1, 2] "x").toList.length = 6 := by decide +kernel
  have hshort : (sentence "a b" [1, 2] "").toList.length = 5 := by decide +kernel
  rw [hsentence] at hlong hshort
  have heven := hpaired.even
  simp at hlong hshort hlength heven
  omega

end TreebankSearch.Highlight

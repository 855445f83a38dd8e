import TreebankSearch.Pattern.Normal
import TreebankSearch.Proofs.Pattern.Nesting
import TreebankSearch.Proofs.Text.Basic
import TreebankSearch.Proofs.Text.LetterCase

/-!
# Carrying out marks and the nesting of a text

Marks are looked for without regard to literals: a mark, a test, or a whole segment may start in one
literal and end in another. Nothing that is done to them depends on that. What is taken out or put in has
its quotes and brackets in pairs, with plain characters between them, and to every context this is as good
as nothing. So a segment does the same before and after, and text that is balanced stays so.
-/

namespace TreebankSearch

open Pattern (Alike Context alike_nil_of_plain alike_nil_of_bracketed alike_nil_of_quoted
  plain_of_all)
open Pattern.Context (outside)

namespace Text

theorem alike_nil_of_blanks {s : List Char} (h : ∀ c ∈ s, isBlank c = true) : Alike s [] :=
  alike_nil_of_plain fun c hc => plain_of_isBlank (h c hc)

theorem alike_lowerChar (c : Char) : Alike (LetterCase.lowerChar c) [c] := by
  by_cases hc : Delimiter.ofChar c = .plain
  · have hplain : ∀ d ∈ LetterCase.lowerChar c, Delimiter.ofChar d = .plain := by
      intro d hd
      rcases LetterCase.eq_or_le_of_mem_lowerChar hd with rfl | hle
      · exact hc
      · exact plain_of_le hle
    exact (alike_nil_of_plain hplain).trans (alike_nil_of_plain (by simpa using hc)).symm
  · rw [LetterCase.lowerChar_of_sign]
    · exact .refl _
    · rcases sign_of_delimiter hc with h | h
      · exact .inl h
      · exact .inr (by omega)

theorem alike_lower (s : List Char) : Alike (lower s) s := by
  have h : ∀ before, Alike (LetterCase.lowerAfter before s) s := by
    induction s with
    | nil => exact fun _ => .refl _
    | cons c s ih =>
      intro before
      rw [LetterCase.lowerAfter]
      refine Alike.append (t := [c]) ?_ (ih _)
      split
      · next hc =>
        subst hc
        refine Alike.trans (t := []) ?_ (alike_nil_of_plain (plain_of_all rfl)).symm
        split
        · exact alike_nil_of_plain (plain_of_all rfl)
        · exact alike_nil_of_plain (plain_of_all rfl)
      · exact alike_lowerChar c
  exact h []

end Text

namespace CaseMark

theorem alike_caseMark : Alike caseMark [] := by
  have h : caseMark = "@caseinsensitive=".toList ++
      (Quote.double.mark :: ("yes".toList ++ [Quote.double.mark])) := by decide
  rw [h]
  exact (alike_nil_of_plain (plain_of_all (by decide))).append
    (alike_nil_of_quoted (plain_of_all (by decide)))

theorem alike_and : Alike ['a', 'n', 'd'] [] := alike_nil_of_plain (plain_of_all rfl)

theorem exists_of_afterBlanks? {s rest : List Char} (h : afterBlanks? s = some rest) :
    ∃ gap, s = gap ++ rest ∧ ∀ c ∈ gap, Text.isBlank c = true := by
  unfold afterBlanks? at h
  split at h
  · next c more =>
    split at h
    · next hc =>
      cases h
      obtain ⟨gap, he, hg⟩ := Text.eq_trimStart more
      exact ⟨c :: gap, congrArg (c :: ·) he, List.forall_mem_cons.2 ⟨hc, hg⟩⟩
    · cases h
  · cases h

theorem exists_of_wordStart? {inWord : Bool} {s rest : List Char}
    (h : wordStart? inWord s = some rest) :
    ∃ gap, s = gap ++ rest ∧ ∀ c ∈ gap, Text.isBlank c = true := by
  unfold wordStart? at h
  split at h
  · exact exists_of_afterBlanks? h
  · cases h
    exact Text.eq_trimStart s

theorem exists_of_afterJoinedMark? {inWord : Bool} {s rest : List Char}
    (h : afterJoinedMark? inWord s = some rest) :
    ∃ gap gap', s = gap ++ (['a', 'n', 'd'] ++ (gap' ++ (caseMark ++ rest))) ∧
      (∀ c ∈ gap, Text.isBlank c = true) ∧ ∀ c ∈ gap', Text.isBlank c = true := by
  obtain ⟨s₁, h₁, ha⟩ := Option.bind_eq_some_iff.1 h
  obtain ⟨s₂, h₂, hb⟩ := Option.bind_eq_some_iff.1 ha
  obtain ⟨s₃, h₃, hc⟩ := Option.bind_eq_some_iff.1 hb
  obtain ⟨gap, he, hg⟩ := exists_of_wordStart? h₁
  obtain ⟨gap', he', hg'⟩ := exists_of_afterBlanks? h₃
  rw [he, Text.after?_eq_some_iff.1 h₂, he', Text.after?_eq_some_iff.1 hc]
  exact ⟨gap, gap', rfl, hg, hg'⟩

theorem exists_of_afterMarkJoined? {s rest : List Char} (h : afterMarkJoined? s = some rest) :
    ∃ gap gap', s = caseMark ++ (gap ++ (['a', 'n', 'd'] ++ (gap' ++ rest))) ∧
      (∀ c ∈ gap, Text.isBlank c = true) ∧ ∀ c ∈ gap', Text.isBlank c = true := by
  obtain ⟨s₁, h₁, ha⟩ := Option.bind_eq_some_iff.1 h
  obtain ⟨s₂, h₂, hb⟩ := Option.bind_eq_some_iff.1 ha
  obtain ⟨s₃, h₃, hc⟩ := Option.bind_eq_some_iff.1 hb
  split at hc
  · cases hc
  · cases hc
    obtain ⟨gap, he, hg⟩ := exists_of_afterBlanks? h₂
    obtain ⟨gap', he', hg'⟩ := Text.eq_trimStart s₃
    rw [Text.after?_eq_some_iff.1 h₁, he, Text.after?_eq_some_iff.1 h₃]
    exact ⟨gap, gap', by rw [← he'], hg, hg'⟩

theorem exists_of_afterMark? {inWord : Bool} {s rest : List Char}
    (h : afterMark? inWord s = some rest) : ∃ front, s = front ++ rest ∧ Alike front [] := by
  unfold afterMark? at h
  split at h
  · next h₀ =>
    cases h
    obtain ⟨gap, gap', rfl, hg, hg'⟩ := exists_of_afterJoinedMark? h₀
    refine ⟨gap ++ (['a', 'n', 'd'] ++ (gap' ++ caseMark)), by simp, ?_⟩
    exact (Text.alike_nil_of_blanks hg).append (alike_and.append
      ((Text.alike_nil_of_blanks hg').append alike_caseMark))
  split at h
  · next h₀ =>
    cases h
    obtain ⟨gap, gap', rfl, hg, hg'⟩ := exists_of_afterMarkJoined? h₀
    refine ⟨caseMark ++ (gap ++ (['a', 'n', 'd'] ++ gap')), by simp, ?_⟩
    exact alike_caseMark.append ((Text.alike_nil_of_blanks hg).append
      (alike_and.append (Text.alike_nil_of_blanks hg')))
  · exact ⟨caseMark, Text.after?_eq_some_iff.1 h, alike_caseMark⟩

theorem alike_dropMarks (inWord : Bool) (s : List Char) : Alike (dropMarks inWord s) s := by
  fun_induction dropMarks inWord s with
  | case1 inWord s rest h _ ih =>
    obtain ⟨front, rfl, hf⟩ := exists_of_afterMark? h
    exact ih.trans (hf.symm.append (.refl rest))
  | case2 => exact .refl _
  | case3 inWord c rest h ih => exact ih.cons c

theorem eq_of_testOf? {name s value rest : List Char} (h : testOf? name s = some (value, rest)) :
    s = '@' :: name ++ (['=', '"'] ++ (value ++ ['"'])) ++ rest := by
  obtain ⟨more, h₁, h₂⟩ := Option.bind_eq_some_iff.1 h
  rw [Text.after?_eq_some_iff.1 h₁]
  split at h₂
  · next c v d r hv hr =>
    cases h₂
    have hd := List.head?_dropWhile_not (· ≠ '"') more
    rw [hr] at hd
    have he := List.takeWhile_append_dropWhile (p := (· ≠ '"')) (l := more)
    rw [hv, hr] at he
    obtain rfl : d = '"' := by simpa using hd
    rw [← he]
    simp
  · cases h₂

theorem lowerTest_eq (name value : List Char) : lowerTest name value =
    "lower-case".toList ++ (Bracket.round.opening :: ('@' :: name ++ [Bracket.round.closing])) ++
      (['=', '"'] ++ (Text.lower value ++ ['"'])) := by
  have hfront : "lower-case(@".toList = "lower-case".toList ++ ['(', '@'] := by decide
  unfold lowerTest
  rw [hfront]
  simp only [Bracket.opening, Bracket.closing, List.append_assoc, List.cons_append, List.nil_append]

theorem alike_lowerTest {name : List Char} (hn : ∀ c ∈ name, Delimiter.ofChar c = .plain)
    (value : List Char) :
    Alike (lowerTest name value) ('@' :: name ++ (['=', '"'] ++ (value ++ ['"']))) := by
  have hname : ∀ c ∈ '@' :: name, Delimiter.ofChar c = .plain :=
    List.forall_mem_cons.2 ⟨rfl, hn⟩
  have hword : Alike "lower-case".toList [] := alike_nil_of_plain (plain_of_all (by decide))
  have hcall := (hword.append (alike_nil_of_bracketed (b := .round) hname)).trans
    (alike_nil_of_plain hname).symm
  rw [lowerTest_eq]
  exact hcall.append ((Alike.refl _).append ((Text.alike_lower value).append (.refl _)))

theorem alike_lowerTests (s : List Char) : Alike (lowerTests s) s := by
  fun_induction lowerTests s with
  | case1 s test rest h _ ih =>
    obtain ⟨name, hn, hf⟩ := List.exists_of_findSome?_eq_some h
    obtain ⟨⟨value, more⟩, ht, he⟩ := Option.map_eq_some_iff.1 hf
    cases he
    have hplain : ∀ c ∈ name, Delimiter.ofChar c = .plain := by
      rcases List.mem_cons.1 hn with rfl | hn
      · exact plain_of_all rfl
      · rw [List.mem_singleton.1 hn]
        exact plain_of_all rfl
    rw [eq_of_testOf? ht]
    exact (alike_lowerTest hplain value).append ih
  | case2 => exact .refl _
  | case3 c rest h ih => exact ih.cons c

theorem alike_rewriteSegment (segment : List Char) : Alike (rewriteSegment segment) segment :=
  (alike_lowerTests _).trans (alike_dropMarks false segment)

/-- A segment is closed as something that does the same; where it loses its brackets, that is nothing. -/
theorem closeSegment_cases (segment rest : List Char) :
    (∃ segment', closeSegment segment rest = (nodeOpen ++ segment', rest) ∧
      Alike segment' segment) ∨
    ∃ more, rest = ']' :: more ∧ closeSegment segment rest = (nodeOpen.dropLast, more) ∧
      Alike segment [] := by
  have hrewritten := alike_rewriteSegment segment
  unfold closeSegment
  split
  · exact .inl ⟨segment, rfl, .refl _⟩
  simp only
  split
  · next more _ =>
    split
    · next hblank =>
      refine .inr ⟨more, rfl, rfl, hrewritten.symm.trans ?_⟩
      exact Text.alike_nil_of_blanks (List.all_eq_true.1 hblank)
    · exact .inl ⟨_, rfl, hrewritten⟩
  · exact .inl ⟨_, rfl, hrewritten⟩

theorem splitSegment_append_closing (a rest : List Char) :
    ∃ segment more, a = segment ++ more ∧
      splitSegment (a ++ ']' :: rest) = (segment, more ++ ']' :: rest) := by
  induction a with
  | nil => exact ⟨[], [], rfl, rfl⟩
  | cons c a ih =>
    rw [List.cons_append, splitSegment]
    split
    · exact ⟨[], c :: a, rfl, rfl⟩
    · obtain ⟨segment, more, rfl, he⟩ := ih
      exact ⟨c :: segment, more, rfl, by rw [he]⟩

theorem carryOut_nil : carryOut [] = [] := by simp [carryOut, Text.after?, nodeOpen]

theorem carryOut_cons {c : Char} {s : List Char} (h : Text.after? nodeOpen (c :: s) = none) :
    carryOut (c :: s) = c :: carryOut s := by
  rw [carryOut]
  split
  · next heq => rw [h] at heq; cases heq
  · rfl

theorem carryOut_cons_of_ne {c : Char} (hc : c ≠ 'n') (s : List Char) :
    carryOut (c :: s) = c :: carryOut s :=
  carryOut_cons (by rw [nodeOpen, Text.after?, if_neg (Ne.symm hc)])

theorem carryOut_append_of_not_mem {a : List Char} (ha : 'n' ∉ a) (s : List Char) :
    carryOut (a ++ s) = a ++ carryOut s := by
  induction a with
  | nil => rfl
  | cons c a ih =>
    rw [List.mem_cons, not_or] at ha
    rw [List.cons_append, carryOut_cons_of_ne (Ne.symm ha.1), ih ha.2]
    rfl

theorem carryOut_nodeOpen (after : List Char) :
    carryOut (nodeOpen ++ after) = (closeNext after).1 ++ carryOut (closeNext after).2 := by
  rw [carryOut]
  split
  · next h =>
    rw [Text.after?_append] at h
    cases h
    rfl
  · next h =>
    rw [Text.after?_append] at h
    cases h

theorem alike_emptied {segment : List Char} (h : Alike segment []) :
    Alike nodeOpen.dropLast (nodeOpen ++ (segment ++ [']'])) := by
  have hnone : ∀ c ∈ ([] : List Char), Delimiter.ofChar c = .plain := fun _ hc =>
    absurd hc List.not_mem_nil
  have hbrackets : Alike ['[', ']'] [] := alike_nil_of_bracketed (b := .square) hnone
  have hinner : Alike (['['] ++ (segment ++ [']'])) [] :=
    ((Alike.refl ['[']).append (h.append (.refl [']']))).trans hbrackets
  exact (Alike.refl nodeOpen.dropLast).append hinner.symm

/-- What stands before a closing bracket and leaves nothing open is carried out by itself. -/
theorem carryOut_append_closing {k : Context} {a : List Char} (h : k.scan a = some outside)
    (rest : List Char) :
    ∃ a', carryOut (a ++ ']' :: rest) = a' ++ ']' :: carryOut rest ∧ Alike a' a := by
  induction hn : a.length using Nat.strongRecOn generalizing a k with
  | ind n ih =>
    subst hn
    have hafter := Text.after?_append_of_not_mem (w := nodeOpen) (c := ']') (by decide) a rest
    cases hopen : Text.after? nodeOpen a with
    | none =>
      rw [hopen] at hafter
      cases a with
      | nil => exact ⟨[], carryOut_cons hafter, .refl _⟩
      | cons c a =>
        obtain ⟨k', _, hk⟩ := Option.bind_eq_some_iff.1 (Context.scan_cons k c a ▸ h)
        obtain ⟨a', he, ha⟩ := ih a.length (Nat.lt_succ_self _) hk rfl
        exact ⟨c :: a', (carryOut_cons hafter).trans (congrArg (c :: ·) he), ha.cons c⟩
    | some inner =>
      obtain rfl := Text.after?_eq_some_iff.1 hopen
      obtain ⟨segment, more, rfl, hsplit⟩ := splitSegment_append_closing inner rest
      rw [List.append_assoc, carryOut_nodeOpen, closeNext, hsplit]
      rcases closeSegment_cases segment (more ++ ']' :: rest) with
        ⟨segment', hclose, hs⟩ | ⟨rest', hrest, hclose, hs⟩
      · rw [← List.append_assoc, Context.scan_append] at h
        obtain ⟨k', _, hk⟩ := Option.bind_eq_some_iff.1 h
        obtain ⟨more', he, hm⟩ := ih more.length (by simp [nodeOpen]; omega) hk rfl
        refine ⟨nodeOpen ++ (segment' ++ more'), ?_, (Alike.refl _).append (hs.append hm)⟩
        rw [hclose, he]
        simp only [List.append_assoc]
      · cases more with
        | nil =>
          -- the bracket that was opened here would stay open
          rw [List.append_nil, (Alike.refl nodeOpen).append hs k] at h
          exact absurd h (Pattern.scan_opening_ne_outside k ['n', 'o', 'd', 'e'] .square)
        | cons c more =>
          rw [List.cons_append] at hrest
          cases hrest
          rw [List.append_cons segment, ← List.append_assoc, Context.scan_append] at h
          obtain ⟨k', _, hk⟩ := Option.bind_eq_some_iff.1 h
          obtain ⟨more', he, hm⟩ := ih more.length (by simp [nodeOpen]; omega) hk rfl
          refine ⟨nodeOpen.dropLast ++ more', ?_, ?_⟩
          · rw [hclose, he]
            simp only [List.append_assoc]
          · rw [List.append_cons segment, ← List.append_assoc]
            exact (alike_emptied hs).append hm

end CaseMark
end TreebankSearch

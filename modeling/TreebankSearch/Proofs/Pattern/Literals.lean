import TreebankSearch.Proofs.Pattern.Grammar
import TreebankSearch.Proofs.Pattern.Rewriting

/-!
# Literals and the signs in them

The bodies of the literals of a text. Where no literal holds an `@`, each `@` stands outside of literals, and
stays there when the marks before it go. Then it is in no value of a lexical test before it, so that the
tests before it and the tests from it on are lowered apart.
-/

namespace TreebankSearch

namespace Pattern

open Context

variable {s w v : List Char} {k k' : Context}

def literalsFrom : Option Quote → List Char → List (List Char)
  | _, [] => []
  | some q, c :: s => literalsFrom (if c = q.mark then none else some q) s
  | none, c :: s =>
    match Delimiter.ofChar c with
    | .quote q => s.takeWhile (· ≠ q.mark) :: literalsFrom (some q) s
    | _ => literalsFrom none s

def literals (text : String) : List (List Char) := literalsFrom none text.toList

def AtOutside : Context → List Char → Prop
  | _, [] => True
  | k, c :: s => (c = '@' → k.literal = none) ∧ ∃ k', k.step c = some k' ∧ AtOutside k' s

theorem atOutside_append : AtOutside k (w ++ s) ↔
    AtOutside k w ∧ ∃ k', k.scan w = some k' ∧ AtOutside k' s := by
  induction w generalizing k with
  | nil =>
    constructor
    · exact fun h => ⟨trivial, k, rfl, h⟩
    · rintro ⟨-, _, ⟨⟩, h⟩
      exact h
  | cons c w ih =>
    rw [List.cons_append, AtOutside, AtOutside]
    constructor
    · rintro ⟨hc, k', hk, h⟩
      obtain ⟨hw, k'', hk', hs⟩ := ih.1 h
      exact ⟨⟨hc, k', hk, hw⟩, k'', by rw [scan_cons, hk]; exact hk', hs⟩
    · rintro ⟨⟨hc, k', hk, hw⟩, k'', hk', hs⟩
      rw [scan_cons, hk] at hk'
      exact ⟨hc, k', hk, ih.2 ⟨hw, k'', hk', hs⟩⟩

theorem at_ne_mark (q : Quote) : '@' ≠ q.mark := by cases q <;> decide

theorem literal_of_step {bs : List Bracket} {c : Char} (hc : ∀ q, Delimiter.ofChar c ≠ .quote q)
    (h : step ⟨none, bs⟩ c = some k') : k'.literal = none := by
  unfold step at h
  cases hd : Delimiter.ofChar c with
  | quote q => exact absurd hd (hc q)
  | opening b =>
    rw [hd] at h
    cases h
    rfl
  | closing b =>
    rw [hd] at h
    simp only at h
    split at h
    · cases h
      rfl
    · cases h
  | plain =>
    rw [hd] at h
    cases h
    rfl

/-- Outside of literals is everywhere but in their bodies, and in the one that the text starts in. -/
theorem atOutside_of_literals (hscan : k.scan s = some k')
    (hopen : ∀ q, k.literal = some q → '@' ∉ s.takeWhile (· ≠ q.mark))
    (h : ∀ body ∈ literalsFrom k.literal s, '@' ∉ body) : AtOutside k s := by
  induction s generalizing k with
  | nil => trivial
  | cons c s ih =>
    rw [scan_cons] at hscan
    obtain ⟨k₁, hstep, hrest⟩ := Option.bind_eq_some_iff.1 hscan
    obtain ⟨literal, bs⟩ := k
    cases literal with
    | some q =>
      have hbody := hopen q rfl
      rw [literalsFrom] at h
      by_cases hc : c = q.mark
      · subst hc
        rw [step_mark_inside] at hstep
        cases hstep
        rw [if_pos rfl] at h
        exact ⟨fun he => absurd he.symm (at_ne_mark q), _, step_mark_inside q bs, ih hrest nofun h⟩
      · rw [step_inside hc] at hstep
        cases hstep
        rw [if_neg hc] at h
        rw [List.takeWhile_cons_of_pos (by simpa using hc), List.mem_cons, not_or] at hbody
        refine ⟨fun he => absurd he.symm hbody.1, _, step_inside hc bs, ih hrest ?_ h⟩
        rintro _ ⟨⟩
        exact hbody.2
    | none =>
      refine ⟨fun _ => rfl, k₁, hstep, ?_⟩
      by_cases hc : ∃ q, Delimiter.ofChar c = .quote q
      · obtain ⟨q, hd⟩ := hc
        simp only [literalsFrom, hd] at h
        obtain ⟨hbody, h⟩ := List.forall_mem_cons.1 h
        rw [Delimiter.eq_mark_of_ofChar hd, step_mark] at hstep
        cases hstep
        refine ih hrest ?_ h
        rintro _ ⟨⟩
        exact hbody
      · have hnone := literal_of_step (not_exists.1 hc) hstep
        have hsame : literalsFrom none (c :: s) = literalsFrom none s := by
          rw [literalsFrom]
          split
          · next q hd => exact absurd ⟨q, hd⟩ hc
          · rfl
        rw [hsame] at h
        refine ih hrest ?_ (by rw [hnone]; exact h)
        rw [hnone]
        exact nofun

theorem atOutside_of_parse {text : String} (hp : parse text ≠ .error .malformed)
    (h : ∀ body ∈ literals text, '@' ∉ body) : AtOutside outside text.toList := by
  obtain ⟨_, hlexed⟩ := lexed_of_parse hp
  exact atOutside_of_literals (balanced_iff_scan.1 hlexed.balanced) nofun h

theorem AtOutside.not_mem_body {q : Quote} {bs : List Bracket} (h : AtOutside ⟨some q, bs⟩ (v ++ s))
    (hv : q.mark ∉ v) : '@' ∉ v := by
  induction v with
  | nil => exact List.not_mem_nil
  | cons c v ih =>
    rw [List.mem_cons, not_or] at hv ⊢
    obtain ⟨hc, k', hstep, hrest⟩ := h
    rw [step_inside (Ne.symm hv.1)] at hstep
    cases hstep
    exact ⟨fun he => absurd (hc he.symm) (by simp), ih hrest hv.2⟩

theorem AtOutside.not_mem_literal {q : Quote} {bs : List Bracket}
    (h : AtOutside ⟨none, bs⟩ (w ++ q.mark :: (v ++ s)))
    (hw : ∀ c ∈ w, Delimiter.ofChar c = .plain) (hv : q.mark ∉ v) : '@' ∉ v := by
  obtain ⟨-, k', hscan, -, k'', hstep, hrest⟩ := atOutside_append.1 h
  rw [alike_nil_of_plain hw ⟨none, bs⟩] at hscan
  cases hscan
  rw [step_mark] at hstep
  cases hstep
  exact hrest.not_mem_body hv

end Pattern

namespace CaseMark

open Pattern (AtOutside Context atOutside_append plain_of_all)

variable {s y rest : List Char} {k : Context} {inWord : Bool}

theorem atOutside_dropMarks (h : AtOutside k (s ++ y)) : AtOutside k (dropMarks inWord s ++ y) := by
  fun_induction dropMarks inWord s generalizing k with
  | case1 inWord s rest hmark _ ih =>
    obtain ⟨part, rfl, hpart⟩ := exists_of_afterMark? hmark
    rw [List.append_assoc] at h
    obtain ⟨-, k', hscan, hrest⟩ := atOutside_append.1 h
    rw [hpart k] at hscan
    cases hscan
    exact ih hrest
  | case2 => exact h
  | case3 inWord c s _ ih =>
    obtain ⟨hc, k', hstep, hrest⟩ := h
    exact ⟨hc, k', hstep, ih hrest⟩

theorem TestRule.behind {last : Option Char} {part new : List Char} (h : TestRule last part rest new)
    (rest' : List Char) : TestRule last part rest' new := by
  cases h with
  | test hname hvalue hquote => exact .test hname hvalue hquote

theorem TestRule.at_not_mem_tail {last : Option Char} {part new : List Char} (h : TestRule last part rest new)
    (hat : AtOutside k (part ++ rest)) : '@' ∉ part.tail := by
  cases h with
  | @test _ name value _ hname _ hquote =>
    have hplain : ∀ name ∈ lexicalNames, ∀ c ∈ '@' :: (name ++ ['=']), Delimiter.ofChar c = .plain := by
      intro name hname
      rcases List.mem_pair.1 hname with rfl | rfl <;> exact plain_of_all rfl
    have hsign : ∀ name ∈ lexicalNames, '@' ∉ name := by decide
    obtain ⟨literal, bs⟩ := k
    obtain rfl : literal = none := hat.1 rfl
    have hvalue : '@' ∉ value := by
      have hquoted : AtOutside ⟨none, bs⟩ (('@' :: (name ++ ['='])) ++
          Quote.double.mark :: (value ++ '"' :: rest)) := by
        simpa [Quote.mark] using hat
      exact hquoted.not_mem_literal (hplain name hname) hquote
    simp [hsign name hname, hvalue]

/-- The tests before an `@` and those from it on are lowered apart. -/
theorem lowerTests_append_at (h : AtOutside k (s ++ '@' :: y)) :
    lowerTests (s ++ '@' :: y) = lowerTests s ++ lowerTests ('@' :: y) := by
  fun_induction lowerTests s generalizing k with
  | case1 s test rest htest _ ih =>
    obtain ⟨part, rfl, hrule⟩ := (TestRule.foundBy.found none).1 htest
    rw [List.append_assoc] at h ⊢
    obtain ⟨-, k', -, hrest⟩ := atOutside_append.1 h
    have hfound := (TestRule.foundBy.found none).2 ⟨part, rfl, hrule.behind (rest ++ '@' :: y)⟩
    rw [lowerTests_test hfound, ih hrest, List.append_assoc]
  | case2 => rfl
  | case3 c s hnone ih =>
    have hnone' : lexicalTest? (c :: (s ++ '@' :: y)) = none := by
      rw [Option.eq_none_iff_forall_ne_some]
      rintro ⟨test, rest⟩ hfound
      obtain ⟨part, he, hrule⟩ := (TestRule.foundBy.found none).1 hfound
      have htail := hrule.at_not_mem_tail (k := k) (by rw [← he]; exact h)
      obtain ⟨d, part, rfl⟩ := List.exists_cons_of_ne_nil (TestRule.foundBy.ne_nil hrule)
      rw [List.tail_cons] at htail
      obtain ⟨rfl, hs⟩ := List.cons.inj he
      obtain ⟨more, rfl⟩ := prefix_of_append_cons_eq htail hs
      have hinner := (TestRule.foundBy.found none).2 ⟨c :: part, rfl, hrule.behind more⟩
      rw [List.cons_append, hnone] at hinner
      cases hinner
    obtain ⟨-, k', -, hrest⟩ := h
    rw [List.cons_append, lowerTests_cons hnone', ih hrest]
    rfl

end CaseMark
end TreebankSearch

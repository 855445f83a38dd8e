import TreebankSearch.Pattern.Normal
import TreebankSearch.Proofs.Pattern.Accepted
import TreebankSearch.Proofs.Pattern.CaseMark
import TreebankSearch.Proofs.Text.Basic

/-!
# The normal form of a well-formed pattern

A text that has the form of a pattern keeps it. Trimming and the change of axis take away what stands
before the word `node` and space at the end. Carrying out the marks goes on group by group: each group is
closed by its own bracket, whatever segments start in it, and only the first can lose its brackets.
-/

namespace TreebankSearch

namespace Pattern

open CaseMark (carryOut carryOut_cons carryOut_cons_of_ne carryOut_append_of_not_mem carryOut_nodeOpen
  carryOut_append_closing closeNext closeSegment_cases splitSegment_append_closing nodeOpen)

variable {s : List Char}

theorem isBlank_of_isSpace {c : Char} (h : isSpace c = true) : Text.isBlank c = true := by
  simp only [isSpace, Bool.or_eq_true, decide_eq_true_eq] at h
  rcases h with ((rfl | rfl) | rfl) | rfl <;> decide

theorem Spaces.blank {gap : List Char} (h : Spaces gap) : ∀ c ∈ gap, Text.isBlank c = true :=
  fun c hc => isBlank_of_isSpace (h c hc)

theorem Spaces.ne {gap : List Char} (h : Spaces gap) {c : Char} (hc : isSpace c = false) :
    c ∉ gap := fun hm => by
  rw [h c hm] at hc
  cases hc

theorem Groups.exists_trimmed (h : Groups s) :
    ∃ groups gap, s = groups ++ gap ∧ Groups groups ∧ Spaces gap ∧
      (groups = [] ∨ ∃ init, groups = init ++ [']']) := by
  induction h with
  | nil => exact ⟨[], [], rfl, .nil, fun _ h => absurd h List.not_mem_nil, .inl rfl⟩
  | @space c s hc _ ih =>
    obtain ⟨groups, gap, rfl, hgr, hg, rfl | ⟨init, rfl⟩⟩ := ih
    · exact ⟨[], c :: gap, rfl, .nil, List.forall_mem_cons.2 ⟨hc, hg⟩, .inl rfl⟩
    · exact ⟨c :: (init ++ [']']), gap, rfl, .space hc hgr, hg, .inr ⟨c :: init, rfl⟩⟩
  | @group inner s hi _ ih =>
    obtain ⟨groups, gap, rfl, hgr, hg, rfl | ⟨init, rfl⟩⟩ := ih
    · exact ⟨_, gap, by simp, .group hi .nil, hg, .inr ⟨'[' :: inner, rfl⟩⟩
    · exact ⟨_, gap, by simp, .group hi hgr, hg, .inr ⟨'[' :: (inner ++ ']' :: init), by simp⟩⟩

theorem trimEnd_node (front : List Char) (h : Groups s) :
    ∃ groups, Text.trimEnd (front ++ (['n', 'o', 'd', 'e'] ++ s)) =
      front ++ (['n', 'o', 'd', 'e'] ++ groups) ∧ Groups groups := by
  obtain ⟨groups, gap, rfl, hgr, hg, hend⟩ := h.exists_trimmed
  refine ⟨groups, ?_, hgr⟩
  rw [← List.append_assoc, ← List.append_assoc, Text.trimEnd_append _ hg.blank]
  rcases hend with rfl | ⟨init, rfl⟩
  · have h := Text.trimEnd_concat (front ++ ['n', 'o', 'd']) (c := 'e') (by decide)
    simpa using h
  · have h := Text.trimEnd_concat (front ++ ['n', 'o', 'd', 'e'] ++ init) (c := ']') (by decide)
    simpa using h

theorem Accepted.strip (h : Accepted s) :
    ∃ gap groups, Axis.strip s = gap ++ (['n', 'o', 'd', 'e'] ++ groups) ∧ Spaces gap ∧
      Groups groups := by
  obtain ⟨front, slashes, gap, groups, rfl, hf, hs, hg, hgr⟩ := h
  have hstart : ∃ gap', Spaces gap' ∧
      Text.trimStart (slashes ++ (gap ++ (['n', 'o', 'd', 'e'] ++ groups))) =
        slashes ++ gap' ++ (['n', 'o', 'd', 'e'] ++ groups) := by
    cases slashes with
    | nil =>
      refine ⟨[], fun _ h => absurd h List.not_mem_nil, ?_⟩
      rw [List.nil_append, Text.trimStart_append hg.blank]
      exact Text.trimStart_cons (by decide) _
    | cons c slashes =>
      obtain rfl := hs c List.mem_cons_self
      refine ⟨gap, hg, ?_⟩
      rw [List.append_assoc]
      exact Text.trimStart_cons (by decide) _
  obtain ⟨gap', hg', hstart⟩ := hstart
  obtain ⟨groups', hend, hgr'⟩ := trimEnd_node (slashes ++ gap') hgr
  refine ⟨gap', groups', ?_, hg', hgr'⟩
  rw [Axis.strip, Text.trim, Text.trimStart_append hf.blank, hstart, hend, List.append_assoc,
    List.dropWhile_append_of_pos fun c hc => decide_eq_true (hs c hc)]
  cases gap' with
  | nil => rfl
  | cons c gap' =>
    refine List.dropWhile_cons_of_neg fun hc => ?_
    exact hg'.ne (c := '/') rfl (by rw [← of_decide_eq_true hc]; exact List.mem_cons_self)

theorem Groups.carryOut (h : Groups s) : Groups (carryOut s) := by
  induction h with
  | nil =>
    rw [CaseMark.carryOut_nil]
    exact .nil
  | @space c s hc _ ih =>
    rw [carryOut_cons_of_ne]
    · exact .space hc ih
    · rintro rfl
      cases hc
  | @group inner s hi _ ih =>
    obtain ⟨inner', he, ha⟩ := carryOut_append_closing (balanced_iff_scan.1 hi) s
    rw [carryOut_cons_of_ne (by decide), he]
    exact .group (ha.balanced_iff.2 hi) ih

theorem carryOut_node_of_ne (h : s.head? ≠ some '[') :
    carryOut (['n', 'o', 'd', 'e'] ++ s) = ['n', 'o', 'd', 'e'] ++ carryOut s := by
  have hopen : Text.after? nodeOpen ('n' :: (['o', 'd', 'e'] ++ s)) = none := by
    cases s with
    | nil => rfl
    | cons c s =>
      have hc : '[' ≠ c := fun he => h (by rw [he]; rfl)
      simp [nodeOpen, Text.after?, hc]
  rw [List.cons_append, carryOut_cons hopen, carryOut_append_of_not_mem (by decide)]
  rfl

/-- The groups after the word `node` become groups. The first may go away. -/
theorem Groups.carryOut_node (h : Groups s) :
    ∃ groups, CaseMark.carryOut (['n', 'o', 'd', 'e'] ++ s) = ['n', 'o', 'd', 'e'] ++ groups ∧
      Groups groups := by
  have hall := h.carryOut
  cases h with
  | nil => exact ⟨_, carryOut_node_of_ne (fun h => by cases h), hall⟩
  | @space c s hc _ =>
    refine ⟨_, carryOut_node_of_ne (fun h => ?_), hall⟩
    rw [Option.some.inj h] at hc
    cases hc
  | @group inner s hi hs =>
    obtain ⟨segment, more, rfl, hsplit⟩ := splitSegment_append_closing inner s
    have hnode := carryOut_nodeOpen (segment ++ more ++ ']' :: s)
    rw [closeNext, hsplit] at hnode
    rcases closeSegment_cases segment (more ++ ']' :: s) with
      ⟨segment', hclose, ha⟩ | ⟨rest, hrest, hclose, ha⟩
    · have hscan := balanced_iff_scan.1 hi
      rw [Context.scan_append] at hscan
      obtain ⟨k, _, hk⟩ := Option.bind_eq_some_iff.1 hscan
      obtain ⟨more', he, hm⟩ := carryOut_append_closing hk s
      refine ⟨'[' :: ((segment' ++ more') ++ ']' :: CaseMark.carryOut s), ?_,
        .group ((ha.append hm).balanced_iff.2 hi) hs.carryOut⟩
      rw [hclose, he] at hnode
      simpa [nodeOpen] using hnode
    · cases more with
      | nil =>
        cases hrest
        refine ⟨CaseMark.carryOut s, ?_, hs.carryOut⟩
        rw [hclose] at hnode
        simpa [nodeOpen] using hnode
      | cons c more =>
        -- the bracket that closes an empty segment is that of the group itself
        cases hrest
        have hclosing := (ha.append (.refl _)).balanced_iff.1 hi
        have hscan := balanced_iff_scan.1 hclosing
        cases hscan

theorem Faults.map_ne_malformed {α β : Type} {result : Except PatternError α} (h : Faults s result)
    (f : α → β) : result.map f ≠ .error .malformed := by
  cases result with
  | ok a => exact (nomatch ·)
  | error error =>
    obtain ⟨digits, rfl, _⟩ := h error rfl
    exact (nomatch ·)

theorem Accepted.parse_ne {text : String} (h : Accepted text.toList) :
    Pattern.parse text ≠ .error .malformed := by
  obtain ⟨n, root, hparse, hroot⟩ := h.parse
  rw [hparse]
  exact hroot.map_ne_malformed _

/-- A text that is read, or that is refused only for a number in it, is normalized to such a text, which
has the slashes of the axis. -/
theorem parse_normalize (axis : Axis) {text : String} (h : parse text ≠ .error .malformed) :
    parse (normalize axis text) ≠ .error .malformed ∧
      ∀ pattern, parse (normalize axis text) = .ok pattern →
        pattern.slashes = match axis with
          | .anywhere => 2
          | .root => 1 := by
  obtain ⟨gap, groups, hstrip, hg, hgr⟩ := (accepted_of_parse h).strip
  obtain ⟨groups', hcarry, hgr'⟩ := hgr.carryOut_node
  have hslashes : ∀ c ∈ axis.slashes, c = '/' := by cases axis <;> simp [Axis.slashes]
  have htext : (normalize axis text).toList =
      [] ++ (axis.slashes ++ (gap ++ (['n', 'o', 'd', 'e'] ++ groups'))) := by
    have hn : 'n' ∉ axis.slashes := by cases axis <;> decide
    rw [normalize, CaseMark.resolve, String.toList_ofList, Axis.toList_place, Axis.attach, hstrip,
      carryOut_append_of_not_mem hn, carryOut_append_of_not_mem (hg.ne rfl), hcarry]
    rfl
  obtain ⟨root, hparse, hroot⟩ :=
    parse_of_form htext (fun _ h => absurd h List.not_mem_nil) hslashes hg hgr'
  rw [hparse]
  refine ⟨hroot.map_ne_malformed _, fun pattern he => ?_⟩
  cases root with
  | ok root =>
    cases he
    cases axis <;> rfl
  | error error => cases he

def straddling : String :=
  "//node[@word='node[@caseinsensitive=\"yes\" and @lemma=\"A' and @root=\"B]\"]"

theorem parse_normalize_straddling :
    parse straddling ≠ .error .malformed ∧ parse (normalize .root straddling) ≠ .error .malformed ∧
      ∀ pattern, parse (normalize .root straddling) = .ok pattern → pattern.slashes = 1 := by
  have hform : Accepted straddling.toList := by
    refine ⟨[], ['/', '/'], [], '[' :: ((straddling.toList.drop 7).dropLast ++ [']']), by decide,
      by decide, by simp, by decide, ?_⟩
    exact .group (balanced_iff_scan.2 (by decide)) .nil
  exact ⟨hform.parse_ne, parse_normalize .root hform.parse_ne⟩

end Pattern
end TreebankSearch

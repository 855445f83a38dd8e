import TreebankSearch.Proofs.Hit.Context
import TreebankSearch.Proofs.Text.Replace

/-!
# Taking the tags out again

Marking puts tags into the hit of a sentence and changes nothing else. In a sentence that does not hold the
tags itself, all of them are deleted by deleting each occurrence of a tag.
-/

namespace TreebankSearch.Highlight

variable {tag s before body after : List Char}

def tags (tag : List Char) : List (List Char) := ['<' :: (tag ++ ['>']), '<' :: '/' :: (tag ++ ['>'])]

/-- A text without the tags that occur in it: first without the opening ones, then without the closing
ones. -/
def untag (tag s : List Char) : List Char :=
  (tags tag).foldl (fun s w => Text.replace w [] s) s

theorem enclosed_of_mem_tags (hopen : '<' ∉ tag) (hclose : '>' ∉ tag) :
    ∀ w ∈ tags tag, Text.Enclosed '<' '>' w := by
  intro w hw
  rw [tags, List.mem_cons, List.mem_singleton] at hw
  rcases hw with rfl | rfl
  · exact ⟨tag, by simp [hopen], hclose, rfl⟩
  · exact ⟨'/' :: tag, by simp [hopen], by simp [hclose], rfl⟩

theorem inserted_markWord (starts : List Nat) (tag : List Char) (i : Nat) (word : List Char) :
    Text.Inserted (tags tag) word (markWord starts tag i word) := by
  have hfront : Text.Inserted (tags tag) []
      (if 0 < i && starts.contains (i - 1) then [] else openTag tag) := by
    split
    · exact .nil
    · exact .of_mem (by simp [tags, openTag])
  have hback : Text.Inserted (tags tag) [] (if starts.contains (i + 1) then [] else closeTag tag) := by
    split
    · exact .nil
    · exact .of_mem (by simp [tags, closeTag])
  have hword := Text.Inserted.refl (tags tag) word
  unfold markWord
  split
  · have h := (hfront.append hword).append hback
    rwa [List.nil_append, List.append_nil] at h
  · exact hword

theorem inserted_intercalate {ws : List (List Char)} (sep : List Char) {f : Nat → List Char → List Char}
    (hf : ∀ i word, Text.Inserted ws word (f i word)) (words : List (List Char)) :
    Text.Inserted ws (sep.intercalate words) (sep.intercalate (words.mapIdx f)) := by
  induction words generalizing f with
  | nil => exact .refl ws _
  | cons word words ih =>
    cases words with
    | nil => simpa using hf 0 word
    | cons next words =>
      have hrest := ih fun i word => hf (i + 1) word
      rw [List.mapIdx_cons] at hrest
      rw [List.mapIdx_cons, List.mapIdx_cons, List.intercalate_cons_cons, List.intercalate_cons_cons]
      exact ((hf 0 word).append (.refl ws sep)).append hrest

theorem inserted_markWords (starts : List Nat) (tag s : List Char) :
    Text.Inserted (tags tag) s (markWords starts tag s) := by
  have h := inserted_intercalate [' '] (inserted_markWord starts tag) (s.splitOn ' ')
  rwa [List.intercalate_splitOn] at h

theorem Context.occursIn_spaced {w : List Char} (h : Context s before body after)
    (hw : Text.Enclosed '<' '>' w) (hs : Text.occursIn w s = false) :
    Text.occursIn w (before ++ ' ' :: (body ++ ' ' :: after)) = false := by
  obtain ⟨x, rfl⟩ := h.opened
  obtain ⟨y, rfl⟩ := h.closed
  obtain ⟨name, hfirst, hclose, rfl⟩ := hw
  have hpart : ∀ part, part <:+: s → Text.occursIn ('<' :: (name ++ ['>'])) part = false :=
    fun part hp => Text.occursIn_of_part hp hs
  have hbefore := hpart (x ++ "<em>".toList) ⟨[], body ++ ("</em>".toList ++ y), h.text.symm⟩
  have hbody := hpart body ⟨x ++ "<em>".toList, "</em>".toList ++ y, by
    rw [h.text, List.append_assoc _ body]⟩
  have hafter := hpart ("</em>".toList ++ y) ⟨x ++ "<em>".toList ++ body, [], by rw [h.text]; simp⟩
  have hlast : '>' ∉ '<' :: name := by simp [hclose]
  have hblank := Text.occursIn_concat_of_ne (c := '>') (d := ' ') (by decide) ('<' :: name) body
  have hmark : x ++ "<em>".toList ++ ' ' :: (body ++ ' ' :: ("</em>".toList ++ y)) =
      (x ++ ['<', 'e', 'm']) ++ '>' :: ' ' :: ((body ++ [' ']) ++ '<' :: (['/', 'e', 'm', '>'] ++ y)) := by
    simp
  rw [hmark, ← List.cons_append, Text.occursIn_last hlast, List.cons_append,
    Text.occursIn_cons_of_ne (by decide), Text.occursIn_first hfirst, Bool.or_eq_false_iff,
    Bool.or_eq_false_iff]
  exact ⟨by simpa using hbefore, hblank.trans hbody, hafter⟩

/-- With its tags deleted, a marked sentence is the sentence again; one with context has a blank on each
side of its hit, and no tags anywhere else. -/
theorem untag_sentence (text : String) (starts : List Nat) (tag : String)
    (hopen : '<' ∉ tag.toList) (hclose : '>' ∉ tag.toList)
    (hs : ∀ w ∈ tags tag.toList, Text.occursIn w text.toList = false) :
    (¬ HasContext text.toList → untag tag.toList (sentence text starts tag).toList = text.toList) ∧
    (HasContext text.toList → ∃ before body after marked, Context text.toList before body after ∧
      Text.Inserted (tags tag.toList) body marked ∧
      (sentence text starts tag).toList = before ++ ' ' :: (marked ++ ' ' :: after) ∧
      untag tag.toList (sentence text starts tag).toList =
        before ++ ' ' :: (body ++ ' ' :: after)) := by
  have htags := enclosed_of_mem_tags hopen hclose
  obtain ⟨front, hit, back, hlayout, hsentence⟩ := exists_layout text
  have hmarked := inserted_markWords starts tag.toList hit
  have hwhole : Text.Inserted (tags tag.toList) (front ++ (hit ++ back))
      (sentence text starts tag).toList := by
    rw [hsentence]
    exact (Text.Inserted.refl _ front).append (hmarked.append (.refl _ back))
  cases hlayout with
  | plain hno =>
    refine ⟨fun _ => ?_, fun h => absurd h hno⟩
    rw [List.nil_append, List.append_nil] at hwhole
    exact hwhole.foldl_replace htags hs
  | @context before _ after h =>
    refine ⟨fun hno => absurd h.hasContext hno, fun _ => ⟨before, hit, after, _, h, hmarked, ?_, ?_⟩⟩
    · rw [hsentence, List.append_assoc, List.singleton_append]
    · rw [List.append_assoc, List.singleton_append] at hwhole
      exact hwhole.foldl_replace htags fun w hw => h.occursIn_spaced (htags w hw) (hs w hw)

theorem untag_sentence_sample :
    untag "strong".toList (sentence "Een <em>zin.\n<em>de  hond</em> <em>weg" [0, 2] "strong").toList =
      "Een <em>zin.\n<em> de  hond </em> <em>weg".toList := by
  have hcontext : Context "Een <em>zin.\n<em>de  hond</em> <em>weg".toList "Een <em>zin.\n<em>".toList
      "de  hond".toList "</em> <em>weg".toList := context_of_splitContext? (by decide +kernel)
  have hs : ∀ w ∈ tags "strong".toList,
      Text.occursIn w "Een <em>zin.\n<em>de  hond</em> <em>weg".toList = false := by decide +kernel
  obtain ⟨before, body, after, marked, h, -, -, huntag⟩ :=
    (untag_sentence _ [0, 2] "strong" (by decide +kernel) (by decide +kernel) hs).2 hcontext.hasContext
  obtain ⟨rfl, rfl, rfl⟩ := h.unique hcontext
  rw [huntag]
  decide +kernel

end TreebankSearch.Highlight

import TreebankSearch.Proofs.Text.Basic

/-!
# Replacing a word

The replacement of a word at each of its occurrences. Words that start and end with characters which they
hold nowhere else do not overlap: where such words have been put into a text in which they did not occur,
deleting them gives the text back.
-/

namespace TreebankSearch.Text

/-- A text in which `r` stands for each occurrence of `w`, found from left to right and apart from each
other. The empty word is not looked for. -/
def replace (w r s : List Char) : List Char :=
  match h : after? w s with
  | some rest =>
    if hw : w = [] then s
    else
      have := length_of_after? h
      have := List.length_pos_iff.2 hw
      r ++ replace w r rest
  | none =>
    match s with
    | [] => []
    | c :: rest => c :: replace w r rest
termination_by s.length

variable {c : Char} {w r s t u out : List Char}

@[simp] theorem replace_nil (w r : List Char) : replace w r [] = [] := by
  rw [replace]
  split
  · next h =>
    have hw := after?_eq_some_iff.1 h
    rw [dif_pos (List.append_eq_nil_iff.1 hw.symm).1]
  · rfl

theorem replace_cons (h : after? w (c :: s) = none) (r : List Char) :
    replace w r (c :: s) = c :: replace w r s := by
  rw [replace]
  split
  · next hsome =>
    rw [h] at hsome
    cases hsome
  · rfl

theorem replace_append (hw : w ≠ []) (r s : List Char) :
    replace w r (w ++ s) = r ++ replace w r s := by
  rw [replace]
  split
  · next hsome =>
    rw [after?_append] at hsome
    cases hsome
    rw [dif_neg hw]
  · next hnone =>
    rw [after?_append] at hnone
    cases hnone

theorem replace_append_of_not_mem (hc : c ∉ u) (w r s : List Char) :
    replace (c :: w) r (u ++ s) = u ++ replace (c :: w) r s := by
  induction u with
  | nil => rfl
  | cons d u ih =>
    rw [List.mem_cons, not_or] at hc
    have hnone : after? (c :: w) (d :: (u ++ s)) = none := if_neg hc.1
    rw [List.cons_append, replace_cons hnone, ih hc.2, List.cons_append]

theorem replace_singleton (c : Char) (r s : List Char) :
    replace [c] r s = s.flatMap fun d => if d = c then r else [d] := by
  induction s with
  | nil => exact replace_nil [c] r
  | cons d s ih =>
    rw [List.flatMap_cons, ← ih]
    by_cases h : d = c
    · rw [if_pos h, h]
      exact replace_append (List.cons_ne_nil c []) r s
    · have hnone : after? [c] (d :: s) = none := if_neg (Ne.symm h)
      rw [if_neg h, replace_cons hnone, List.singleton_append]

def Enclosed (o e : Char) (w : List Char) : Prop :=
  ∃ name, o ∉ name ++ [e] ∧ e ∉ name ∧ w = o :: (name ++ [e])

variable {o e : Char}

theorem Enclosed.ne_nil (hw : Enclosed o e w) : w ≠ [] := by
  obtain ⟨name, -, -, rfl⟩ := hw
  exact List.cons_ne_nil _ _

theorem Enclosed.replace_append {w' : List Char} (hw : Enclosed o e w) (hw' : Enclosed o e w')
    (h : w ≠ w') (r s : List Char) : replace w r (w' ++ s) = w' ++ replace w r s := by
  obtain ⟨name, -, hend, rfl⟩ := hw
  obtain ⟨name', hstart', hend', rfl⟩ := hw'
  have hnone : after? (o :: (name ++ [e])) (o :: (name' ++ [e] ++ s)) = none := by
    rw [Option.eq_none_iff_forall_ne_some]
    intro rest hafter
    have heq : name' ++ e :: s = name ++ e :: rest := by
      simpa using after?_eq_some_iff.1 hafter
    exact h (by rw [(append_cons_inj hend' hend heq).1])
  rw [List.cons_append, replace_cons hnone, replace_append_of_not_mem hstart', List.cons_append]

theorem prefix_of_replace {d : Char} (hd : d ∉ t) (h : t <+: replace w [d] s) : t <+: s := by
  fun_induction replace w [d] s generalizing t with
  | case1 => exact h
  | case2 =>
    cases t with
    | nil => exact List.nil_prefix
    | cons c t => exact absurd ((List.cons_prefix_cons.1 h).1 ▸ List.mem_cons_self) hd
  | case3 => exact h
  | case4 c rest _ ih =>
    cases t with
    | nil => exact List.nil_prefix
    | cons c' t =>
      obtain ⟨rfl, hrest⟩ := List.cons_prefix_cons.1 h
      exact List.cons_prefix_cons.2 ⟨rfl, ih (mt (List.mem_cons_of_mem c') hd) hrest⟩

theorem after?_cons_replace {w' : List Char} {d : Char} (hd : d ∉ w') (h : after? w' (c :: s) = none)
    (w : List Char) : after? w' (c :: replace w [d] s) = none := by
  cases w' with
  | nil => cases h
  | cons c' w' =>
    rw [Option.eq_none_iff_forall_ne_some]
    intro rest hafter
    obtain ⟨rfl, hs⟩ := List.cons.inj (after?_eq_some_iff.1 hafter)
    obtain ⟨more, rfl⟩ := prefix_of_replace (mt (List.mem_cons_of_mem c) hd) ⟨rest, hs.symm⟩
    rw [← List.cons_append, after?_append] at h
    cases h

def replaceEach (table : List (List Char × Char)) (s : List Char) : List Char :=
  table.foldl (fun s entry => replace entry.1 [entry.2] s) s

theorem replaceEach_nil (table : List (List Char × Char)) : replaceEach table [] = [] := by
  unfold replaceEach
  induction table with
  | nil => rfl
  | cons entry table ih => rwa [List.foldl_cons, replace_nil]

/-- The words are apart, and what stands for one of them is in none of the later ones. -/
def Successive (table : List (List Char × Char)) : Prop :=
  table.Pairwise fun entry later => entry.1 ≠ later.1 ∧ entry.2 ∉ later.1

variable {table : List (List Char × Char)}

theorem Successive.replaceEach_cons (ht : Successive table)
    (h : ∀ entry ∈ table, after? entry.1 (c :: s) = none) :
    replaceEach table (c :: s) = c :: replaceEach table s := by
  unfold replaceEach
  induction table generalizing s with
  | nil => rfl
  | cons entry table ih =>
    obtain ⟨hentry, ht⟩ := List.pairwise_cons.1 ht
    obtain ⟨hfirst, hrest⟩ := List.forall_mem_cons.1 h
    rw [List.foldl_cons, List.foldl_cons, replace_cons hfirst]
    exact ih ht fun later hlater => after?_cons_replace (hentry later hlater).2 (hrest later hlater) _

theorem Successive.replaceEach_append (ht : Successive table)
    (hws : ∀ entry ∈ table, Enclosed o e entry.1) (h : (w, c) ∈ table) (s : List Char) :
    replaceEach table (w ++ s) = c :: replaceEach table s := by
  induction table generalizing s with
  | nil => cases h
  | cons entry table ih =>
    obtain ⟨hentry, hsuccessive⟩ := List.pairwise_cons.1 ht
    obtain ⟨hw, hlaterws⟩ := List.forall_mem_cons.1 hws
    rw [replaceEach, List.foldl_cons]
    rcases List.mem_cons.1 h with rfl | hmem
    · have hnone : ∀ later ∈ table, after? later.1 (c :: replace w [c] s) = none := by
        intro later hlater
        obtain ⟨name, -, -, hname⟩ := hlaterws later hlater
        have hc := (hentry later hlater).2
        rw [hname, List.mem_cons, not_or] at hc
        rw [hname]
        exact if_neg (Ne.symm hc.1)
      rw [Text.replace_append hw.ne_nil]
      exact Successive.replaceEach_cons hsuccessive hnone
    · rw [hw.replace_append (hlaterws _ hmem) (hentry _ hmem).1]
      exact ih hsuccessive hlaterws hmem _

/-- `out` is `s` with some words of `ws` put in between its characters. -/
inductive Inserted (ws : List (List Char)) : List Char → List Char → Prop
  | nil : Inserted ws [] []
  | char {s out : List Char} (c : Char) (h : Inserted ws s out) : Inserted ws (c :: s) (c :: out)
  | word {w s out : List Char} (hw : w ∈ ws) (h : Inserted ws s out) : Inserted ws s (w ++ out)

variable {ws : List (List Char)}

theorem Inserted.append {s' out' : List Char} (h : Inserted ws s out) (h' : Inserted ws s' out') :
    Inserted ws (s ++ s') (out ++ out') := by
  induction h with
  | nil => exact h'
  | char c _ ih => exact ih.char c
  | word hw _ ih =>
    rw [List.append_assoc]
    exact ih.word hw

theorem Inserted.refl (ws : List (List Char)) (s : List Char) : Inserted ws s s := by
  induction s with
  | nil => exact .nil
  | cons c s ih => exact ih.char c

theorem Inserted.of_mem (hw : w ∈ ws) : Inserted ws [] w := by
  have h := Inserted.nil.word hw
  rwa [List.append_nil] at h

theorem Inserted.eq_of_nil (h : Inserted [] s out) : out = s := by
  induction h with
  | nil => rfl
  | char c _ ih => exact congrArg (c :: ·) ih
  | word hw => cases hw

theorem Inserted.prefix (h : Inserted ws s out) (hws : ∀ w ∈ ws, Enclosed o e w) (hu : o ∉ u)
    (hp : u <+: out) : u <+: s := by
  induction h generalizing u with
  | nil => exact hp
  | char c _ ih =>
    cases u with
    | nil => exact List.nil_prefix
    | cons d u =>
      obtain ⟨rfl, hrest⟩ := List.cons_prefix_cons.1 hp
      exact List.cons_prefix_cons.2 ⟨rfl, ih (mt (List.mem_cons_of_mem d) hu) hrest⟩
  | word hw =>
    obtain ⟨name, -, -, rfl⟩ := hws _ hw
    cases u with
    | nil => exact List.nil_prefix
    | cons d u => exact absurd ((List.cons_prefix_cons.1 hp).1 ▸ List.mem_cons_self) hu

theorem Inserted.after?_eq_none (h : Inserted ws s out) (hws : ∀ w ∈ ws, Enclosed o e w)
    (hw : Enclosed o e w) (hs : occursIn w (c :: s) = false) : after? w (c :: out) = none := by
  rw [Option.eq_none_iff_forall_ne_some]
  intro rest hafter
  obtain ⟨name, hstart, -, rfl⟩ := hw
  obtain ⟨rfl, hout⟩ := List.cons.inj (after?_eq_some_iff.1 hafter)
  obtain ⟨more, rfl⟩ := h.prefix hws hstart ⟨rest, hout.symm⟩
  exact absurd (occursIn_iff.2 ⟨[], more, rfl⟩) (Bool.eq_false_iff.1 hs)

theorem Inserted.replace (h : Inserted (w :: ws) s out) (hws : ∀ w' ∈ w :: ws, Enclosed o e w')
    (hs : occursIn w s = false) : Inserted ws s (replace w [] out) := by
  have hw := hws w List.mem_cons_self
  induction h with
  | nil =>
    rw [replace_nil]
    exact .nil
  | char c h ih =>
    rw [replace_cons (h.after?_eq_none hws hw hs)]
    exact (ih (occursIn_of_part (List.suffix_cons c _).isInfix hs)).char c
  | @word w' s out hw' h ih =>
    by_cases heq : w = w'
    · rw [← heq, Text.replace_append hw.ne_nil]
      exact ih hs
    · rw [hw.replace_append (hws w' hw') heq]
      exact (ih hs).word ((List.mem_cons.1 hw').resolve_left (Ne.symm heq))

/-- Words that were put into a text in which they did not occur are deleted one after the other. -/
theorem Inserted.foldl_replace (h : Inserted ws s out) (hws : ∀ w ∈ ws, Enclosed o e w)
    (hs : ∀ w ∈ ws, occursIn w s = false) : ws.foldl (fun s w => Text.replace w [] s) out = s := by
  induction ws generalizing out with
  | nil => exact h.eq_of_nil
  | cons w ws ih =>
    exact ih (h.replace hws (hs w List.mem_cons_self)) (List.forall_mem_cons.1 hws).2
      (List.forall_mem_cons.1 hs).2

end TreebankSearch.Text

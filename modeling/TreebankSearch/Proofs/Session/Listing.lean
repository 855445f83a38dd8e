import TreebankSearch.Proofs.Engine
import TreebankSearch.Session.Search

/-!
# What a plan lists

The rows that an engine holds for the shards of a plan, pass by pass and each with its component, and
the rows among them whose id occurs for the first time.
-/

namespace TreebankSearch

abbrev Sourced := String × Row

def Batch.sourced (batch : Batch) : List Sourced := batch.rows.map (batch.component, ·)

namespace Session

theorem length_newRows_le (seen : List String) (rows : List Row) :
    (newRows seen rows).length ≤ rows.length := by
  fun_induction newRows seen rows with
  | case1 => exact Nat.le_refl _
  | case2 seen row rows h ih => exact Nat.le_succ_of_le ih
  | case3 seen row rows h ih => exact Nat.succ_le_succ ih

end Session

namespace Sourced

def fresh (seen : List String) : List Sourced → List Sourced
  | [] => []
  | hit :: hits =>
    if hit.2.id ∈ seen then fresh seen hits else hit :: fresh (hit.2.id :: seen) hits

def distinct (hits : List Sourced) : List Sourced :=
  hits.eraseDupsBy fun a b => a.2.id == b.2.id

theorem fresh_congr {seen known : List String} (h : ∀ id, id ∈ seen ↔ id ∈ known)
    (hits : List Sourced) : fresh seen hits = fresh known hits := by
  induction hits generalizing seen known with
  | nil => rfl
  | cons hit hits ih =>
    simp only [fresh, h]
    split
    · exact ih h
    · have hk : ∀ id, id ∈ hit.2.id :: seen ↔ id ∈ hit.2.id :: known := fun id => by simp [h]
      rw [ih hk]

theorem fresh_append (seen : List String) (hits more : List Sourced) :
    fresh seen (hits ++ more) =
      fresh seen hits ++ fresh (seen ++ (fresh seen hits).map (·.2.id)) more := by
  induction hits generalizing seen with
  | nil => simp [fresh]
  | cons hit hits ih =>
    simp only [List.cons_append, fresh]
    split
    · exact ih seen
    · rw [ih, List.cons_append]
      congr 2
      apply fresh_congr
      intro id
      simp only [List.mem_cons, List.mem_append, List.map_cons]
      exact or_left_comm

theorem fresh_map (seen : List String) (component : String) (rows : List Row) :
    fresh seen (rows.map (component, ·)) = (Session.newRows seen rows).map (component, ·) := by
  induction rows generalizing seen with
  | nil => rfl
  | cons row rows ih =>
    simp only [List.map_cons, fresh, Session.newRows]
    split
    · exact ih seen
    · rw [ih, List.map_cons]

theorem fresh_nil (hits : List Sourced) : fresh [] hits = distinct hits := by
  have loop : ∀ kept : List Sourced,
      List.eraseDupsBy.loop (fun a b => a.2.id == b.2.id) hits kept =
        kept.reverse ++ fresh (kept.map (·.2.id)) hits := by
    induction hits with
    | nil => simp [List.eraseDupsBy.loop, fresh]
    | cons hit hits ih =>
      intro kept
      have hk : (kept.any fun b => hit.2.id == b.2.id) = true ↔
          hit.2.id ∈ kept.map (·.2.id) := by
        simp only [List.any_eq_true, beq_iff_eq, List.mem_map]
        exact ⟨fun ⟨b, hb, he⟩ => ⟨b, hb, he.symm⟩, fun ⟨b, hb, he⟩ => ⟨b, hb, he.symm⟩⟩
      simp only [List.eraseDupsBy.loop, fresh]
      split
      · next h => rw [if_pos (hk.1 h), ih]
      · next h => rw [if_neg (by rw [← hk, h]; simp), ih]; simp
  exact (loop []).symm

theorem nodup_fresh (seen : List String) (hits : List Sourced) :
    ((fresh seen hits).map (·.2.id)).Nodup ∧
      ∀ id, id ∈ (fresh seen hits).map (·.2.id) ↔ id ∈ hits.map (·.2.id) ∧ id ∉ seen := by
  induction hits generalizing seen with
  | nil => simp [fresh]
  | cons hit hits ih =>
    unfold fresh
    by_cases h : hit.2.id ∈ seen
    · rw [if_pos h]
      refine ⟨(ih seen).1, fun id => ?_⟩
      rw [(ih seen).2, List.map_cons, List.mem_cons]
      constructor
      · rintro ⟨hm, hs⟩
        exact ⟨.inr hm, hs⟩
      · rintro ⟨rfl | hm, hs⟩
        · exact absurd h hs
        · exact ⟨hm, hs⟩
    · rw [if_neg h]
      obtain ⟨hn, hm⟩ := ih (hit.2.id :: seen)
      simp only [List.map_cons, List.nodup_cons, hm, List.mem_cons, not_or]
      refine ⟨⟨fun hs => hs.2.1 trivial, hn⟩, fun id => ?_⟩
      by_cases he : id = hit.2.id
      · simp [he, h]
      · simp [he]

theorem nodup_distinct (hits : List Sourced) : ((distinct hits).map (·.2.id)).Nodup := by
  rw [← fresh_nil]
  exact (nodup_fresh [] hits).1

theorem mem_ids_distinct {hits : List Sourced} {id : String} :
    id ∈ (distinct hits).map (·.2.id) ↔ id ∈ hits.map (·.2.id) := by
  rw [← fresh_nil, (nodup_fresh [] hits).2]
  exact and_iff_left List.not_mem_nil

end Sourced

theorem Session.nodup_append_newRows {seen : List String} (h : seen.Nodup) (rows : List Row) :
    (seen ++ (newRows seen rows).map (·.id)).Nodup := by
  obtain ⟨hn, hm⟩ := Sourced.nodup_fresh seen (rows.map ("", ·))
  simp only [Sourced.fresh_map, List.map_map, Function.comp_def] at hn hm
  refine List.nodup_append.2 ⟨h, hn, ?_⟩
  rintro id hi _ hid rfl
  exact ((hm id).1 hid).2 hi

def listing (held : Holdings) (pattern : String) (shards : List Shard) : List Sourced :=
  shards.flatMap fun shard =>
    ((held pattern shard.component).getD []).map (shard.component, ·)

/-- A pattern text without blanks at its ends and without the slashes it then starts with. -/
def strippedPattern (pattern : String) : String :=
  String.ofList ((Text.trim pattern.toList).dropWhile (· = '/'))

theorem Axis.place_root (pattern : String) : Axis.root.place pattern = "/" ++ strippedPattern pattern :=
  String.ofList_append

theorem Axis.place_anywhere (pattern : String) :
    Axis.anywhere.place pattern = "//" ++ strippedPattern pattern :=
  String.ofList_append

/-- The rows that an engine holds for a plan: those of the one pass of a plan that is not pruned, and
otherwise those of the two passes, which differ in the slashes before the pattern. -/
def Plan.listing (plan : Plan) (held : Holdings) (pattern : String) : List Sourced :=
  match plan.axis with
  | .anywhere => TreebankSearch.listing held ("//" ++ strippedPattern pattern) plan.shards
  | .root =>
    TreebankSearch.listing held ("/" ++ strippedPattern pattern) plan.shards ++
      TreebankSearch.listing held ("//" ++ strippedPattern pattern) plan.fallback

end TreebankSearch

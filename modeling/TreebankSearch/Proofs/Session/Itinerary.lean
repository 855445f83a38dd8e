import Mathlib.Data.List.Induction
import TreebankSearch.Proofs.Session.Listing
import TreebankSearch.Proofs.Session.Run

/-!
# The itinerary of a plan

Where a search over a plan goes next, as told by its queries and their replies. After a full answer it
goes on behind the rows that it has asked for; after a short answer, or where a query fails, it goes to
the next shard; after an outage it stays where it is. A pruned pass is followed by a second one. No
shard is passed over: a place in a queue is behind the search only if an exchange there has ended
the visit.
-/

namespace TreebankSearch

inductive Pass where
  | first
  | second
  deriving Repr, DecidableEq

structure Spot where
  pass : Pass
  position : Nat
  offset : Nat
  deriving Repr, DecidableEq

def Spot.skip (spot : Spot) : Spot := ⟨spot.pass, spot.position + 1, 0⟩

/-- The reply ends the visit of the shard: it is a short answer or an error of the query. -/
def Exchange.Leaves (exchange : Exchange) : Prop :=
  (∃ shard message, exchange.2 = .error (.query shard message)) ∨
    ∃ rows, exchange.2 = .ok rows ∧ rows.length < exchange.1.limit

namespace Plan

def queue (plan : Plan) : Pass → List Shard
  | .first => plan.shards
  | .second => if plan.axis = .root then plan.fallback else []

def passAxis (plan : Plan) : Pass → Axis
  | .first => plan.axis
  | .second => .anywhere

/-- The slashes under which a pass sends the pattern: one where the shards are pruned. -/
def slashes (plan : Plan) : Pass → String
  | .first => if plan.axis = .root then "/" else "//"
  | .second => "//"

def reach (plan : Plan) (spot : Spot) : Option Spot :=
  if spot.position < (plan.queue spot.pass).length then some spot
  else if spot.pass = .first ∧ plan.queue .second ≠ [] then some ⟨.second, 0, 0⟩
  else none

def onward (plan : Plan) (spot : Spot) (exchange : Exchange) : Option Spot :=
  match exchange.2 with
  | .error (.unavailable _) => some spot
  | .error (.query _ _) => plan.reach spot.skip
  | .ok rows =>
    if exchange.1.limit ≤ rows.length then
      some { spot with offset := spot.offset + exchange.1.limit }
    else plan.reach spot.skip

def spotAfter (plan : Plan) (exchanges : List Exchange) : Option Spot :=
  exchanges.foldl (fun spot exchange => spot.bind (plan.onward · exchange))
    (plan.reach ⟨.first, 0, 0⟩)

def queryAt (plan : Plan) (pattern : String) (context : Bool) (limit : Nat) (spot : Spot) :
    Option ShardQuery :=
  (plan.queue spot.pass)[spot.position]?.map fun shard =>
    { pattern := plan.slashes spot.pass ++ strippedPattern pattern
      shard
      offset := spot.offset
      limit
      context }

def Left (plan : Plan) (exchanges : List Exchange) (pass : Pass) (position : Nat) : Prop :=
  ∃ before exchange later offset, exchanges = before ++ exchange :: later ∧
    plan.spotAfter before = some ⟨pass, position, offset⟩ ∧ exchange.Leaves

/-- A place comes before a spot; all places come before the end. -/
def Behind : Option Spot → Pass → Nat → Prop
  | none, _, _ => True
  | some spot, pass, position =>
    pass = spot.pass ∧ position < spot.position ∨ pass = .first ∧ spot.pass = .second

variable {plan : Plan}

theorem place_passAxis (plan : Plan) (pass : Pass) (pattern : String) :
    (plan.passAxis pass).place pattern = plan.slashes pass ++ strippedPattern pattern := by
  cases pass with
  | first =>
    rw [passAxis, slashes]
    split
    · next hroot => rw [hroot, Axis.place_root]
    · next hroot =>
      cases haxis : plan.axis with
      | root => exact absurd haxis hroot
      | anywhere => exact Axis.place_anywhere pattern
  | second => exact Axis.place_anywhere pattern

theorem spotAfter_nil : plan.spotAfter [] = plan.reach ⟨.first, 0, 0⟩ := rfl

theorem spotAfter_concat (exchanges : List Exchange) (exchange : Exchange) :
    plan.spotAfter (exchanges ++ [exchange]) =
      (plan.spotAfter exchanges).bind (plan.onward · exchange) := by
  rw [spotAfter, List.foldl_append]
  rfl

theorem reach_of_lt {spot : Spot} (h : spot.position < (plan.queue spot.pass).length) :
    plan.reach spot = some spot := if_pos h

theorem onward_cases (plan : Plan) (spot : Spot) (exchange : Exchange) :
    (∃ offset, plan.onward spot exchange = some { spot with offset := offset }) ∨
      exchange.Leaves ∧ plan.onward spot exchange = plan.reach spot.skip := by
  obtain ⟨query, reply⟩ := exchange
  match reply with
  | .error (.unavailable _) => exact .inl ⟨spot.offset, rfl⟩
  | .error (.query shard message) => exact .inr ⟨.inl ⟨shard, message, rfl⟩, rfl⟩
  | .ok rows =>
    by_cases h : query.limit ≤ rows.length
    · exact .inl ⟨_, if_pos h⟩
    · exact .inr ⟨.inr ⟨rows, rfl, Nat.lt_of_not_le h⟩, if_neg h⟩

/-- Going on to the second pass passes no place over. -/
theorem behind_of_reach {spot : Spot} {pass : Pass} {position : Nat}
    (hp : position < (plan.queue pass).length) (h : Behind (plan.reach spot) pass position) :
    Behind (some spot) pass position := by
  unfold reach at h
  split at h
  · exact h
  · next hend =>
    obtain ⟨current, place, offset⟩ := spot
    cases current with
    | first =>
      cases pass with
      | first =>
        simp only [Nat.not_lt] at hend
        exact .inl ⟨rfl, Nat.lt_of_lt_of_le hp hend⟩
      | second =>
        have hne : plan.queue .second ≠ [] := List.ne_nil_of_length_pos (Nat.zero_lt_of_lt hp)
        rw [if_pos ⟨rfl, hne⟩] at h
        rcases h with ⟨_, h⟩ | ⟨h, _⟩
        · exact absurd h (Nat.not_lt_zero _)
        · cases h
    | second =>
      cases pass with
      | first => exact .inr ⟨rfl, rfl⟩
      | second =>
        simp only [Nat.not_lt] at hend
        exact .inl ⟨rfl, Nat.lt_of_lt_of_le hp hend⟩

theorem Left.concat {exchanges : List Exchange} {pass : Pass} {position : Nat}
    (h : plan.Left exchanges pass position) (exchange : Exchange) :
    plan.Left (exchanges ++ [exchange]) pass position := by
  obtain ⟨before, last, later, offset, rfl, hs, hl⟩ := h
  exact ⟨before, last, later ++ [exchange], offset, by simp, hs, hl⟩

/-- A place is behind the search only if the visit there has been ended. -/
theorem left_of_behind (exchanges : List Exchange) {pass : Pass} {position : Nat}
    (hp : position < (plan.queue pass).length)
    (h : Behind (plan.spotAfter exchanges) pass position) : plan.Left exchanges pass position := by
  induction exchanges using List.reverseRecOn with
  | nil =>
    rw [spotAfter_nil] at h
    rcases behind_of_reach hp h with ⟨_, h⟩ | ⟨_, h⟩
    · exact absurd h (Nat.not_lt_zero _)
    · cases h
  | append_singleton exchanges exchange ih =>
    rw [spotAfter_concat] at h
    cases hs : plan.spotAfter exchanges with
    | none =>
      rw [hs] at ih
      exact (ih trivial).concat exchange
    | some spot =>
      rw [hs] at ih h
      rw [Option.bind_some] at h
      rcases plan.onward_cases spot exchange with ⟨offset, hon⟩ | ⟨hleaves, hon⟩
      · rw [hon] at h
        exact (ih h).concat exchange
      · rw [hon] at h
        rcases behind_of_reach hp h with ⟨rfl, hlt⟩ | hpass
        · -- the exchange leaves the place it is at, and the ones before it were left before
          rcases Nat.lt_or_eq_of_le (Nat.le_of_lt_succ hlt) with hlt | rfl
          · exact (ih (.inl ⟨rfl, hlt⟩)).concat exchange
          · exact ⟨exchanges, exchange, [], spot.offset, rfl, hs, hleaves⟩
        · exact (ih (.inr hpass)).concat exchange

end Plan
end TreebankSearch

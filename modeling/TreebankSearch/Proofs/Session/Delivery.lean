import TreebankSearch.Engine.Basic
import TreebankSearch.Proofs.Session.Drain

/-!
# What a run delivers

Nothing is assumed of the engine here. It may answer with more rows than were asked for and with rows
that were delivered before, it may change its answers, fail, or be out of reach. A session still
keeps true records of its rows: it counts them, knows the id of each, delivers no id twice, and
stays within its limit.
-/

namespace TreebankSearch.Session

variable {σ : Type} {engine : Engine σ} {flush limit : Nat} {rows : List Row}

def gained : Except Interruption (Option Batch) → List Row
  | .ok (some batch) => batch.rows
  | .ok none => []
  | .error _ => []

def delivery (turns : List Turn) : List Row := turns.flatMap fun turn => gained turn.result

structure Records (limit : Nat) (rows : List Row) (s : Session) : Prop where
  cap : s.limit = limit
  delivered : s.delivered = rows.length
  already : s.already = rows.map (·.id)
  distinct : (rows.map (·.id)).Nodup
  within : rows.length ≤ limit

theorem records_start (corpus pattern original : String) (plan : Plan) (limit : Nat) (mode : Mode)
    (context : Bool) :
    (start corpus pattern original plan limit mode context).Records limit [] where
  cap := rfl
  delivered := rfl
  already := rfl
  distinct := List.nodup_nil
  within := Nat.zero_le _

theorem Records.shift {s t : Session} (h : s.Records limit rows) (hs : s.Shifted t) :
    t.Records limit rows where
  cap := hs.limit.trans h.cap
  delivered := hs.delivered.trans h.delivered
  already := hs.already.trans h.already
  distinct := h.distinct
  within := h.within

theorem Records.deliver {s : Session} (h : s.Records limit rows) (answer : List Row)
    (hl : answer.length ≤ limit - rows.length) :
    (s.deliver (newRows s.already answer)).Records limit (rows ++ newRows s.already answer) := by
  have hle := length_newRows_le s.already answer
  have hw := h.within
  refine ⟨h.cap, ?_, ?_, ?_, ?_⟩
  · rw [List.length_append, ← h.delivered]
    rfl
  · rw [List.map_append, ← h.already]
    rfl
  · rw [List.map_append, ← h.already]
    exact nodup_append_newRows (h.already ▸ h.distinct) answer
  · rw [List.length_append]
    omega

theorem limit_query_le {s : Session} (h : s.Records limit rows) (flush : Nat) (shard : Shard) :
    (s.query flush shard).limit ≤ min (max flush 1) (limit - rows.length) := by
  rw [← h.cap, ← h.delivered]
  exact Nat.le_of_eq (Nat.min_comm _ _)

theorem Records.stop {s t : Session} (h : s.Records limit rows) {shard : Shard} {reply : Reply}
    {result : Except Interruption (Option Batch)}
    (hr : s.receive (s.query flush shard) reply = .stop result t) :
    t.Records limit (rows ++ gained result) ∧ ∀ batch, result = .ok (some batch) →
      batch.rows ≠ [] ∧ batch.rows.length ≤ min (max flush 1) (limit - rows.length) := by
  rcases s.receive_cases (s.query flush shard) reply with
    ⟨_, _, he⟩ | ⟨_, _, _, he⟩ | ⟨_, _, _, he⟩ | ⟨answer, new, _, hnew, hne, he⟩ <;>
    rw [he] at hr <;> cases hr
  · rw [gained, List.append_nil]
    exact ⟨h, fun _ hb => by cases hb⟩
  · subst hnew
    have hcap := limit_query_le h flush shard
    have htake := List.length_take_le (s.query flush shard).limit answer
    have hnew := length_newRows_le s.already (answer.take (s.query flush shard).limit)
    constructor
    · have hm := h.shift (shifted_move s (s.query flush shard).limit
        (answer.take (s.query flush shard).limit).length)
      have hd := hm.deliver (answer.take (s.query flush shard).limit) (by omega)
      rw [hm.already, ← h.already] at hd
      exact hd.shift (shifted_settle _)
    · rintro batch hb
      cases hb
      exact ⟨hne, by simp only; omega⟩

/-- One call: whatever the replies are, its batch has room, and the records stay true. -/
theorem Records.call {s t : Session} {world after : σ} {exchanges : List Exchange}
    {result : Except Interruption (Option Batch)} (h : s.Records limit rows)
    (hc : Call engine flush s world exchanges result t after) :
    t.Records limit (rows ++ gained result) ∧ ∀ batch, result = .ok (some batch) →
      batch.rows ≠ [] ∧ batch.rows.length ≤ min (max flush 1) (limit - rows.length) := by
  induction hc with
  | finish hn =>
    rw [gained, List.append_nil]
    exact ⟨h.shift (shifted_of_finish hn), fun _ hb => by cases hb⟩
  | stop hn hr =>
    obtain ⟨_, _, rfl, shard, _, rfl⟩ := next_eq_ask hn
    exact (h.shift (shifted_enter _)).stop hr
  | proceed hn hr _ ih =>
    obtain ⟨_, _, rfl, _⟩ := next_eq_ask hn
    exact ih ((h.shift (shifted_enter _)).shift (shifted_of_proceed hr))

theorem Records.run {s t : Session} {world after : σ} {turns : List Turn}
    (h : s.Records limit rows) (hrun : Run engine flush s world turns t after) :
    t.Records limit (rows ++ delivery turns) ∧
      ∀ before turn later batch, turns = before ++ turn :: later → turn.result = .ok (some batch) →
        batch.rows ≠ [] ∧
          batch.rows.length ≤ min (max flush 1) (limit - (rows ++ delivery before).length) := by
  induction hrun generalizing rows with
  | nil =>
    refine ⟨by rwa [delivery, List.flatMap_nil, List.append_nil], ?_⟩
    intro before turn later batch hcut
    simp at hcut
  | cons hc _ ih =>
    obtain ⟨hfirst, hbatch⟩ := h.call hc
    obtain ⟨hlast, hrest⟩ := ih hfirst
    rw [List.append_assoc] at hlast
    refine ⟨hlast, ?_⟩
    intro before turn later batch hcut hres
    cases before with
    | nil =>
      cases hcut
      rw [delivery, List.flatMap_nil, List.append_nil]
      exact hbatch batch hres
    | cons _ before =>
      cases hcut
      have hb := hrest before turn later batch rfl hres
      rwa [List.append_assoc] at hb

/-- Whatever the engine does, each batch of a run from a fresh session is no larger than `flush` and
than what is left of the limit, no id is delivered twice, and the session counts its hits and knows
their ids. -/
theorem delivery_of_run {corpus pattern original : String} {plan : Plan} {mode : Mode}
    {context : Bool} {world after : σ} {turns : List Turn} {t : Session}
    (h : Run engine flush (start corpus pattern original plan limit mode context) world turns t after) :
    (∀ before turn later batch, turns = before ++ turn :: later → turn.result = .ok (some batch) →
      batch.rows ≠ [] ∧
        batch.rows.length ≤ min (max flush 1) (limit - (delivery before).length)) ∧
    ((delivery turns).map (·.id)).Nodup ∧
    t.delivered = (delivery turns).length ∧
    (∀ id, id ∈ t.already ↔ id ∈ (delivery turns).map (·.id)) ∧
    t.delivered ≤ limit := by
  obtain ⟨hrec, hbatch⟩ := (records_start corpus pattern original plan limit mode context).run h
  rw [List.nil_append] at hrec
  refine ⟨hbatch, hrec.distinct, hrec.delivered, fun id => by rw [hrec.already], ?_⟩
  rw [hrec.delivered]
  exact hrec.within

def sampleScript : ScriptEngine where
  replies := [.rows [{ id := "a" }, { id := "a" }, { id := "b" }], .unavailable "down",
    .rows [{ id := "a" }], .failure "broken", .rows [{ id := "b" }, { id := "c" }, { id := "d" }]]
  received := []

theorem delivery_of_run_sample :
    ∃ turns t after,
      Run ScriptEngine.engine 2 (start "c" "node" "node" samplePlan 3 .normal false) sampleScript
        turns t after ∧
      turns.map (·.result) = [.ok (some ⟨"B", [{ id := "a" }]⟩), .error (.engineUnavailable "down"),
        .ok (some ⟨"A", [{ id := "b" }, { id := "c" }]⟩)] ∧
      ((delivery turns).map (·.id)).Nodup ∧ t.delivered = (delivery turns).length ∧
      (∀ id, id ∈ t.already ↔ id ∈ (delivery turns).map (·.id)) ∧ t.delivered ≤ 3 := by
  have h : Run ScriptEngine.engine 2 (start "c" "node" "node" samplePlan 3 .normal false)
      sampleScript [_, _, _] _ _ :=
    .cons (.stop rfl rfl) (.cons (.stop rfl rfl) (.cons (.proceed rfl rfl (.proceed rfl rfl
      (.stop rfl rfl))) .nil))
  exact ⟨_, _, _, h, rfl, (delivery_of_run h).2⟩

end TreebankSearch.Session

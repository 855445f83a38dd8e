import TreebankSearch.Session.Basic

/-!
# Running a session

A session asks one query at a time and takes the answer in: after a full answer it stays on the
shard, after a short one it moves on, and a shard whose query fails is left out. Rows that were
delivered before are dropped. A batch is delivered as soon as there are rows that are new. An outage
of the engine ends the call, and the session then stands at the query that was not answered.
-/

namespace TreebankSearch

structure Batch where
  component : String
  rows : List Row
  deriving Repr, DecidableEq

inductive Interruption where
  | engineUnavailable (message : String)
  /-- The engine always has one more full answer of rows that are known already, and the call never
  ends. -/
  | outOfPatience
  deriving Repr, DecidableEq

inductive Step where
  | ask (session : Session) (query : ShardQuery)
  | finish (session : Session)

inductive Outcome where
  | proceed (session : Session)
  | stop (result : Except Interruption (Option Batch)) (session : Session)

namespace Session

def query (s : Session) (flush : Nat) (shard : Shard) : ShardQuery where
  pattern := s.queryPattern
  shard := shard
  offset := s.offset
  limit := min (s.limit - s.delivered) (max flush 1)
  context := s.context

def next (s : Session) (flush : Nat) : Step :=
  if s.phase = .exhausted then .finish s
  else if s.limit ≤ s.delivered then .finish s.exhaust
  else
    match s.enter.current? with
    | some shard => .ask s.enter (s.enter.query flush shard)
    | none => .finish s.enter.exhaust

def newRows (seen : List String) : List Row → List Row
  | [] => []
  | row :: rows =>
    if row.id ∈ seen then newRows seen rows else row :: newRows (row.id :: seen) rows

def move (s : Session) (limit count : Nat) : Session :=
  if count = limit then { s with offset := s.offset + limit } else s.advance

def deliver (s : Session) (rows : List Row) : Session :=
  { s with already := s.already ++ rows.map (·.id), delivered := s.delivered + rows.length }

def receive (s : Session) (query : ShardQuery) : Reply → Outcome
  | .error (.unavailable message) => .stop (.error (.engineUnavailable message)) s
  | .error (.query _ _) => .proceed s.advance
  | .ok answer =>
    let rows := answer.take query.limit
    let new := newRows s.already rows
    let s := (s.move query.limit rows.length).deliver new
    if new.isEmpty then .proceed s
    else .stop (.ok (some ⟨query.shard.component, new⟩)) s.settle

/-- Runs a session until it has a batch or is exhausted, if that ever happens. -/
def search {σ : Type} (engine : Engine σ) (flush : Nat) (s : Session) (world : σ) :
    Option (Except Interruption (Option Batch) × Session × σ) :=
  match s.next flush with
  | .finish s => some (.ok none, s, world)
  | .ask s query =>
    let answer := engine.answer query world
    match s.receive query answer.1 with
    | .proceed s => s |>.search engine flush answer.2
    | .stop result s => some (result, s, answer.2)
partial_fixpoint

def nextBatch {σ : Type} (engine : Engine σ) (flush : Nat) (s : Session) (world : σ) :
    Except Interruption (Option Batch) × Session × σ :=
  (search engine flush s world).getD (.error .outOfPatience, s, world)

def room (s : Session) : Nat := s.limit - s.delivered

theorem next_eq_ask {s t : Session} {flush : Nat} {query : ShardQuery}
    (h : s.next flush = .ask t query) : s.phase ≠ .exhausted ∧ s.delivered < s.limit ∧
      t = s.enter ∧ ∃ shard, t.current? = some shard ∧ query = t.query flush shard := by
  unfold next at h
  split at h
  · cases h
  · next hp =>
    split at h
    · cases h
    · next hl =>
      split at h
      · next shard hc => cases h; exact ⟨hp, by omega, rfl, shard, hc, rfl⟩
      · cases h

theorem next_eq_finish {s t : Session} {flush : Nat} (h : s.next flush = .finish t) :
    (s.phase = .exhausted ∧ t = s) ∨ (s.limit ≤ s.delivered ∧ t = s.exhaust) ∨
      (s.enter.current? = none ∧ t = s.enter.exhaust) := by
  unfold next at h
  split at h
  · next hp =>
    cases h
    exact .inl ⟨hp, rfl⟩
  split at h
  · next hl =>
    cases h
    exact .inr (.inl ⟨hl, rfl⟩)
  split at h
  · cases h
  · next hc =>
    cases h
    exact .inr (.inr ⟨hc, rfl⟩)

theorem room_enter (s : Session) : s.enter.room = s.room := by
  unfold enter
  split <;> rfl

theorem room_move (s : Session) (limit count : Nat) : (s.move limit count).room = s.room := by
  unfold move
  split <;> rfl

theorem room_deliver (s : Session) (rows : List Row) :
    (s.deliver rows).room = s.room - rows.length := by
  simp only [room, deliver]
  omega

theorem room_settle (s : Session) : s.settle.room = s.room := by
  unfold settle
  split <;> rfl

@[simp] theorem deliver_nil (s : Session) : s.deliver [] = s := by simp [deliver]

/-- The four things that a reply leads to. -/
theorem receive_cases (s : Session) (query : ShardQuery) (reply : Reply) :
    (∃ message, reply = .error (.unavailable message) ∧
      s.receive query reply = .stop (.error (.engineUnavailable message)) s) ∨
    (∃ shard message, reply = .error (.query shard message) ∧
      s.receive query reply = .proceed s.advance) ∨
    (∃ answer, reply = .ok answer ∧ newRows s.already (answer.take query.limit) = [] ∧
      s.receive query reply =
        .proceed (s.move query.limit (answer.take query.limit).length)) ∨
    (∃ answer new, reply = .ok answer ∧ new = newRows s.already (answer.take query.limit) ∧
      new ≠ [] ∧ s.receive query reply = .stop (.ok (some ⟨query.shard.component, new⟩))
        ((s.move query.limit (answer.take query.limit).length).deliver new).settle) := by
  match reply with
  | .error (.unavailable message) => exact .inl ⟨message, rfl, rfl⟩
  | .error (.query shard message) => exact .inr (.inl ⟨shard, message, rfl, rfl⟩)
  | .ok answer =>
    right; right
    cases hn : newRows s.already (answer.take query.limit) with
    | nil => exact .inl ⟨answer, rfl, hn, by simp [receive, hn]⟩
    | cons row rows => exact .inr ⟨answer, _, rfl, hn.symm, by simp, by simp [receive, hn]⟩

theorem room_of_receive_proceed {s t : Session} {query : ShardQuery} {reply : Reply}
    (h : s.receive query reply = .proceed t) : t.room = s.room := by
  rcases s.receive_cases query reply with
    ⟨_, _, hr⟩ | ⟨_, _, _, hr⟩ | ⟨_, _, _, hr⟩ | ⟨_, _, _, _, _, hr⟩ <;> rw [hr] at h <;> cases h
  · rfl
  · rw [room_move]

theorem room_of_receive_stop {s t : Session} {query : ShardQuery} {reply : Reply} {batch : Batch}
    (h : s.receive query reply = .stop (.ok (some batch)) t) :
    batch.rows ≠ [] ∧ t.room = s.room - batch.rows.length := by
  rcases s.receive_cases query reply with
    ⟨_, _, hr⟩ | ⟨_, _, _, hr⟩ | ⟨_, _, _, hr⟩ | ⟨_, _, _, _, hn, hr⟩ <;> rw [hr] at h <;> cases h
  exact ⟨hn, by rw [room_settle, room_deliver, room_move]⟩

theorem room_of_search {σ : Type} {engine : Engine σ} {flush : Nat} {s : Session} {world : σ}
    {r : Except Interruption (Option Batch) × Session × σ} {batch : Batch}
    (h : search engine flush s world = some r) (hr : r.1 = .ok (some batch)) :
    r.2.1.room < s.room := by
  revert hr
  refine search.partial_correctness engine flush
    (fun s _ r => r.1 = .ok (some batch) → r.2.1.room < s.room) ?_ s world r h
  intro search ih s world r h hr
  split at h
  · cases h; cases hr
  · next t query hn =>
    obtain ⟨_, hl, rfl, _⟩ := next_eq_ask hn
    rw [← room_enter s]
    simp only at h
    split at h
    · next u hu =>
      rw [← room_of_receive_proceed hu]
      exact ih _ _ _ h hr
    · next result u hu =>
      cases h
      cases hr
      obtain ⟨hb, hroom⟩ := room_of_receive_stop hu
      have := List.length_pos_iff.2 hb
      have : s.enter.room = s.limit - s.delivered := room_enter s
      simp only
      omega

theorem search_of_nextBatch {σ : Type} {engine : Engine σ} {flush : Nat} {s t : Session}
    {world after : σ} {batch : Option Batch}
    (h : nextBatch engine flush s world = (.ok batch, t, after)) :
    search engine flush s world = some (.ok batch, t, after) := by
  unfold nextBatch at h
  cases hs : search engine flush s world with
  | none => rw [hs] at h; cases h
  | some r => rw [hs] at h; exact congrArg some h

def drain {σ : Type} (engine : Engine σ) (flush : Nat) (s : Session) (world : σ) :
    Except Interruption (List Batch) × Session × σ :=
  match h : nextBatch engine flush s world with
  | (.error interruption, s, world) => (.error interruption, s, world)
  | (.ok none, s, world) => (.ok [], s, world)
  | (.ok (some batch), t, world) =>
    have : t.room < s.room := room_of_search (search_of_nextBatch h) rfl
    let (batches, t, world) := drain engine flush t world
    (batches.map (batch :: ·), t, world)
termination_by s.room

theorem drain_of_error {σ : Type} {engine : Engine σ} {flush : Nat} {s t : Session}
    {world after : σ} {interruption : Interruption}
    (h : nextBatch engine flush s world = (.error interruption, t, after)) :
    drain engine flush s world = (.error interruption, t, after) := by
  rw [drain]
  split
  · next heq => rw [h] at heq; cases heq; rfl
  · next heq => rw [h] at heq; cases heq
  · next heq => rw [h] at heq; cases heq

theorem drain_of_none {σ : Type} {engine : Engine σ} {flush : Nat} {s t : Session}
    {world after : σ} (h : nextBatch engine flush s world = (.ok none, t, after)) :
    drain engine flush s world = (.ok [], t, after) := by
  rw [drain]
  split
  · next heq => rw [h] at heq; cases heq
  · next heq => rw [h] at heq; cases heq; rfl
  · next heq => rw [h] at heq; cases heq

theorem drain_of_some {σ : Type} {engine : Engine σ} {flush : Nat} {s t : Session}
    {world after : σ} {batch : Batch}
    (h : nextBatch engine flush s world = (.ok (some batch), t, after)) :
    drain engine flush s world = ((drain engine flush t after).1.map (batch :: ·),
      (drain engine flush t after).2) := by
  rw [drain]
  split
  · next heq => rw [h] at heq; cases heq
  · next heq => rw [h] at heq; cases heq
  · next heq => rw [h] at heq; cases heq; rfl

end Session
end TreebankSearch

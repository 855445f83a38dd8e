import TreebankSearch.Proofs.Corpus.Plan
import TreebankSearch.Proofs.Session.Tour

/-!
# Phase and place of a session

Where a session stands and what its phase says of it, whatever the engine answers. A session stands
within its queue or right behind it, and it is marked as exhausted just when no further query can bring
hits: at its limit, or behind the last shard of the last pass. From then on it stays as it is.
-/

namespace TreebankSearch

namespace Session

variable {σ : Type} {engine : Engine σ} {flush : Nat}

/-- The session stands at a shard of its queue or right behind the queue, its second pass is used up
once it has begun, and it is exhausted only where no hits can come. -/
structure Consistent (s : Session) : Prop where
  position : s.position ≤ s.queue.length
  offset : s.current? = none → s.offset = 0
  fallback : s.axis = .anywhere → s.fallback = []
  settled : s.Settled

theorem consistent_start {plan : Plan} (h : plan.axis = .anywhere → plan.fallback = [])
    (corpus pattern original : String) (limit : Nat) (mode : Mode) (context : Bool) :
    (start corpus pattern original plan limit mode context).Consistent where
  position := Nat.zero_le _
  offset := fun _ => rfl
  fallback := h
  settled := fun he => nomatch he

theorem Consistent.enter {s : Session} (h : s.Consistent) (hp : s.phase ≠ .exhausted) :
    s.enter.Consistent := by
  unfold Session.enter
  split
  · exact ⟨Nat.zero_le _, fun _ => rfl, fun _ => rfl, fun he => absurd he hp⟩
  · exact h

theorem place_receive (s : Session) (query : ShardQuery) (reply : Reply) :
    (s.receive query reply).session.position = s.position ∨
      (s.receive query reply).session.position = s.position + 1 ∧
        (s.receive query reply).session.offset = 0 := by
  have hmove : ∀ limit count, (s.move limit count).position = s.position ∨
      (s.move limit count).position = s.position + 1 ∧ (s.move limit count).offset = 0 := by
    intro limit count
    unfold move
    split
    · exact .inl rfl
    · exact .inr ⟨rfl, rfl⟩
  have hsettle : ∀ t : Session, t.settle.position = t.position ∧ t.settle.offset = t.offset := by
    intro t
    unfold settle
    split
    · exact ⟨rfl, rfl⟩
    · exact ⟨rfl, rfl⟩
  rcases s.receive_cases query reply with
    ⟨_, _, hr⟩ | ⟨_, _, _, hr⟩ | ⟨_, _, _, hr⟩ | ⟨answer, new, _, _, _, hr⟩ <;> rw [hr]
  · exact .inl rfl
  · exact .inr ⟨rfl, rfl⟩
  · exact hmove _ _
  · rw [Outcome.session, (hsettle _).1, (hsettle _).2]
    exact hmove _ _

theorem Consistent.receive {s : Session} (h : s.Consistent) (hp : s.phase ≠ .exhausted) {shard : Shard}
    (hc : s.current? = some shard) (query : ShardQuery) (reply : Reply) :
    (s.receive query reply).session.Consistent := by
  have hpass := samePass_receive s query reply
  have hlt : s.position < s.queue.length := (List.getElem?_eq_some_iff.1 hc).1
  refine ⟨?_, ?_, ?_, settled_receive hp query reply⟩
  · rw [hpass.queue]
    rcases place_receive s query reply with hpos | ⟨hpos, _⟩ <;> rw [hpos] <;> omega
  · intro hnone
    rcases place_receive s query reply with hpos | ⟨_, hoff⟩
    · rw [current?, hpass.queue, hpos] at hnone
      cases hc.symm.trans hnone
    · exact hoff
  · rw [hpass.axis, hpass.fallback]
    exact h.fallback

theorem Consistent.finish {s t : Session} (h : s.Consistent) (hn : s.next flush = .finish t) :
    t.Consistent ∧ t.phase = .exhausted ∧ t.isDone = true := by
  obtain ⟨rfl, hd⟩ := exhaust_of_finish h.settled hn
  exact ⟨⟨h.position, h.offset, h.fallback, fun _ => hd⟩, rfl, hd⟩

theorem Consistent.ask {s t : Session} {query : ShardQuery} (h : s.Consistent)
    (hn : s.next flush = .ask t query) (reply : Reply) :
    t.phase ≠ .exhausted ∧ (t.receive query reply).session.Consistent := by
  obtain ⟨hp, _, rfl, shard, hc, rfl⟩ := next_eq_ask hn
  have hpe : s.enter.phase ≠ .exhausted := by rwa [phase_enter]
  exact ⟨hpe, (h.enter hp).receive hpe hc _ reply⟩

/-- The second pass is never left again. -/
theorem axis_of_ask {s t : Session} {query : ShardQuery} (hn : s.next flush = .ask t query)
    (reply : Reply) (ha : s.axis = .anywhere) : (t.receive query reply).session.axis = .anywhere := by
  obtain ⟨_, _, rfl, _⟩ := next_eq_ask hn
  rw [(samePass_receive s.enter query reply).axis]
  unfold Session.enter
  split
  · rfl
  · exact ha

theorem phase_settle_iff {s : Session} (h : s.phase ≠ .exhausted) :
    s.settle.phase = .exhausted ↔ s.settle.isDone = true := by
  constructor
  · exact settled_settle h
  · intro hd
    unfold settle at hd ⊢
    split
    · rfl
    · next hn => rw [if_neg hn] at hd; exact absurd hd hn

theorem phase_of_batch {s t : Session} {query : ShardQuery} {reply : Reply} {batch : Option Batch}
    (hp : s.phase ≠ .exhausted) (hr : s.receive query reply = .stop (.ok batch) t) :
    t.phase = .exhausted ↔ t.isDone = true := by
  rcases s.receive_cases query reply with
    ⟨_, _, he⟩ | ⟨_, _, _, he⟩ | ⟨_, _, _, he⟩ | ⟨_, _, _, _, _, he⟩ <;> rw [he] at hr <;> cases hr
  apply phase_settle_iff
  exact fun hx => hp ((phase_move s _ _).symm.trans hx)

theorem Consistent.call {s t : Session} {world after : σ} {exchanges : List Exchange}
    {result : Except Interruption (Option Batch)} (h : s.Consistent)
    (hc : Call engine flush s world exchanges result t after) :
    t.Consistent ∧ (s.axis = .anywhere → t.axis = .anywhere) ∧
      ∀ batch, result = .ok batch → (t.phase = .exhausted ↔ t.isDone = true) := by
  induction hc with
  | finish hn =>
    obtain ⟨ht, hp, hd⟩ := h.finish hn
    obtain ⟨rfl, _⟩ := exhaust_of_finish h.settled hn
    exact ⟨ht, fun ha => ha, fun _ _ => iff_of_true hp hd⟩
  | @stop s t u world query result hn hr =>
    obtain ⟨hp, hu⟩ := h.ask hn (engine.answer query world).1
    have hx := axis_of_ask hn (engine.answer query world).1
    rw [hr] at hu hx
    refine ⟨hu, hx, ?_⟩
    rintro batch rfl
    exact phase_of_batch hp hr
  | @proceed s t u v world after query exchanges result hn hr _ ih =>
    obtain ⟨_, hu⟩ := h.ask hn (engine.answer query world).1
    have hx := axis_of_ask hn (engine.answer query world).1
    rw [hr] at hu hx
    obtain ⟨hv, hxv, hphase⟩ := ih hu
    exact ⟨hv, fun ha => hxv (hx ha), hphase⟩

theorem Consistent.run {s t : Session} {world after : σ} {turns : List Turn} (h : s.Consistent)
    (hr : Run engine flush s world turns t after) :
    t.Consistent ∧ (s.axis = .anywhere → t.axis = .anywhere) := by
  induction hr with
  | nil => exact ⟨h, id⟩
  | cons hc _ ih =>
    obtain ⟨ht, hx, _⟩ := h.call hc
    obtain ⟨hu, hxu⟩ := ih ht
    exact ⟨hu, fun ha => hxu (hx ha)⟩

theorem querying_of_broken {s t : Session} {world after : σ} {exchanges : List Exchange}
    {interruption : Interruption}
    (hc : Call engine flush s world exchanges (.error interruption) t after) :
    t.phase = .querying ∧ t.delivered < t.limit ∧ ∃ shard, t.current? = some shard := by
  obtain ⟨_, _, _, _, _, _, _, hn⟩ := hc.broken
  obtain ⟨hp, hl, _, shard, hcur, _⟩ := next_eq_ask hn
  refine ⟨?_, hl, shard, hcur⟩
  cases hphase : t.phase with
  | querying => rfl
  | exhausted => exact absurd hphase hp

theorem next_of_exhausted {s : Session} (h : s.phase = .exhausted) : s.next flush = .finish s :=
  if_pos h

theorem no_sends_of_exhausted {s : Session} (h : s.phase = .exhausted) {world : σ}
    {before : List Exchange} {query : ShardQuery} : ¬ Sends engine flush s world before query := by
  intro hs
  cases hs with
  | first hn => rw [next_of_exhausted h] at hn; cases hn
  | later hn => rw [next_of_exhausted h] at hn; cases hn

/-- Every session of a run stands in its queue or right behind it, and never goes back from the second
pass. A call that returns leaves it exhausted just when no further query can bring hits, and one that
an outage breaks off leaves it at the shard of the query without an answer. An exhausted session
sends no query and stays as it is. -/
theorem phase_of_run {corpus : Corpus} {signature : Option Signature} {selection : List String}
    {plan : Plan} (hp : corpus.plan signature selection = .ok plan) {id pattern original : String}
    {limit : Nat} {mode : Mode} {context : Bool} {world between : σ} {turns : List Turn} {t : Session}
    (h : Run engine flush (start id pattern original plan limit mode context) world turns t between) :
    t.position ≤ t.queue.length ∧ (t.current? = none → t.offset = 0) ∧
    (t.axis = .anywhere → t.fallback = []) ∧
    (∀ later u after, Run engine flush t between later u after →
      t.axis = .anywhere → u.axis = .anywhere) ∧
    (∀ exchanges batch u after, Call engine flush t between exchanges (.ok batch) u after →
      (u.phase = .exhausted ↔
        u.limit ≤ u.delivered ∨ u.current? = none ∧ u.fallbackPending = false)) ∧
    (∀ exchanges interruption u after,
      Call engine flush t between exchanges (.error interruption) u after →
      u.phase = .querying ∧ u.delivered < u.limit ∧ ∃ shard, u.current? = some shard) ∧
    (t.phase = .exhausted → ∀ world, search engine flush t world = some (.ok none, t, world) ∧
      ∀ before query, ¬ Sends engine flush t world before query) := by
  obtain ⟨components, _, rfl⟩ := Corpus.plan_eq_ok hp
  have hs := consistent_start (corpus.fallback_planFor signature components) id pattern original limit
    mode context
  obtain ⟨ht, _⟩ := hs.run h
  refine ⟨ht.position, ht.offset, ht.fallback, ?_, ?_, ?_, ?_⟩
  · intro later u after hr
    exact (ht.run hr).2
  · intro exchanges batch u after hc
    rw [(ht.call hc).2.2 batch rfl]
    exact isDone_iff
  · intro exchanges interruption u after hc
    exact querying_of_broken hc
  · intro hx world
    have hcall : Call engine flush t world [] (.ok none) t world := .finish (next_of_exhausted hx)
    exact ⟨hcall.search, fun before query => no_sends_of_exhausted hx⟩

def samplePruned : Corpus where
  id := "c"
  shards := [⟨"db", 1, "A", none⟩, ⟨"db", 1, "B", none⟩, ⟨"db", 1, "C", none⟩]
  groups := []
  multiple := true
  metadata := []
  index := some ⟨[("nphd%n", ["B", "C"])]⟩

theorem phase_of_run_sample :
    ∃ turns t between, samplePruned.plan (some ⟨"nphd%n"⟩) [] = .ok samplePlan ∧
      Run ScriptEngine.engine 2 (start "c" "node" "node" samplePlan 3 .normal false) sampleScript
        turns t between ∧
      t.axis = .anywhere ∧ t.fallback = [] ∧ t.phase = .exhausted ∧
      search ScriptEngine.engine 2 t between = some (.ok none, t, between) := by
  have hp : samplePruned.plan (some ⟨"nphd%n"⟩) [] = .ok samplePlan := rfl
  -- a full answer, an outage, a short answer and a failure, and the second pass up to the limit
  have h : Run ScriptEngine.engine 2 (start "c" "node" "node" samplePlan 3 .normal false)
      sampleScript [_, _, _] _ _ :=
    .cons (.stop rfl rfl) (.cons (.stop rfl rfl) (.cons (.proceed rfl rfl (.proceed rfl rfl
      (.stop rfl rfl))) .nil))
  obtain ⟨_, _, hfallback, _, _, _, hend⟩ := phase_of_run hp h
  exact ⟨_, _, _, hp, h, rfl, hfallback rfl, rfl, (hend rfl _).1⟩

end Session
end TreebankSearch

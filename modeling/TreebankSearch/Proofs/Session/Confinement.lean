import TreebankSearch.Proofs.Session.Drain
import TreebankSearch.Proofs.Session.Query

/-!
# Sessions confined to a corpus

A session asks the shards of its two queues and no others. Nothing else is assumed of it here: it may
stand beyond the end of its queue, have delivered more than its limit, or know ids that no engine
has. From any such session on, the queries stay in the corpus, no query is larger than `flush`, and
the rows that are delivered have room below the limit.
-/

namespace TreebankSearch.Session

variable {σ : Type} {engine : Engine σ} {flush : Nat} {corpus : Corpus}

/-- Both queues of the session hold shards of the corpus only. -/
def Confined (corpus : Corpus) (s : Session) : Prop :=
  ∀ shard ∈ s.queue ++ s.fallback, shard ∈ corpus.shards

theorem Confined.same {s t : Session} (h : s.Confined corpus) (hs : s.SamePass t) :
    t.Confined corpus := by
  rw [Confined, hs.queue, hs.fallback]
  exact h

theorem Confined.enter {s : Session} (h : s.Confined corpus) : s.enter.Confined corpus := by
  unfold Session.enter
  split
  · intro shard hm
    rw [fallBack, List.append_nil] at hm
    exact h shard (List.mem_append_right _ hm)
  · exact h

theorem Confined.current {s : Session} (h : s.Confined corpus) {shard : Shard}
    (hc : s.current? = some shard) : shard ∈ corpus.shards :=
  h shard (List.mem_append_left _ (List.mem_of_getElem? hc))

structure Permits (corpus : Corpus) (flush : Nat) (query : ShardQuery) : Prop where
  shard : query.shard ∈ corpus.shards
  positive : 1 ≤ query.limit
  bounded : query.limit ≤ max flush 1

theorem Confined.ask {s t : Session} {query : ShardQuery} (h : s.Confined corpus)
    (hn : s.next flush = .ask t query) : t.Confined corpus ∧ Permits corpus flush query := by
  obtain ⟨_, hl, rfl, shard, hc, rfl⟩ := next_eq_ask hn
  have hroom : s.enter.limit - s.enter.delivered = s.limit - s.delivered := room_enter s
  refine ⟨h.enter, h.enter.current hc, ?_, ?_⟩
  · simp only [query]
    omega
  · exact Nat.min_le_right _ _

theorem Confined.proceed {s t u : Session} {query : ShardQuery} {reply : Reply}
    (h : s.Confined corpus) (hn : s.next flush = .ask t query)
    (hr : t.receive query reply = .proceed u) : u.Confined corpus := by
  have hu := (h.ask hn).1.same (samePass_receive t query reply)
  rwa [hr] at hu

theorem Confined.sends {s : Session} {world : σ} {before : List Exchange} {query : ShardQuery}
    (h : s.Confined corpus) (hs : Sends engine flush s world before query) :
    Permits corpus flush query := by
  induction hs with
  | first hn => exact (h.ask hn).2
  | later hn hr _ ih => exact ih (h.proceed hn hr)

theorem Confined.call {s t : Session} {world after : σ} {exchanges : List Exchange} {batch : Batch}
    (h : s.Confined corpus)
    (hc : Call engine flush s world exchanges (.ok (some batch)) t after) : t.Confined corpus := by
  generalize hres : (Except.ok (some batch) : Except Interruption (Option Batch)) = result at hc
  induction hc with
  | finish => cases hres
  | @stop s t u world query result hn hr =>
    have hu := (h.ask hn).1.same (samePass_receive t query (engine.answer query world).1)
    rwa [hr] at hu
  | proceed hn hr _ ih => exact ih (h.proceed hn hr) hres

theorem Confined.run {s t : Session} {world after : σ} {turns : List Turn} (h : s.Confined corpus)
    (hr : Run engine flush s world turns t after)
    (hb : ∀ turn ∈ turns, ∃ batch, turn.result = .ok (some batch)) : t.Confined corpus := by
  induction hr with
  | nil => exact h
  | cons hc _ ih =>
    obtain ⟨⟨batch, rfl⟩, hrest⟩ := List.forall_mem_cons.1 hb
    exact ih (h.call hc) hrest

theorem length_of_receive_stop {s t : Session} {query : ShardQuery} {reply : Reply} {batch : Batch}
    (h : s.receive query reply = .stop (.ok (some batch)) t) : batch.rows.length ≤ query.limit := by
  rcases s.receive_cases query reply with
    ⟨_, _, hr⟩ | ⟨_, _, _, hr⟩ | ⟨_, _, _, hr⟩ | ⟨answer, _, _, rfl, _, hr⟩ <;> rw [hr] at h <;> cases h
  exact Nat.le_trans (length_newRows_le _ _) (List.length_take_le _ _)

theorem Call.room {s t : Session} {world after : σ} {exchanges : List Exchange} {batch : Batch}
    (h : Call engine flush s world exchanges (.ok (some batch)) t after) :
    batch.rows.length ≤ max flush 1 ∧ batch.rows.length + t.room = s.room := by
  generalize hres : (Except.ok (some batch) : Except Interruption (Option Batch)) = result at h
  induction h with
  | finish => cases hres
  | @stop s t u world query result hn hr =>
    subst hres
    have hlen := length_of_receive_stop hr
    obtain ⟨_, hroom⟩ := room_of_receive_stop hr
    obtain ⟨_, _, rfl, shard, _, rfl⟩ := next_eq_ask hn
    have he : s.enter.limit - s.enter.delivered = s.room := room_enter s
    simp only [query] at hlen
    rw [room_enter] at hroom
    omega
  | @proceed s t u v world after query exchanges result hn hr _ ih =>
    obtain ⟨_, _, rfl, _⟩ := next_eq_ask hn
    rw [← room_enter s, ← room_of_receive_proceed hr]
    exact ih hres

theorem length_drain_le (n : Nat) {s t : Session} {world after : σ} {batches : List Batch}
    (hn : s.room = n) (h : drain engine flush s world = (.ok batches, t, after)) :
    (batches.flatMap Batch.rows).length ≤ s.room := by
  -- on the room: what one batch has taken of it is gone for those that follow
  induction n using Nat.strongRecOn generalizing s world batches with
  | ind n ih =>
    rcases hb : nextBatch engine flush s world with ⟨result, u, between⟩
    match result with
    | .error _ =>
      rw [drain_of_error hb] at h
      cases h
    | .ok none =>
      rw [drain_of_none hb] at h
      cases h
      exact Nat.zero_le _
    | .ok (some batch) =>
      rw [drain_of_some hb] at h
      have hs := search_of_nextBatch hb
      obtain ⟨_, hc⟩ := search_eq_some_iff.1 hs
      obtain ⟨_, hroom⟩ := hc.room
      have hlt : u.room < n := hn ▸ room_of_search hs rfl
      rcases hd : drain engine flush u between with ⟨rest, v, last⟩
      rw [hd] at h
      cases rest with
      | error _ => cases h
      | ok rest =>
        cases h
        have hrest := ih _ hlt rfl hd
        rw [List.flatMap_cons, List.length_append]
        omega

section Agreement

variable {other : Engine σ}
variable (ha : ∀ query world, Permits corpus flush query →
  other.answer query world = engine.answer query world)

include ha

theorem Confined.call_agree {s t : Session} {world after : σ} {exchanges : List Exchange}
    {result : Except Interruption (Option Batch)} (h : s.Confined corpus)
    (hc : Call engine flush s world exchanges result t after) :
    Call other flush s world exchanges result t after := by
  induction hc with
  | finish hn => exact .finish hn
  | stop hn hr =>
    rw [← ha _ _ (h.ask hn).2] at hr ⊢
    exact .stop hn hr
  | proceed hn hr _ ih =>
    have hc := ih (h.proceed hn hr)
    rw [← ha _ _ (h.ask hn).2] at hr hc ⊢
    exact .proceed hn hr hc

theorem Confined.nextBatch_agree {s : Session} (h : s.Confined corpus) (world : σ) :
    nextBatch other flush s world = nextBatch engine flush s world := by
  have hsearch : Session.search other flush s world = Session.search engine flush s world := by
    apply Option.ext
    rintro ⟨result, t, after⟩
    rw [search_eq_some_iff, search_eq_some_iff]
    constructor
    · rintro ⟨exchanges, hc⟩
      exact ⟨exchanges, h.call_agree (fun query world hp => (ha query world hp).symm) hc⟩
    · rintro ⟨exchanges, hc⟩
      exact ⟨exchanges, h.call_agree ha hc⟩
  rw [nextBatch, nextBatch, hsearch]

theorem Confined.drain_agree (n : Nat) {s : Session} (h : s.Confined corpus) (world : σ)
    (hn : s.room = n) : drain other flush s world = drain engine flush s world := by
  induction n using Nat.strongRecOn generalizing s world with
  | ind n ih =>
    rcases hb : nextBatch engine flush s world with ⟨result, u, between⟩
    have ho := (h.nextBatch_agree ha world).trans hb
    match result with
    | .error _ => rw [drain_of_error hb, drain_of_error ho]
    | .ok none => rw [drain_of_none hb, drain_of_none ho]
    | .ok (some batch) =>
      have hs := search_of_nextBatch hb
      obtain ⟨_, hc⟩ := search_eq_some_iff.1 hs
      have hlt : u.room < n := hn ▸ room_of_search hs rfl
      rw [drain_of_some hb, drain_of_some ho, ih _ hlt (h.call hc) between rfl]

end Agreement

end TreebankSearch.Session

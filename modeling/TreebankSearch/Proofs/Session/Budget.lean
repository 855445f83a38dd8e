import TreebankSearch.Proofs.Session.Drain
import TreebankSearch.Proofs.Session.Query

/-!
# How long a call takes

A call stays on a shard as long as its answers are full, and the rows of an answer may all be known already.
Still it comes to an end against an engine in memory, whatever session it is given: each query takes
rows away that are due, or the shard itself. For the same reason none of the counters of a session runs
over: an offset grows only within a list, and a position only within a queue.
-/

namespace TreebankSearch

namespace MemoryEngine

variable {m : MemoryEngine}

/-- The number of queries that a visit of the shards may take: for each shard one for every row, and
one that brings none. -/
def budget (m : MemoryEngine) : List Shard → Nat
  | [] => 0
  | shard :: shards => (m.rowsOf shard.component).length + 1 + m.budget shards

theorem budget_append (m : MemoryEngine) (shards more : List Shard) :
    m.budget (shards ++ more) = m.budget shards + m.budget more := by
  induction shards with
  | nil => exact (Nat.zero_add _).symm
  | cons shard shards ih =>
    rw [List.cons_append, budget, budget, ih]
    omega

theorem length_getD_holdings_le (m : MemoryEngine) (pattern component : String) :
    ((m.holdings pattern component).getD []).length ≤ (m.rowsOf component).length := by
  unfold holdings
  split
  · exact Nat.zero_le _
  · exact Nat.le_refl _

theorem length_listing_le (m : MemoryEngine) (pattern : String) (shards : List Shard) :
    (listing m.holdings pattern shards).length + shards.length ≤ m.budget shards := by
  induction shards with
  | nil => exact Nat.le_refl _
  | cons shard shards ih =>
    have hrows := m.length_getD_holdings_le pattern shard.component
    simp only [listing, budget, List.flatMap_cons, List.length_append, List.length_map,
      List.length_cons] at ih ⊢
    omega

theorem offset_le (h : m.Fits) {query : ShardQuery} {answer : List Row} (hl : 0 < query.limit)
    (ha : (engine.answer query m).1 = .ok answer) (hfull : query.limit ≤ answer.length) :
    query.offset + query.limit ≤ maxNumber := by
  have hrows := length_rowsOf_le h query.shard.component
  simp only [engine, MemoryEngine.answer] at ha
  split at ha
  · cases ha
  split at ha
  · cases ha
  · cases ha
    rw [List.length_take, List.length_drop] at hfull
    omega

theorem Fits.answer (h : m.Fits) (query : ShardQuery) : (engine.answer query m).2.Fits := by
  unfold engine MemoryEngine.answer
  simp only
  split
  · exact h
  · exact h

end MemoryEngine

namespace Session

variable {flush : Nat}

theorem length_rowsFrom_le (held : Holdings) (pattern : String) (offset : Nat) (shards : List Shard) :
    (rowsFrom held pattern offset shards).length ≤ (listing held pattern shards).length := by
  cases shards with
  | nil => exact Nat.le_refl _
  | cons shard shards =>
    simp only [rowsFrom, listing, List.flatMap_cons, List.length_append, List.length_map,
      List.length_drop]
    omega

theorem work_le_budget (m : MemoryEngine) (s : Session) : s.work m.holdings ≤ m.budget s.ahead := by
  have hrows := length_rowsFrom_le m.holdings s.queryPattern s.offset (s.queue.drop s.position)
  have hqueue := m.length_listing_le s.queryPattern (s.queue.drop s.position)
  unfold work due ahead
  rw [m.budget_append, List.length_append, List.length_append]
  cases hp : s.fallbackPending with
  | false =>
    simp only [Bool.false_eq_true, if_false, List.length_nil]
    omega
  | true =>
    have hfallback := m.length_listing_le (Axis.anywhere.place s.pattern) s.fallback
    simp only [if_true]
    omega

theorem exists_call_off {m : MemoryEngine} (h : m.switchedOff = true) (flush : Nat) (s : Session) :
    ∃ exchanges result t after, Call MemoryEngine.engine flush s m exchanges result t after ∧
      exchanges.length ≤ s.work m.holdings := by
  cases hq : s.next flush with
  | finish t => exact ⟨[], _, t, m, .finish hq, Nat.zero_le _⟩
  | ask t query =>
    have ha : (MemoryEngine.engine.answer query m).1 =
        .error (.unavailable "memory engine switched off") := by
      simp [MemoryEngine.engine, MemoryEngine.answer, h]
    have hrec : t.receive query (MemoryEngine.engine.answer query m).1 =
        .stop (.error (.engineUnavailable "memory engine switched off")) t := by
      rw [ha]
      rfl
    exact ⟨_, _, t, _, .stop hq hrec, work_pos _ hq⟩

/-- The sums that a session forms when it takes in a reply are numbers of 64 bits. -/
structure SumsFit (s : Session) (query : ShardQuery) (reply : Reply) : Prop where
  position : s.position + 1 ≤ maxNumber
  offset : ∀ answer, reply = .ok answer → query.limit ≤ answer.length →
    s.offset + query.limit ≤ maxNumber
  delivered : ∀ answer, reply = .ok answer →
    s.delivered + (newRows s.already (answer.take query.limit)).length ≤ maxNumber

structure Sized (s : Session) : Prop where
  queue : s.queue.length ≤ maxNumber
  position : s.position ≤ maxNumber
  offset : s.offset ≤ maxNumber
  fallback : s.fallback.length ≤ maxNumber
  limit : s.limit ≤ maxNumber
  delivered : s.delivered ≤ maxNumber

theorem Sized.enter {s : Session} (h : s.Sized) : s.enter.Sized := by
  unfold Session.enter
  split
  · exact { h with
      queue := h.fallback
      position := Nat.zero_le _
      offset := Nat.zero_le _
      fallback := Nat.zero_le _ }
  · exact h

theorem Sized.exhaust {s : Session} (h : s.Sized) : s.exhaust.Sized := { h with }

theorem Sized.settle {s : Session} (h : s.Sized) : s.settle.Sized := by
  unfold Session.settle
  split
  · exact h.exhaust
  · exact h

theorem Sized.finish {s t : Session} (h : s.Sized) (hn : s.next flush = .finish t) : t.Sized := by
  rcases next_eq_finish hn with ⟨_, rfl⟩ | ⟨_, rfl⟩ | ⟨_, rfl⟩
  · exact h
  · exact h.exhaust
  · exact h.enter.exhaust

theorem Sized.ask {s t : Session} (h : s.Sized) {m : MemoryEngine} (hm : m.Fits) {query : ShardQuery}
    (hn : s.next flush = .ask t query) :
    t.Sized ∧ t.SumsFit query (MemoryEngine.engine.answer query m).1 := by
  obtain ⟨_, hl, rfl, shard, hc, rfl⟩ := next_eq_ask hn
  have hroom : 0 < s.enter.room := by
    rw [room_enter]
    exact Nat.sub_pos_of_lt hl
  have hlimit : (s.enter.query flush shard).limit ≤ s.enter.room := Nat.min_le_left _ _
  refine ⟨h.enter, ?_, ?_, ?_⟩
  · have hlt := (List.getElem?_eq_some_iff.1 hc).1
    have := h.enter.queue
    omega
  · intro answer ha hfull
    have hpos : 0 < (s.enter.query flush shard).limit := by
      change 0 < min s.enter.room (max flush 1)
      omega
    exact MemoryEngine.offset_le hm hpos ha hfull
  · intro answer _
    have hnew := length_newRows_le s.enter.already (answer.take (s.enter.query flush shard).limit)
    have := h.enter.limit
    rw [List.length_take] at hnew
    unfold room at hroom hlimit
    omega

theorem Sized.move {s : Session} (h : s.Sized) {query : ShardQuery} {answer : List Row}
    (hs : s.SumsFit query (.ok answer)) :
    (s.move query.limit (answer.take query.limit).length).Sized := by
  unfold Session.move
  split
  · next hfull =>
    rw [List.length_take] at hfull
    exact { h with offset := hs.offset answer rfl (by omega) }
  · exact { h with position := hs.position, offset := Nat.zero_le _ }

theorem Sized.receive {s : Session} (h : s.Sized) {query : ShardQuery} {reply : Reply}
    (hs : s.SumsFit query reply) : (s.receive query reply).session.Sized := by
  rcases s.receive_cases query reply with
    ⟨_, _, hr⟩ | ⟨_, _, _, hr⟩ | ⟨answer, rfl, _, hr⟩ | ⟨answer, new, rfl, hnew, _, hr⟩ <;> rw [hr]
  · exact h
  · exact { h with position := hs.position, offset := Nat.zero_le _ }
  · exact h.move hs
  · apply Sized.settle
    refine { h.move hs with delivered := ?_ }
    have hsum := hs.delivered answer rfl
    rw [← hnew, ← (shifted_move s query.limit (answer.take query.limit).length).delivered] at hsum
    exact hsum

theorem Sized.step {s t : Session} (h : s.Sized) {m : MemoryEngine} (hm : m.Fits) {query : ShardQuery}
    (hn : s.next flush = .ask t query) :
    (t.receive query (MemoryEngine.engine.answer query m).1).session.Sized := by
  obtain ⟨ht, hs⟩ := h.ask hm hn
  exact ht.receive hs

theorem Sized.asks {s t : Session} (h : s.Sized) {m : MemoryEngine} (hm : m.Fits) {query : ShardQuery}
    {reply : Reply} (ha : Asks MemoryEngine.engine flush s m t query reply) :
    t.SumsFit query reply := by
  induction ha with
  | first hn => exact (h.ask hm hn).2
  | later hn hr _ ih =>
    have hu := h.step hm hn
    rw [hr] at hu
    exact ih hu (hm.answer _)

theorem Sized.call {s t : Session} (h : s.Sized) {m after : MemoryEngine} (hm : m.Fits)
    {exchanges : List Exchange} {result : Except Interruption (Option Batch)}
    (hc : Call MemoryEngine.engine flush s m exchanges result t after) : t.Sized := by
  induction hc with
  | finish hn => exact h.finish hn
  | stop hn hr =>
    have hu := h.step hm hn
    rw [hr] at hu
    exact hu
  | proceed hn hr _ ih =>
    have hu := h.step hm hn
    rw [hr] at hu
    exact ih hu (hm.answer _)

/-- A call on an engine in memory returns after no more queries than the shards ahead have rows, and one
more for each shard, whatever the session is. If the lists of the engine and the numbers of the session
are in range, then so are the sums that the call forms and the numbers of the session that it leaves. -/
theorem call_within_budget (m : MemoryEngine) (flush : Nat) (s : Session) :
    (∃ exchanges result t after, Call MemoryEngine.engine flush s m exchanges result t after ∧
      nextBatch MemoryEngine.engine flush s m = (result, t, after) ∧
      exchanges.length ≤ m.budget s.ahead ∧ (m.Fits → s.Sized → t.Sized)) ∧
    (m.Fits → s.Sized → ∀ {t query reply},
      Asks MemoryEngine.engine flush s m t query reply → t.SumsFit query reply) := by
  have hcall : ∃ exchanges result t after,
      Call MemoryEngine.engine flush s m exchanges result t after ∧
        exchanges.length ≤ s.work m.holdings := by
    cases hoff : m.switchedOff with
    | false =>
      obtain ⟨exchanges, batch, t, after, hcall, hlen, _⟩ :=
        exists_call m.engine_holds flush _ (MemoryEngine.like_refl hoff) rfl
      exact ⟨exchanges, .ok batch, t, after, hcall, hlen⟩
    | true => exact exists_call_off hoff flush s
  obtain ⟨exchanges, result, t, after, hcall, hlen⟩ := hcall
  have hbudget := Nat.le_trans hlen (work_le_budget m s)
  exact ⟨⟨exchanges, result, t, after, hcall, hcall.nextBatch, hbudget, fun hm hs => hs.call hm hcall⟩,
    fun hm hs => hs.asks hm⟩

def sampleEdited : Session where
  corpus := "c"
  pattern := "node"
  originalPattern := "node"
  queue := [⟨"db", 1, "B", none⟩, ⟨"db", 1, "C", none⟩]
  position := 0
  offset := maxNumber
  already := ["a1"]
  axis := .root
  fallback := [⟨"db", 1, "A", none⟩]
  mode := .normal
  limit := maxNumber
  delivered := maxNumber - 1
  context := false
  phase := .querying

theorem call_within_budget_sample :
    sampleEngine.Fits ∧ sampleEdited.Sized ∧
    (∃ exchanges result t after,
      Call MemoryEngine.engine 2 sampleEdited sampleEngine exchanges result t after ∧
      nextBatch MemoryEngine.engine 2 sampleEdited sampleEngine = (result, t, after) ∧
      exchanges.length ≤ 8 ∧ t.Sized) ∧
    ∀ {t query reply}, Asks MemoryEngine.engine 2 sampleEdited sampleEngine t query reply →
      t.SumsFit query reply := by
  have hm : sampleEngine.Fits := by simp [MemoryEngine.Fits, sampleEngine, maxNumber]
  have hs : sampleEdited.Sized := by
    constructor <;> simp [sampleEdited, maxNumber]
  obtain ⟨⟨exchanges, result, t, after, hcall, hbatch, hbudget, ht⟩, hsums⟩ :=
    call_within_budget sampleEngine 2 sampleEdited
  exact ⟨hm, hs, ⟨exchanges, result, t, after, hcall, hbatch, hbudget, ht hm hs⟩, hsums hm hs⟩

end Session
end TreebankSearch

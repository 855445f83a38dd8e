import TreebankSearch.Proofs.Session.Listing
import TreebankSearch.Proofs.Session.Run

/-!
# Draining a session

Against an engine that holds fixed lists, the hits that a session still has to deliver can be told from
the session alone. A call takes its batch from the front of them and leaves the rest, whatever the
flush size, so that draining a fresh session gives what its plan lists, each id once, up to the limit.
-/

namespace TreebankSearch.Session

variable {σ : Type} {engine : Engine σ} {held : Holdings} {worlds : σ → Prop} {flush : Nat}

def rowsFrom (held : Holdings) (pattern : String) (offset : Nat) : List Shard → List Sourced
  | [] => []
  | shard :: shards =>
    (((held pattern shard.component).getD []).drop offset).map (shard.component, ·) ++
      listing held pattern shards

/-- The rows that a session has not asked for yet. -/
def due (held : Holdings) (s : Session) : List Sourced :=
  rowsFrom held s.queryPattern s.offset (s.queue.drop s.position) ++
    if s.fallbackPending then listing held (Axis.anywhere.place s.pattern) s.fallback else []

/-- The hits that a session still has to deliver. -/
def outstanding (held : Holdings) (s : Session) : List Sourced :=
  (Sourced.fresh s.already (s.due held)).take s.room

def work (held : Holdings) (s : Session) : Nat := (s.due held).length + s.ahead.length

def Settled (s : Session) : Prop := s.phase = .exhausted → s.isDone = true

theorem rowsFrom_zero (held : Holdings) (pattern : String) (shards : List Shard) :
    rowsFrom held pattern 0 shards = listing held pattern shards := by
  cases shards <;> rfl

theorem drop_of_current {s : Session} {shard : Shard} (hc : s.current? = some shard) :
    s.queue.drop s.position = shard :: s.queue.drop (s.position + 1) := by
  obtain ⟨hp, he⟩ := List.getElem?_eq_some_iff.1 hc
  rw [List.drop_eq_getElem_cons hp, he]

theorem drop_of_no_current {s : Session} (hc : s.current? = none) :
    s.queue.drop s.position = [] :=
  List.drop_of_length_le (List.getElem?_eq_none_iff.1 hc)

theorem due_advance {s : Session} {shard : Shard} (hc : s.current? = some shard) :
    s.due held =
      (((held s.queryPattern shard.component).getD []).drop s.offset).map (shard.component, ·) ++
        s.advance.due held := by
  unfold due
  rw [drop_of_current hc, rowsFrom, List.append_assoc, ← rowsFrom_zero]
  rfl

theorem due_move {s : Session} {shard : Shard} (hc : s.current? = some shard) {rows : List Row}
    (hr : held s.queryPattern shard.component = some rows) (limit : Nat) :
    s.due held = ((rows.drop s.offset).take limit).map (shard.component, ·) ++
      (s.move limit ((rows.drop s.offset).take limit).length).due held := by
  unfold move
  split
  · have hs : s.due held = ((rows.drop s.offset).take limit).map (shard.component, ·) ++
        ((rows.drop (s.offset + limit)).map (shard.component, ·) ++ s.advance.due held) := by
      rw [due_advance hc, hr, ← List.append_assoc, ← List.map_append, ← List.drop_drop,
        List.take_append_drop]
      rfl
    rw [hs, due_advance (s := { s with offset := s.offset + limit }) hc]
    simp only [queryPattern] at hr ⊢
    rw [hr]
    rfl
  · next hn =>
    have hl : (rows.drop s.offset).length ≤ limit := by
      rw [List.length_take] at hn
      omega
    rw [List.take_of_length_le hl, due_advance hc, hr]
    rfl

theorem ahead_advance {s : Session} {shard : Shard} (hc : s.current? = some shard) :
    s.ahead = shard :: s.advance.ahead := by
  simp only [ahead, drop_of_current hc, List.cons_append]
  rfl

theorem work_advance {s : Session} {shard : Shard} (hc : s.current? = some shard) :
    s.advance.work held < s.work held := by
  simp only [work, due_advance hc, ahead_advance hc, List.length_append, List.length_cons]
  omega

theorem work_move {s : Session} {shard : Shard} (hc : s.current? = some shard) {rows : List Row}
    (hr : held s.queryPattern shard.component = some rows) {limit : Nat} (hl : 0 < limit) :
    (s.move limit ((rows.drop s.offset).take limit).length).work held < s.work held := by
  by_cases hn : ((rows.drop s.offset).take limit).length = limit
  · have hd := congrArg List.length (due_move hc hr limit)
    rw [List.length_append, List.length_map, hn] at hd
    rw [hn, work, work, hd, move, if_pos rfl]
    have ha : ({ s with offset := s.offset + limit } : Session).ahead = s.ahead := rfl
    rw [ha]
    omega
  · rw [move, if_neg hn]
    exact work_advance hc

theorem fallbackPending_fallBack (s : Session) : s.fallBack.fallbackPending = false := by
  simp [fallbackPending, fallBack]

theorem due_enter (s : Session) : s.enter.due held = s.due held := by
  unfold enter
  split
  · next h =>
    rw [Bool.and_eq_true, Option.isNone_iff_eq_none] at h
    rw [due, due, drop_of_no_current h.1, if_pos h.2, fallbackPending_fallBack]
    exact (List.append_nil _).trans (rowsFrom_zero _ _ _)
  · rfl

theorem ahead_enter (s : Session) : s.enter.ahead = s.ahead := by
  unfold enter
  split
  · next h =>
    rw [Bool.and_eq_true, Option.isNone_iff_eq_none] at h
    rw [ahead, ahead, drop_of_no_current h.1, if_pos h.2, fallbackPending_fallBack]
    exact List.append_nil _
  · rfl

theorem work_enter (s : Session) : s.enter.work held = s.work held := by
  rw [work, work, due_enter, ahead_enter]

theorem isDone_iff {s : Session} : s.isDone = true ↔
    s.limit ≤ s.delivered ∨ s.current? = none ∧ s.fallbackPending = false := by
  simp [isDone]

theorem enter_of_no_current {s : Session} (hc : s.enter.current? = none) :
    s.enter = s ∧ s.current? = none ∧ s.fallbackPending = false := by
  unfold enter at hc ⊢
  split at hc
  · next h =>
    rw [Bool.and_eq_true, fallbackPending] at h
    simp only [current?, fallBack, List.getElem?_eq_none_iff, Nat.le_zero,
      List.length_eq_zero_iff] at hc
    simp [hc] at h
  · next h =>
    rw [Bool.and_eq_true, Option.isNone_iff_eq_none, not_and, Bool.not_eq_true] at h
    simp [hc, h hc]

theorem due_of_no_current {s : Session} (hc : s.current? = none) (hp : s.fallbackPending = false) :
    s.due held = [] := by
  simp [due, drop_of_no_current hc, rowsFrom, hp]

theorem outstanding_deliver {s t : Session} {component : String} {rows : List Row}
    (hd : s.due held = rows.map (component, ·) ++ t.due held) (ha : t.already = s.already)
    (hr : t.room = s.room) (hl : rows.length ≤ s.room) :
    s.outstanding held = (newRows s.already rows).map (component, ·) ++
      (t.deliver (newRows s.already rows)).outstanding held := by
  have hn := Nat.le_trans (length_newRows_le s.already rows) hl
  have hdue : (t.deliver (newRows s.already rows)).due held = t.due held := rfl
  have hids : (t.deliver (newRows s.already rows)).already =
      s.already ++ ((newRows s.already rows).map (component, ·)).map (·.2.id) := by
    simp [deliver, ha]
  rw [outstanding, outstanding, hd, hdue, hids, Sourced.fresh_append, Sourced.fresh_map,
    List.take_append, List.take_of_length_le (by simpa using hn), room_deliver, hr,
    List.length_map]

theorem outstanding_settle (s : Session) : s.settle.outstanding held = s.outstanding held := by
  unfold settle
  split <;> rfl

theorem outstanding_of_isDone (held : Holdings) {s : Session} (h : s.isDone = true) : s.outstanding held = [] := by
  rcases isDone_iff.1 h with h | ⟨hc, hp⟩
  · have hr : s.room = 0 := Nat.sub_eq_zero_of_le h
    rw [outstanding, hr, List.take_zero]
  · rw [outstanding, due_of_no_current hc hp]
    exact List.take_nil

theorem settled_settle {s : Session} (h : s.phase ≠ .exhausted) : s.settle.Settled := by
  intro hp
  unfold settle at hp ⊢
  split
  · next hd => exact hd
  · next hd => rw [if_neg hd] at hp; exact absurd hp h

theorem phase_enter (s : Session) : s.enter.phase = s.phase := by
  unfold enter
  split <;> rfl

theorem phase_move (s : Session) (limit count : Nat) : (s.move limit count).phase = s.phase := by
  unfold move
  split <;> rfl

/-- What a call that ends with `batch` has done about the hits that were outstanding. -/
def Accounts (held : Holdings) (s t : Session) : Option Batch → Prop
  | none => s.outstanding held = [] ∧ t.phase = .exhausted
  | some batch => s.outstanding held = batch.sourced ++ t.outstanding held

theorem exhaust_of_finish {s t : Session} (hs : s.Settled) (h : s.next flush = .finish t) :
    t = s.exhaust ∧ s.isDone = true := by
  rcases next_eq_finish h with ⟨hp, rfl⟩ | ⟨hl, rfl⟩ | ⟨hc, rfl⟩
  · refine ⟨?_, hs hp⟩
    rw [exhaust, ← hp]
  · exact ⟨rfl, isDone_iff.2 (.inl hl)⟩
  · obtain ⟨he, hc, hp⟩ := enter_of_no_current hc
    rw [he]
    exact ⟨rfl, isDone_iff.2 (.inr ⟨hc, hp⟩)⟩

theorem accounts_finish (held : Holdings) {s t : Session} (hs : s.Settled) (h : s.next flush = .finish t) :
    t.Settled ∧ Accounts held s t none := by
  obtain ⟨rfl, hd⟩ := exhaust_of_finish hs h
  exact ⟨fun _ => hd, outstanding_of_isDone held hd, rfl⟩

/-- One answer either leads on, with less work and the same hits outstanding, or gives a batch. -/
theorem receive_accounts (he : engine.Holds held worlds) {world : σ} (hw : worlds world)
    (flush : Nat) {s : Session} {shard : Shard} (hc : s.current? = some shard) (hp : s.phase ≠ .exhausted)
    (hr : 0 < s.room) :
    (∃ t, s.receive (s.query flush shard) (engine.answer (s.query flush shard) world).1 =
        .proceed t ∧ t.Settled ∧ t.work held < s.work held ∧
        s.outstanding held = t.outstanding held) ∨
    (∃ batch t, s.receive (s.query flush shard) (engine.answer (s.query flush shard) world).1 =
        .stop (.ok (some batch)) t ∧ t.Settled ∧ Accounts held s t (some batch)) := by
  cases hh : held s.queryPattern shard.component with
  | none =>
    obtain ⟨id, message, ha⟩ := he.failure (s.query flush shard) hw hh
    rw [ha]
    refine .inl ⟨s.advance, rfl, fun h => absurd h hp, work_advance hc, ?_⟩
    rw [outstanding, due_advance hc, hh, Option.getD_none, List.drop_nil]
    rfl
  | some rows =>
    have hl : 0 < (s.query flush shard).limit := by
      change 0 < min s.room (max flush 1)
      omega
    have ha := he.slice (s.query flush shard) hw hh
    rw [ha]
    have ht : ((rows.drop s.offset).take (s.query flush shard).limit).length ≤ s.room :=
      Nat.le_trans (List.length_take_le _ _) (Nat.min_le_left _ _)
    have ho := outstanding_deliver (due_move hc hh (s.query flush shard).limit)
      (shifted_move _ _ _).already (room_move _ _ _) ht
    have htake : ((rows.drop s.offset).take (s.query flush shard).limit).take
        (s.query flush shard).limit = (rows.drop s.offset).take (s.query flush shard).limit :=
      List.take_take.trans (by rw [Nat.min_self])
    rcases s.receive_cases (s.query flush shard)
        (.ok ((rows.drop s.offset).take (s.query flush shard).limit)) with
      ⟨_, h, _⟩ | ⟨_, _, h, _⟩ | ⟨answer, h, hn, hrec⟩ | ⟨answer, new, h, hn, hne, hrec⟩
    · cases h
    · cases h
    · cases h
      rw [htake] at hn hrec
      rw [hn, deliver_nil, List.map_nil, List.nil_append] at ho
      refine .inl ⟨_, hrec, fun h => absurd ((phase_move _ _ _).symm.trans h) hp,
        work_move hc hh hl, ho⟩
    · cases h
      rw [htake] at hn hrec
      refine .inr ⟨_, _, hrec, settled_settle ?_, ?_⟩
      · change (s.move _ _).phase ≠ _
        rw [phase_move]
        exact hp
      · subst hn
        rw [Accounts, outstanding_settle]
        exact ho

theorem work_pos (held : Holdings) {s t : Session} {query : ShardQuery}
    (h : s.next flush = .ask t query) : 0 < s.work held := by
  obtain ⟨_, _, rfl, shard, hc, _⟩ := next_eq_ask h
  have hless : s.enter.advance.work held < s.enter.work held := work_advance hc
  rw [work_enter] at hless
  exact Nat.zero_lt_of_lt hless

/-- Every call returns, after no more queries than there is work, and its batch comes from the front of
the hits that are outstanding. -/
theorem exists_call (he : engine.Holds held worlds) (flush n : Nat) {s : Session} {world : σ}
    (hw : worlds world) (hn : s.work held = n) :
    ∃ exchanges batch t after, Call engine flush s world exchanges (.ok batch) t after ∧
      exchanges.length ≤ n ∧ worlds after ∧ (s.Settled → t.Settled ∧ Accounts held s t batch) := by
  -- on the work that is left: an answer that brings nothing new has still taken some of it away
  induction n using Nat.strongRecOn generalizing s world with
  | ind n ih =>
    cases hq : s.next flush with
    | finish t =>
      exact ⟨[], none, t, world, .finish hq, Nat.zero_le _, hw, fun hs => accounts_finish held hs hq⟩
    | ask t query =>
      have hpos := work_pos held hq
      obtain ⟨hp, hl, rfl, shard, hc, rfl⟩ := next_eq_ask hq
      have ho : s.outstanding held = s.enter.outstanding held := by
        rw [outstanding, outstanding, (shifted_enter s).already, due_enter, room_enter]
      have hr : 0 < s.enter.room := by
        rw [room_enter]
        exact Nat.sub_pos_of_lt hl
      have hw' := he.stays (s.enter.query flush shard) hw
      rcases receive_accounts he hw flush hc (by rwa [phase_enter]) hr with
        ⟨u, hrec, hu, hless, hout⟩ | ⟨batch, u, hrec, hu, hout⟩
      · rw [work_enter, hn] at hless
        obtain ⟨exchanges, batch, v, after, hcall, hlen, hva, hacc⟩ := ih _ hless hw' rfl
        refine ⟨_, batch, v, after, .proceed hq hrec hcall, Nat.lt_of_le_of_lt hlen hless, hva, ?_⟩
        intro _
        obtain ⟨hvs, hacc⟩ := hacc hu
        refine ⟨hvs, ?_⟩
        cases batch with
        | none => exact ⟨(ho.trans hout).trans hacc.1, hacc.2⟩
        | some batch => exact (ho.trans hout).trans hacc
      · rw [hn] at hpos
        exact ⟨_, some batch, u, _, .stop hq hrec, hpos, hw', fun _ => ⟨hu, ho.trans hout⟩⟩

theorem nextBatch_accounts (he : engine.Holds held worlds) (flush : Nat) {s : Session} {world : σ}
    (hw : worlds world) (hs : s.Settled) :
    ∃ batch t after, nextBatch engine flush s world = (.ok batch, t, after) ∧
      worlds after ∧ t.Settled ∧ Accounts held s t batch := by
  obtain ⟨exchanges, batch, t, after, hcall, _, hwa, hacc⟩ := exists_call he flush _ hw rfl
  exact ⟨batch, t, after, hcall.nextBatch, hwa, hacc hs⟩

theorem drain_accounts (he : engine.Holds held worlds) (flush n : Nat) {s : Session} {world : σ}
    (hw : worlds world) (hs : s.Settled) (hn : s.room = n) :
    ∃ batches t after, drain engine flush s world = (.ok batches, t, after) ∧
      worlds after ∧ t.phase = .exhausted ∧
      batches.flatMap Batch.sourced = s.outstanding held := by
  -- on the drained room: no batch is empty, so each leaves less of it
  induction n using Nat.strongRecOn generalizing s world with
  | ind n ih =>
    obtain ⟨batch, t, after, h, hwa, hts, hacc⟩ := nextBatch_accounts he flush hw hs
    cases batch with
    | none => exact ⟨[], t, after, drain_of_none h, hwa, hacc.2, hacc.1.symm⟩
    | some batch =>
      have hroom : t.room < n := by
        rw [← hn]
        exact room_of_search (search_of_nextBatch h) rfl
      obtain ⟨batches, u, last, hd, hwl, hul, hout⟩ := ih _ hroom hwa hts rfl
      refine ⟨batch :: batches, u, last, by rw [drain_of_some h, hd]; rfl, hwl, hul, ?_⟩
      rw [List.flatMap_cons, hout]
      exact hacc.symm

theorem outstanding_start (held : Holdings) (corpus pattern original : String) (plan : Plan)
    (limit : Nat) (mode : Mode) (context : Bool) :
    (start corpus pattern original plan limit mode context).outstanding held =
      (Sourced.distinct (plan.listing held pattern)).take limit := by
  have hd : (start corpus pattern original plan limit mode context).due held =
      plan.listing held pattern := by
    obtain ⟨axis, shards, fallback⟩ := plan
    cases axis with
    | anywhere =>
      rw [Plan.listing, ← Axis.place_anywhere]
      exact (List.append_nil _).trans (rowsFrom_zero _ _ _)
    | root =>
      rw [Plan.listing, ← Axis.place_anywhere, ← Axis.place_root]
      cases fallback with
      | nil => exact congrArg (· ++ []) (rowsFrom_zero _ _ _)
      | cons shard more => exact congrArg (· ++ listing _ _ _) (rowsFrom_zero _ _ _)
  rw [outstanding, hd, ← Sourced.fresh_nil]
  rfl

/-- Draining a fresh session gives what its plan lists, each id once, up to the limit: the flush size
plays no part, and each batch names the component that its rows come from. -/
theorem drain_start (he : engine.Holds held worlds) {world : σ} (hw : worlds world) (flush : Nat)
    (corpus pattern original : String) (plan : Plan) (limit : Nat) (mode : Mode) (context : Bool) :
    ∃ batches t after,
      (start corpus pattern original plan limit mode context).drain engine flush world =
        (.ok batches, t, after) ∧
      t.phase = .exhausted ∧ batches.flatMap Batch.sourced =
        (Sourced.distinct (plan.listing held pattern)).take limit := by
  have hs : (start corpus pattern original plan limit mode context).Settled := fun h => by cases h
  obtain ⟨batches, t, after, hd, _, ht, ho⟩ := drain_accounts he flush _ hw hs rfl
  exact ⟨batches, t, after, hd, ht, ho.trans (outstanding_start held _ _ _ _ _ _ _)⟩

def sampleHoldings : Holdings := fun pattern component =>
  [(("/node", "B"), [{ id := "b1" }, { id := "a2" }]),
    (("//node", "A"), [{ id := "a1" }, { id := "a2" }]),
    (("//node", "B"), [{ id := "b1" }, { id := "b2" }, { id := "b3" }])].lookup (pattern, component)

def sampleEngine : MemoryEngine where
  rows := ⟨[("A", [{ id := "a1" }, { id := "a2" }]),
    ("B", [{ id := "b1" }, { id := "a2" }, { id := "b3" }])]⟩
  failing := ["C"]
  switchedOff := false
  received := []

def samplePlan : Plan where
  axis := .root
  shards := [⟨"db", 1, "B", none⟩, ⟨"db", 1, "C", none⟩]
  fallback := [⟨"db", 1, "A", none⟩, ⟨"db", 1, "B", none⟩, ⟨"db", 1, "C", none⟩]

theorem drain_start_sample :
    sampleHoldings.engine.Holds sampleHoldings (fun _ => True) ∧
    ∃ batches t after,
      (start "c" " ///node " "node" samplePlan 4 .normal false).drain sampleHoldings.engine 2 () =
        (.ok batches, t, after) ∧
      t.phase = .exhausted ∧ batches.flatMap Batch.sourced =
        [("B", { id := "b1" }), ("B", { id := "a2" }), ("A", { id := "a1" }),
          ("B", { id := "b2" })] := by
  have he := sampleHoldings.engine_holds
  refine ⟨he, ?_⟩
  have hl : (Sourced.distinct (samplePlan.listing sampleHoldings " ///node ")).take 4 =
      [("B", { id := "b1" }), ("B", { id := "a2" }), ("A", { id := "a1" }),
        ("B", { id := "b2" })] := by decide
  rw [← hl]
  exact drain_start he trivial 2 "c" " ///node " "node" samplePlan 4 .normal false

end TreebankSearch.Session

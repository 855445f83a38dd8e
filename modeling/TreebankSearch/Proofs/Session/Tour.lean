import TreebankSearch.Proofs.Session.Delivery
import TreebankSearch.Proofs.Session.Itinerary
import TreebankSearch.Proofs.Session.Outage
import TreebankSearch.Proofs.Session.Query

/-!
# The tour of a session

Whatever the engine answers, the queries of a session follow the itinerary of its plan. They cover each
shard without a gap and without an overlap, from offset zero up to an answer that is not full, and a
session comes to its end only at its limit or when every shard of every pass has been left.
-/

namespace TreebankSearch.Session

variable {σ : Type} {engine : Engine σ} {flush limit : Nat} {plan : Plan} {pattern : String}
variable {context : Bool} {rows : List Row} {exchanges : List Exchange}

def exchangesOf (turns : List Turn) : List Exchange := turns.flatMap Turn.exchanges

structure At (plan : Plan) (spot : Spot) (s : Session) : Prop where
  queue : s.queue = plan.queue spot.pass
  axis : s.axis = plan.passAxis spot.pass
  fallback : spot.pass = .first → s.fallback = plan.fallback
  position : s.position = spot.position
  offset : s.offset = spot.offset

theorem at_start (corpus pattern original : String) (plan : Plan) (limit : Nat) (mode : Mode)
    (context : Bool) :
    (start corpus pattern original plan limit mode context).At plan ⟨.first, 0, 0⟩ where
  queue := rfl
  axis := rfl
  fallback := fun _ => rfl
  position := rfl
  offset := rfl

theorem At.shift {s t : Session} {spot : Spot} (h : s.At plan spot) (hs : s.SamePass t) :
    t.At plan ⟨spot.pass, t.position, t.offset⟩ where
  queue := hs.queue.trans h.queue
  axis := hs.axis.trans h.axis
  fallback := fun hp => hs.fallback.trans (h.fallback hp)
  position := rfl
  offset := rfl

theorem At.current {s : Session} {spot : Spot} (h : s.At plan spot) :
    s.current? = (plan.queue spot.pass)[spot.position]? := by
  rw [current?, h.queue, h.position]

theorem At.pending_iff {s : Session} {spot : Spot} (h : s.At plan spot) :
    s.fallbackPending = true ↔ spot.pass = .first ∧ plan.queue .second ≠ [] := by
  cases hp : spot.pass with
  | first =>
    have ha : s.axis = plan.axis := by rw [h.axis, hp]; rfl
    rw [fallbackPending, ha, h.fallback hp, Plan.queue]
    split
    · next hr => simp [hr]
    · next hr => simp [hr]
  | second =>
    have ha : s.axis = .anywhere := by rw [h.axis, hp]; rfl
    simp [fallbackPending, ha]

theorem At.reach_eq_none {s : Session} {spot : Spot} (h : s.At plan spot) (hc : s.current? = none)
    (hp : s.fallbackPending = false) : plan.reach spot = none := by
  have hl : ¬ spot.position < (plan.queue spot.pass).length :=
    Nat.not_lt_of_le (List.getElem?_eq_none_iff.1 (h.current.symm.trans hc))
  have hn : ¬ (spot.pass = .first ∧ plan.queue .second ≠ []) := by
    rw [← h.pending_iff, hp]
    exact Bool.false_ne_true
  rw [Plan.reach, if_neg hl, if_neg hn]

theorem At.enter {s : Session} {spot : Spot} (h : s.At plan spot) :
    (∃ next, plan.reach spot = some next ∧ s.enter.At plan next) ∨
      plan.reach spot = none ∧ s.enter.current? = none := by
  cases hc : s.current? with
  | some shard =>
    have hl := (List.getElem?_eq_some_iff.1 (h.current.symm.trans hc)).1
    exact .inl ⟨spot, Plan.reach_of_lt hl, by rwa [enter_of_current hc]⟩
  | none =>
    cases hp : s.fallbackPending with
    | false =>
      have he : s.enter = s := if_neg (by simp [hp])
      exact .inr ⟨h.reach_eq_none hc hp, by rw [he, hc]⟩
    | true =>
      obtain ⟨hfirst, hne⟩ := h.pending_iff.1 hp
      have he : s.enter = s.fallBack := if_pos (by simp [hc, hp])
      have hl : ¬ spot.position < (plan.queue spot.pass).length :=
        Nat.not_lt_of_le (List.getElem?_eq_none_iff.1 (h.current.symm.trans hc))
      have hroot : plan.axis = .root := by
        by_contra hr
        exact hne (if_neg hr)
      refine .inl ⟨⟨.second, 0, 0⟩, ?_, ?_⟩
      · rw [Plan.reach, if_neg hl, if_pos ⟨hfirst, hne⟩]
      · rw [he]
        refine ⟨?_, rfl, (fun hs => nomatch hs), rfl, rfl⟩
        rw [Plan.queue, if_pos hroot]
        exact h.fallback hfirst

theorem At.query {s : Session} {spot : Spot} (h : s.At plan spot) {shard : Shard}
    (hc : s.current? = some shard) (flush : Nat) :
    plan.queryAt s.pattern s.context (min (max flush 1) s.room) spot =
      some (s.query flush shard) := by
  rw [h.current] at hc
  rw [Plan.queryAt, hc, Session.query, queryPattern, h.axis, Plan.place_passAxis, h.offset,
    Nat.min_comm]
  rfl

theorem At.move {s : Session} {spot : Spot} (h : s.At plan spot)
    (hlt : spot.position < (plan.queue spot.pass).length) (query : ShardQuery) (answer : List Row)
    {t : Session} (ht : t = s.move query.limit (answer.take query.limit).length) :
    plan.reach ⟨spot.pass, t.position, t.offset⟩ = plan.onward spot (query, .ok answer) := by
  by_cases hfull : query.limit ≤ answer.length
  · have hm : t = { s with offset := s.offset + query.limit } :=
      ht.trans (if_pos (List.length_take_of_le hfull))
    rw [hm, Plan.onward]
    simp only [if_pos hfull, h.position, h.offset]
    exact Plan.reach_of_lt hlt
  · have hm : t = s.advance := by
      rw [ht]
      apply if_neg
      rw [List.length_take]
      omega
    rw [hm, Plan.onward]
    simp only [if_neg hfull, advance, h.position]
    rfl

theorem At.receive {s : Session} {spot : Spot} (h : s.At plan spot) {shard : Shard}
    (hc : s.current? = some shard) (query : ShardQuery) (reply : Reply) :
    ∃ next, (s.receive query reply).session.At plan next ∧
      plan.reach next = plan.onward spot (query, reply) := by
  have hlt : spot.position < (plan.queue spot.pass).length :=
    (List.getElem?_eq_some_iff.1 (h.current.symm.trans hc)).1
  refine ⟨_, h.shift (samePass_receive s query reply), ?_⟩
  rcases s.receive_cases query reply with
    ⟨_, rfl, hr⟩ | ⟨_, _, rfl, hr⟩ | ⟨answer, rfl, _, hr⟩ | ⟨answer, new, rfl, _, _, hr⟩ <;> rw [hr]
  · simp only [Outcome.session, h.position, h.offset]
    exact Plan.reach_of_lt hlt
  · simp only [Outcome.session, advance, h.position]
    rfl
  · exact h.move hlt query answer rfl
  · rw [← h.move hlt query answer rfl]
    simp only [Outcome.session]
    unfold settle
    split <;> rfl

def gainedBy : Outcome → List Row
  | .proceed _ => []
  | .stop result _ => gained result

theorem Records.receive {s : Session} (h : s.Records limit rows) (flush : Nat) (shard : Shard)
    (reply : Reply) :
    (s.receive (s.query flush shard) reply).session.Records limit
      (rows ++ gainedBy (s.receive (s.query flush shard) reply)) := by
  cases hr : s.receive (s.query flush shard) reply with
  | proceed t =>
    rw [gainedBy, List.append_nil]
    exact h.shift (shifted_of_proceed hr)
  | stop result t => exact (h.stop hr).1

theorem settled_receive {s : Session} (hp : s.phase ≠ .exhausted) (query : ShardQuery)
    (reply : Reply) : (s.receive query reply).session.Settled := by
  rcases s.receive_cases query reply with
    ⟨_, _, hr⟩ | ⟨_, _, _, hr⟩ | ⟨answer, _, _, hr⟩ | ⟨answer, new, _, _, _, hr⟩ <;> rw [hr]
  · exact fun he => absurd he hp
  · exact fun he => absurd he hp
  · exact fun he => absurd ((phase_move _ _ _).symm.trans he) hp
  · apply settled_settle
    exact fun he => hp ((phase_move _ _ _).symm.trans he)

/-- The session is where the itinerary of the plan is after `exchanges`, and has delivered `rows`. -/
structure Tours (plan : Plan) (pattern : String) (context : Bool) (limit : Nat) (rows : List Row)
    (exchanges : List Exchange) (s : Session) : Prop where
  records : s.Records limit rows
  settled : s.Settled
  pattern : s.pattern = pattern
  context : s.context = context
  spot : ∃ spot, s.At plan spot ∧ plan.reach spot = plan.spotAfter exchanges

theorem tours_start (corpus pattern original : String) (plan : Plan) (limit : Nat) (mode : Mode)
    (context : Bool) :
    (start corpus pattern original plan limit mode context).Tours plan pattern context limit []
      [] where
  records := records_start corpus pattern original plan limit mode context
  settled := fun he => nomatch he
  pattern := rfl
  context := rfl
  spot := ⟨_, at_start corpus pattern original plan limit mode context, rfl⟩

/-- A query is the one for the spot of the itinerary, and no reply leads away from the itinerary. -/
theorem Tours.step {s t : Session} {query : ShardQuery}
    (h : s.Tours plan pattern context limit rows exchanges) (hn : s.next flush = .ask t query)
    (reply : Reply) :
    (plan.spotAfter exchanges).bind
        (plan.queryAt pattern context (min (max flush 1) (limit - rows.length))) = some query ∧
      (t.receive query reply).session.Tours plan pattern context limit
        (rows ++ gainedBy (t.receive query reply)) (exchanges ++ [(query, reply)]) := by
  obtain ⟨hp, _, rfl, shard, hc, rfl⟩ := next_eq_ask hn
  obtain ⟨spot, hat, hreach⟩ := h.spot
  rcases hat.enter with ⟨here, hhere, hat⟩ | ⟨_, hnone⟩
  · have hs := shifted_enter s
    have hrec := h.records.shift hs
    have hpattern := hs.pattern.trans h.pattern
    have hcontext := hs.context.trans h.context
    rw [hhere] at hreach
    constructor
    · have hq := hat.query hc flush
      rw [hpattern, hcontext, room, hrec.cap, hrec.delivered] at hq
      rw [← hreach, Option.bind_some, hq]
    · have hsame := samePass_receive s.enter (s.enter.query flush shard) reply
      obtain ⟨next, hnext, hon⟩ := hat.receive hc (s.enter.query flush shard) reply
      refine ⟨hrec.receive flush shard reply, settled_receive (by rwa [phase_enter]) _ _,
        hsame.pattern.trans hpattern, hsame.context.trans hcontext, next, hnext, ?_⟩
      rw [hon, Plan.spotAfter_concat, ← hreach, Option.bind_some]
  · rw [hnone] at hc
    cases hc

/-- A session that finishes has reached its limit or the end of the itinerary. -/
theorem Tours.finish {s t : Session} (h : s.Tours plan pattern context limit rows exchanges)
    (hn : s.next flush = .finish t) :
    t.Tours plan pattern context limit rows exchanges ∧
      (rows.length = limit ∨ plan.spotAfter exchanges = none) := by
  obtain ⟨rfl, hd⟩ := exhaust_of_finish h.settled hn
  obtain ⟨spot, hat, hreach⟩ := h.spot
  refine ⟨⟨h.records.shift (shifted_exhaust s), fun _ => hd, h.pattern, h.context, spot,
    ⟨hat.queue, hat.axis, hat.fallback, hat.position, hat.offset⟩, hreach⟩, ?_⟩
  rcases isDone_iff.1 hd with hl | ⟨hc, hp⟩
  · have hw := h.records.within
    rw [h.records.cap, h.records.delivered] at hl
    exact .inl (Nat.le_antisymm hw hl)
  · exact .inr (hreach.symm.trans (hat.reach_eq_none hc hp))

theorem Tours.proceed {s t u : Session} {query : ShardQuery} {reply : Reply}
    (h : s.Tours plan pattern context limit rows exchanges) (hn : s.next flush = .ask t query)
    (hr : t.receive query reply = .proceed u) :
    u.Tours plan pattern context limit rows (exchanges ++ [(query, reply)]) := by
  have hu := (h.step hn reply).2
  rwa [hr, gainedBy, List.append_nil] at hu

theorem Tours.sends {s : Session} {world : σ} {before : List Exchange} {query : ShardQuery}
    (h : s.Tours plan pattern context limit rows exchanges)
    (hs : Sends engine flush s world before query) :
    (plan.spotAfter (exchanges ++ before)).bind
      (plan.queryAt pattern context (min (max flush 1) (limit - rows.length))) = some query := by
  induction hs generalizing exchanges with
  | first hn =>
    rw [List.append_nil]
    exact (h.step hn (.ok [])).1
  | later hn hr _ ih =>
    have hq := ih (h.proceed hn hr)
    rwa [List.append_assoc] at hq

theorem Tours.call {s t : Session} {world after : σ} {own : List Exchange}
    {result : Except Interruption (Option Batch)}
    (h : s.Tours plan pattern context limit rows exchanges)
    (hc : Call engine flush s world own result t after) :
    t.Tours plan pattern context limit (rows ++ gained result) (exchanges ++ own) ∧
      (result = .ok none → rows.length = limit ∨ plan.spotAfter (exchanges ++ own) = none) := by
  induction hc generalizing exchanges with
  | finish hn =>
    rw [gained, List.append_nil, List.append_nil]
    obtain ⟨ht, hend⟩ := h.finish hn
    exact ⟨ht, fun _ => hend⟩
  | @stop s t u world query result hn hr =>
    have hu := (h.step hn (engine.answer query world).1).2
    rw [hr] at hu
    refine ⟨hu, ?_⟩
    rintro rfl
    rcases t.receive_cases query (engine.answer query world).1 with
      ⟨_, _, he⟩ | ⟨_, _, _, he⟩ | ⟨_, _, _, he⟩ | ⟨_, _, _, _, _, he⟩ <;> rw [he] at hr <;> cases hr
  | proceed hn hr _ ih =>
    have hv := ih (h.proceed hn hr)
    rwa [List.append_assoc] at hv

theorem Tours.run {s t : Session} {world after : σ} {turns : List Turn}
    (h : s.Tours plan pattern context limit rows exchanges)
    (hr : Run engine flush s world turns t after) :
    t.Tours plan pattern context limit (rows ++ delivery turns) (exchanges ++ exchangesOf turns) := by
  induction hr generalizing rows exchanges with
  | nil => rwa [delivery, exchangesOf, List.flatMap_nil, List.flatMap_nil, List.append_nil,
      List.append_nil]
  | cons hc _ ih =>
    have ht := ih (h.call hc).1
    rwa [List.append_assoc, List.append_assoc] at ht

/-- The queries of a session are those of the itinerary of its plan, whatever the engine answers, and each
asks for as many rows as `flush` and what is left of the limit allow. A call that an outage breaks off is
followed by the query that had no answer. A call brings nothing only at the limit, or when the visit
of each shard in each pass has been ended by a short answer or an error. -/
theorem queries_of_run {corpus original : String} {mode : Mode} {world between : σ}
    {turns : List Turn} {t : Session}
    (h : Run engine flush (start corpus pattern original plan limit mode context) world turns t
      between) :
    (∀ before query, Sends engine flush t between before query →
      (plan.spotAfter (exchangesOf turns ++ before)).bind
        (plan.queryAt pattern context (min (max flush 1) (limit - (delivery turns).length))) =
          some query) ∧
    (∀ own message u after, Call engine flush t between own (.error (.engineUnavailable message)) u
      after → ∃ before query, own = before ++ [(query, .error (.unavailable message))] ∧
        ∀ (world : σ) other, Sends engine flush u world [] other ↔ other = query) ∧
    ∀ own u after, Call engine flush t between own (.ok none) u after →
      (delivery turns).length = limit ∨ ∀ pass position, position < (plan.queue pass).length →
        plan.Left (exchangesOf turns ++ own) pass position := by
  have ht := (tours_start corpus pattern original plan limit mode context).run h
  rw [List.nil_append, List.nil_append] at ht
  refine ⟨?_, ?_, ?_⟩
  · intro before query hs
    exact ht.sends hs
  · intro own message u after hc
    obtain ⟨_, _, before, query, cause, hi, hown, hn⟩ := hc.broken
    cases hi
    exact ⟨before, query, hown, fun world other => sends_nil_iff hn world⟩
  · intro own u after hc
    apply ((ht.call hc).2 rfl).imp_right
    intro hend pass position hp
    apply Plan.left_of_behind _ hp
    rw [hend]
    trivial

theorem queries_of_run_sample :
    ∃ first turns t between before query,
      Sends ScriptEngine.engine 2 (start "c" " //node" "node" samplePlan 3 .normal false) sampleScript []
        first ∧
      first = ⟨"/node", ⟨"db", 1, "B", none⟩, 0, 2, false⟩ ∧
      (samplePlan.spotAfter []).bind (samplePlan.queryAt " //node" false (min (max 2 1) 3)) =
        some first ∧
      Run ScriptEngine.engine 2 (start "c" " //node" "node" samplePlan 3 .normal false) sampleScript
        turns t between ∧
      Sends ScriptEngine.engine 2 t between before query ∧
      query = ⟨"//node", ⟨"db", 1, "A", none⟩, 0, 2, false⟩ ∧
      (samplePlan.spotAfter (exchangesOf turns ++ before)).bind
        (samplePlan.queryAt " //node" false (min (max 2 1) (3 - (delivery turns).length))) =
          some query ∧
      ∀ own u after, Call ScriptEngine.engine 2 t between own (.ok none) u after →
        (delivery turns).length = 3 ∨ ∀ pass position, position < (samplePlan.queue pass).length →
          samplePlan.Left (exchangesOf turns ++ own) pass position := by
  have hfirst : Sends ScriptEngine.engine 2 (start "c" " //node" "node" samplePlan 3 .normal false)
      sampleScript [] _ := .first rfl
  have hpruned := (queries_of_run .nil).1 _ _ hfirst
  -- a full answer and an outage, and then a short answer, a failure and the second pass
  have h : Run ScriptEngine.engine 2 (start "c" " //node" "node" samplePlan 3 .normal false)
      sampleScript [_, _] _ _ := .cons (.stop rfl rfl) (.cons (.stop rfl rfl) .nil)
  obtain ⟨hsends, _, hend⟩ := queries_of_run h
  have hlast := hsends _ _ (.later rfl rfl (.later rfl rfl (.first rfl)))
  exact ⟨_, _, _, _, _, _, hfirst, by decide, hpruned, h, .later rfl rfl (.later rfl rfl (.first rfl)),
    by decide, hlast, hend⟩

end TreebankSearch.Session

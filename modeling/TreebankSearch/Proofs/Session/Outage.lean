import TreebankSearch.Proofs.Engine
import TreebankSearch.Proofs.Session.Drain

/-!
# Outages during a run

A call that an outage breaks off may have got on by then, past shards that failed or had nothing new,
or into the second pass. It leaves a session that stands at the query without an answer and is the same
otherwise, so that the next call goes on as the broken one would have. A run with outages therefore
delivers what the run without them delivers, and leaves the same sessions.
-/

namespace TreebankSearch.Session

variable {σ : Type} {engine : Engine σ} {reply : ShardQuery → Reply} {worlds : σ → Prop}
variable {flush : Nat} {outage : Nat → Option String}

def Turn.delivered? (turn : Turn) : Option (Option Batch × Session) :=
  match turn.result with
  | .ok batch => some (batch, turn.session)
  | .error _ => none

def deliveries (turns : List Turn) : List (Option Batch × Session) := turns.filterMap Turn.delivered?

theorem enter_of_current {s : Session} {shard : Shard} (hc : s.current? = some shard) :
    s.enter = s := by
  unfold enter
  simp [hc]

theorem next_of_ask {s t : Session} {query : ShardQuery} (h : s.next flush = .ask t query) :
    t.next flush = .ask t query := by
  obtain ⟨hp, hl, rfl, shard, hc, rfl⟩ := next_eq_ask h
  have hs := shifted_enter s
  have hl : ¬ s.enter.limit ≤ s.enter.delivered := by
    rw [hs.limit, hs.delivered]
    omega
  rw [← phase_enter s] at hp
  rw [next, if_neg hp, if_neg hl, enter_of_current hc, hc]

theorem phase_of_proceed {s t : Session} {query : ShardQuery} {reply : Reply}
    (h : s.receive query reply = .proceed t) : t.phase = s.phase := by
  rcases s.receive_cases query reply with
    ⟨_, _, hr⟩ | ⟨_, _, _, hr⟩ | ⟨_, _, _, hr⟩ | ⟨_, _, _, _, _, hr⟩ <;> rw [hr] at h <;> cases h
  · rfl
  · exact phase_move s _ _

theorem eq_of_broken {s t : Session} {query : ShardQuery} {reply : Reply}
    {interruption : Interruption} (h : s.receive query reply = .stop (.error interruption) t) :
    t = s ∧ ∃ message, interruption = .engineUnavailable message ∧
      reply = .error (.unavailable message) := by
  rcases s.receive_cases query reply with
    ⟨message, ha, hr⟩ | ⟨_, _, _, hr⟩ | ⟨_, _, _, hr⟩ | ⟨_, _, _, _, _, hr⟩ <;>
    rw [hr] at h <;> cases h
  exact ⟨rfl, message, rfl, ha⟩

theorem Call.broken {s t : Session} {world after : σ} {exchanges : List Exchange}
    {interruption : Interruption}
    (h : Call engine flush s world exchanges (.error interruption) t after) :
    s.Shifted t ∧ t.phase = s.phase ∧ ∃ before query message,
      interruption = .engineUnavailable message ∧
      exchanges = before ++ [(query, .error (.unavailable message))] ∧
      t.next flush = .ask t query := by
  generalize hr : Except.error interruption = result at h
  induction h with
  | finish => cases hr
  | @stop s t u world query result hn hstop =>
    subst hr
    obtain ⟨_, _, rfl, _⟩ := next_eq_ask hn
    obtain ⟨rfl, message, hi, ha⟩ := eq_of_broken hstop
    rw [ha]
    exact ⟨shifted_enter s, phase_enter s, [], query, message, hi, rfl, next_of_ask hn⟩
  | @proceed s t u v world after query exchanges result hn hproceed _ ih =>
    obtain ⟨hs, hp, before, last, message, hi, rfl, hnext⟩ := ih hr
    obtain ⟨_, _, rfl, _⟩ := next_eq_ask hn
    refine ⟨((shifted_enter s).trans (shifted_of_proceed hproceed)).trans hs, ?_,
      (query, (engine.answer query world).1) :: before, last, message, hi, rfl, hnext⟩
    rw [hp, phase_of_proceed hproceed, phase_enter]

def Leads (engine : Engine σ) (flush : Nat) (s : Session) (world : σ) (t : Session) (between : σ) :
    Prop :=
  ∀ {exchanges : List Exchange} {result : Except Interruption (Option Batch)} {u : Session} {after : σ},
    Call engine flush t between exchanges result u after →
    ∃ more, Call engine flush s world more result u after

theorem leads_of_ask {s t : Session} {query : ShardQuery} (hn : s.next flush = .ask t query)
    (world : σ) : Leads engine flush s world t world := by
  intro exchanges result u after hc
  exact ⟨exchanges, hc.congr (hn.trans (next_of_ask hn).symm)⟩

/-- A call gets from `s` to `t`: it returns there, or goes on from there if it has been broken off. -/
def Reaches (engine : Engine σ) (flush : Nat) (s : Session) (world : σ) (t : Session) (between : σ) :
    Except Interruption (Option Batch) → Prop
  | .ok batch => ∃ exchanges, Call engine flush s world exchanges (.ok batch) t between
  | .error _ => Leads engine flush s world t between

theorem Reaches.proceed {s t u v : Session} {world between : σ} {query : ShardQuery}
    {result : Except Interruption (Option Batch)} (hn : s.next flush = .ask t query)
    (hr : t.receive query (engine.answer query world).1 = .proceed u)
    (h : Reaches engine flush u (engine.answer query world).2 v between result) :
    Reaches engine flush s world v between result := by
  cases result with
  | ok batch =>
    obtain ⟨exchanges, hc⟩ := h
    exact ⟨_, .proceed hn hr hc⟩
  | error interruption =>
    intro exchanges result w after hc
    obtain ⟨more, hm⟩ := h hc
    exact ⟨_, .proceed hn hr hm⟩

/-- What a call with outages reaches is reached without them as well. -/
theorem Call.uninterrupted (he : engine.Steady reply worlds) {s t : Session} {world after : σ × Nat}
    {exchanges : List Exchange} {result : Except Interruption (Option Batch)}
    (h : Call (engine.interrupted outage) flush s world exchanges result t after)
    (hw : worlds world.1) {calm : σ} (hc : worlds calm) :
    worlds after.1 ∧ ∃ last, worlds last ∧ Reaches engine flush s calm t last result := by
  induction h generalizing calm with
  | finish hn => exact ⟨hw, calm, hc, [], .finish hn⟩
  | @stop s t u world query result hn hr =>
    obtain ⟨ha, hreply⟩ := he.interrupted outage query hw hc
    refine ⟨ha, ?_⟩
    cases result with
    | error interruption =>
      obtain ⟨rfl, _⟩ := eq_of_broken hr
      exact ⟨calm, hc, leads_of_ask hn calm⟩
    | ok batch =>
      rcases hreply with ⟨message, hout⟩ | hup
      · rw [hout] at hr
        cases hr
      · rw [hup] at hr
        exact ⟨_, he.stays query hc, _, .stop hn hr⟩
  | @proceed s t u v world after query exchanges result hn hr _ ih =>
    obtain ⟨hb, hreply⟩ := he.interrupted outage query hw hc
    rcases hreply with ⟨message, hout⟩ | hup
    · rw [hout] at hr
      cases hr
    · rw [hup] at hr
      obtain ⟨ha, last, hl, hreach⟩ := ih hb (he.stays query hc)
      exact ⟨ha, last, hl, hreach.proceed hn hr⟩

theorem Run.uninterrupted (he : engine.Steady reply worlds) {s t : Session} {world after : σ × Nat}
    {turns : List Turn} (h : Run (engine.interrupted outage) flush s world turns t after)
    (hw : worlds world.1) {calm : σ} (hc : worlds calm) :
    ∃ quiet u last, Run engine flush s calm quiet u last ∧ deliveries quiet = deliveries turns := by
  induction h generalizing calm with
  | nil => exact ⟨[], _, calm, .nil, rfl⟩
  | @cons s t u world between after exchanges result turns hcall _ ih =>
    obtain ⟨hb, last, hl, hreach⟩ := hcall.uninterrupted he hw hc
    obtain ⟨quiet, v, final, hrun, hd⟩ := ih hb hl
    cases result with
    | ok batch =>
      obtain ⟨more, hok⟩ := hreach
      exact ⟨_, v, final, .cons hok hrun, congrArg (List.cons _) hd⟩
    | error interruption =>
      -- the calls after the outage are those of the run without outages, the first of them from here
      cases hrun with
      | nil => exact ⟨[], s, calm, .nil, hd⟩
      | cons hfirst hrest =>
        obtain ⟨more, hfirst⟩ := hreach hfirst
        exact ⟨_, v, final, .cons hfirst hrest, hd⟩

theorem call_out {s t : Session} {query : ShardQuery} (hn : s.next flush = .ask t query)
    {world : σ × Nat} {message : String} (ho : outage world.2 = some message) :
    Call (engine.interrupted outage) flush s world [(query, .error (.unavailable message))]
      (.error (.engineUnavailable message)) t (world.1, world.2 + 1) := by
  have ha : (engine.interrupted outage).answer query world = _ := Engine.interrupted_out query ho
  have hr : t.receive query ((engine.interrupted outage).answer query world).1 =
      .stop (.error (.engineUnavailable message)) t := by
    rw [ha]
    rfl
  have hc := Call.stop hn hr
  rwa [ha] at hc

theorem Call.stop_up (he : engine.Steady reply worlds) {s t u : Session} {query : ShardQuery}
    {result : Except Interruption (Option Batch)} {calm world : σ} {n : Nat}
    (hn : s.next flush = .ask t query)
    (hr : t.receive query (engine.answer query calm).1 = .stop result u) (hc : worlds calm)
    (hw : worlds world) (ho : outage n = none) :
    Call (engine.interrupted outage) flush s (world, n) [(query, (engine.answer query calm).1)]
      result u ((engine.answer query world).2, n + 1) := by
  have ha := he.answer_up query hc hw ho
  have hcall : Call (engine.interrupted outage) flush s (world, n) _ result u _ :=
    .stop hn (by rw [ha]; exact hr)
  rwa [ha] at hcall

theorem Call.proceed_up (he : engine.Steady reply worlds) {s t u v : Session} {query : ShardQuery}
    {exchanges : List Exchange} {result : Except Interruption (Option Batch)} {calm world : σ}
    {after : σ × Nat} {n : Nat} (hn : s.next flush = .ask t query)
    (hr : t.receive query (engine.answer query calm).1 = .proceed u) (hc : worlds calm)
    (hw : worlds world) (ho : outage n = none)
    (h : Call (engine.interrupted outage) flush u ((engine.answer query world).2, n + 1) exchanges
      result v after) :
    Call (engine.interrupted outage) flush s (world, n)
      ((query, (engine.answer query calm).1) :: exchanges) result v after := by
  have ha := he.answer_up query hc hw ho
  have hcall : Call (engine.interrupted outage) flush s (world, n) _ result v after :=
    .proceed hn (by rw [ha]; exact hr) (by rw [ha]; exact h)
  rwa [ha] at hcall

/-- The attempts at a query that find the engine out of reach are over some time, and none of them
delivers anything. -/
theorem exists_up (engine : Engine σ) {s t : Session} {query : ShardQuery}
    (hn : s.next flush = .ask t query) (world : σ) (k n : Nat) (hk : outage (n + k) = none) :
    ∃ turns u m, Run (engine.interrupted outage) flush s (world, n) turns u (world, m) ∧
      deliveries turns = [] ∧ outage m = none ∧ u.next flush = .ask t query := by
  induction k generalizing s n with
  | zero => exact ⟨[], s, n, .nil, rfl, hk, hn⟩
  | succ k ih =>
    cases ho : outage n with
    | none => exact ⟨[], s, n, .nil, rfl, ho, hn⟩
    | some message =>
      have hk : outage (n + 1 + k) = none := by rwa [Nat.add_right_comm]
      obtain ⟨turns, u, m, hrun, hd, hm, hu⟩ := ih (next_of_ask hn) (n + 1) hk
      exact ⟨_, u, m, .cons (call_out hn ho) hrun, hd, hm, hu⟩

theorem deliveries_append (turns more : List Turn) :
    deliveries (turns ++ more) = deliveries turns ++ deliveries more := List.filterMap_append

/-- A call that returns does so with outages as well, after as many attempts as it takes. -/
theorem Call.interrupted (he : engine.Steady reply worlds) (hup : ∀ n, ∃ m, n ≤ m ∧ outage m = none)
    {s t : Session} {calm last : σ} {exchanges : List Exchange}
    {result : Except Interruption (Option Batch)} {batch : Option Batch}
    (h : Call engine flush s calm exchanges result t last) (hb : result = .ok batch)
    (hc : worlds calm) {world : σ} (hw : worlds world) (n : Nat) :
    ∃ turns after, Run (engine.interrupted outage) flush s (world, n) turns t after ∧
      worlds after.1 ∧ deliveries turns = [(batch, t)] := by
  induction h generalizing world n with
  | finish hn =>
    cases hb
    exact ⟨_, _, .cons (.finish hn) .nil, hw, rfl⟩
  | @stop s t u calm query result hn hr =>
    subst hb
    obtain ⟨m, hm, ho⟩ := hup n
    obtain ⟨k, rfl⟩ := Nat.exists_eq_add_of_le hm
    obtain ⟨turns, v, m, hrun, hd, ho, hv⟩ := exists_up engine hn world k n ho
    refine ⟨_, _, hrun.append (.cons (.stop_up he hv hr hc hw ho) .nil), he.stays query hw, ?_⟩
    rw [deliveries_append, hd]
    rfl
  | @proceed s t u v calm last query exchanges result hn hr _ ih =>
    obtain ⟨m, hm, ho⟩ := hup n
    obtain ⟨k, rfl⟩ := Nat.exists_eq_add_of_le hm
    obtain ⟨turns, w, m, hrun, hd, ho, hv⟩ := exists_up engine hn world k n ho
    obtain ⟨more, after, hmore, hwa, hdm⟩ :=
      ih hb (he.stays query hc) (he.stays query hw) (m + 1)
    -- the first call from here on is the one that got as far as this answer
    cases hmore with
    | nil => cases hdm
    | cons hfirst hrest =>
      refine ⟨_, after, hrun.append (.cons (.proceed_up he hv hr hc hw ho hfirst) hrest), hwa, ?_⟩
      rw [deliveries_append, hd]
      exact hdm

theorem Call.steady (he : engine.Steady reply worlds) {s t : Session} {calm last : σ}
    {exchanges : List Exchange} {result : Except Interruption (Option Batch)}
    (h : Call engine flush s calm exchanges result t last) (hc : worlds calm) :
    worlds last ∧ ∀ exchange ∈ exchanges, exchange.2 = reply exchange.1 := by
  induction h with
  | finish => exact ⟨hc, fun _ hm => absurd hm List.not_mem_nil⟩
  | @stop s t u calm query result hn hr =>
    exact ⟨he.stays query hc, List.forall_mem_singleton.2 (he.reply query hc)⟩
  | @proceed s t u v calm last query exchanges result hn hr _ ih =>
    obtain ⟨hl, hall⟩ := ih (he.stays query hc)
    exact ⟨hl, List.forall_mem_cons.2 ⟨he.reply query hc, hall⟩⟩

theorem deliveries_of_out_of_reach (he : engine.Steady reply worlds) {s t : Session}
    {query : ShardQuery} {message : String} (hn : s.next flush = .ask s query)
    (hr : reply query = .error (.unavailable message)) {calm last : σ} {turns : List Turn}
    (h : Run engine flush s calm turns t last) (hc : worlds calm) : deliveries turns = [] := by
  have hstop : ∀ {world : σ}, worlds world → s.receive query (engine.answer query world).1 =
      .stop (.error (.engineUnavailable message)) s := by
    intro world hw
    rw [he.reply query hw, hr]
    rfl
  induction h with
  | nil => rfl
  | cons hcall _ ih =>
    cases hcall with
    | finish hf =>
      rw [hn] at hf
      cases hf
    | stop ha hs =>
      rw [hn] at ha
      cases ha
      rw [hstop hc] at hs
      cases hs
      exact ih hn (he.stays query hc) hstop
    | proceed ha hp =>
      rw [hn] at ha
      cases ha
      rw [hstop hc] at hp
      cases hp

theorem Run.interrupted (he : engine.Steady reply worlds) (hup : ∀ n, ∃ m, n ≤ m ∧ outage m = none)
    {s t : Session} {calm last : σ} {quiet : List Turn}
    (h : Run engine flush s calm quiet t last) (hc : worlds calm) {world : σ} (hw : worlds world)
    (n : Nat) :
    ∃ turns u after, Run (engine.interrupted outage) flush s (world, n) turns u after ∧
      deliveries turns = deliveries quiet := by
  induction h generalizing world n with
  | nil => exact ⟨[], _, _, .nil, rfl⟩
  | @cons s t u calm between last exchanges result quiet hcall hrest ih =>
    obtain ⟨hb, hsteady⟩ := hcall.steady he hc
    cases result with
    | ok batch =>
      obtain ⟨turns, after, hrun, hwa, hd⟩ := hcall.interrupted he hup rfl hc hw n
      obtain ⟨more, v, final, hmore, hdm⟩ := ih hb hwa after.2
      refine ⟨turns ++ more, v, final, hrun.append hmore, ?_⟩
      rw [deliveries_append, hd, hdm]
      rfl
    | error interruption =>
      obtain ⟨_, _, before, query, message, _, rfl, hn⟩ := hcall.broken
      have hr := (hsteady _ List.mem_concat_self).symm
      have hnil := deliveries_of_out_of_reach he hn hr hrest hb
      exact ⟨[], s, _, .nil, hnil.symm⟩

/-- Outages do not show in what a session delivers. A run with outages delivers what a run without
them does, and leaves the same sessions; a run without outages has its counterpart with them, as long as
no outage lasts for ever. A call that is broken off leaves the session as it was but for its place,
which is that of the query without an answer: the next call asks it again. -/
theorem deliveries_interrupted (he : engine.Steady reply worlds) {world : σ} (hw : worlds world)
    (flush : Nat) (outage : Nat → Option String) (n : Nat) (s : Session) :
    (∀ turns t after, Run (engine.interrupted outage) flush s (world, n) turns t after →
      ∃ quiet u last, Run engine flush s world quiet u last ∧ deliveries quiet = deliveries turns) ∧
    ((∀ k, ∃ m, k ≤ m ∧ outage m = none) → ∀ quiet u last, Run engine flush s world quiet u last →
      ∃ turns t after, Run (engine.interrupted outage) flush s (world, n) turns t after ∧
        deliveries turns = deliveries quiet) ∧
    ∀ {τ : Type} (other : Engine τ) (now later : τ) (exchanges : List Exchange) (message : String)
      (t : Session), Call other flush s now exchanges (.error (.engineUnavailable message)) t later →
      s.Shifted t ∧ t.phase = s.phase ∧ ∃ before query,
        exchanges = before ++ [(query, .error (.unavailable message))] ∧
        t.next flush = .ask t query := by
  refine ⟨?_, ?_, ?_⟩
  · intro turns t after h
    exact h.uninterrupted he hw hw
  · intro hup quiet u last h
    exact h.interrupted he hup hw hw n
  · intro τ other now later exchanges message t h
    obtain ⟨hs, hp, before, query, cause, hi, hx, hn⟩ := h.broken
    cases hi
    exact ⟨hs, hp, before, query, hx, hn⟩

def sampleOutage (n : Nat) : Option String := if n % 2 = 0 then some "down" else none

theorem deliveries_interrupted_sample :
    MemoryEngine.engine.Steady sampleEngine.reply sampleEngine.Like ∧
    sampleEngine.Like sampleEngine ∧
    ∃ turns t after,
      Run (MemoryEngine.engine.interrupted sampleOutage) 2
        (start "c" "node" "node" samplePlan 4 .normal false) (sampleEngine, 0) turns t after ∧
      (deliveries turns).map (·.1) = [some ⟨"B", [{ id := "b1" }, { id := "a2" }]⟩,
        some ⟨"B", [{ id := "b3" }]⟩, some ⟨"A", [{ id := "a1" }]⟩, none] := by
  have he := sampleEngine.engine_steady
  have hw := MemoryEngine.like_refl (m := sampleEngine) rfl
  have hup : ∀ k, ∃ m, k ≤ m ∧ sampleOutage m = none := by
    intro k
    refine ⟨2 * k + 1, by omega, if_neg (by omega)⟩
  have hquiet : Run MemoryEngine.engine 2 (start "c" "node" "node" samplePlan 4 .normal false)
      sampleEngine [_, _, _, _] _ _ :=
    .cons (.stop rfl rfl) (.cons (.stop rfl rfl) (.cons (.proceed rfl rfl (.stop rfl rfl))
      (.cons (.finish rfl) .nil)))
  obtain ⟨_, hback, _⟩ := deliveries_interrupted he hw 2 sampleOutage 0
    (start "c" "node" "node" samplePlan 4 .normal false)
  obtain ⟨turns, t, after, hrun, hd⟩ := hback hup _ _ _ hquiet
  exact ⟨he, hw, turns, t, after, hrun, by rw [hd]; rfl⟩

end TreebankSearch.Session

import TreebankSearch.Session.Search

/-!
# Runs of calls

A call that returns is a finite series of queries, each with its reply, and a run is a series of such
calls, one after the other. Whatever the engine answers, a call can be told apart into the steps
of the session: the search over an engine returns just where there is such a series.
-/

namespace TreebankSearch

abbrev Exchange := ShardQuery × Reply

def Outcome.session : Outcome → Session
  | .proceed s => s
  | .stop _ s => s

namespace Session

variable {σ : Type} {engine : Engine σ} {flush : Nat}

/-- One call that returns, with the exchanges that it takes and the session that it leaves. -/
inductive Call (engine : Engine σ) (flush : Nat) :
    Session → σ → List Exchange → Except Interruption (Option Batch) → Session → σ → Prop
  | finish {s t : Session} {world : σ} :
      s.next flush = .finish t → Call engine flush s world [] (.ok none) t world
  | stop {s t u : Session} {world : σ} {query : ShardQuery}
      {result : Except Interruption (Option Batch)} :
      s.next flush = .ask t query →
      t.receive query (engine.answer query world).1 = .stop result u →
      Call engine flush s world [(query, (engine.answer query world).1)] result u
        (engine.answer query world).2
  | proceed {s t u v : Session} {world after : σ} {query : ShardQuery} {exchanges : List Exchange}
      {result : Except Interruption (Option Batch)} :
      s.next flush = .ask t query →
      t.receive query (engine.answer query world).1 = .proceed u →
      Call engine flush u (engine.answer query world).2 exchanges result v after →
      Call engine flush s world ((query, (engine.answer query world).1) :: exchanges) result v after

theorem Call.search {s t : Session} {world after : σ} {exchanges : List Exchange}
    {result : Except Interruption (Option Batch)}
    (h : Call engine flush s world exchanges result t after) :
    Session.search engine flush s world = some (result, t, after) := by
  induction h with
  | finish hn => rw [Session.search, hn]
  | stop hn hr => simp only [Session.search, hn, hr]
  | proceed hn hr _ ih =>
    rw [Session.search, hn]
    simp only [hr, ih]

theorem Call.nextBatch {s t : Session} {world after : σ} {exchanges : List Exchange}
    {result : Except Interruption (Option Batch)}
    (h : Call engine flush s world exchanges result t after) :
    Session.nextBatch engine flush s world = (result, t, after) := by
  rw [Session.nextBatch, h.search]
  rfl

theorem call_of_search {s : Session} {world : σ}
    {r : Except Interruption (Option Batch) × Session × σ}
    (h : search engine flush s world = some r) :
    ∃ exchanges, Call engine flush s world exchanges r.1 r.2.1 r.2.2 := by
  refine search.partial_correctness engine flush
    (fun s world r => ∃ exchanges, Call engine flush s world exchanges r.1 r.2.1 r.2.2) ?_ s world r h
  intro search ih s world r h
  split at h
  · next t hn =>
    cases h
    exact ⟨[], .finish hn⟩
  · next t query hn =>
    simp only at h
    split at h
    · next u hr =>
      obtain ⟨exchanges, hc⟩ := ih _ _ _ h
      exact ⟨_, .proceed hn hr hc⟩
    · next result u hr =>
      cases h
      exact ⟨_, .stop hn hr⟩

theorem search_eq_some_iff {s t : Session} {world after : σ}
    {result : Except Interruption (Option Batch)} :
    search engine flush s world = some (result, t, after) ↔
      ∃ exchanges, Call engine flush s world exchanges result t after := by
  constructor
  · intro h
    exact call_of_search h
  · rintro ⟨exchanges, h⟩
    exact h.search

theorem Call.congr {s t u : Session} {world after : σ} {exchanges : List Exchange}
    {result : Except Interruption (Option Batch)} (hs : s.next flush = t.next flush)
    (h : Call engine flush t world exchanges result u after) :
    Call engine flush s world exchanges result u after := by
  cases h with
  | finish hn => exact .finish (hs.trans hn)
  | stop hn hr => exact .stop (hs.trans hn) hr
  | proceed hn hr hc => exact .proceed (hs.trans hn) hr hc

/-- `t` differs from `s` in its place among the shards only, and in its phase. -/
structure Shifted (s t : Session) : Prop where
  corpus : t.corpus = s.corpus
  pattern : t.pattern = s.pattern
  originalPattern : t.originalPattern = s.originalPattern
  already : t.already = s.already
  mode : t.mode = s.mode
  limit : t.limit = s.limit
  delivered : t.delivered = s.delivered
  context : t.context = s.context

theorem Shifted.refl (s : Session) : s.Shifted s := ⟨rfl, rfl, rfl, rfl, rfl, rfl, rfl, rfl⟩

theorem Shifted.trans {s t u : Session} (h : s.Shifted t) (k : t.Shifted u) : s.Shifted u where
  corpus := k.corpus.trans h.corpus
  pattern := k.pattern.trans h.pattern
  originalPattern := k.originalPattern.trans h.originalPattern
  already := k.already.trans h.already
  mode := k.mode.trans h.mode
  limit := k.limit.trans h.limit
  delivered := k.delivered.trans h.delivered
  context := k.context.trans h.context

theorem shifted_advance (s : Session) : s.Shifted s.advance := ⟨rfl, rfl, rfl, rfl, rfl, rfl, rfl, rfl⟩

theorem shifted_exhaust (s : Session) : s.Shifted s.exhaust := ⟨rfl, rfl, rfl, rfl, rfl, rfl, rfl, rfl⟩

theorem shifted_enter (s : Session) : s.Shifted s.enter := by
  unfold enter
  split
  · exact ⟨rfl, rfl, rfl, rfl, rfl, rfl, rfl, rfl⟩
  · exact .refl s

theorem shifted_settle (s : Session) : s.Shifted s.settle := by
  unfold settle
  split
  · exact shifted_exhaust s
  · exact .refl s

theorem shifted_move (s : Session) (limit count : Nat) : s.Shifted (s.move limit count) := by
  unfold move
  split
  · exact ⟨rfl, rfl, rfl, rfl, rfl, rfl, rfl, rfl⟩
  · exact shifted_advance s

theorem shifted_of_finish {s t : Session} (h : s.next flush = .finish t) : s.Shifted t := by
  rcases next_eq_finish h with ⟨_, rfl⟩ | ⟨_, rfl⟩ | ⟨_, rfl⟩
  · exact .refl t
  · exact shifted_exhaust s
  · exact (shifted_enter s).trans (shifted_exhaust _)

theorem shifted_of_proceed {s t : Session} {query : ShardQuery} {reply : Reply}
    (h : s.receive query reply = .proceed t) : s.Shifted t := by
  rcases s.receive_cases query reply with
    ⟨_, _, hr⟩ | ⟨_, _, _, hr⟩ | ⟨_, _, _, hr⟩ | ⟨_, _, _, _, _, hr⟩ <;> rw [hr] at h <;> cases h
  · exact shifted_advance s
  · exact shifted_move s _ _

structure Turn where
  exchanges : List Exchange
  result : Except Interruption (Option Batch)
  session : Session

inductive Run (engine : Engine σ) (flush : Nat) :
    Session → σ → List Turn → Session → σ → Prop
  | nil {s : Session} {world : σ} : Run engine flush s world [] s world
  | cons {s t u : Session} {world between after : σ} {exchanges : List Exchange}
      {result : Except Interruption (Option Batch)} {turns : List Turn} :
      Call engine flush s world exchanges result t between →
      Run engine flush t between turns u after →
      Run engine flush s world (⟨exchanges, result, t⟩ :: turns) u after

theorem Run.append {s t u : Session} {world between after : σ} {turns more : List Turn}
    (h : Run engine flush s world turns t between) (hm : Run engine flush t between more u after) :
    Run engine flush s world (turns ++ more) u after := by
  induction h with
  | nil => exact hm
  | cons hc _ ih => exact .cons hc (ih hm)

end Session
end TreebankSearch

import TreebankSearch.Proofs.Session.Run

/-!
# The queries of a call

A call that returns has sent a finite series of queries. A call need not return, though: an engine may
always have one more full answer of known rows. `Sends` tells the queries of every call, with the
exchanges that come before them in the call. For a call that returns they are those of its exchanges.
-/

namespace TreebankSearch.Session

variable {σ : Type} {engine : Engine σ} {flush : Nat}

/-- A call on the session sends `query` after the exchanges `before`. -/
inductive Sends (engine : Engine σ) (flush : Nat) :
    Session → σ → List Exchange → ShardQuery → Prop
  | first {s t : Session} {world : σ} {query : ShardQuery} :
      s.next flush = .ask t query → Sends engine flush s world [] query
  | later {s t u : Session} {world : σ} {earlier query : ShardQuery} {before : List Exchange} :
      s.next flush = .ask t earlier →
      t.receive earlier (engine.answer earlier world).1 = .proceed u →
      Sends engine flush u (engine.answer earlier world).2 before query →
      Sends engine flush s world ((earlier, (engine.answer earlier world).1) :: before) query

theorem sends_nil_iff {s t : Session} {query other : ShardQuery} (h : s.next flush = .ask t query)
    (world : σ) : Sends engine flush s world [] other ↔ other = query := by
  constructor
  · intro hs
    cases hs with
    | first hn =>
      rw [h] at hn
      cases hn
      rfl
  · rintro rfl
    exact .first h

theorem Call.sends_iff {s t : Session} {world after : σ} {exchanges : List Exchange}
    {result : Except Interruption (Option Batch)}
    (h : Call engine flush s world exchanges result t after) {before : List Exchange}
    {query : ShardQuery} :
    Sends engine flush s world before query ↔
      ∃ reply later, exchanges = before ++ (query, reply) :: later := by
  induction h generalizing before with
  | @finish s t world hn =>
    constructor
    · intro hs
      cases hs with
      | first ha => rw [hn] at ha; cases ha
      | later ha => rw [hn] at ha; cases ha
    · rintro ⟨reply, later, he⟩
      cases before <;> cases he
  | @stop s t u world asked result hn hr =>
    constructor
    · intro hs
      cases hs with
      | first ha =>
        rw [hn] at ha
        cases ha
        exact ⟨_, [], rfl⟩
      | later ha hp =>
        rw [hn] at ha
        cases ha
        rw [hr] at hp
        cases hp
    · rintro ⟨reply, later, he⟩
      cases before with
      | nil =>
        cases he
        exact .first hn
      | cons exchange before =>
        have hnil := (List.cons.inj he).2
        cases before <;> cases hnil
  | @proceed s t u v world after asked exchanges result hn hr _ ih =>
    constructor
    · intro hs
      cases hs with
      | first ha =>
        rw [hn] at ha
        cases ha
        exact ⟨_, exchanges, rfl⟩
      | later ha hp hs =>
        rw [hn] at ha
        cases ha
        rw [hr] at hp
        cases hp
        obtain ⟨reply, later, he⟩ := ih.1 hs
        exact ⟨reply, later, congrArg (List.cons _) he⟩
    · rintro ⟨reply, later, he⟩
      cases before with
      | nil =>
        cases he
        exact .first hn
      | cons exchange before =>
        obtain ⟨rfl, hrest⟩ := List.cons.inj he
        exact .later hn hr (ih.2 ⟨reply, later, hrest⟩)

/-- In a call on the session, `t` is the session that asks `query` and is given `reply`. -/
inductive Asks (engine : Engine σ) (flush : Nat) :
    Session → σ → Session → ShardQuery → Reply → Prop
  | first {s t : Session} {world : σ} {query : ShardQuery} :
      s.next flush = .ask t query →
      Asks engine flush s world t query (engine.answer query world).1
  | later {s t u v : Session} {world : σ} {earlier query : ShardQuery} {reply : Reply} :
      s.next flush = .ask t earlier →
      t.receive earlier (engine.answer earlier world).1 = .proceed u →
      Asks engine flush u (engine.answer earlier world).2 v query reply →
      Asks engine flush s world v query reply

structure SamePass (s t : Session) : Prop where
  queue : t.queue = s.queue
  fallback : t.fallback = s.fallback
  axis : t.axis = s.axis
  pattern : t.pattern = s.pattern
  context : t.context = s.context

theorem SamePass.trans {s t u : Session} (h : s.SamePass t) (k : t.SamePass u) : s.SamePass u where
  queue := k.queue.trans h.queue
  fallback := k.fallback.trans h.fallback
  axis := k.axis.trans h.axis
  pattern := k.pattern.trans h.pattern
  context := k.context.trans h.context

theorem samePass_move (s : Session) (limit count : Nat) : s.SamePass (s.move limit count) := by
  unfold move
  split
  · exact ⟨rfl, rfl, rfl, rfl, rfl⟩
  · exact ⟨rfl, rfl, rfl, rfl, rfl⟩

theorem samePass_deliver (s : Session) (rows : List Row) : s.SamePass (s.deliver rows) :=
  ⟨rfl, rfl, rfl, rfl, rfl⟩

theorem samePass_settle (s : Session) : s.SamePass s.settle := by
  unfold settle
  split
  · exact ⟨rfl, rfl, rfl, rfl, rfl⟩
  · exact ⟨rfl, rfl, rfl, rfl, rfl⟩

/-- A pass ends between two queries, never with an answer. -/
theorem samePass_receive (s : Session) (query : ShardQuery) (reply : Reply) :
    s.SamePass (s.receive query reply).session := by
  rcases s.receive_cases query reply with
    ⟨_, _, hr⟩ | ⟨_, _, _, hr⟩ | ⟨answer, _, _, hr⟩ | ⟨answer, new, _, _, _, hr⟩ <;> rw [hr]
  · exact ⟨rfl, rfl, rfl, rfl, rfl⟩
  · exact ⟨rfl, rfl, rfl, rfl, rfl⟩
  · exact samePass_move _ _ _
  · apply SamePass.trans _ (samePass_settle _)
    exact (samePass_move _ _ _).trans (samePass_deliver _ new)

end TreebankSearch.Session

import TreebankSearch.Corpus.Json
import TreebankSearch.Engine.Basic

/-!
# Engines that hold fixed lists, and outages

An engine holds a fixed list of rows for each pattern and component, or else fails on them for good.
It is described by what it holds and by the states in which it does so; no answer leads out of these
states. An engine in memory that is switched on is of this kind, whatever pattern it is asked for.

An engine whose replies are a function of the query may be out of reach at some of the attempts. Such an
outage leaves the engine as it was; the attempts are numbered, and each may fail whatever the ones before
it did.
-/

namespace TreebankSearch

/-- The rows under a pattern in a component, or none where queries fail. -/
abbrev Holdings := String → String → Option (List Row)

structure Engine.Holds {σ : Type} (engine : Engine σ) (held : Holdings) (worlds : σ → Prop) :
    Prop where
  slice : ∀ (query : ShardQuery) {world : σ} {rows : List Row}, worlds world →
    held query.pattern query.shard.component = some rows →
    (engine.answer query world).1 = .ok ((rows.drop query.offset).take query.limit)
  failure : ∀ (query : ShardQuery) {world : σ}, worlds world →
    held query.pattern query.shard.component = none →
    ∃ shard message, (engine.answer query world).1 = .error (.query shard message)
  stays : ∀ (query : ShardQuery) {world : σ}, worlds world → worlds (engine.answer query world).2

def Holdings.engine (held : Holdings) : Engine Unit where
  answer query _ :=
    match held query.pattern query.shard.component with
    | some rows => (.ok ((rows.drop query.offset).take query.limit), ())
    | none => (.error (.query query.shard.component "shard failure"), ())

theorem Holdings.engine_holds (held : Holdings) : held.engine.Holds held fun _ => True where
  slice := by
    intro query world rows _ hh
    simp only [Holdings.engine, hh]
  failure := by
    intro query world _ hh
    exact ⟨query.shard.component, "shard failure", by simp only [Holdings.engine, hh]⟩
  stays := fun _ _ _ => trivial

namespace MemoryEngine

def holdings (m : MemoryEngine) : Holdings := fun _ component =>
  if component ∈ m.failing then none else some (m.rowsOf component)

def Like (m n : MemoryEngine) : Prop :=
  n.rows = m.rows ∧ n.failing = m.failing ∧ n.switchedOff = false

theorem like_refl {m : MemoryEngine} (h : m.switchedOff = false) : m.Like m := ⟨rfl, rfl, h⟩

theorem engine_holds (m : MemoryEngine) : engine.Holds m.holdings m.Like where
  slice := by
    rintro query n rows ⟨hr, hf, hs⟩ hh
    unfold holdings at hh
    split at hh
    · cases hh
    · next hc =>
      cases hh
      simp [engine, answer, hs, hf, hc, rowsOf, hr]
  failure := by
    rintro query n ⟨hr, hf, hs⟩ hh
    unfold holdings at hh
    split at hh
    · next hc =>
      exact ⟨query.shard.component, "shard failure", by simp [engine, answer, hs, hf, hc]⟩
    · cases hh
  stays := by
    rintro query n ⟨hr, hf, hs⟩
    simp [engine, answer, hs, hr, hf, Like]

def Fits (m : MemoryEngine) : Prop :=
  ∀ entry ∈ m.rows.entries, entry.2.length ≤ maxNumber

theorem length_rowsOf_le {m : MemoryEngine} (h : m.Fits) (component : String) :
    (m.rowsOf component).length ≤ maxNumber := by
  unfold rowsOf Table.get?
  cases hf : Table.find? component m.rows.entries with
  | none => exact Nat.zero_le _
  | some rows =>
    obtain ⟨entry, hm, rfl⟩ := Table.mem_of_find? hf
    exact h entry hm

theorem length_holdings_le {m : MemoryEngine} (h : m.Fits) :
    ∀ pattern component rows, m.holdings pattern component = some rows → rows.length ≤ maxNumber := by
  intro pattern component rows hh
  unfold holdings at hh
  split at hh
  · cases hh
  · cases hh
    exact length_rowsOf_le h component

end MemoryEngine

namespace Engine

variable {σ : Type}

/-- In the states of the engine that are met, the reply to a query is a function of the query. -/
structure Steady (engine : Engine σ) (reply : ShardQuery → Reply) (worlds : σ → Prop) : Prop where
  reply : ∀ (query : ShardQuery) {world : σ}, worlds world →
    (engine.answer query world).1 = reply query
  stays : ∀ (query : ShardQuery) {world : σ}, worlds world → worlds (engine.answer query world).2

def interrupted (engine : Engine σ) (outage : Nat → Option String) : Engine (σ × Nat) where
  answer query world :=
    match outage world.2 with
    | some message => (.error (.unavailable message), world.1, world.2 + 1)
    | none => ((engine.answer query world.1).1, (engine.answer query world.1).2, world.2 + 1)

variable {engine : Engine σ} {outage : Nat → Option String} {world : σ × Nat}

theorem interrupted_out (query : ShardQuery) {message : String} (h : outage world.2 = some message) :
    (engine.interrupted outage).answer query world =
      (.error (.unavailable message), world.1, world.2 + 1) := by
  simp only [interrupted, h]

theorem interrupted_up (query : ShardQuery) (h : outage world.2 = none) :
    (engine.interrupted outage).answer query world =
      ((engine.answer query world.1).1, (engine.answer query world.1).2, world.2 + 1) := by
  simp only [interrupted, h]

theorem Steady.answer_up {reply : ShardQuery → Reply} {worlds : σ → Prop}
    (he : engine.Steady reply worlds) (query : ShardQuery) {calm now : σ} (hc : worlds calm)
    (hw : worlds now) {n : Nat} (ho : outage n = none) :
    (engine.interrupted outage).answer query (now, n) =
      ((engine.answer query calm).1, (engine.answer query now).2, n + 1) := by
  have ha : (engine.interrupted outage).answer query (now, n) = _ := interrupted_up query ho
  rw [ha, he.reply query hc, he.reply query hw]

theorem Steady.interrupted {reply : ShardQuery → Reply} {worlds : σ → Prop}
    (he : engine.Steady reply worlds) (outage : Nat → Option String) (query : ShardQuery)
    (hw : worlds world.1) {calm : σ} (hc : worlds calm) :
    worlds ((engine.interrupted outage).answer query world).2.1 ∧
      ((∃ message, ((engine.interrupted outage).answer query world).1 =
          .error (.unavailable message)) ∨
        ((engine.interrupted outage).answer query world).1 = (engine.answer query calm).1) := by
  cases ho : outage world.2 with
  | some message =>
    rw [interrupted_out query ho]
    exact ⟨hw, .inl ⟨message, rfl⟩⟩
  | none =>
    rw [interrupted_up query ho]
    exact ⟨he.stays query hw, .inr ((he.reply query hw).trans (he.reply query hc).symm)⟩

end Engine

namespace MemoryEngine

def reply (m : MemoryEngine) (query : ShardQuery) : Reply :=
  if query.shard.component ∈ m.failing then .error (.query query.shard.component "shard failure")
  else .ok (((m.rowsOf query.shard.component).drop query.offset).take query.limit)

theorem engine_steady (m : MemoryEngine) : engine.Steady m.reply m.Like where
  reply := by
    rintro query n ⟨hr, hf, hs⟩
    simp [engine, answer, hs, hf, reply, rowsOf, hr]
  stays := m.engine_holds.stays

end MemoryEngine
end TreebankSearch

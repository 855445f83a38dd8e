import TreebankSearch.Proofs.Corpus.Plan
import TreebankSearch.Proofs.Session.Codec
import TreebankSearch.Proofs.Session.Drain

/-!
# Sessions that can be resumed

What holds of a session from its start on, so that a token can be cut from it at any time: its shards
are those of its corpus, its limit is the one that its mode has now, no hit is listed twice, and every
number fits the counters of a document. One reply keeps all of it, and so does a whole call.
-/

namespace TreebankSearch

namespace Session

variable {σ : Type} {engine : Engine σ} {held : Holdings} {worlds : σ → Prop}
variable {limits : Limits} {corpus : Corpus}

structure Resumable (limits : Limits) (corpus : Corpus) (s : Session) : Prop where
  home : s.corpus = corpus.id
  cap : limits.cap? s.mode = some s.limit
  bounded : s.limit ≤ maxNumber
  known : ∀ shard ∈ s.queue ++ s.fallback,
    corpus.shard? shard.component = some shard ∧ shard.Fits
  lengths : s.queue.length ≤ maxNumber ∧ s.fallback.length ≤ maxNumber
  position : s.position ≤ s.queue.length
  offset : s.offset ≤ maxNumber
  already : s.already.Nodup
  delivered : s.delivered ≤ s.limit

theorem Resumable.storable {s : Session} (h : s.Resumable limits corpus) : s.Storable where
  queue := fun shard hs => (h.known shard (List.mem_append_left _ hs)).2
  fallback := fun shard hs => (h.known shard (List.mem_append_right _ hs)).2
  position := Nat.le_trans h.position h.lengths.1
  offset := h.offset
  already := h.already
  limit := h.bounded
  delivered := Nat.le_trans h.delivered h.bounded

theorem Resumable.advance {s : Session} (h : s.Resumable limits corpus) {shard : Shard}
    (hc : s.current? = some shard) : s.advance.Resumable limits corpus :=
  { h with
    position := (List.getElem?_eq_some_iff.1 hc).1
    offset := Nat.zero_le _ }

theorem Resumable.exhaust {s : Session} (h : s.Resumable limits corpus) :
    s.exhaust.Resumable limits corpus := { h with }

theorem Resumable.enter {s : Session} (h : s.Resumable limits corpus) :
    s.enter.Resumable limits corpus := by
  unfold Session.enter
  split
  · refine { h with
      known := ?_
      lengths := ⟨h.lengths.2, Nat.zero_le _⟩
      position := Nat.zero_le _
      offset := Nat.zero_le _ }
    intro shard hm
    rw [fallBack, List.append_nil] at hm
    exact h.known shard (List.mem_append_right _ hm)
  · exact h

theorem Resumable.settle {s : Session} (h : s.Resumable limits corpus) :
    s.settle.Resumable limits corpus := by
  unfold Session.settle
  split
  · exact h.exhaust
  · exact h

theorem Resumable.move {s : Session} (h : s.Resumable limits corpus) {shard : Shard}
    (hc : s.current? = some shard) {limit count : Nat}
    (hb : count = limit → s.offset + limit ≤ maxNumber) :
    (s.move limit count).Resumable limits corpus := by
  unfold Session.move
  split
  · next he => exact { h with offset := hb he }
  · exact h.advance hc

theorem Resumable.deliver {s : Session} (h : s.Resumable limits corpus) (rows : List Row)
    (hl : rows.length ≤ s.room) :
    (s.deliver (newRows s.already rows)).Resumable limits corpus := by
  refine { h with already := nodup_append_newRows h.already rows, delivered := ?_ }
  have hlen := Nat.le_trans (length_newRows_le s.already rows) hl
  have hd := h.delivered
  rw [room] at hlen
  simp only [Session.deliver]
  omega

theorem resumable_receive (he : engine.Holds held worlds)
    (hb : ∀ pattern component rows, held pattern component = some rows → rows.length ≤ maxNumber)
    {world : σ} (hw : worlds world) {s : Session} (h : s.Resumable limits corpus) {shard : Shard}
    (hc : s.current? = some shard) (hr : 0 < s.room) (flush : Nat) :
    (s.receive (s.query flush shard)
      (engine.answer (s.query flush shard) world).1).session.Resumable limits corpus := by
  have hl : 0 < (s.query flush shard).limit := by
    change 0 < min s.room (max flush 1)
    omega
  rcases s.receive_cases (s.query flush shard) (engine.answer (s.query flush shard) world).1 with
    ⟨_, _, hrec⟩ | ⟨_, _, _, hrec⟩ | ⟨answer, ha, _, hrec⟩ | ⟨answer, new, ha, rfl, _, hrec⟩
  · rw [hrec]
    exact h
  · rw [hrec]
    exact h.advance hc
  all_goals
    have hm : (s.move (s.query flush shard).limit
        (answer.take (s.query flush shard).limit).length).Resumable limits corpus := by
      refine h.move hc fun hn => ?_
      cases hh : held s.queryPattern shard.component with
      | none =>
        obtain ⟨_, _, hf⟩ := he.failure (s.query flush shard) hw hh
        rw [hf] at ha
        cases ha
      | some rows =>
        rw [he.slice (s.query flush shard) hw hh] at ha
        cases ha
        have hrows := hb _ _ _ hh
        rw [List.length_take, List.length_take, List.length_drop] at hn
        have ho : (s.query flush shard).offset = s.offset := rfl
        omega
    rw [hrec]
  · exact hm
  · have ht := hm.deliver (answer.take (s.query flush shard).limit) ?_
    · rw [(shifted_move s _ _).already] at ht
      exact ht.settle
    · rw [room_move]
      exact Nat.le_trans (List.length_take_le _ _) (Nat.min_le_left _ _)

theorem resumable_of_search (he : engine.Holds held worlds)
    (hb : ∀ pattern component rows, held pattern component = some rows → rows.length ≤ maxNumber)
    {flush : Nat} {s : Session} {world : σ} {r : Except Interruption (Option Batch) × Session × σ}
    (hw : worlds world) (h : s.Resumable limits corpus) (hr : search engine flush s world = some r) :
    r.2.1.Resumable limits corpus := by
  revert hw h
  -- whether the call returns plays no part here, so the induction is that of the fixed point
  refine search.partial_correctness engine flush (fun s world r =>
    worlds world → s.Resumable limits corpus → r.2.1.Resumable limits corpus) ?_ s world r hr
  intro search ih s world r hr hw h
  split at hr
  · next t hn =>
    cases hr
    rcases next_eq_finish hn with ⟨_, rfl⟩ | ⟨_, rfl⟩ | ⟨_, rfl⟩
    · exact h
    · exact h.exhaust
    · exact h.enter.exhaust
  · next t query hn =>
    obtain ⟨_, hl, rfl, shard, hc, rfl⟩ := next_eq_ask hn
    have hroom : 0 < s.enter.room := by
      rw [room_enter]
      exact Nat.sub_pos_of_lt hl
    have ht := resumable_receive he hb hw h.enter hc hroom flush
    simp only at hr
    split at hr
    · next u hu =>
      rw [hu] at ht
      exact ih _ _ _ hr (he.stays _ hw) ht
    · next result u hu =>
      cases hr
      rw [hu] at ht
      exact ht

end Session
end TreebankSearch

import TreebankSearch.Engine.Basic
import TreebankSearch.Proofs.Paging.Confinement
import TreebankSearch.Proofs.Pattern.Axis
import TreebankSearch.Proofs.Pattern.RoundTrip

/-!
# The pattern that a session sends

A session keeps the pattern that it was started with, through its calls and through the tokens that carry
it. Each query places that pattern under the axis of its pass. What the engine is sent is therefore
the normal form of the filtered pattern under that axis, as if the session had never been in another
pass, and however often the axis has been attached.
-/

namespace TreebankSearch

namespace Session

variable {σ : Type} {engine : Engine σ} {flush : Nat} {s t u : Session} {world after : σ}

/-- What a session can become, by calls to whatever engines and by tokens that whatever catalogs take. -/
inductive Continues : Session → Session → Prop
  | refl {s : Session} : Continues s s
  | call {σ : Type} {engine : Engine σ} {flush : Nat} {s t u : Session} {world after : σ}
      {exchanges : List Exchange} {result : Except Interruption (Option Batch)} :
      Continues s t → Call engine flush t world exchanges result u after → Continues s u
  | resumed {catalog : Catalog} {id : String} {s t u : Session} :
      Continues s t → catalog.resume id (Token.encode t) = .ok u → Continues s u

structure KeepsPattern (s t : Session) : Prop where
  pattern : t.pattern = s.pattern
  axis : t.axis = s.axis ∨ t.axis = .anywhere

theorem KeepsPattern.refl (s : Session) : s.KeepsPattern s := ⟨rfl, .inl rfl⟩

theorem KeepsPattern.trans (h : s.KeepsPattern t) (k : t.KeepsPattern u) : s.KeepsPattern u where
  pattern := k.pattern.trans h.pattern
  axis := by
    rcases k.axis with he | ha
    · rw [he]
      exact h.axis
    · exact .inr ha

theorem SamePass.keepsPattern (h : s.SamePass t) : s.KeepsPattern t := ⟨h.pattern, .inl h.axis⟩

theorem keepsPattern_enter (s : Session) : s.KeepsPattern s.enter := by
  unfold enter
  split
  · exact ⟨rfl, .inr rfl⟩
  · exact .refl s

theorem keepsPattern_of_ask {query : ShardQuery} (h : s.next flush = .ask t query) :
    s.KeepsPattern t := by
  obtain ⟨_, _, rfl, _⟩ := next_eq_ask h
  exact keepsPattern_enter s

theorem keepsPattern_of_finish (h : s.next flush = .finish t) : s.KeepsPattern t := by
  rcases next_eq_finish h with ⟨_, rfl⟩ | ⟨_, rfl⟩ | ⟨_, rfl⟩
  · exact .refl t
  · exact ⟨rfl, .inl rfl⟩
  · exact (keepsPattern_enter s).trans ⟨rfl, .inl rfl⟩

theorem keepsPattern_of_receive {query : ShardQuery} (h : s.next flush = .ask t query) (reply : Reply) :
    s.KeepsPattern (t.receive query reply).session :=
  (keepsPattern_of_ask h).trans (samePass_receive t query reply).keepsPattern

theorem Call.keepsPattern {exchanges : List Exchange} {result : Except Interruption (Option Batch)}
    (h : Call engine flush s world exchanges result t after) : s.KeepsPattern t := by
  induction h with
  | finish hn => exact keepsPattern_of_finish hn
  | @stop s t u world query result hn hr =>
    have hu := keepsPattern_of_receive hn (engine.answer query world).1
    rwa [hr] at hu
  | @proceed s t u v world after query exchanges result hn hr _ ih =>
    have hu := keepsPattern_of_receive hn (engine.answer query world).1
    rw [hr] at hu
    exact hu.trans ih

theorem Asks.keepsPattern {query : ShardQuery} {reply : Reply}
    (h : Asks engine flush s world t query reply) :
    s.KeepsPattern t ∧ query.pattern = t.queryPattern := by
  induction h with
  | first hn =>
    obtain ⟨_, _, rfl, _, _, rfl⟩ := next_eq_ask hn
    exact ⟨keepsPattern_enter _, rfl⟩
  | @later s t u v world earlier query reply hn hr _ ih =>
    have hu := keepsPattern_of_receive hn (engine.answer earlier world).1
    rw [hr] at hu
    exact ⟨hu.trans ih.1, ih.2⟩

theorem keepsPattern_of_resume {catalog : Catalog} {id : String}
    (h : catalog.resume id (Token.encode s) = .ok t) : s.KeepsPattern t := by
  obtain ⟨corpus, decoded, limit, _, hd, _, rfl⟩ := Catalog.resume_eq_ok_iff.1 h
  have hd := (Token.decodeFor_eq_ok_iff.1 hd).1
  rw [Token.decode_encode_eq] at hd
  cases hj : ofJson? s.toJson with
  | none =>
    rw [hj] at hd
    cases hd
  | some read =>
    rw [hj] at hd
    cases hd
    obtain ⟨hpattern, haxis⟩ := eq_of_ofJson?_toJson hj
    exact ⟨hpattern, .inl haxis⟩

theorem Continues.keepsPattern (h : s.Continues t) : s.KeepsPattern t := by
  induction h with
  | refl => exact .refl _
  | call _ hc ih => exact ih.trans hc.keepsPattern
  | resumed _ hr ih => exact ih.trans (keepsPattern_of_resume hr)

end Session

namespace Catalog

/-- A normalized pattern that is placed under an axis is the pattern normalized for that axis, with just the
slashes of the axis: one for the root, two for anywhere. So whatever becomes of the session of a request, it sends the normal form of the
filtered pattern under the axis of the pass that it is in. -/
theorem queryPattern_eq_normalize :
    (∀ (axis other : Axis) (pattern : String),
      other.place (Pattern.normalize axis pattern) = Pattern.normalize other pattern) ∧
    (∀ pattern : String, ∃ bare, (Pattern.normalize .root pattern).toList = '/' :: bare ∧
      (Pattern.normalize .anywhere pattern).toList = '/' :: '/' :: bare ∧ bare.head? ≠ some '/') ∧
    ∀ {catalog : Catalog} {request : Request} {s t : Session}, catalog.start request = .ok s →
      s.Continues t → ∃ corpus, catalog.corpus? request.corpus = some corpus ∧
        (t.axis = s.axis ∨ t.axis = .anywhere) ∧
        t.queryPattern = Pattern.normalize t.axis (filteredText corpus request) ∧
        ∀ {σ : Type} {engine : Engine σ} {flush : Nat} {world : σ} {u : Session} {query : ShardQuery}
          {reply : Reply}, Session.Asks engine flush t world u query reply →
          (u.axis = t.axis ∨ u.axis = .anywhere) ∧
            query.pattern = Pattern.normalize u.axis (filteredText corpus request) := by
  refine ⟨Pattern.place_normalize, ?_, ?_⟩
  · intro pattern
    exact ⟨_, Pattern.toList_normalize .root pattern, Pattern.toList_normalize .anywhere pattern,
      (Pattern.stripped_bareText pattern).head⟩
  · intro catalog request s t hs ht
    obtain ⟨corpus, limit, plan, hc, _, _, rfl⟩ := start_eq_ok_iff.1 hs
    have hkept := ht.keepsPattern
    have hnormal : ∀ u : Session, u.pattern = t.pattern →
        u.queryPattern = Pattern.normalize u.axis (filteredText corpus request) := by
      intro u hu
      rw [Session.queryPattern, hu, hkept.pattern]
      exact Pattern.place_normalize plan.axis u.axis _
    refine ⟨corpus, hc, hkept.axis, hnormal t rfl, ?_⟩
    intro σ engine flush world u query reply ha
    obtain ⟨hu, hq⟩ := ha.keepsPattern
    exact ⟨hu.axis, hq.trans (hnormal u hu.pattern)⟩

def sampleAnnotated : Corpus where
  id := "c"
  shards := [⟨"db", 1, "A", none⟩, ⟨"db", 1, "B", none⟩]
  groups := []
  multiple := true
  metadata := [⟨"genre", .text, .checkbox⟩]
  index := some ⟨[("np", ["B"])]⟩

def sampleCatalog : Catalog := ⟨{ flush := 1 }, [sampleAnnotated]⟩

def sampleNounPhrase : Request where
  corpus := "c"
  pattern := " ///node[@cat=\"np\" and node]"
  filters := [.single "genre" "x]node[@caseinsensitive=", .single "year" "1"]

def sampleTree : Pattern :=
  ⟨3, ⟨[[.attr ⟨"cat", some (.eq, "np")⟩, .connective .and, .child []]]⟩⟩

theorem parse_sampleNounPhrase : Pattern.parse sampleNounPhrase.pattern = .ok sampleTree := by
  have none : Pattern.Spaces [] := by decide
  have one : Pattern.Spaces [' '] := by decide
  have hattr : Pattern.Spelled (.operand (.attr ⟨"cat", some (.eq, "np")⟩)) _ :=
    .comparison .eq .double (by decide) none none (by decide)
  have hterms := Pattern.Spelled.content none (.join .and hattr one (by decide) one (by decide)
    (.single (.child .noBrackets))) none
  have hspells : Pattern.Spells sampleTree sampleNounPhrase.pattern.toList :=
    ⟨[' '], [], _, [], one, none, .bracket none hterms .noBrackets, none, by decide⟩
  exact hspells.parse

theorem derive?_sampleNounPhrase : Signature.derive? sampleNounPhrase.pattern = some ⟨"np"⟩ := by
  -- the only child has no relation, so that there is nothing to sort
  have hlabels : Signature.labels sampleTree.root.children = [] := by
    have hnone : sampleTree.root.children.filterMap Signature.childLabel? = [] := by decide
    rw [Signature.labels, hnone, List.mergeSort_nil]
  rw [Signature.derive?, parse_sampleNounPhrase]
  simp only [Signature.ofPattern?_eq, hlabels]
  decide

def samplePrunedPlan : Plan := ⟨.root, [⟨"db", 1, "B", none⟩], sampleAnnotated.shards⟩

theorem start_sampleNounPhrase : sampleCatalog.start sampleNounPhrase = .ok (.start "c"
    (Pattern.normalize .root (filteredText sampleAnnotated sampleNounPhrase))
    (Pattern.normalize .root sampleNounPhrase.pattern) samplePrunedPlan 500 .normal false) := by
  refine start_eq_ok_iff.2 ⟨sampleAnnotated, 500, samplePrunedPlan, rfl, rfl, ?_, rfl⟩
  rw [derive?_sampleNounPhrase]
  rfl

def sampleLate : ScriptEngine := ⟨[.rows [], .rows [{ id := "a" }]], []⟩

theorem queryPattern_eq_normalize_sample :
    ∃ s t, sampleCatalog.start sampleNounPhrase = .ok s ∧ s.axis = .root ∧ s.Continues t ∧
      t.axis = .anywhere ∧
      t.queryPattern = Pattern.normalize .anywhere (filteredText sampleAnnotated sampleNounPhrase) := by
  have hcall : ∀ pattern original, ∃ exchanges result t after,
      Session.Call ScriptEngine.engine 1 (.start "c" pattern original samplePrunedPlan 500 .normal false)
        sampleLate exchanges result t after ∧ t.axis = .anywhere := by
    intro pattern original
    have hsecond : ∀ received, Session.Call ScriptEngine.engine 1
        (Session.start "c" pattern original samplePrunedPlan 500 .normal false).advance
        ⟨[.rows [{ id := "a" }]], received⟩ _ _ _ _ := fun received => .stop rfl rfl
    exact ⟨_, _, _, _, .proceed rfl rfl (hsecond _), rfl⟩
  obtain ⟨exchanges, result, t, after, hc, ha⟩ := hcall
    (Pattern.normalize .root (filteredText sampleAnnotated sampleNounPhrase))
    (Pattern.normalize .root sampleNounPhrase.pattern)
  have ht := Session.Continues.refl.call hc
  obtain ⟨corpus, hcorpus, _, hq, _⟩ := queryPattern_eq_normalize.2.2 start_sampleNounPhrase ht
  cases hcorpus
  rw [ha] at hq
  exact ⟨_, t, start_sampleNounPhrase, rfl, ht, ha, hq⟩

end Catalog
end TreebankSearch

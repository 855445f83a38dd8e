import TreebankSearch.Proofs.Encoding
import TreebankSearch.Proofs.Json.RoundTrip
import TreebankSearch.Session.Token

/-!
# Tokens carry whole sessions

A session whose numbers fit the counters of a document, and which lists no hit twice, is read back
from its token as it was.
-/

namespace TreebankSearch

def Shard.Fits (shard : Shard) : Prop := ∀ n ∈ shard.sentenceCount, n ≤ maxNumber

/-- What a document can hold of a session. -/
structure Session.Storable (s : Session) : Prop where
  queue : ∀ shard ∈ s.queue, shard.Fits
  fallback : ∀ shard ∈ s.fallback, shard.Fits
  position : s.position ≤ maxNumber
  offset : s.offset ≤ maxNumber
  already : s.already.Nodup
  limit : s.limit ≤ maxNumber
  delivered : s.delivered ≤ maxNumber

theorem eraseDups_of_nodup {xs : List String} (h : xs.Nodup) : xs.eraseDups = xs := by
  induction xs with
  | nil => rfl
  | cons x xs ih =>
    obtain ⟨hx, hxs⟩ := List.nodup_cons.1 h
    have hf : xs.filter (fun y => !y == x) = xs := by
      rw [List.filter_eq_self]
      rintro y hy
      simpa using fun he : y = x => hx (he ▸ hy)
    rw [List.eraseDups_cons, hf, ih hxs]

theorem Shard.ofJson?_toJson {shard : Shard} (h : shard.Fits) :
    Shard.ofJson? shard.toJson = some shard := by
  obtain ⟨machine, port, component, sentenceCount⟩ := shard
  have hp : port.toNat ≤ 65535 := Nat.le_of_lt_succ port.toNat_lt
  cases sentenceCount with
  | none =>
    rw [Shard.ofJson?, Shard.toJson, Json.fields?_record (by simp)]
    simp [List.lookup_cons, Json.nat?_ofNat hp, Json.text?_ofText, Json.defaulted?]
  | some n =>
    have hc := Json.nullable?_ofNat (h n rfl)
    rw [Shard.ofJson?, Shard.toJson, Json.fields?_record (by simp)]
    simp [List.lookup_cons, Json.nat?_ofNat hp, Json.text?_ofText, hc, Json.defaulted?]

theorem Shard.writable_toJson (shard : Shard) : Json.Writable shard.toJson := by
  refine Json.writable_record ?_
  simp only [List.mem_append, List.mem_cons, List.not_mem_nil, or_false, Option.mem_toList]
  rintro member ((rfl | rfl | rfl) | h)
  · exact .string _
  · exact Json.writable_ofNat _
  · exact .string _
  · obtain ⟨n, _, rfl⟩ := Option.map_eq_some_iff.1 h
    exact Json.writable_ofNat _

theorem Axis.ofJson?_toJson (axis : Axis) : Axis.ofJson? axis.toJson = some axis := by
  cases axis <;> rfl

theorem Mode.choice?_toJson (mode : Mode) : Json.choice? Mode.names mode.toJson = some mode := by
  cases mode <;> rfl

theorem Phase.choice?_toJson (phase : Phase) :
    Json.choice? Phase.names phase.toJson = some phase := by
  cases phase <;> rfl

namespace Session

theorem ofJson?_toJson {s : Session} (h : s.Storable) : ofJson? s.toJson = some s := by
  have hq := Json.list?_ofList fun shard hs => Shard.ofJson?_toJson (h.queue shard hs)
  have hb := Json.list?_ofList fun shard hs => Shard.ofJson?_toJson (h.fallback shard hs)
  have ha := Json.list?_texts s.already
  rw [ofJson?, toJson, Json.fields?_record (by simp)]
  -- one field after the other, in the order in which they are read
  refine Option.bind_eq_some_iff.2 ⟨_, rfl, ?_⟩
  refine Option.bind_eq_some_iff.2 ⟨s.corpus, rfl, ?_⟩
  refine Option.bind_eq_some_iff.2 ⟨s.pattern, rfl, ?_⟩
  refine Option.bind_eq_some_iff.2 ⟨s.originalPattern, rfl, ?_⟩
  refine Option.bind_eq_some_iff.2 ⟨s.queue, hq, ?_⟩
  refine Option.bind_eq_some_iff.2 ⟨s.position, Json.nat?_ofNat h.position, ?_⟩
  refine Option.bind_eq_some_iff.2 ⟨s.offset, Json.nat?_ofNat h.offset, ?_⟩
  refine Option.bind_eq_some_iff.2 ⟨s.already, ha, ?_⟩
  refine Option.bind_eq_some_iff.2 ⟨s.axis, Axis.ofJson?_toJson s.axis, ?_⟩
  refine Option.bind_eq_some_iff.2 ⟨s.fallback, hb, ?_⟩
  refine Option.bind_eq_some_iff.2 ⟨s.mode, Mode.choice?_toJson s.mode, ?_⟩
  refine Option.bind_eq_some_iff.2 ⟨s.limit, Json.nat?_ofNat h.limit, ?_⟩
  refine Option.bind_eq_some_iff.2 ⟨s.delivered, Json.nat?_ofNat h.delivered, ?_⟩
  refine Option.bind_eq_some_iff.2 ⟨s.context, rfl, ?_⟩
  refine Option.bind_eq_some_iff.2 ⟨s.phase, Phase.choice?_toJson s.phase, ?_⟩
  rw [eraseDups_of_nodup h.already]
  rfl

theorem eq_of_ofJson?_toJson {s t : Session} (h : ofJson? s.toJson = some t) :
    t.pattern = s.pattern ∧ t.axis = s.axis := by
  rw [ofJson?, toJson, Json.fields?_record (by simp)] at h
  obtain ⟨field, hfield, h⟩ := Option.bind_eq_some_iff.1 h
  -- the fields in the order in which they are read, of which only these two matter
  obtain ⟨_, _, h⟩ := Option.bind_eq_some_iff.1 h
  obtain ⟨pattern, hpattern, h⟩ := Option.bind_eq_some_iff.1 h
  iterate 5 obtain ⟨_, _, h⟩ := Option.bind_eq_some_iff.1 h
  obtain ⟨axis, haxis, h⟩ := Option.bind_eq_some_iff.1 h
  iterate 5 obtain ⟨_, _, h⟩ := Option.bind_eq_some_iff.1 h
  obtain ⟨_, _, ht⟩ := Option.bind_eq_some_iff.1 h
  obtain rfl := Option.some.inj hfield
  obtain rfl := Option.some.inj ht
  have haxis : Axis.ofJson? s.axis.toJson = some axis := haxis
  rw [Axis.ofJson?_toJson] at haxis
  exact ⟨(Option.some.inj hpattern).symm, (Option.some.inj haxis).symm⟩

theorem writable_toJson (s : Session) : Json.Writable s.toJson := by
  refine Json.writable_record ?_
  simp only [List.forall_mem_cons]
  have hs := fun shards : List Shard =>
    Json.writable_ofList fun shard (_ : shard ∈ shards) => Shard.writable_toJson shard
  have ht := Json.writable_ofList fun text (_ : text ∈ s.already) => .string (some text)
  have hm : Json.Writable s.mode.toJson := by cases s.mode <;> exact .string _
  have hp : Json.Writable s.phase.toJson := by cases s.phase <;> exact .string _
  exact ⟨.string _, .string _, .string _, hs _, Json.writable_ofNat _, Json.writable_ofNat _, ht,
    .bool _, hs _, hm, Json.writable_ofNat _, Json.writable_ofNat _, .bool _, hp,
    fun _ h => absurd h List.not_mem_nil⟩

end Session

theorem Text.dropWhile_isBlank {cs : List Char} (h : ∀ c ∈ cs, isBlank c = false) :
    cs.dropWhile isBlank = cs := by
  cases cs with
  | nil => rfl
  | cons c cs => rw [List.dropWhile_cons, if_neg (by simp [h c List.mem_cons_self])]

theorem Text.trim_padded {before after cs : List Char} (hb : ∀ c ∈ before, isBlank c = true)
    (ha : ∀ c ∈ after, isBlank c = true) (h : ∀ c ∈ cs, isBlank c = false) :
    trim (before ++ cs ++ after) = cs := by
  rw [trim, trimStart, List.append_assoc, List.dropWhile_append_of_pos hb]
  cases cs with
  | nil =>
    -- nothing but blanks: the front takes all of them
    have hd : (after ++ []).dropWhile isBlank = [] := List.dropWhile_append_of_pos ha
    rw [List.nil_append, ← List.append_nil after, hd]
    rfl
  | cons c cs =>
    have hc : ¬ isBlank c = true := by simp [h c List.mem_cons_self]
    rw [List.cons_append, List.dropWhile_cons, if_neg hc, trimEnd, ← List.cons_append,
      List.reverse_append, List.dropWhile_append_of_pos fun d hd => ha d (List.mem_reverse.1 hd),
      dropWhile_isBlank fun d hd => h d (List.mem_reverse.1 hd), List.reverse_reverse]

namespace Token

variable {s : Session} {corpus : Corpus} {before after : String}

theorem trim_encode {before after : List Char} (hb : ∀ c ∈ before, Text.isBlank c = true)
    (ha : ∀ c ∈ after, Text.isBlank c = true) (bytes : List UInt8) :
    Text.trim (before ++ Base64Url.encode bytes ++ after) = Base64Url.encode bytes := by
  apply Text.trim_padded hb ha
  intro c hc
  obtain ⟨n, hn, rfl⟩ := Base64Url.mem_encode hc
  exact Base64Url.isBlank_symbol hn

theorem decode_padded_eq (hb : ∀ c ∈ before.toList, Text.isBlank c = true)
    (ha : ∀ c ∈ after.toList, Text.isBlank c = true) :
    decode (before ++ encode s ++ after) = (Session.ofJson? s.toJson).elim (.error .state) .ok := by
  rw [decode, encode, String.toList_append, String.toList_append, String.toList_ofList,
    trim_encode hb ha, Base64Url.decode?_encode]
  simp only [Utf8.decode_encode, Json.readMarked?_writeChars s.writable_toJson, Option.bind_some]
  cases Session.ofJson? s.toJson <;> rfl

theorem decode_encode_eq :
    decode (encode s) = (Session.ofJson? s.toJson).elim (.error .state) .ok := by
  have hnone : ∀ c ∈ "".toList, Text.isBlank c = true := nofun
  have hd : decode ("" ++ encode s ++ "") = _ := decode_padded_eq hnone hnone
  rwa [String.empty_append, String.append_empty] at hd

theorem decode_padded (h : s.Storable) (hb : ∀ c ∈ before.toList, Text.isBlank c = true)
    (ha : ∀ c ∈ after.toList, Text.isBlank c = true) :
    decode (before ++ encode s ++ after) = .ok s := by
  rw [decode_padded_eq hb ha, Session.ofJson?_toJson h]
  rfl

theorem foreignShard?_eq_none_iff : foreignShard? corpus s = none ↔
    ∀ shard ∈ s.queue ++ s.fallback, corpus.shard? shard.component = some shard := by
  simp only [foreignShard?, List.find?_eq_none, decide_eq_true_eq, ne_eq, Decidable.not_not]

/-- A token is taken for a corpus that it names and that has each of its shards. -/
theorem decodeFor_eq_ok_iff {token : String} : decodeFor corpus token = .ok s ↔
    decode token = .ok s ∧ s.corpus = corpus.id ∧
      ∀ shard ∈ s.queue ++ s.fallback, corpus.shard? shard.component = some shard := by
  rw [← foreignShard?_eq_none_iff, decodeFor]
  cases hd : decode token with
  | error e => simp [bind, Except.bind]
  | ok t =>
    simp only [bind, Except.bind, Except.ok.injEq]
    by_cases hc : t.corpus = corpus.id
    · cases hf : foreignShard? corpus t with
      | none =>
        simp only [hc, ne_eq, not_true_eq_false, ↓reduceIte, Except.ok.injEq]
        constructor
        · rintro rfl
          exact ⟨rfl, hc, hf⟩
        · exact fun h => h.1
      | some shard =>
        simp only [hc, ne_eq, not_true_eq_false, ↓reduceIte, reduceCtorEq, false_iff]
        rintro ⟨rfl, _, hn⟩
        rw [hf] at hn
        cases hn
    · simp only [hc, ne_eq, not_false_eq_true, ↓reduceIte, reduceCtorEq, false_iff]
      rintro ⟨rfl, h, _⟩
      exact hc h

theorem decodeFor_encode (h : s.Storable) (hc : s.corpus = corpus.id)
    (hs : ∀ shard ∈ s.queue ++ s.fallback, corpus.shard? shard.component = some shard) :
    decodeFor corpus (encode s) = .ok s := by
  have hd : decode (encode s) = .ok s := by
    rw [decode_encode_eq, Session.ofJson?_toJson h]
    rfl
  exact decodeFor_eq_ok_iff.2 ⟨hd, hc, hs⟩

/-- A token is a word in the alphabet for addresses, and gives back the session that it was made of,
whatever blanks stand around it. A corpus takes it just if it is the corpus of the session and has
all shards of it. -/
theorem token_gives_back (h : s.Storable) (hb : ∀ c ∈ before.toList, Text.isBlank c = true)
    (ha : ∀ c ∈ after.toList, Text.isBlank c = true) :
    (∀ c ∈ (encode s).toList, c.isAlphanum = true ∨ c = '-' ∨ c = '_') ∧
    decode (before ++ encode s ++ after) = .ok s ∧
    ∀ corpus : Corpus, decodeFor corpus (before ++ encode s ++ after) = .ok s ↔
      s.corpus = corpus.id ∧
        ∀ shard ∈ s.queue ++ s.fallback, corpus.shard? shard.component = some shard := by
  have hd := decode_padded h hb ha
  refine ⟨?_, hd, ?_⟩
  · intro c hc
    rw [encode, String.toList_ofList] at hc
    obtain ⟨n, hn, rfl⟩ := Base64Url.mem_encode hc
    exact Base64Url.symbol_plain hn
  · intro corpus
    rw [decodeFor_eq_ok_iff]
    exact and_iff_right hd

def sampleSession : Session where
  corpus := "\"c\\"
  pattern := "node[@word=\"\x00\x1f𐍈\"]"
  originalPattern := "node\n\t"
  queue := [⟨"db\x7f", 65535, "A𐍈", some maxNumber⟩, ⟨"db", 0, "B", none⟩]
  position := 1
  offset := maxNumber
  already := ["a\"1", "𐍈", "\\"]
  axis := .anywhere
  fallback := []
  mode := .analysis
  limit := 50000
  delivered := 3
  context := true
  phase := .querying

theorem token_gives_back_sample :
    sampleSession.Storable ∧ (∀ c ∈ "\t\u3000".toList, Text.isBlank c = true) ∧
    (∀ c ∈ "\x0a".toList, Text.isBlank c = true) ∧
    decode ("\t\u3000" ++ encode sampleSession ++ "\x0a") = .ok sampleSession ∧
    decodeFor (.ofShards "\"c\\" sampleSession.queue) ("\t\u3000" ++ encode sampleSession ++ "\x0a") =
      .ok sampleSession := by
  have hs : sampleSession.Storable := by
    constructor <;> simp [sampleSession, Shard.Fits, maxNumber]
  have hb : ∀ c ∈ "\t\u3000".toList, Text.isBlank c = true := List.all_eq_true.1 rfl
  have ha : ∀ c ∈ "\x0a".toList, Text.isBlank c = true := List.all_eq_true.1 rfl
  obtain ⟨_, hd, hc⟩ := token_gives_back hs hb ha
  exact ⟨hs, hb, ha, hd, (hc (.ofShards "\"c\\" sampleSession.queue)).2 ⟨rfl, by decide⟩⟩

end Token
end TreebankSearch

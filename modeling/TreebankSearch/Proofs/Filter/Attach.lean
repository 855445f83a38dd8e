import TreebankSearch.Proofs.Filter.Clause
import TreebankSearch.Proofs.Pattern.Extension
import TreebankSearch.Proofs.Pattern.RoundTrip

/-!
# Filters behind a pattern

Attaching filters to a pattern leaves what is read from the pattern as it was. Each filter is read as one
more bracket of the root, with its clause in it as text; the shape of the pattern stays the same, and with
it the signature under which its components are looked up.
-/

namespace TreebankSearch

namespace Pattern

theorem readVerbatim_append {cs : List Char} (h : ∀ c ∈ cs, isSpace c = false) (ts : List Token) :
    readVerbatim (cs.map .char ++ ts) = (cs ++ (readVerbatim ts).1, (readVerbatim ts).2) := by
  induction cs with
  | nil => rfl
  | cons c cs ih =>
    obtain ⟨hc, hcs⟩ := List.forall_mem_cons.1 h
    rw [List.map_cons, List.cons_append, readVerbatim, hc, ih hcs]
    rfl

def entriesPath : List Char :=
  ['a', 'n', 'c', 'e', 's', 't', 'o', 'r', ':', ':', 'a', 'l', 'p', 'i', 'n', 'o', '_', 'd', 's', '/',
    'm', 'e', 't', 'a', 'd', 'a', 't', 'a', '/', 'm', 'e', 't', 'a']

theorem plain_entriesPath : ∀ c ∈ entriesPath, Delimiter.ofChar c = .plain := plain_of_all rfl

theorem isSpace_entriesPath : ∀ c ∈ entriesPath, isSpace c = false := by
  have h : entriesPath.all (!isSpace ·) = true := rfl
  intro c hc
  simpa using List.all_eq_true.1 h c hc

theorem toList_entries : Filter.entries.toList = entriesPath := by decide

theorem readTerms_entries (inner : List Char) (terms : Except PatternError (List Term))
    (ts : List Token) :
    readTerms (entriesPath.map .char ++ .enclosed .square inner terms :: ts) =
      (readTerms (readVerbatim ts).2).map (.verbatim (String.ofList
        (entriesPath ++ '[' :: (inner ++ ']' :: (readVerbatim ts).1))) :: ·) := by
  generalize htokens : entriesPath.map .char ++ .enclosed .square inner terms :: ts = us
  have hskip : skipSpace us = us := htokens ▸ skipSpace_of_breaks (breaks_char rfl _)
  have h₁ : connective? us = none := htokens ▸ rfl
  have h₂ : countTest? us = none := htokens ▸ rfl
  have h₃ : afterOrderTest? us = none := htokens ▸ rfl
  have h₄ : nodeTest? us = none := htokens ▸ rfl
  have h₅ : attributeTest? us = none := htokens ▸ rfl
  -- the axis `ancestor` would name a function if a parenthesis followed it
  have h₆ : group? us = none := htokens ▸ rfl
  have h₇ : readVerbatim us = (entriesPath ++ '[' :: (inner ++ ']' :: (readVerbatim ts).1),
      (readVerbatim ts).2) := by
    rw [← htokens, readVerbatim_append isSpace_entriesPath]
    simp [readVerbatim, Token.source, Bracket.opening, Bracket.closing]
  have hterm : readTerm us = (.ok (.verbatim (String.ofList
      (entriesPath ++ '[' :: (inner ++ ']' :: (readVerbatim ts).1)))), (readVerbatim ts).2) := by
    simp only [readTerm, h₁, h₂, h₃, h₄, h₅, h₆, h₇]
  cases us with
  | nil => cases htokens
  | cons t us =>
    rw [readTerms_of_cons hskip, hterm]
    cases readTerms (readVerbatim ts).2 <;> rfl

end Pattern

namespace Filter

open Pattern

def entryText (field condition : String) : String :=
  entries ++ ("[" ++ entryTest field condition ++ "]")

theorem toList_entryText (field condition : String) : (entryText field condition).toList =
    entriesPath ++ '[' :: ((entryTest field condition).toList ++ [']']) := by
  rw [entryText, String.toList_append, toList_entries, String.toList_append, String.toList_append]
  rfl

/-- The text is read as one term, which is text, if the condition is balanced. -/
theorem lexed_entryText (field : String) {condition : String} (h : Balanced condition.toList) :
    ∃ ts, Lexed (entryText field condition).toList ts ∧
      readTerms ts = .ok [.verbatim (entryText field condition)] := by
  obtain ⟨is, htest⟩ := (balanced_entryTest field h).lexed
  have hlex : Lexed (entriesPath ++ '[' :: ((entryTest field condition).toList ++ [']'])) _ :=
    (Lexed.chars plain_entriesPath).append (htest.enclosed .square)
  have hend : readTerms [] = .ok [] := readTerms_of_nil rfl
  rw [← toList_entryText] at hlex
  refine ⟨_, hlex, ?_⟩
  rw [readTerms_entries, readVerbatim, hend, ← toList_entryText, String.ofList_toList]
  rfl

theorem content_of_entryClause {f : Filter} {field condition : String}
    (h : f.clause = entryClause field condition) : f.content = entryText field condition :=
  content_of_clause (h.trans (entryClause_eq field condition))

theorem lexed_content {f : Filter} (h : f.Safe) :
    ∃ ts, Lexed f.content.toList ts ∧ readTerms ts = .ok [.verbatim f.content] := by
  obtain ⟨field, condition, hclause, hcondition⟩ := exists_condition h
  rw [content_of_entryClause hclause]
  exact lexed_entryText field hcondition

theorem toList_clauses_cons (f : Filter) (fs : List Filter) :
    (clauses (f :: fs)).toList = '[' :: (f.content.toList ++ ']' :: (clauses fs).toList) := by
  rw [clauses, List.map_cons, clause_eq]
  simp [clauses]

theorem lexed_clauses {fs : List Filter} (h : ∀ f ∈ fs, f.Safe) :
    ∃ ts, Lexed (clauses fs).toList ts ∧ Breaks isNameChar ts ∧
      readBrackets ts = (.ok (fs.map fun f => [.verbatim f.content]), []) := by
  induction fs with
  | nil => exact ⟨[], .nil, breaks_nil _, rfl⟩
  | cons f fs ih =>
    obtain ⟨hf, hfs⟩ := List.forall_mem_cons.1 h
    obtain ⟨ts, hl, _, hr⟩ := ih hfs
    obtain ⟨is, hli, hri⟩ := lexed_content hf
    have hb : Lexed ('[' :: (f.content.toList ++ ']' :: (clauses fs).toList)) _ :=
      hli.bracket .square hl
    rw [← toList_clauses_cons, hri] at hb
    refine ⟨_, hb, breaks_enclosed _ _ _ _ _, ?_⟩
    rw [readBrackets, hr]
    rfl

/-- Safe filters behind a pattern are read as further brackets of its root, one for each filter and in their
order, each with the text of the clause as its only term; what the pattern itself is read as does not
change, nor does its signature. -/
theorem parse_attach {text : String} {p : Pattern} (h : Pattern.parse text = .ok p)
    {fs : List Filter} (hs : ∀ f ∈ fs, f.Safe) :
    Pattern.parse (attach text fs) =
        .ok ⟨p.slashes, ⟨p.root.brackets ++ fs.map fun f => [.verbatim f.content]⟩⟩ ∧
      Signature.derive? (attach text fs) = Signature.derive? text := by
  obtain ⟨ts, hl, hb, hr⟩ := lexed_clauses hs
  have hparse := parse_append h hl hb hr
  refine ⟨hparse, ?_⟩
  have hsilent : ∀ terms ∈ fs.map fun f => [Term.verbatim f.content], ∀ term ∈ terms,
      term.Silent := by
    intro terms hm term hterm
    obtain ⟨f, _, rfl⟩ := List.mem_map.1 hm
    rw [List.mem_singleton.1 hterm]
    exact Term.silent_verbatim _
  unfold Signature.derive?
  rw [attach, hparse, h]
  exact Signature.ofPattern?_append p hsilent

def samplePhrase : Pattern :=
  ⟨2, ⟨[[.attr ⟨"cat", some (.eq, "np")⟩, .connective .and, .child []]]⟩⟩

def sampleFilters : List Filter :=
  [.single "speaker\" or (" "x\"]]//node[", .multiple "region" ["'", "&quot;)"], .multiple "age" [],
    .range "date" "1990-01-01" "]2000" .date, .range "size" "3\"" "&7 or" .int]

theorem parse_attach_sample :
    Pattern.parse "//node[@cat=\"np\" and node] " = .ok samplePhrase ∧
      (∀ f ∈ sampleFilters, f.Safe) ∧
      Pattern.parse (attach "//node[@cat=\"np\" and node] " sampleFilters) =
        .ok ⟨2, ⟨samplePhrase.root.brackets ++ sampleFilters.map fun f => [.verbatim f.content]⟩⟩ ∧
      Signature.derive? (attach "//node[@cat=\"np\" and node] " sampleFilters) =
        Signature.derive? "//node[@cat=\"np\" and node] " := by
  have none : Spaces [] := by decide
  have one : Spaces [' '] := by decide
  have hattr : Spelled (.operand (.attr ⟨"cat", some (.eq, "np")⟩)) _ :=
    .comparison .eq .double (by decide) none none (by decide)
  have hterms := Spelled.content none (.join .and hattr one (by decide) one (by decide)
    (.single (.child .noBrackets))) none
  have hspells : Spells samplePhrase "//node[@cat=\"np\" and node] ".toList :=
    ⟨[], [], _, [' '], none, none, .bracket none hterms .noBrackets, one, by decide⟩
  have hsafe : ∀ f ∈ sampleFilters, f.Safe := by
    simp [sampleFilters, Safe, or_assoc]
  obtain ⟨hparse, hsignature⟩ := parse_attach hspells.parse hsafe
  exact ⟨hspells.parse, hsafe, hparse, hsignature⟩

end Filter
end TreebankSearch

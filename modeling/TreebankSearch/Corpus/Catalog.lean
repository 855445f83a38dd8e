import TreebankSearch.Corpus.Basic

/-!
# Catalogs

A catalog is a list of corpora and the limits of searches over them. `Catalog.build` refuses a list
that is not consistent: corpora and, within a corpus, components have to be distinct, and groups and
index entries may name components of their corpus only.
-/

namespace TreebankSearch

inductive Mode where
  | normal
  | analysis
  deriving Repr, DecidableEq

structure Limits where
  flush : Nat := 50
  results : Nat := 500
  analysis : Nat := 50000
  deriving Repr, DecidableEq

/-- The largest number of hits in a mode. A limit of zero switches the mode off. -/
def Limits.cap? (limits : Limits) (mode : Mode) : Option Nat :=
  let cap :=
    match mode with
    | .normal => limits.results
    | .analysis => limits.analysis
  if 0 < cap then some cap else none

inductive Mention where
  | group (id : String)
  | shape (signature : String)
  deriving Repr, DecidableEq

def Mention.describe : Mention → String
  | .group id => "group " ++ id
  | .shape signature => "shape " ++ signature

inductive CatalogError where
  | unreadable
  | malformed
  | zeroFlush
  | duplicateCorpus (id : String)
  | duplicateComponent (corpus component : String)
  | unknownComponent (corpus : String) (mention : Mention) (component : String)
  deriving Repr, DecidableEq

def CatalogError.message : CatalogError → String
  | .unreadable => "Config error: the document is no text"
  | .malformed => "Config error: the document does not describe a configuration"
  | .zeroFlush => "Config error: flush size must be positive"
  | .duplicateCorpus id => "Config error: duplicate corpus " ++ id
  | .duplicateComponent corpus component =>
    "Config error: duplicate component " ++ component ++ " in corpus " ++ corpus
  | .unknownComponent corpus mention component =>
    "Config error: " ++ mention.describe ++ " in corpus " ++ corpus ++
      " refers to unknown component " ++ component

def firstRepeated? (seen : List String) : List String → Option String
  | [] => none
  | x :: xs => if x ∈ seen then some x else firstRepeated? (x :: seen) xs

theorem firstRepeated?_eq_none_iff {seen xs : List String} :
    firstRepeated? seen xs = none ↔ xs.Nodup ∧ ∀ x ∈ xs, x ∉ seen := by
  induction xs generalizing seen with
  | nil => simp [firstRepeated?]
  | cons x xs ih =>
    unfold firstRepeated?
    split
    · next h => simp [h]
    · next h =>
      rw [ih]
      simp only [List.nodup_cons, List.mem_cons, not_or, forall_eq_or_imp]
      grind

namespace Corpus

def mentions (corpus : Corpus) : List (Mention × List String) :=
  corpus.groups.map (fun g => (.group g.id, g.components)) ++
    (corpus.index.getD .empty).entries.map fun (signature, components) =>
      (.shape signature, components)

def unknownMention? (corpus : Corpus) : Option (Mention × String) :=
  corpus.mentions.findSome? fun (mention, components) =>
    (components.find? (· ∉ corpus.components)).map fun component => (mention, component)

def fault? (corpus : Corpus) : Option CatalogError :=
  match firstRepeated? [] corpus.components with
  | some component => some (.duplicateComponent corpus.id component)
  | none =>
    corpus.unknownMention?.map fun (mention, component) =>
      .unknownComponent corpus.id mention component

end Corpus

structure Catalog where
  limits : Limits
  corpora : List Corpus
  deriving Repr, DecidableEq

namespace Catalog

def fault? (seen : List String) : List Corpus → Option CatalogError
  | [] => none
  | corpus :: rest =>
    match corpus.fault? with
    | some fault => some fault
    | none =>
      if corpus.id ∈ seen then some (.duplicateCorpus corpus.id)
      else fault? (corpus.id :: seen) rest

def build (limits : Limits) (corpora : List Corpus) : Except CatalogError Catalog :=
  if limits.flush = 0 then .error .zeroFlush
  else
    match fault? [] corpora with
    | some fault => .error fault
    | none => .ok ⟨limits, corpora⟩

def corpus? (catalog : Catalog) (id : String) : Option Corpus :=
  catalog.corpora.find? (·.id = id)

end Catalog
end TreebankSearch

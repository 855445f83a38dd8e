/-!
# Tables

Finite tables keyed by texts. A key keeps the place at which it first arrived, and holds the value
that was put there last.
-/

namespace TreebankSearch

structure Table (α : Type) where
  entries : List (String × α)
  deriving Repr, DecidableEq

namespace Table

variable {α : Type}

def empty : Table α := ⟨[]⟩

instance : Inhabited (Table α) := ⟨empty⟩

def find? (key : String) : List (String × α) → Option α
  | [] => none
  | (k, v) :: rest => if k = key then some v else find? key rest

def get? (t : Table α) (key : String) : Option α := find? key t.entries

def keys (t : Table α) : List String := t.entries.map (·.1)

def size (t : Table α) : Nat := t.entries.length

def alterEntries (key : String) (f : Option α → α) : List (String × α) → List (String × α)
  | [] => [(key, f none)]
  | (k, v) :: rest => if k = key then (k, f (some v)) :: rest else (k, v) :: alterEntries key f rest

def alter (t : Table α) (key : String) (f : Option α → α) : Table α :=
  ⟨alterEntries key f t.entries⟩

def insert (t : Table α) (key : String) (value : α) : Table α := t.alter key fun _ => value

/-- The table of a list of entries, of which the last one for a key counts. -/
def ofList (entries : List (String × α)) : Table α :=
  entries.foldl (fun t (key, value) => t.insert key value) empty

@[simp] theorem get?_empty (key : String) : (empty : Table α).get? key = none := rfl

theorem mem_of_find? {key : String} {entries : List (String × α)} {value : α}
    (h : find? key entries = some value) : ∃ entry ∈ entries, entry.2 = value := by
  induction entries with
  | nil => cases h
  | cons entry entries ih =>
    obtain ⟨k, v⟩ := entry
    rw [find?] at h
    split at h
    · cases h
      exact ⟨_, List.mem_cons_self, rfl⟩
    · obtain ⟨entry, hm, he⟩ := ih h
      exact ⟨entry, List.mem_cons_of_mem _ hm, he⟩

theorem find?_alterEntries (key other : String) (f : Option α → α) (entries : List (String × α)) :
    find? other (alterEntries key f entries) =
      if other = key then some (f (find? key entries)) else find? other entries := by
  induction entries with
  | nil => grind [alterEntries, find?]
  | cons e rest ih => grind [alterEntries, find?]

theorem get?_alter (t : Table α) (key other : String) (f : Option α → α) :
    (t.alter key f).get? other = if other = key then some (f (t.get? key)) else t.get? other :=
  find?_alterEntries key other f t.entries

theorem get?_insert (t : Table α) (key other : String) (value : α) :
    (t.insert key value).get? other = if other = key then some value else t.get? other :=
  get?_alter t key other _

end Table
end TreebankSearch

import Mathlib.Data.List.Induction
import Mathlib.Data.List.Nodup
import TreebankSearch.Table

/-!
# Tables of lists

What is at a key of the table of a list: the value of the last entry that has the key.
-/

namespace TreebankSearch.Table

variable {α β : Type}

theorem ofList_concat (entries : List (String × α)) (key : String) (value : α) :
    ofList (entries ++ [(key, value)]) = (ofList entries).insert key value :=
  List.foldl_concat _ _ _ _

theorem get?_ofList_filterMap (key? : β → Option String) (value : β → α) (items : List β) (key : String) :
    (ofList (items.filterMap fun item => (key? item).map fun k => (k, value item))).get? key =
      ((items.filter fun item => key? item = some key).getLast?).map value := by
  induction items using List.reverseRecOn with
  | nil => rfl
  | append_singleton items item ih =>
    rw [List.filterMap_append, List.filter_append]
    cases hitem : key? item with
    | none => simp [hitem, ih]
    | some k =>
      by_cases hk : k = key
      · subst hk
        simp [hitem, ofList_concat, get?_insert]
      · simp [hitem, ofList_concat, get?_insert, hk, Ne.symm hk, ih]

theorem get?_ofList_map (key : β → String) (value : β → α) (items : List β) (k : String) :
    (ofList (items.map fun item => (key item, value item))).get? k =
      ((items.filter fun item => key item = k).getLast?).map value := by
  simpa using get?_ofList_filterMap (fun item => some (key item)) value items k

theorem map_alterEntries (key : String) (f : Option α → α) (entries : List (String × α)) :
    (alterEntries key f entries).map (·.1) =
      if key ∈ entries.map (·.1) then entries.map (·.1) else entries.map (·.1) ++ [key] := by
  induction entries with
  | nil => rfl
  | cons entry entries ih =>
    obtain ⟨k, v⟩ := entry
    by_cases hk : k = key
    · simp [alterEntries, hk]
    · rw [alterEntries, if_neg hk, List.map_cons, ih]
      split <;> simp_all [Ne.symm hk]

theorem nodup_keys_insert {t : Table α} (h : t.keys.Nodup) (key : String) (value : α) :
    (t.insert key value).keys.Nodup := by
  change ((alterEntries key _ t.entries).map (·.1)).Nodup
  rw [map_alterEntries]
  split
  · exact h
  · next hkey =>
    rw [← List.concat_eq_append]
    exact List.Nodup.concat hkey h

theorem nodup_keys_ofList (entries : List (String × α)) : (ofList entries).keys.Nodup := by
  induction entries using List.reverseRecOn with
  | nil => exact List.nodup_nil
  | append_singleton entries entry ih =>
    rw [ofList_concat]
    exact nodup_keys_insert ih _ _

end TreebankSearch.Table

/-! Data as documents hold them. Maps keep the order of their entries; `sortKeys` gives the form in which
every map's keys ascend and none repeats, and `sorted_sortKeys` says that it does. -/
namespace LeadTime

/-- A value in a document. Floats are bit patterns, so that equality is decided on them. -/
inductive Datum where
  | null
  | bool (value : Bool)
  | int (value : Int)
  | float (bits : UInt64)
  | text (value : String)
  | list (items : List Datum)
  | map (entries : List (String × Datum))
  deriving Inhabited

namespace Datum

mutual

/-- Keys ascend strictly in every map, at every depth. -/
def Sorted : Datum → Prop
  | .list items => SortedItems items
  | .map entries => (entries.map Prod.fst).Pairwise (· < ·) ∧ SortedEntries entries
  | _ => True

def SortedItems : List Datum → Prop
  | [] => True
  | item :: rest => item.Sorted ∧ SortedItems rest

def SortedEntries : List (String × Datum) → Prop
  | [] => True
  | (_, value) :: rest => value.Sorted ∧ SortedEntries rest

end

/-- Puts an entry before the first greater key; a key that is there keeps its value. -/
def insertKey (key : String) (value : Datum) : List (String × Datum) → List (String × Datum)
  | [] => [(key, value)]
  | (key', value') :: rest =>
    if key < key' then (key, value) :: (key', value') :: rest
    else if key = key' then (key', value') :: rest
    else (key', value') :: insertKey key value rest

mutual

/-- Sorts every map by key; of a repeated key the last value stays. -/
def sortKeys : Datum → Datum
  | .list items => .list (sortItems items)
  | .map entries => .map (sortEntries entries)
  | .null => .null
  | .bool b => .bool b
  | .int n => .int n
  | .float bits => .float bits
  | .text s => .text s

def sortItems : List Datum → List Datum
  | [] => []
  | item :: rest => sortKeys item :: sortItems rest

def sortEntries : List (String × Datum) → List (String × Datum)
  | [] => []
  | (key, value) :: rest => insertKey key (sortKeys value) (sortEntries rest)

end

theorem mem_map_fst_insertKey {key k : String} {value : Datum} {entries : List (String × Datum)}
    (h : k ∈ (insertKey key value entries).map Prod.fst) :
    k = key ∨ k ∈ entries.map Prod.fst := by
  induction entries with
  | nil => simpa [insertKey] using h
  | cons entry rest ih =>
    obtain ⟨key', value'⟩ := entry
    simp only [insertKey] at h
    split at h
    · simpa using h
    · split at h
      · exact Or.inr h
      · simp only [List.map_cons, List.mem_cons] at h ⊢
        rcases h with h | h
        · exact Or.inr (Or.inl h)
        · exact (ih h).imp_right Or.inr

theorem ascending_insertKey (key : String) (value : Datum) {entries : List (String × Datum)}
    (h : (entries.map Prod.fst).Pairwise (· < ·)) :
    ((insertKey key value entries).map Prod.fst).Pairwise (· < ·) := by
  induction entries with
  | nil => simp [insertKey]
  | cons entry rest ih =>
    obtain ⟨key', value'⟩ := entry
    simp only [List.map_cons, List.pairwise_cons] at h
    simp only [insertKey]
    split
    · rename_i hlt
      simp only [List.map_cons, List.pairwise_cons, List.mem_cons, forall_eq_or_imp]
      exact ⟨⟨hlt, fun a ha => String.lt_trans hlt (h.1 a ha)⟩, h⟩
    · split
      · exact List.pairwise_cons.2 h
      · rename_i hlt hne
        simp only [List.map_cons, List.pairwise_cons]
        refine ⟨fun a ha => ?_, ih h.2⟩
        rcases mem_map_fst_insertKey ha with rfl | ha
        · exact Decidable.byContradiction fun hn => hne (String.le_antisymm hn hlt)
        · exact h.1 a ha

theorem sortedEntries_insertKey {key : String} {value : Datum} {entries : List (String × Datum)}
    (hv : value.Sorted) (h : SortedEntries entries) :
    SortedEntries (insertKey key value entries) := by
  induction entries with
  | nil => exact ⟨hv, trivial⟩
  | cons entry rest ih =>
    obtain ⟨key', value'⟩ := entry
    simp only [insertKey]
    split
    · exact ⟨hv, h⟩
    · split
      · exact h
      · exact ⟨h.1, ih h.2⟩

theorem ascending_sortEntries : (entries : List (String × Datum)) →
    ((sortEntries entries).map Prod.fst).Pairwise (· < ·)
  | [] => by simp [sortEntries]
  | (key, value) :: rest => by
    simpa [sortEntries] using ascending_insertKey key (sortKeys value) (ascending_sortEntries rest)

mutual

theorem sorted_sortKeys : (d : Datum) → (sortKeys d).Sorted
  | .list items => by simpa [sortKeys, Sorted] using sortedItems_sortItems items
  | .map entries => by
    simp only [sortKeys, Sorted]
    exact ⟨ascending_sortEntries entries, sortedEntries_sortEntries entries⟩
  | .null | .bool _ | .int _ | .float _ | .text _ => by simp [sortKeys, Sorted]

theorem sortedItems_sortItems : (items : List Datum) → SortedItems (sortItems items)
  | [] => by simp [sortItems, SortedItems]
  | item :: rest => by
    simpa [sortItems, SortedItems] using ⟨sorted_sortKeys item, sortedItems_sortItems rest⟩

theorem sortedEntries_sortEntries :
    (entries : List (String × Datum)) → SortedEntries (sortEntries entries)
  | [] => by simp [sortEntries, SortedEntries]
  | (key, value) :: rest => by
    simpa [sortEntries] using
      sortedEntries_insertKey (sorted_sortKeys value) (sortedEntries_sortEntries rest)

end

theorem insertKey_of_lt {key : String} (value : Datum) {entries : List (String × Datum)}
    (h : ∀ k ∈ entries.map Prod.fst, key < k) : insertKey key value entries = (key, value) :: entries := by
  cases entries with
  | nil => rfl
  | cons entry rest => rw [insertKey, if_pos (h _ List.mem_cons_self)]

mutual

theorem sortKeys_eq_self : (d : Datum) → d.Sorted → sortKeys d = d
  | .list items, h => by rw [sortKeys, sortItems_eq_self items h]
  | .map entries, h => by rw [sortKeys, sortEntries_eq_self entries h.1 h.2]
  | .null, _ | .bool _, _ | .int _, _ | .float _, _ | .text _, _ => by rw [sortKeys]

theorem sortItems_eq_self : (items : List Datum) → SortedItems items → sortItems items = items
  | [], _ => by rw [sortItems]
  | item :: rest, h => by rw [sortItems, sortKeys_eq_self item h.1, sortItems_eq_self rest h.2]

theorem sortEntries_eq_self : (entries : List (String × Datum)) → (entries.map Prod.fst).Pairwise (· < ·) →
    SortedEntries entries → sortEntries entries = entries
  | [], _, _ => by rw [sortEntries]
  | (key, value) :: rest, hkeys, h => by
    have hkeys := List.pairwise_cons.1 hkeys
    rw [sortEntries, sortKeys_eq_self value h.1, sortEntries_eq_self rest hkeys.2 h.2, insertKey_of_lt value hkeys.1]

end

end Datum
end LeadTime

/-! Maps from names that keep the order in which the names came. A name that is written again keeps its
place and takes the new value. -/
namespace LeadTime

/-- The pair of `key` replaced in its place, or put at the end. -/
def putPair {α : Type u} (key : String) (value : α) : List (String × α) → List (String × α)
  | [] => [(key, value)]
  | pair :: rest => if pair.1 = key then (key, value) :: rest else pair :: putPair key value rest

theorem map_fst_putPair {α : Type u} (key : String) (value : α) (pairs : List (String × α)) :
    (putPair key value pairs).map Prod.fst =
      if key ∈ pairs.map Prod.fst then pairs.map Prod.fst else pairs.map Prod.fst ++ [key] := by
  induction pairs with
  | nil => simp [putPair]
  | cons pair rest ih =>
    by_cases h : pair.1 = key
    · simp [putPair, h]
    · have h' : key ≠ pair.1 := fun e => h e.symm
      by_cases hr : key ∈ rest.map Prod.fst <;> simp_all [putPair]

theorem nodup_putPair {α : Type u} (key : String) (value : α) {pairs : List (String × α)}
    (h : (pairs.map Prod.fst).Nodup) : ((putPair key value pairs).map Prod.fst).Nodup := by
  rw [map_fst_putPair]
  split
  · exact h
  · rename_i hk
    rw [List.nodup_append]
    refine ⟨h, by simp, ?_⟩
    intro a ha b hb
    simp only [List.mem_singleton] at hb
    rintro rfl
    exact hk (hb ▸ ha)

/-- A map from names to values in order of first writing. -/
structure KeyMap (α : Type u) where
  entries : List (String × α)
  nodup : (entries.map Prod.fst).Nodup

namespace KeyMap

variable {α : Type u}

def empty : KeyMap α := ⟨[], by simp⟩

instance : Inhabited (KeyMap α) := ⟨empty⟩

def keys (m : KeyMap α) : List String := m.entries.map Prod.fst

def values (m : KeyMap α) : List α := m.entries.map Prod.snd

def size (m : KeyMap α) : Nat := m.entries.length

def isEmpty (m : KeyMap α) : Bool := m.entries.isEmpty

def get? (m : KeyMap α) (key : String) : Option α :=
  (m.entries.find? (·.1 = key)).map Prod.snd

def insert (m : KeyMap α) (key : String) (value : α) : KeyMap α :=
  ⟨putPair key value m.entries, nodup_putPair key value m.nodup⟩

def insertNew (m : KeyMap α) (key : String) (value : α) : KeyMap α :=
  if key ∈ m.keys then m else m.insert key value

def insertAll (m : KeyMap α) (pairs : List (String × α)) : KeyMap α :=
  pairs.foldl (fun m pair => m.insert pair.1 pair.2) m

def ofList (pairs : List (String × α)) : KeyMap α := empty.insertAll pairs

@[simp] theorem keys_empty : (empty : KeyMap α).keys = [] := rfl

@[simp] theorem keys_insert (m : KeyMap α) (key : String) (value : α) :
    (m.insert key value).keys = if key ∈ m.keys then m.keys else m.keys ++ [key] :=
  map_fst_putPair key value m.entries

@[ext] theorem ext {m n : KeyMap α} (h : m.entries = n.entries) : m = n := by
  cases m; cases n; cases h; rfl

end KeyMap
end LeadTime

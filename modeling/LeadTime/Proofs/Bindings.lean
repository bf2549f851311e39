import LeadTime.Binding
import Mathlib

/-! What is left in a map after names were written: the names are those that were there and those that were
written, and a value stays until its name is written again. -/
namespace LeadTime.KeyMap

variable {α : Type*} {m n : KeyMap α} {key name : String} {value : α} {pairs : List (String × α)}

theorem mem_keys_insert : name ∈ (m.insert key value).keys ↔ name ∈ m.keys ∨ name = key := by
  rw [keys_insert]
  split
  · rename_i h
    exact ⟨Or.inl, fun hn => hn.elim id fun e => e ▸ h⟩
  · simp

theorem mem_keys_insertNew : name ∈ (m.insertNew key value).keys ↔ name ∈ m.keys ∨ name = key := by
  unfold insertNew
  split
  · rename_i h
    exact ⟨Or.inl, fun hn => hn.elim id fun e => e ▸ h⟩
  · exact mem_keys_insert

@[simp] theorem insertAll_nil : m.insertAll [] = m := rfl

@[simp] theorem insertAll_cons (pair : String × α) :
    m.insertAll (pair :: pairs) = (m.insert pair.1 pair.2).insertAll pairs := rfl

theorem insertAll_append (more : List (String × α)) :
    m.insertAll (pairs ++ more) = (m.insertAll pairs).insertAll more := List.foldl_append

@[simp] theorem mem_keys_insertAll :
    name ∈ (m.insertAll pairs).keys ↔ name ∈ m.keys ∨ name ∈ pairs.map Prod.fst := by
  induction pairs generalizing m with
  | nil => simp
  | cons pair rest ih => rw [insertAll_cons, ih, mem_keys_insert, List.map_cons, List.mem_cons, or_assoc]

@[simp] theorem mem_keys_ofList : name ∈ (ofList pairs).keys ↔ name ∈ pairs.map Prod.fst := by
  simp [ofList]

theorem keys_insertAll_congr {β : Type*} {m : KeyMap α} {n : KeyMap β} (h : m.keys = n.keys)
    {pairs : List (String × α)} {pairs' : List (String × β)} (hp : pairs.map Prod.fst = pairs'.map Prod.fst) :
    (m.insertAll pairs).keys = (n.insertAll pairs').keys := by
  induction pairs generalizing m n pairs' with
  | nil =>
    cases pairs' with
    | nil => exact h
    | cons => simp at hp
  | cons pair rest ih =>
    cases pairs' with
    | nil => simp at hp
    | cons pair' rest' =>
      simp only [List.map_cons, List.cons.injEq] at hp
      have hi : (m.insert pair.1 pair.2).keys = (n.insert pair'.1 pair'.2).keys := by
        rw [keys_insert, keys_insert, h, hp.1]
      exact ih hi hp.2

theorem keys_insertNew_congr {β : Type*} {m : KeyMap α} {n : KeyMap β} (h : m.keys = n.keys) (value : α)
    (value' : β) : (m.insertNew key value).keys = (n.insertNew key value').keys := by
  unfold insertNew
  by_cases hk : key ∈ n.keys
  · rw [if_pos (h ▸ hk), if_pos hk, h]
  · rw [if_neg (h ▸ hk), if_neg hk, keys_insert, keys_insert, h]

theorem entries_insert_of_notMem (h : key ∉ m.keys) : (m.insert key value).entries = m.entries ++ [(key, value)] := by
  have hp : ∀ entries : List (String × α), key ∉ entries.map Prod.fst →
      putPair key value entries = entries ++ [(key, value)] := by
    intro entries hn
    induction entries with
    | nil => rfl
    | cons pair rest ih =>
      simp only [List.map_cons, List.mem_cons, not_or] at hn
      rw [putPair, if_neg (Ne.symm hn.1), ih hn.2, List.cons_append]
  exact hp m.entries h

theorem values_insert_of_notMem (h : key ∉ m.keys) : (m.insert key value).values = m.values ++ [value] := by
  simp [values, entries_insert_of_notMem h]

theorem entries_insertAll_of_nodup (h : (m.keys ++ pairs.map Prod.fst).Nodup) :
    (m.insertAll pairs).entries = m.entries ++ pairs := by
  induction pairs generalizing m with
  | nil => simp
  | cons pair rest ih =>
    have hnew : pair.1 ∉ m.keys := fun hk => (List.nodup_append'.1 h).2.2 hk (by simp)
    have hkeys : (m.insert pair.1 pair.2).keys ++ rest.map Prod.fst = m.keys ++ (pair :: rest).map Prod.fst := by
      rw [keys_insert, if_neg hnew]
      simp
    rw [insertAll_cons, ih (by rwa [hkeys]), entries_insert_of_notMem hnew]
    simp

theorem entries_ofList_of_nodup (h : (pairs.map Prod.fst).Nodup) : (ofList pairs).entries = pairs :=
  entries_insertAll_of_nodup (m := empty) h

/-- A map has as many names as were written only where none was written twice. -/
theorem nodup_of_length_ofList (h : (ofList pairs).entries.length = pairs.length) : (pairs.map Prod.fst).Nodup := by
  have hperm : (ofList pairs).keys.Perm (pairs.map Prod.fst).dedup :=
    (List.perm_ext_iff_of_nodup (ofList pairs).nodup (List.nodup_dedup _)).2 fun _ =>
      mem_keys_ofList.trans List.mem_dedup.symm
  have hlength : (pairs.map Prod.fst).dedup.length = (pairs.map Prod.fst).length := by
    rw [← hperm.length_eq, keys, List.length_map, List.length_map, h]
  exact List.dedup_eq_self.1 ((List.dedup_sublist _).eq_of_length hlength)

theorem mem_values_insert {v : α} (h : v ∈ (m.insert key value).values) : v ∈ m.values ∨ v = value := by
  have hp : ∀ entries : List (String × α), v ∈ (putPair key value entries).map Prod.snd →
      v ∈ entries.map Prod.snd ∨ v = value := by
    intro entries hv
    induction entries with
    | nil => exact Or.inr (by simpa [putPair] using hv)
    | cons pair rest ih =>
      rw [putPair] at hv
      split at hv <;> simp only [List.map_cons, List.mem_cons] at hv ⊢
      · tauto
      · rcases hv with hv | hv
        · exact Or.inl (Or.inl hv)
        · exact (ih hv).imp_left Or.inr
  exact hp m.entries h

theorem find?_putPair_self (entries : List (String × α)) :
    (putPair key value entries).find? (·.1 = key) = some (key, value) := by
  induction entries with
  | nil => simp [putPair]
  | cons pair rest ih => by_cases h : pair.1 = key <;> simp [putPair, h, ih]

theorem find?_putPair_of_ne (h : name ≠ key) (entries : List (String × α)) :
    (putPair key value entries).find? (·.1 = name) = entries.find? (·.1 = name) := by
  induction entries with
  | nil => simp [putPair, Ne.symm h]
  | cons pair rest ih =>
    by_cases hk : pair.1 = key
    · simp [putPair, hk, Ne.symm h]
    · rw [putPair, if_neg hk, List.find?_cons, List.find?_cons, ih]

@[simp] theorem get?_insert_self : (m.insert key value).get? key = some value := by
  simp [get?, insert, find?_putPair_self]

theorem get?_insert_of_ne (h : name ≠ key) : (m.insert key value).get? name = m.get? name := by
  simp [get?, insert, find?_putPair_of_ne h]

theorem get?_insertAll_of_notMem (h : name ∉ pairs.map Prod.fst) :
    (m.insertAll pairs).get? name = m.get? name := by
  induction pairs generalizing m with
  | nil => rfl
  | cons pair rest ih =>
    simp only [List.map_cons, List.mem_cons, not_or] at h
    rw [insertAll_cons, ih h.2, get?_insert_of_ne h.1]

theorem get?_insertAll_of_count (hp : (name, value) ∈ pairs) (hc : (pairs.map Prod.fst).count name = 1) :
    (m.insertAll pairs).get? name = some value := by
  induction pairs generalizing m with
  | nil => simp at hp
  | cons pair rest ih =>
    rw [List.map_cons, List.count_cons] at hc
    rw [insertAll_cons]
    rcases List.mem_cons.1 hp with rfl | hp
    · have hrest : name ∉ rest.map Prod.fst := by simpa [List.count_eq_zero] using hc
      rw [get?_insertAll_of_notMem hrest, get?_insert_self]
    · have hpos : 0 < (rest.map Prod.fst).count name :=
        List.count_pos_iff.2 (List.mem_map_of_mem (f := Prod.fst) hp)
      exact ih hp (by omega)

theorem ofList_entries : ofList m.entries = m := ext (entries_ofList_of_nodup m.nodup)

theorem get?_of_mem_entries (h : (name, value) ∈ m.entries) : m.get? name = some value := by
  have hwritten : (ofList m.entries).get? name = some value :=
    get?_insertAll_of_count h (List.count_eq_one_of_mem m.nodup (List.mem_map_of_mem h))
  rwa [ofList_entries] at hwritten

theorem get?_eq_none_of_notMem (h : name ∉ m.keys) : m.get? name = none := by
  simp only [get?, Option.map_eq_none_iff, List.find?_eq_none, decide_eq_true_eq]
  exact fun pair hp e => h (e ▸ List.mem_map_of_mem hp)

theorem get?_eq_none_iff : m.get? name = none ↔ name ∉ m.keys := by
  refine ⟨fun h hk => ?_, get?_eq_none_of_notMem⟩
  obtain ⟨pair, hp, he⟩ := List.mem_map.1 hk
  simp only [get?, Option.map_eq_none_iff, List.find?_eq_none, decide_eq_true_eq] at h
  exact h pair hp he

theorem get?_insertAll_congr (h : m.get? name = n.get? name) :
    (m.insertAll pairs).get? name = (n.insertAll pairs).get? name := by
  induction pairs generalizing m n with
  | nil => exact h
  | cons pair rest ih =>
    refine ih ?_
    by_cases hn : name = pair.1
    · rw [hn, get?_insert_self, get?_insert_self]
    · rw [get?_insert_of_ne hn, get?_insert_of_ne hn, h]

theorem get?_insertNew_congr (h : m.get? name = n.get? name) :
    (m.insertNew key value).get? name = (n.insertNew key value).get? name := by
  unfold insertNew
  by_cases hn : name = key
  · subst hn
    have hk : name ∈ m.keys ↔ name ∈ n.keys := by rw [← not_iff_not, ← get?_eq_none_iff, ← get?_eq_none_iff, h]
    by_cases hm : name ∈ m.keys
    · rw [if_pos hm, if_pos (hk.1 hm), h]
    · rw [if_neg hm, if_neg fun hh => hm (hk.2 hh), get?_insert_self, get?_insert_self]
  · split <;> split <;> simp only [get?_insert_of_ne hn, h]

theorem get?_insertNew_of_get? (h : ∀ v, m.get? key = some v → v = value) :
    (m.insertNew key value).get? key = some value := by
  unfold insertNew
  split
  · rename_i hk
    obtain ⟨v, hv⟩ := Option.ne_none_iff_exists'.1 fun hn => get?_eq_none_iff.1 hn hk
    rw [hv, h v hv]
  · exact get?_insert_self

theorem get?_insertNew_of_bound {v : α} (h : m.get? name = some v) : (m.insertNew key value).get? name = some v := by
  unfold insertNew
  split
  · exact h
  · rename_i hk
    rw [get?_insert_of_ne, h]
    rintro rfl
    rw [get?_eq_none_of_notMem hk] at h
    cases h

theorem get?_insertNew_of_ne (h : name ≠ key) : (m.insertNew key value).get? name = m.get? name := by
  unfold insertNew
  split
  · rfl
  · exact get?_insert_of_ne h

theorem getElem?_insert_of_ne {v : α} {i : Nat} (hm : m.entries[i]? = some (name, value)) (h : name ≠ key) :
    (m.insert key v).entries[i]? = some (name, value) := by
  have hput : ∀ (entries : List (String × α)) (i : Nat), entries[i]? = some (name, value) →
      (putPair key v entries)[i]? = some (name, value) := by
    intro entries
    induction entries with
    | nil => simp
    | cons pair rest ih =>
      intro i hi
      rw [putPair]
      cases i with
      | zero =>
        obtain rfl : pair = (name, value) := by simpa using hi
        rw [if_neg h]
        rfl
      | succ i =>
        rw [List.getElem?_cons_succ] at hi
        split
        · exact hi
        · exact ih i hi
  exact hput m.entries i hm

theorem getElem?_insertAll_of_notMem {i : Nat} (hm : m.entries[i]? = some (name, value))
    (h : name ∉ pairs.map Prod.fst) : (m.insertAll pairs).entries[i]? = some (name, value) := by
  induction pairs generalizing m with
  | nil => exact hm
  | cons pair rest ih =>
    rw [List.map_cons, List.mem_cons, not_or] at h
    exact ih (getElem?_insert_of_ne hm h.1) h.2

end LeadTime.KeyMap

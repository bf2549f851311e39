import LeadTime.Stage

/-! Stages by their index in a pipeline. -/
namespace LeadTime

def putStage (index : Nat) (stage : Stage) : List (Nat × Stage) → List (Nat × Stage)
  | [] => [(index, stage)]
  | entry :: rest =>
    if index < entry.1 then (index, stage) :: entry :: rest
    else if index = entry.1 then (index, stage) :: rest
    else entry :: putStage index stage rest

theorem mem_map_fst_putStage {index i : Nat} {stage : Stage} {entries : List (Nat × Stage)}
    (h : i ∈ (putStage index stage entries).map Prod.fst) : i = index ∨ i ∈ entries.map Prod.fst := by
  induction entries with
  | nil => simpa [putStage] using h
  | cons entry rest ih =>
    simp only [putStage] at h
    split at h
    · simpa using h
    · split at h
      · rename_i heq
        simp only [List.map_cons, List.mem_cons] at h ⊢
        exact h.imp_right Or.inr
      · simp only [List.map_cons, List.mem_cons] at h ⊢
        rcases h with h | h
        · exact Or.inr (Or.inl h)
        · exact (ih h).imp_right Or.inr

theorem ascending_putStage (index : Nat) (stage : Stage) {entries : List (Nat × Stage)}
    (h : (entries.map Prod.fst).Pairwise (· < ·)) :
    ((putStage index stage entries).map Prod.fst).Pairwise (· < ·) := by
  induction entries with
  | nil => simp [putStage]
  | cons entry rest ih =>
    simp only [List.map_cons, List.pairwise_cons] at h
    simp only [putStage]
    split
    · rename_i hlt
      simp only [List.map_cons, List.pairwise_cons, List.mem_cons, forall_eq_or_imp]
      exact ⟨⟨hlt, fun a ha => Nat.lt_trans hlt (h.1 a ha)⟩, h⟩
    · split
      · rename_i heq
        simp only [List.map_cons, List.pairwise_cons]
        exact ⟨fun a ha => heq ▸ h.1 a ha, h.2⟩
      · rename_i hlt hne
        simp only [List.map_cons, List.pairwise_cons]
        refine ⟨fun a ha => ?_, ih h.2⟩
        rcases mem_map_fst_putStage ha with rfl | ha
        · exact Nat.lt_of_le_of_ne (Nat.not_lt.1 hlt) (Ne.symm hne)
        · exact h.1 a ha

/-- Stages by ascending index. -/
structure StageMap where
  entries : List (Nat × Stage)
  ascending : (entries.map Prod.fst).Pairwise (· < ·)

namespace StageMap

def empty : StageMap := ⟨[], by simp⟩

def insert (m : StageMap) (index : Nat) (stage : Stage) : StageMap :=
  ⟨putStage index stage m.entries, ascending_putStage index stage m.ascending⟩

/-- The stages at these indices; of a repeated index the last stage stays. -/
def ofPairs (pairs : List (Nat × Stage)) : StageMap :=
  pairs.foldl (fun m pair => m.insert pair.1 pair.2) empty

def ofStages (stages : List Stage) : StageMap where
  entries := stages.zipIdx.map fun pair => (pair.2, pair.1)
  ascending := by
    rw [List.map_map]
    have h : (stages.zipIdx.map Prod.snd) = List.range' 0 stages.length := by
      simp [List.zipIdx_map_snd]
    rw [show (Prod.fst ∘ fun pair : Stage × Nat => (pair.2, pair.1)) = Prod.snd from rfl, h]
    exact List.pairwise_lt_range'

def size (m : StageMap) : Nat := m.entries.length

end StageMap
end LeadTime

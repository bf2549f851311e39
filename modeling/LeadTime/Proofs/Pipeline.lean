import LeadTime.Proofs.Compilation
import Mathlib

/-! What a pipeline that was assembled consists of, and what is known of its configuration. -/
namespace LeadTime

namespace Pipeline

/-- The start that a configuration asks for, whether or not the anchor has it. -/
def configuredStart (config : PipelineConfig) : StartTime :=
  let start := if config.startsAtCommit then StartTime.commitCreated else .anchorCreated
  if config.startsAtGenericEvent then .genericEvent config.startingEventTypes start else start

theorem startOf_eq_ok {config : PipelineConfig} {anchor : Anchor} {start : StartTime}
    (h : startOf config anchor = .ok start) :
    start = configuredStart config ∧ (config.startsAtGenericEvent = true → anchor.isIssue = true) := by
  unfold configuredStart
  cases hg : config.startsAtGenericEvent <;> cases ha : anchor.isIssue <;> simp [startOf, hg, ha] at h ⊢ <;>
    exact h.symm

theorem checkStage_eq_ok {anchor : Anchor} {s : Stage} (h : checkStage anchor s = .ok ()) :
    ∃ kind, s.kind? = some kind ∧ (kind.needsIssues = true → anchor.hasIssues = true) := by
  unfold checkStage at h
  split at h
  · cases h
  · rename_i kind hk
    refine ⟨kind, hk, fun hn => ?_⟩
    by_contra hi
    simp [hn, hi] at h

/-- A pipeline that was assembled is its configuration, whose entities are there to read. -/
structure Assembled (config : PipelineConfig) (q : Query) (p : Pipeline) : Prop where
  eq : p = ⟨config.name, stagesOf config, anchorOf q, configuredStart config⟩
  issues : (anchorOf q).isIssue = true → (anchorOf q).hasIssues = true
  stages : ∀ s ∈ stagesOf config, ∃ kind, s.kind? = some kind ∧
    (kind.needsIssues = true → (anchorOf q).hasIssues = true)
  start : config.startsAtGenericEvent = true → (anchorOf q).isIssue = true

theorem assembled_of_eq_ok {config : PipelineConfig} {q : Query} {p : Pipeline} (h : assemble config q = .ok p) :
    Assembled config q p := by
  simp only [assemble] at h
  split at h
  · cases h
  · rename_i hissues
    split at h
    · cases h
    · simp only [Except.bind_eq_ok] at h
      obtain ⟨_, hstages, start, hs, h⟩ := h
      obtain ⟨rfl, hstart⟩ := startOf_eq_ok hs
      cases h
      refine ⟨rfl, fun hi => ?_, fun s hm => checkStage_eq_ok (eq_ok_of_forM_eq_ok hstages s hm), hstart⟩
      by_contra hn
      simp [hi, hn] at hissues

theorem stages_ne_nil {config : PipelineConfig} {q : Query} {p : Pipeline} (h : assemble config q = .ok p) :
    p.stages ≠ [] := by
  rw [(assembled_of_eq_ok h).eq]
  simp only [assemble] at h
  split at h
  · cases h
  · split at h
    · cases h
    · rename_i hne
      simpa using hne

end Pipeline

namespace Compilation

variable {c : Compiler} {r : Request} (k : Compilation c r)

theorem assembled_pipeline : Pipeline.Assembled r.pipeline r.query k.pipeline :=
  Pipeline.assembled_of_eq_ok k.assembled

theorem anchor_eq : k.pipeline.anchor = Pipeline.anchorOf r.query := by rw [k.assembled_pipeline.eq]

theorem stages_eq : k.pipeline.stages = Pipeline.stagesOf r.pipeline := by rw [k.assembled_pipeline.eq]

theorem start_eq : k.start = (Pipeline.configuredStart r.pipeline).clause (Pipeline.anchorOf r.query) := by
  rw [start, k.assembled_pipeline.eq]

end Compilation
structure Pipeline.IsLastRunStage (p : Pipeline) (index : Nat) : Prop where
  run : ∃ stage, p.stages[index]? = some stage ∧ isJobRunStage stage = true
  last : ∀ later stage, index < later → p.stages[later]? = some stage → isJobRunStage stage = false

theorem getLast?_filter_zipIdx_eq_some_iff {α : Type*} {test : α → Bool} {items : List α} {index : Nat} :
    (items.zipIdx.filter fun pair => test pair.1).getLast?.map Prod.snd = some index ↔
      (∃ a, items[index]? = some a ∧ test a = true) ∧
        ∀ later a, index < later → items[later]? = some a → test a = false := by
  induction items using List.reverseRecOn with
  | nil => simp
  | append_singleton items a ih =>
    have hzip : (items ++ [a]).zipIdx = items.zipIdx ++ [(a, items.length)] := by simp [List.zipIdx_append]
    have hnth (i : Nat) (b : α) : (items ++ [a])[i]? = some b ↔ items[i]? = some b ∨ i = items.length ∧ b = a := by grind
    have hlt (i : Nat) (b : α) (hb : items[i]? = some b) : i < items.length := (List.getElem?_eq_some_iff.1 hb).1
    rw [hzip, List.filter_append]
    simp only [hnth]
    cases ha : test a with
    | true =>
      have hlast : ([(a, items.length)].filter fun pair => test pair.1) = [(a, items.length)] := by simp [ha]
      rw [hlast, List.getLast?_concat, Option.map_some, Option.some.injEq]
      constructor
      · rintro rfl
        refine ⟨⟨a, Or.inr ⟨rfl, rfl⟩, ha⟩, fun later b hl hb => ?_⟩
        rcases hb with hb | ⟨rfl, -⟩
        · exact absurd (hlt later b hb) (by omega)
        · exact absurd hl (lt_irrefl _)
      · rintro ⟨⟨b, hb | ⟨rfl, -⟩, -⟩, hlater⟩
        · have hfalse := hlater items.length a (hlt index b hb) (Or.inr ⟨rfl, rfl⟩)
          rw [ha] at hfalse
          cases hfalse
        · rfl
    | false =>
      have hlast : ([(a, items.length)].filter fun pair => test pair.1) = [] := by simp [ha]
      rw [hlast, List.append_nil, ih]
      refine and_congr (exists_congr fun b => and_congr_left fun hb => ?_) ?_
      · refine ⟨Or.inl, fun h => h.elim id fun h => ?_⟩
        rw [h.2, ha] at hb
        cases hb
      · refine ⟨fun h later b hl hb => ?_, fun h later b hl hb => h later b hl (Or.inl hb)⟩
        rcases hb with hb | ⟨-, rfl⟩
        · exact h later b hl hb
        · exact ha

theorem Pipeline.isLastRunStage_iff {p : Pipeline} {index : Nat} :
    p.IsLastRunStage index ↔ p.lastJobRun? = some index := by
  rw [lastJobRun?, getLast?_filter_zipIdx_eq_some_iff]
  exact ⟨fun h => ⟨h.run, h.last⟩, fun h => ⟨h.1, h.2⟩⟩

end LeadTime

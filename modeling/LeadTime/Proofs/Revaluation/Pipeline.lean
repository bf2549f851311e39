import LeadTime.Plan
import LeadTime.Proofs.Revaluation.StageEvent
import Mathlib

/-! Pipelines under new values. They are assembled alike, and the shape of a query reads only what stages are called
and how long they should take. -/
namespace LeadTime

variable {f : String → String} (v : Revaluation)

def StartTime.retext (f : String → String) : StartTime → StartTime
  | .anchorCreated => .anchorCreated
  | .commitCreated => .commitCreated
  | .genericEvent types otherwise => .genericEvent (types.map f) (otherwise.retext f)

def Pipeline.retext (f : String → String) (p : Pipeline) : Pipeline :=
  { p with stages := p.stages.map (Stage.retext f), start := p.start.retext f }

def Stage.retextIndexed (f : String → String) (indexed : Stage × Nat) : Stage × Nat := (indexed.1.retext f, indexed.2)

@[simp] theorem Stage.fst_retextIndexed (indexed : Stage × Nat) : (retextIndexed f indexed).1 = indexed.1.retext f := rfl

namespace Pipeline

theorem sortedGroup_retext (stages : List Stage) :
    sortedGroup (stages.map (Stage.retext f)) = (sortedGroup stages).map (Stage.retext f) := by
  rw [sortedGroup, sortedGroup]
  refine (List.map_mergeSort fun a _ b _ => ?_).symm
  simp only [Stage.order_retext]
  rfl

theorem fixedStages_retext (config : PipelineConfig) :
    fixedStages (config.retext f) = (fixedStages config).map (Stage.retext f) := by
  have hsorted : sortedGroup (config.retext f).fixed = (sortedGroup config.fixed).map (Stage.retext f) :=
    sortedGroup_retext config.fixed
  rw [fixedStages, fixedStages, hsorted]
  cases h : config.startsAtCommit <;> simp [PipelineConfig.retext, h]

theorem stagesOf_retext (config : PipelineConfig) :
    stagesOf (config.retext f) = (stagesOf config).map (Stage.retext f) := by
  rw [stagesOf, stagesOf, fixedStages_retext, List.map_append, List.map_append]
  simp only [PipelineConfig.retext, sortedGroup_retext]

theorem checkStage_retext (anchor : Anchor) (s : Stage) : checkStage anchor (s.retext f) = checkStage anchor s := by
  rw [checkStage, checkStage, Stage.kind?_retext]
  rfl

theorem forM_checkStage_retext (anchor : Anchor) (stages : List Stage) :
    (stages.map (Stage.retext f)).forM (checkStage anchor) = stages.forM (checkStage anchor) := by
  induction stages with
  | nil => rfl
  | cons s rest ih => rw [List.map_cons, List.forM, List.forM, ih, checkStage_retext]

theorem isJobRunStage_retext (s : Stage) : isJobRunStage (s.retext f) = isJobRunStage s := by
  rw [isJobRunStage, isJobRunStage, Stage.kind?_retext]

theorem startOf_retext (config : PipelineConfig) (anchor : Anchor) :
    startOf (config.retext f) anchor = (startOf config anchor).map (StartTime.retext f) := by
  cases hg : config.startsAtGenericEvent <;> cases hc : config.startsAtCommit <;> cases hi : anchor.isIssue <;>
    simp [startOf, PipelineConfig.retext, hg, hc, hi, Except.map, StartTime.retext]

theorem assemble_retext (config : PipelineConfig) (q : Query) :
    assemble (config.retext v.text) (v.query q) = (assemble config q).map (retext v.text) := by
  have hanchor : anchorOf (v.query q) = anchorOf q := rfl
  have hname : (config.retext v.text).name = config.name := rfl
  simp only [assemble, hanchor, hname, stagesOf_retext, startOf_retext, List.isEmpty_map, forM_checkStage_retext]
  split
  · rfl
  · split
    · rfl
    · cases (stagesOf config).forM (checkStage (anchorOf q)) with
      | error e => rfl
      | ok u => cases startOf config (anchorOf q) <;> rfl

theorem zipIdx_retext (p : Pipeline) :
    (p.retext f).stages.zipIdx = p.stages.zipIdx.map (Stage.retextIndexed f) := List.zipIdx_map

theorem stage?_retext (p : Pipeline) (name : String) :
    (p.retext f).stage? name = (p.stage? name).map (Stage.retextIndexed f) := by
  rw [stage?, zipIdx_retext, List.find?_map]
  rfl

theorem stageIndex?_retext (p : Pipeline) (name : String) : (p.retext f).stageIndex? name = p.stageIndex? name := by
  rw [stageIndex?, stage?_retext, Option.map_map]
  rfl

theorem requireStage_retext (p : Pipeline) (name : String) :
    (p.retext f).requireStage name = (p.requireStage name).map (Stage.retextIndexed f) := by
  rw [requireStage, requireStage, stage?_retext]
  cases p.stage? name <;> rfl

theorem lastJobRun?_retext (p : Pipeline) : (p.retext f).lastJobRun? = p.lastJobRun? := by
  have h : (fun pair : Stage × Nat => isJobRunStage pair.1) ∘ Stage.retextIndexed f =
      fun pair => isJobRunStage pair.1 := by
    funext pair
    rw [Function.comp_apply, Stage.fst_retextIndexed, isJobRunStage_retext]
  rw [lastJobRun?, lastJobRun?, zipIdx_retext, List.filter_map, h, List.getLast?_map, Option.map_map]
  rfl

end Pipeline

namespace Query

variable (q : Query) (p : Pipeline)

theorem requireTarget_retext : (v.query q).requireTarget (p.retext v.text) =
    (q.requireTarget p).map (Stage.retextIndexed v.text) := by
  simp only [requireTarget, Revaluation.query]
  cases q.targetStage with
  | none => rfl
  | some name => exact p.requireStage_retext name

theorem ratedStages_retext : (v.query q).ratedStages (p.retext v.text) =
    (q.ratedStages p).map (List.map (Stage.retextIndexed v.text)) := by
  simp only [ratedStages, Revaluation.query]
  cases q.targetStage with
  | none => rw [Pipeline.zipIdx_retext]; rfl
  | some name =>
    simp only [Pipeline.requireStage_retext]
    cases p.requireStage name <;> rfl

theorem ratingConditions_retext : (v.query q).ratingConditions (p.retext v.text) = q.ratingConditions p := by
  simp only [ratingConditions, ratedStages_retext]
  cases q.ratedStages p with
  | error e => rfl
  | ok stages =>
    simp only [Except.map, bind, Except.bind, List.mapM_map]
    rfl

theorem listingOrder_retext : ListingOrder.ofQuery (v.query q) (p.retext v.text) = ListingOrder.ofQuery q p := by
  have hkey : ListingOrder.ofKey (p.retext v.text) = ListingOrder.ofKey p := by
    funext key
    simp only [ListingOrder.ofKey, Pipeline.stageIndex?_retext]
    rfl
  simp only [ListingOrder.ofQuery, hkey]
  rfl

theorem shape_retext (pageSize : UInt64) : (v.query q).shape (p.retext v.text) pageSize = q.shape p pageSize := by
  have hacross : (v.query q).across = q.across := rfl
  simp only [shape, requireTarget_retext, ratingConditions_retext, listingOrder_retext, hacross]
  cases q.across with
  | velocity | trend | stack | values => rfl
  | histogram =>
    cases q.requireTarget p <;> rfl
  | rating =>
    cases q.requireTarget p <;> rfl

end Query
end LeadTime

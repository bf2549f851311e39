import LeadTime.Proofs.Pipeline
import Mathlib

/-! With which errors a pipeline's stages are refused: as the pipeline is assembled, and as the stages are added one
after the other. -/
namespace LeadTime

namespace RunFilter

def textErrors : Datum → List FilterFault
  | .text _ => []
  | d => [.mistyped d .text]

def textsErrors : Datum → List FilterFault
  | .list items => items.flatMap textErrors
  | d => [.mistyped d .sequence]

def optionalTextErrors : Datum → List FilterFault
  | .null => []
  | d => textErrors d

/-- A pattern has its parts under their names, or up to two in order. -/
def patternErrors : Datum → List FilterFault
  | .map parts => parts.flatMap fun part =>
    if part.1 = "begins" ∨ part.1 = "contains" then optionalTextErrors part.2 else []
  | .list items =>
    (items.take 2).flatMap optionalTextErrors ++ errorUnless (items.length ≤ 2) (.overlong items.length)
  | d => [.mistyped d .pattern]

def optionalPatternErrors : Datum → List FilterFault
  | .null => []
  | d => patternErrors d

def listKeys : List String :=
  ["cicd_user_ids", "exclude_cicd_user_ids", "job_statuses", "exclude_job_statuses", "services", "environments",
    "deployment_types", "branches"]

def entryErrors (pair : String × Datum) : List FilterFault :=
  if pair.1 ∈ listKeys then textsErrors pair.2
  else if pair.1 = "repository" then optionalPatternErrors pair.2 else []

def rawErrors (raw : Option RawFilter) : List FilterFault :=
  ((raw.map (·.entries)).getD []).flatMap entryErrors

theorem raises_text (d : Datum) : Raises (text d) (textErrors d) := by
  cases d with
  | text s => exact .ok s
  | _ => exact .error _ []

theorem raises_texts (d : Datum) : Raises (texts d) (textsErrors d) := by
  cases d with
  | list items => exact .mapM fun item _ => raises_text item
  | _ => exact .error _ []

theorem raises_optionalText (d : Datum) : Raises (optionalText d) (optionalTextErrors d) := by
  by_cases h : d = .null
  · rw [h]
    exact .ok none
  · have hread : optionalText d = (text d).map some ∧ optionalTextErrors d = textErrors d := by
      cases d <;> first | exact absurd rfl h | exact ⟨rfl, rfl⟩
    rw [hread.1, hread.2]
    exact (raises_text d).map

theorem raises_patternPart (p : TextPattern) (part : String × Datum) : Raises (patternPart p part)
    (if part.1 = "begins" ∨ part.1 = "contains" then optionalTextErrors part.2 else []) := by
  unfold patternPart
  split
  · rename_i h
    rw [if_pos (Or.inl h)]
    exact (raises_optionalText _).map
  · rename_i h
    rw [if_pos (Or.inr h)]
    exact (raises_optionalText _).map
  · rename_i hbegins hcontains
    rw [if_neg (by tauto)]
    exact .ok p

theorem raises_pattern (d : Datum) : Raises (pattern d) (patternErrors d) := by
  cases d with
  | map parts => exact .foldlM_each raises_patternPart parts _
  | list items =>
    refine (Raises.mapM fun item _ => raises_optionalText item).bind fun parts _ => ?_
    exact Raises.refuse_ok Nat.not_le.symm _
  | _ => exact .error _ []

theorem raises_optionalPattern (d : Datum) : Raises (optionalPattern d) (optionalPatternErrors d) := by
  by_cases h : d = .null
  · rw [h]
    exact .ok none
  · have hread : optionalPattern d = (pattern d).map some ∧ optionalPatternErrors d = patternErrors d := by
      cases d <;> first | exact absurd rfl h | exact ⟨rfl, rfl⟩
    rw [hread.1, hread.2]
    exact (raises_pattern d).map

theorem raises_take (f : RunFilter) (pair : String × Datum) : Raises (f.take pair) (entryErrors pair) := by
  unfold take entryErrors
  split
  case h_9 h =>
    rw [if_neg (by rw [h]; decide), if_pos h]
    exact (raises_optionalPattern _).map
  case h_10 =>
    rw [if_neg (by simp [listKeys]; tauto), if_neg ‹_›]
    exact .ok f
  all_goals
    rename_i h
    rw [if_pos (by rw [h]; decide)]
    exact (raises_texts _).map

theorem raises_ofRaw (raw : Option RawFilter) : Raises (ofRaw raw) (rawErrors raw) := by
  cases raw with
  | none => exact .ok _
  | some raw => exact .foldlM_each raises_take raw.entries _

end RunFilter

namespace Stage

def kindErrors (system : IssueSystem) (s : Stage) : List Error :=
  match s.kind? with
  | none => [.unknownEventKind s.event.kind]
  | some kind => errorUnless (kind.needsIssues = true → system ≠ .none) (.stageWithoutIssues s.name kind)

def eventErrors (s : Stage) : List Error :=
  match s.kind? with
  | some .jobRun | some .ciJobRun | some .cdJobRun => (RunFilter.rawErrors s.filter).map (.invalidFilter s.name)
  | some .deployJobRun =>
    errorUnless ((s.event.paramValues StageEvent.markerParam).head?.getD "" ≠ "")
      (.missingParam s.name StageEvent.markerParam)
  | _ => []

def isCi (s : Stage) : Bool := s.kind?.any EventKind.isCi

def ciErrors (stages : List Stage) (indexed : Stage × Nat) : List Error :=
  errorUnless (indexed.1.kind? = some .cdJobRun → (stages.take indexed.2).any isCi = true)
    (.cdWithoutCi indexed.1.name)

end Stage

namespace PipelineConfig

/-- There are issues where theirs is the lead time, there are stages, each is of a known kind and has its entity to
read, and no pull request starts at a generic event. -/
def assemblyErrors (config : PipelineConfig) (q : Query) : List Error :=
  errorUnless (q.calculation = .issueVelocity → q.issueSystem ≠ .none) .issueVelocityWithoutIssues ++
    (errorUnless ((Pipeline.stagesOf config).length ≠ 0) (.emptyPipeline config.name) ++
      ((Pipeline.stagesOf config).flatMap (Stage.kindErrors q.issueSystem) ++
        errorUnless (config.startsAtGenericEvent = true → q.calculation = .issueVelocity) .genericStartOfPullRequests))

def stageErrors (config : PipelineConfig) : List Error :=
  (Pipeline.stagesOf config).zipIdx.flatMap fun indexed =>
    indexed.1.eventErrors ++ Stage.ciErrors (Pipeline.stagesOf config) indexed

end PipelineConfig

namespace Pipeline

theorem raises_checkStage (anchor : Anchor) (s : Stage) :
    Raises (checkStage anchor s) (s.kindErrors anchor.issueSystem) := by
  unfold checkStage Stage.kindErrors
  cases s.kind? with
  | none => exact .error _ []
  | some kind =>
    exact Raises.refuse_ok (by simp [Anchor.hasIssues]) ()

theorem raises_startOf (config : PipelineConfig) (anchor : Anchor) : Raises (startOf config anchor)
    (errorUnless (config.startsAtGenericEvent = true → anchor.calculation = .issueVelocity)
      .genericStartOfPullRequests) := by
  unfold startOf
  cases h : config.startsAtGenericEvent with
  | false => exact .ok _
  | true => exact .check_ok (by simp [Anchor.isIssue]) _

theorem raises_assemble (config : PipelineConfig) (q : Query) :
    Raises (assemble config q) (config.assemblyErrors q) := by
  refine Raises.refuse ?_ fun _ => Raises.refuse ?_ fun _ => ?_
  · unfold anchorOf
    cases q.calculation <;> cases q.issueSystem <;> decide
  · simp
  · exact (Raises.forM fun s _ => raises_checkStage (anchorOf q) s).bind fun _ _ =>
      (raises_startOf config (anchorOf q)).yield

end Pipeline

namespace StageEvent

theorem raises_filterOf (s : Stage) :
    Raises (filterOf s) ((RunFilter.rawErrors s.filter).map (.invalidFilter s.name)) := by
  have hraw := RunFilter.raises_ofRaw s.filter
  unfold filterOf
  generalize RunFilter.ofRaw s.filter = read, RunFilter.rawErrors s.filter = faults at hraw
  cases hraw with
  | ok filter => exact .ok filter
  | error fault rest => exact .error _ _

theorem raises_markerOf (s : Stage) : Raises (markerOf s)
    (errorUnless ((s.event.paramValues markerParam).head?.getD "" ≠ "") (.missingParam s.name markerParam)) := by
  unfold markerOf
  cases s.event.paramValues markerParam with
  | nil => exact .error _ []
  | cons marker rest => exact .refuse_ok (by simp) marker

/-- Where the kind is known, what is left is the filter and the marker. -/
theorem raises_ofStage {s : Stage} (hknown : s.kind?.isSome = true) : Raises (ofStage s) s.eventErrors := by
  obtain ⟨kind, hk⟩ := Option.isSome_iff_exists.1 hknown
  unfold ofStage Stage.eventErrors
  rw [hk]
  cases kind with
  | jobRun | ciJobRun | cdJobRun => exact (raises_filterOf s).map
  | deployJobRun => exact (raises_markerOf s).map
  | _ => exact .ok _

theorem raises_clause (event : StageEvent) (ctx : EventContext) (name : String) (stage : Nat) :
    Raises (event.clause ctx name stage)
      (errorUnless (event.kind = .cdJobRun → ctx.previousCi.isSome = true) (.cdWithoutCi name)) := by
  cases event with
  | cdJobRun runs filter =>
    unfold clause
    cases h : ctx.previousCi with
    | none => exact .error _ []
    | some ci => exact .ok _
  | _ => exact .ok _

end StageEvent

namespace StageProgress

variable {last : Option Nat} {runs : List Sql.Expr} {stages : List Stage} {s : StageProgress}

def KnowsCi (stages : List Stage) (n : Nat) (s : StageProgress) : Prop :=
  s.previousCi.isSome = (stages.take n).any Stage.isCi

theorem KnowsCi.add {i : Nat} {stage : Stage} {event : StageEvent} (h : KnowsCi stages i s)
    (hi : stages[i]? = some stage) (hk : stage.kind? = some event.kind) (clause : StageClause) :
    KnowsCi stages (i + 1) (s.add i event clause) := by
  have hci : stage.isCi = event.kind.isCi := by rw [Stage.isCi, hk, Option.any_some]
  rw [KnowsCi, List.take_add_one, hi, List.any_append, ← h, Option.toList_some, List.any_cons, List.any_nil, hci,
    Bool.or_false]
  show (StageEvent.nextCi s.previousCi i event).isSome = _
  unfold StageEvent.nextCi
  cases event.kind.isCi <;> simp

theorem raises_addStage {i : Nat} {stage : Stage} (h : KnowsCi stages i s) (hknown : stage.kind?.isSome = true) :
    Raises (addStage last runs s (stage, i)) (stage.eventErrors ++ Stage.ciErrors stages (stage, i)) := by
  refine (StageEvent.raises_ofStage hknown).bind fun event he => ?_
  have hk := StageEvent.kind_ofStage he
  have hci : (stage.kind? = some .cdJobRun → (stages.take i).any Stage.isCi = true) ↔
      (event.kind = .cdJobRun → s.previousCi.isSome = true) := by
    rw [hk, Option.some.injEq, h]
  rw [Stage.ciErrors, errorUnless_congr hci]
  exact (event.raises_clause _ _ _).yield

theorem raises_stages (hknown : ∀ stage ∈ stages, stage.kind?.isSome = true) (hs : s.previousCi = none) :
    Raises (stages.zipIdx.foldlM (addStage last runs) s)
      (stages.zipIdx.flatMap fun indexed => indexed.1.eventErrors ++ Stage.ciErrors stages indexed) := by
  refine Raises.foldlM (P := KnowsCi stages) (n := 0) (by simp [KnowsCi, hs]) fun i indexed s' hi hp => ?_
  simp only [List.getElem?_zipIdx, Option.map_eq_some_iff, Nat.zero_add] at hi
  obtain ⟨stage, hst, rfl⟩ := hi
  rw [Nat.zero_add] at hp ⊢
  refine ⟨raises_addStage hp (hknown stage (List.mem_of_getElem? hst)), fun next hnext => ?_⟩
  obtain ⟨event, clause, he, -, rfl⟩ := addStage_eq_ok.1 hnext
  exact hp.add hst (StageEvent.kind_ofStage he) clause

end StageProgress

end LeadTime

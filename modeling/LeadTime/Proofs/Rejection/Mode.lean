import LeadTime.Plan
import LeadTime.Proofs.Except
import Mathlib

/-! With which errors the mode of a query is refused. Each check is stated by what it demands of the query and of the
pipeline's configuration, with exact arithmetic, and each step of the compiler fails with the first that fails. -/
namespace LeadTime

namespace Stage

/-- The limits fit signed words of 64 bits, the upper one with a second more. -/
def limitErrors (s : Stage) : List Error :=
  errorUnless (s.lowerLimit.length < 2 ^ 63) (.limitOutOfRange .lower s.name) ++
    errorUnless (s.upperLimit.length + 1 < 2 ^ 63) (.limitOutOfRange .upper s.name)

/-- Good ends before needing attention does: by the thresholds that are given, else by the limits. -/
def thresholdErrors (s : Stage) : Option Thresholds → List Error
  | some t =>
    errorUnless (t.good.toInt < t.needsAttention.toInt) (.invalidThresholds t.good.toInt t.needsAttention.toInt s.name)
  | none =>
    let good : Int := s.lowerLimit.length - 1
    let needsAttention : Int := s.upperLimit.length + 1
    s.limitErrors ++ errorUnless (good < needsAttention) (.invalidThresholds good needsAttention s.name)

def histogramErrors (s : Stage) : List Error :=
  errorUnless (s.upperLimit.length + 1 < 2 ^ 64) (.limitOutOfRange .upper s.name)

end Stage

/-- There is a stage of that name, and the first of them passes. -/
def PipelineConfig.namedErrors (config : PipelineConfig) (name : String) (errors : Stage → List Error) : List Error :=
  match (Pipeline.stagesOf config).find? (·.name = name) with
  | none => [.stageNotFound name config.name]
  | some stage => errors stage

namespace Query

def targetErrors (q : Query) (config : PipelineConfig) (errors : Stage → List Error) : List Error :=
  match q.targetStage with
  | none => [.noTargetStage q.across]
  | some name => config.namedErrors name errors

def ratingErrors (q : Query) (config : PipelineConfig) : List Error :=
  if q.ratings = [] then []
  else
    match q.targetStage with
    | none => (Pipeline.stagesOf config).flatMap (·.thresholdErrors q.thresholds)
    | some name => config.namedErrors name (·.thresholdErrors q.thresholds)

def shapeErrors (q : Query) (config : PipelineConfig) (defaultPageSize : UInt64) : List Error :=
  match q.across with
  | .velocity | .trend | .stack => []
  | .values =>
    let size := (q.pageSize.getD defaultPageSize).toNat
    errorUnless (size ≠ 0) .emptyPage ++
      errorUnless (q.page.toNat * size < 2 ^ 64) (.pageOutOfRange q.page.toNat size) ++ q.ratingErrors config
  | .histogram => errorUnless (q.buckets ≠ 0) .noBuckets ++ q.targetErrors config Stage.histogramErrors
  | .rating => q.targetErrors config (·.thresholdErrors q.thresholds)

def stackErrors (q : Query) : List Error :=
  if q.across ≠ .stack then []
  else
    errorUnless (q.stack.isSome = true) .noStackDimension ++ errorUnless (q.issueSystem ≠ .none) .stackWithoutIssues

end Query

namespace Stage

variable (s : Stage)

theorem raises_limitSeconds (side : LimitSide) : Raises (s.limitSeconds side)
    (errorUnless ((s.limit side).length < 2 ^ 63) (.limitOutOfRange side s.name)) := .check_ok .rfl _

theorem limitSeconds_eq_ok {side : LimitSide} {n : Nat} (h : s.limitSeconds side = .ok n) :
    n = (s.limit side).length ∧ n < 2 ^ 63 := by
  unfold limitSeconds at h
  split at h
  · cases h
    exact ⟨rfl, ‹_›⟩
  · cases h

/-- The upper limit and a second more fit together or not at all. -/
theorem raises_pastUpper : Raises s.pastUpper
    (errorUnless (s.upperLimit.length + 1 < 2 ^ 63) (.limitOutOfRange .upper s.name)) := by
  unfold pastUpper
  by_cases h : s.upperLimit.length < 2 ^ 63
  · have hlimit : s.limitSeconds .upper = .ok s.upperLimit.length := if_pos h
    rw [hlimit]
    exact .check_ok .rfl _
  · have hlimit : s.limitSeconds .upper = .error (.limitOutOfRange .upper s.name) := if_neg h
    rw [hlimit, errorUnless, if_neg (by omega)]
    exact .error _ []

theorem pastUpper_eq_ok {n : Nat} (h : s.pastUpper = .ok n) : n = s.upperLimit.length + 1 ∧ n < 2 ^ 63 := by
  simp only [pastUpper, Except.bind_eq_ok] at h
  obtain ⟨upper, hupper, h⟩ := h
  obtain ⟨rfl, -⟩ := s.limitSeconds_eq_ok hupper
  split at h
  · cases h
    exact ⟨rfl, ‹_›⟩
  · cases h

theorem raises_limitThresholds : Raises s.limitThresholds s.limitErrors :=
  (s.raises_limitSeconds .lower).bind fun _ _ => s.raises_pastUpper.yield

theorem limitThresholds_eq_ok {t : Thresholds} (h : s.limitThresholds = .ok t) :
    t.good.toInt = s.lowerLimit.length - 1 ∧ t.needsAttention.toInt = s.upperLimit.length + 1 := by
  simp only [limitThresholds, Except.bind_eq_ok] at h
  obtain ⟨lower, hlower, past, hpast, h⟩ := h
  obtain ⟨rfl, hl⟩ := s.limitSeconds_eq_ok hlower
  obtain ⟨rfl, hp⟩ := s.pastUpper_eq_ok hpast
  cases h
  have hlimit : s.limit .lower = s.lowerLimit := rfl
  rw [hlimit] at hl ⊢
  refine ⟨Int64.toInt_ofInt_of_le (by omega) (by omega), ?_⟩
  rw [Int64.toInt_ofInt_of_le (by omega) (by omega)]
  rfl

theorem raises_thresholds (given : Option Thresholds) : Raises (s.thresholds given) (s.thresholdErrors given) := by
  have hcheck (t : Thresholds) : Raises (if t.good < t.needsAttention then .ok t
      else .error (Error.invalidThresholds t.good.toInt t.needsAttention.toInt s.name))
      (errorUnless (t.good.toInt < t.needsAttention.toInt)
        (Error.invalidThresholds t.good.toInt t.needsAttention.toInt s.name)) := by
    simp only [← Int64.lt_iff_toInt_lt]
    exact .check_ok .rfl t
  cases given with
  | some t => exact hcheck t
  | none =>
    refine s.raises_limitThresholds.bind fun t ht => ?_
    obtain ⟨hgood, hattention⟩ := s.limitThresholds_eq_ok ht
    rw [← hgood, ← hattention]
    exact hcheck t

theorem raises_histogramEnd : Raises s.histogramEnd s.histogramErrors := by
  unfold histogramEnd
  cases h : s.upperLimit.seconds? with
  | none =>
    have hlong : ¬ s.upperLimit.length + 1 < 2 ^ 64 := by
      intro hlt
      have hsome := DurationLimit.seconds?_eq_some_iff.2 ⟨rfl, Nat.lt_of_succ_lt hlt⟩
      rw [h] at hsome
      cases hsome
    rw [histogramErrors, errorUnless, if_neg hlong]
    exact .error _ []
  | some upper =>
    obtain ⟨rfl, -⟩ := DurationLimit.seconds?_eq_some_iff.1 h
    exact .check_ok .rfl _

end Stage

theorem Page.new_eq_ok_iff {number size : ℕ} {page : Page} :
    new number size = .ok page ↔ 0 < size ∧ number * size < 0x10000000000000000 ∧ page = ⟨size, number * size⟩ := by
  unfold new
  rcases Nat.eq_zero_or_pos size with rfl | hs
  · simp
  · rw [if_neg hs.ne']
    split
    · rename_i hlt
      simp [hs, hlt, eq_comm]
    · rename_i hle
      simp [hle]

theorem Page.raises_new (number size : Nat) : Raises (new number size) (errorUnless (size ≠ 0) .emptyPage ++
    errorUnless (number * size < 2 ^ 64) (.pageOutOfRange number size)) :=
  .refuse not_not.symm fun _ => .check_ok .rfl _

namespace Query

variable {q : Query} {config : PipelineConfig} {p : Pipeline}

theorem find?_zipIdx (stages : List Stage) (name : String) :
    (stages.zipIdx.find? (·.1.name = name)).map Prod.fst = stages.find? (·.name = name) := by
  conv_rhs => rw [← List.zipIdx_map_fst 0 stages, List.find?_map]
  rfl

section Assembled

variable (hstages : p.stages = Pipeline.stagesOf config) (hname : p.name = config.name)
include hstages hname

theorem raises_ofNamed {α : Type} {f : Stage × Nat → Except Error α} {errors : Stage → List Error} (name : String)
    (hf : ∀ indexed, Raises (f indexed) (errors indexed.1)) :
    Raises (p.requireStage name >>= f) (config.namedErrors name errors) := by
  have hfind := find?_zipIdx p.stages name
  rw [hstages] at hfind
  unfold Pipeline.requireStage PipelineConfig.namedErrors Pipeline.stage?
  rw [hstages, hname, ← hfind]
  cases (Pipeline.stagesOf config).zipIdx.find? (·.1.name = name) with
  | none => exact .error _ []
  | some indexed => exact hf indexed

theorem raises_ofTarget {α : Type} {f : Stage × Nat → Except Error α} {errors : Stage → List Error}
    (hf : ∀ indexed, Raises (f indexed) (errors indexed.1)) :
    Raises (q.requireTarget p >>= f) (q.targetErrors config errors) := by
  unfold requireTarget targetErrors
  cases q.targetStage with
  | none => exact .error _ []
  | some name => exact raises_ofNamed hstages hname name hf

theorem raises_ratingConditions (hratings : q.ratings ≠ []) :
    Raises (q.ratingConditions p) (q.ratingErrors config) := by
  have hall (stages : List (Stage × Nat)) : Raises (do
      let conditions ← stages.mapM fun indexed =>
        (indexed.1.thresholds q.thresholds).map fun t => q.ratings.map (t.condition indexed.2)
      return conditions.flatten) (stages.flatMap fun indexed => indexed.1.thresholdErrors q.thresholds) :=
    (Raises.mapM fun indexed _ => (indexed.1.raises_thresholds q.thresholds).map).yield
  unfold ratingConditions ratedStages ratingErrors
  rw [if_neg hratings]
  cases q.targetStage with
  | none =>
    rw [← hstages, ← List.zipIdx_map_fst 0 p.stages, List.flatMap_map, List.zipIdx_map_fst]
    exact hall p.stages.zipIdx
  | some name =>
    have hone (indexed : Stage × Nat) := hall [indexed]
    simp only [List.flatMap_singleton] at hone
    dsimp only
    rw [Except.map_bind]
    exact raises_ofNamed hstages hname name hone

theorem raises_shape (defaultPageSize : UInt64) :
    Raises (q.shape p defaultPageSize) (q.shapeErrors config defaultPageSize) := by
  unfold shape shapeErrors
  cases h : q.across with
  | velocity | trend | stack => exact .ok _
  | values =>
    refine (Page.raises_new _ _).bind fun page _ => ?_
    by_cases hr : q.ratings = []
    · rw [ratingErrors, if_pos hr, hr]
      exact .ok _
    · rw [if_neg (by simpa using hr)]
      exact (raises_ratingConditions hstages hname hr).map.yield
  | histogram =>
    refine Raises.refuse not_not.symm fun _ => raises_ofTarget hstages hname fun indexed => ?_
    exact indexed.1.raises_histogramEnd.yield
  | rating =>
    exact raises_ofTarget hstages hname fun indexed => (indexed.1.raises_thresholds q.thresholds).yield

end Assembled

example (config : PipelineConfig) :
    { Query.standard with across := .histogram, buckets := 0 }.shapeErrors config 25 =
      [.noBuckets, .noTargetStage .histogram] := rfl

theorem raises_stackColumn {anchor : Anchor} (hsystem : anchor.issueSystem = q.issueSystem) :
    Raises (q.stackColumn anchor) q.stackErrors := by
  unfold stackColumn stackErrors
  split
  · exact .ok none
  · cases q.stack with
    | none => exact .error _ _
    | some stack =>
      have hissues : (!anchor.hasIssues) = true ↔ ¬ q.issueSystem ≠ .none := by simp [Anchor.hasIssues, hsystem]
      exact Raises.refuse_ok hissues _

end Query
end LeadTime

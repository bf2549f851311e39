import LeadTime.Proofs.LeadTimes
import LeadTime.Proofs.Shape
import Mathlib

/-! The buckets of ratings. The conditions that restrict a listing tell the same buckets apart as the counts of a rating
do, but for no time at all: it counts as missing, and is listed with the bucket whose bounds it is within. -/
namespace LeadTime

open Sql

theorem RatingBucket.name_injective : Function.Injective RatingBucket.name := by
  intro a b h
  cases a <;> cases b <;> first | rfl | (exact absurd h (by decide))

namespace Formula

theorem reported_nonneg {f : Formula} {n : Option ℚ} : ∀ s ∈ f.reported n, 0 ≤ s := by
  intro s hs
  cases f with
  | zeroFloor =>
    cases hs
    exact le_max_right _ _
  | nullPreserving =>
    obtain ⟨s', -, rfl⟩ := Option.mem_map.1 hs
    exact le_max_right _ _

theorem reported_ne_zero_iff {n : Option ℚ} : nullPreserving.reported n ≠ some 0 ↔ ∀ s ∈ n, 0 < s := by
  cases n <;> simp [reported]

end Formula

namespace Thresholds

variable (t : Thresholds)

/-- The bucket of these seconds by the thresholds alone. -/
def judge : Option ℚ → RatingBucket
  | none => .missing
  | some n => if n ≤ t.good.toInt then .good else if n ≤ t.needsAttention.toInt then .needsAttention else .slow

/-- The bucket that these seconds are counted in. -/
def counted (n : Option ℚ) : RatingBucket := if n = some 0 then .missing else t.judge n

theorem bracketed_condition (stage : ℕ) (b : RatingBucket) : (t.condition stage b).Bracketed := by
  cases b <;> simp [condition, goodEnd, attentionEnd, Expr.Bracketed, Expr.strength, Operator.strength]

theorem bracketed_bucket (stage : ℕ) : (t.bucket stage).Bracketed := by
  simp [bucket, goodEnd, attentionEnd, Expr.equal, Expr.Bracketed, Expr.strength, Operator.strength]

section Row

variable {t} {row : Row} {stage : ℕ} {n : Option ℚ} (hrow : row.get? (durationColumn stage) = some (.ofNumber n))
include hrow

theorem denotes_condition (b : RatingBucket) : (t.condition stage b).Denotes row (.ofTruth (match b with
    | .missing => some n.isNone
    | .good => n.map fun s : ℚ => decide (s ≤ t.good.toInt)
    | .needsAttention => n.map fun s : ℚ => decide (t.good.toInt < s ∧ s ≤ t.needsAttention.toInt)
    | .slow => n.map fun s : ℚ => decide (t.needsAttention.toInt < s))) := by
  have htime := Expr.Denotes.name hrow
  have hgreater (bound : Int) := htime.greater (.number bound)
  have hatMost (bound : Int) := htime.atMost (.number bound)
  cases b with
  | missing => exact htime.isNull.group
  | good => cases n <;> exact (hatMost t.good.toInt).group
  | needsAttention =>
    have hboth := ((hgreater t.good.toInt).and (hatMost t.needsAttention.toInt)).group
    cases n with
    | none => exact hboth
    | some s =>
      rw [Option.map₂_coe_coe, Option.map₂_coe_coe, Value.both_known, ← Bool.decide_and] at hboth
      exact hboth
  | slow => cases n <;> exact (hgreater t.needsAttention.toInt).group

theorem condition_true_iff (ht : t.good < t.needsAttention) (b : RatingBucket) :
    (t.condition stage b).Denotes row (.truth true) ↔ t.judge n = b := by
  rw [Int64.lt_iff_toInt_lt, ← Int.cast_lt (R := ℚ)] at ht
  rw [(denotes_condition hrow b).iff_eq]
  cases n with
  | none => cases b <;> simp [judge, Value.ofTruth]
  | some s =>
    rcases le_or_gt s t.good.toInt with hgood | hgood
    · have hattention := hgood.trans ht.le
      cases b <;> simp [judge, Value.ofTruth, hgood, hattention]
    · rcases le_or_gt s t.needsAttention.toInt with hattention | hattention
      · cases b <;> simp [judge, Value.ofTruth, hgood, hgood.not_ge, hattention]
      · cases b <;> simp [judge, Value.ofTruth, hgood, hgood.not_ge, hattention, hattention.not_ge]

theorem denotes_bucket (hn : ∀ s ∈ n, 0 ≤ s) : (t.bucket stage).Denotes row (.text (t.counted n).name) := by
  have htime := Expr.Denotes.name hrow
  have hgreater (bound : Int) := htime.greater (.number bound)
  have hatMost (bound : Int) := htime.atMost (.number bound)
  have hmissing := htime.isNull.or (htime.equal (.number 0))
  have hgood := (hgreater 0).and (hatMost t.good.toInt)
  have hattention := (hgreater t.good.toInt).and (hatMost t.needsAttention.toInt)
  have hlabel (b : RatingBucket) : (Expr.quoted b.name).Denotes row (.text b.name) := .quoted b.name
  have hchoice : (t.bucket stage).Denotes row _ := (hmissing.arm (hlabel .missing)
    (hgood.arm (hlabel .good) (hattention.arm (hlabel .needsAttention) (hlabel .slow).otherwise))).choice
  rw [hchoice.iff_eq]
  cases n with
  | none => rfl
  | some s =>
    rcases (hn s rfl).eq_or_lt with rfl | hs
    · simp [counted]
    · rcases le_or_gt s t.good.toInt with hle | hgt
      · simp [counted, judge, hs, hs.ne', hle]
      · rcases le_or_gt s t.needsAttention.toInt with hle | hgt'
        · simp [counted, judge, hs, hs.ne', hgt, hgt.not_ge, hle]
        · simp [counted, judge, hs, hs.ne', hgt, hgt.not_ge, hgt'.not_ge]

theorem bucket_iff (hn : ∀ s ∈ n, 0 ≤ s) (b : RatingBucket) :
    (t.bucket stage).Denotes row (.text b.name) ↔ t.counted n = b := by
  rw [(denotes_bucket hrow hn).iff_eq, Value.text.injEq, RatingBucket.name_injective.eq_iff]

end Row

/-- No time at all is counted as missing, and judged by the thresholds where a listing is restricted. -/
theorem judge_eq_iff_counted_eq {t : Thresholds} {n : Option ℚ} {b : RatingBucket} :
    (t.judge n = b ↔ t.counted n = b) ↔ n ≠ some 0 ∨ b ≠ .missing ∧ b ≠ t.judge (some 0) := by
  -- Only at zero do the two differ: it is counted as missing, which no number is judged to be.
  have hzero : t.judge (some 0) ≠ .missing := by
    simp only [judge]
    split_ifs <;> simp
  unfold counted
  by_cases h : n = some 0
  · subst h
    rw [if_pos rfl]
    grind
  · simp [h]

theorem counted_reported (t : Thresholds) (f : Formula) (n : Option ℚ) :
    t.counted (f.reported n) = t.counted (Formula.nullPreserving.reported n) := by
  cases f with
  | zeroFloor => cases n <;> simp [Formula.reported, counted, judge]
  | nullPreserving => rfl

theorem judge_reported_iff {t : Thresholds} {f : Formula} {n : Option ℚ} {b : RatingBucket} :
    (t.judge (Formula.nullPreserving.reported n) = b ↔ t.counted (f.reported n) = b) ↔
      (∀ s ∈ n, 0 < s) ∨ b ≠ .missing ∧ b ≠ t.judge (some 0) := by
  rw [counted_reported, judge_eq_iff_counted_eq, Formula.reported_ne_zero_iff]

end Thresholds

namespace Stage

theorem thresholds_eq_ok {s : Stage} {given : Option Thresholds} {t : Thresholds} (h : s.thresholds given = .ok t) :
    (given = some t ∨ given = none ∧ s.limitThresholds = .ok t) ∧ t.good < t.needsAttention := by
  have hcheck {t' : Thresholds} (hc : (if t'.good < t'.needsAttention then .ok t'
      else .error (Error.invalidThresholds t'.good.toInt t'.needsAttention.toInt s.name)) = Except.ok t) :
      t' = t ∧ t.good < t.needsAttention := by
    split at hc
    · cases hc
      exact ⟨rfl, ‹_›⟩
    · cases hc
  unfold thresholds at h
  cases given with
  | some t' =>
    obtain ⟨rfl, hlt⟩ := hcheck h
    exact ⟨.inl rfl, hlt⟩
  | none =>
    obtain ⟨t', ht', h⟩ := Except.bind_eq_ok.1 h
    obtain ⟨rfl, hlt⟩ := hcheck h
    exact ⟨.inr ⟨rfl, ht'⟩, hlt⟩

theorem shapes_of_bucket {s : Stage} {t : Thresholds} {stage : ℕ} {q : Query} {p : Pipeline} {size : UInt64} {name : String}
    {b : RatingBucket} {shape : OutputShape} (ht : s.thresholds q.thresholds = .ok t) (hname : q.targetStage = some name)
    (hstage : p.stage? name = some (s, stage)) (hacross : q.across = .values) (hb : q.ratings = [b])
    (h : q.shape p size = .ok shape) :
    (∃ terms page, shape = .values terms page (some [t.condition stage b])) ∧ Formula.ofQuery q = .nullPreserving ∧
      ({ q with across := .rating } : Query).shape p size = .ok (.rating stage t) := by
  refine ⟨?_, by simp [Formula.ofQuery, hacross, Across.isAggregate], ?_⟩
  · cases Query.shaped_of_eq_ok h with
    | rated _ _ page hconditions =>
      obtain ⟨s', stage', t', hstage', ht', rfl⟩ := Query.ratingConditions_of_name hname hconditions
      rw [hstage] at hstage'
      cases hstage'
      rw [ht] at ht'
      cases ht'
      exact ⟨_, page, by rw [hb]; rfl⟩
    | listing _ hratings _ => simp [hb] at hratings
    | velocity hmode | trend hmode | stack hmode | histogram hmode | rating hmode =>
      rw [hacross] at hmode
      cases hmode
  · have htarget : ({ q with across := .rating } : Query).requireTarget p = .ok (s, stage) := by
      simp only [Query.requireTarget, hname]
      exact Pipeline.requireStage_eq_ok.2 hstage
    simp only [Query.shape, htarget]
    change (s.thresholds q.thresholds >>= fun t => pure (OutputShape.rating stage t)) = _
    rw [ht]
    rfl

/-- An anchor with its start, the times at which it reached stages, and what tells it apart from others. -/
structure Anchored where
  start : ℚ
  times : ℕ → Option ℚ
  groups : String → Value

def Anchored.report (a : Anchored) (l : Layers) (f : Formula) : Row :=
  ({ l with formula := f } : Layers).reportRow a.start a.times a.groups

theorem Anchored.get?_report (a : Anchored) {l : Layers} (f : Formula) {stage : ℕ} (h : stage < l.stages.length) :
    (a.report l f).get? (durationColumn stage) = some (.ofNumber (f.reported (seconds a.start a.times stage))) :=
  Layers.get?_reportRow (l := { l with formula := f }) h

/-- A listing that is restricted to a bucket of a stage keeps the rows that a rating counts in it, unless the stage took no
time at all: such a row is counted as missing, and listed in the bucket that the thresholds give. -/
structure ListsAsCounted (s : Stage) (given : Option Thresholds) (t : Thresholds) (stage : ℕ) : Prop where
  /-- The texts are read as their expressions are. -/
  bracketed : (∀ b : RatingBucket, (t.condition stage b).Bracketed) ∧ (t.bucket stage).Bracketed
  row : ∀ (row : Row) (n : Option ℚ), row.get? (durationColumn stage) = some (.ofNumber n) → (∀ s ∈ n, 0 ≤ s) →
    ∀ b : RatingBucket,
      ((t.condition stage b).Denotes row (.truth true) ↔ (t.bucket stage).Denotes row (.text b.name)) ↔
        n ≠ some 0 ∨ b ≠ .missing ∧ b ≠ t.judge (some 0)
  /-- An anchor is listed as a rating of either form of a report counts it, unless its seconds are floored to zero. -/
  anchor : ∀ (l : Layers) (f : Formula) (a : Anchored) (b : RatingBucket), stage < l.stages.length →
    (((t.condition stage b).Denotes (a.report l .nullPreserving) (.truth true) ↔
        (t.bucket stage).Denotes (a.report l f) (.text b.name)) ↔
      (∀ s ∈ seconds a.start a.times stage, 0 < s) ∨ b ≠ .missing ∧ b ≠ t.judge (some 0))
  drillDown : ∀ (l : Layers) (f : Formula) (anchors : List Anchored) (b : RatingBucket), stage < l.stages.length →
    (∀ a ∈ anchors, ∀ s ∈ seconds a.start a.times stage, 0 < s) →
    anchors.filter (fun a => (Expr.anyOf [t.condition stage b]).Denotes (a.report l .nullPreserving) (.truth true)) =
      anchors.filter fun a => (t.bucket stage).Denotes (a.report l f) (.text b.name)
  /-- These are the condition and the expression of a query about the stage. -/
  shapes : ∀ (q : Query) (p : Pipeline) (size : UInt64) (name : String) (b : RatingBucket) (shape : OutputShape),
    q.thresholds = given → q.targetStage = some name → p.stage? name = some (s, stage) → q.across = .values →
    q.ratings = [b] → q.shape p size = .ok shape →
    (∃ terms page, shape = .values terms page (some [t.condition stage b])) ∧ Formula.ofQuery q = .nullPreserving ∧
      ({ q with across := .rating } : Query).shape p size = .ok (.rating stage t)

/-- Listings and ratings agree on thresholds that are accepted, but for no time at all. -/
theorem listsAsCounted {s : Stage} {given : Option Thresholds} {t : Thresholds} (h : s.thresholds given = .ok t)
    (stage : ℕ) : s.ListsAsCounted given t stage := by
  have ht : t.good < t.needsAttention := (thresholds_eq_ok h).2
  have hanchor (l : Layers) (f : Formula) (a : Anchored) (b : RatingBucket) (hs : stage < l.stages.length) :
      ((t.condition stage b).Denotes (a.report l .nullPreserving) (.truth true) ↔
          (t.bucket stage).Denotes (a.report l f) (.text b.name)) ↔
        (∀ s ∈ seconds a.start a.times stage, 0 < s) ∨ b ≠ .missing ∧ b ≠ t.judge (some 0) := by
    rw [Thresholds.condition_true_iff (a.get?_report .nullPreserving hs) ht,
      Thresholds.bucket_iff (a.get?_report f hs) Formula.reported_nonneg]
    exact Thresholds.judge_reported_iff
  refine ⟨⟨t.bracketed_condition stage, t.bracketed_bucket stage⟩, fun row n hrow hn b => ?_, hanchor,
    fun l f anchors b hs hpos => List.filter_congr fun a ha => ?_, ?_⟩
  · rw [Thresholds.condition_true_iff hrow ht, Thresholds.bucket_iff hrow hn, Thresholds.judge_eq_iff_counted_eq]
  · exact decide_eq_decide.2 ((hanchor l f a b hs).2 (.inl (hpos a ha)))
  · rintro q p size name b shape rfl hname hstage hacross hb hshape
    exact shapes_of_bucket h hname hstage hacross hb hshape

section Merge

def merge : Stage := Request.stageOf "merge" .prMerged []

def merged : Pipeline := ⟨"merged", [merge], ⟨.prVelocity, .none⟩, .anchorCreated⟩

def attention : Query :=
  { Query.standard with
    across := .values, targetStage := some "merge", ratings := [.needsAttention], thresholds := some ⟨10, 20⟩ }

def secondsOf (n : Option ℚ) : Row := [("s0", .ofNumber n)]

def reaching (time : Option ℚ) : Anchored := ⟨0, fun _ => time, fun _ => .null⟩

theorem listsAsCounted_merge :
    merge.thresholds (some ⟨10, 20⟩) = .ok ⟨10, 20⟩ ∧
      (((⟨10, 20⟩ : Thresholds).condition 0 .needsAttention).Denotes (secondsOf (some 15)) (.truth true) ↔
        ((⟨10, 20⟩ : Thresholds).bucket 0).Denotes (secondsOf (some 15)) (.text "needs_attention")) ∧
      [reaching none, reaching (some 15)].filter (fun a =>
          (Expr.anyOf [(⟨10, 20⟩ : Thresholds).condition 0 .missing]).Denotes
            (a.report .merges .nullPreserving) (.truth true)) =
        [reaching none, reaching (some 15)].filter (fun a =>
          ((⟨10, 20⟩ : Thresholds).bucket 0).Denotes (a.report .merges .zeroFloor) (.text "missing")) ∧
      ({ attention with across := .rating } : Query).shape merged 25 = .ok (.rating 0 ⟨10, 20⟩) := by
  have hok : merge.thresholds (some ⟨10, 20⟩) = .ok ⟨10, 20⟩ := rfl
  have hall := listsAsCounted hok 0
  have hlisting : ∃ shape, attention.shape merged 25 = .ok shape := ⟨_, rfl⟩
  obtain ⟨shape, hlisted⟩ := hlisting
  have hshapes := hall.shapes attention merged 25 "merge" .needsAttention shape rfl rfl rfl rfl rfl hlisted
  refine ⟨hok, (hall.row (secondsOf (some 15)) (some 15) rfl ?_ .needsAttention).2 (.inl (by decide)),
    hall.drillDown .merges .zeroFloor _ .missing (by decide) ?_, hshapes.2.2⟩
  · intro s hs
    cases hs
    norm_num
  · intro a ha s hs
    rcases List.mem_pair.1 ha with rfl | rfl
    · cases hs
    · cases hs
      norm_num [reaching]

/-- A stage that took no time at all is counted as missing, and a listing of what is missing leaves it out. -/
theorem missing_counted_not_listed :
    merge.thresholds (some ⟨10, 20⟩) = .ok ⟨10, 20⟩ ∧
      ((⟨10, 20⟩ : Thresholds).bucket 0).Denotes (secondsOf (some 0)) (.text "missing") ∧
      ¬ ((⟨10, 20⟩ : Thresholds).condition 0 .missing).Denotes (secondsOf (some 0)) (.truth true) := by
  exact ⟨rfl, by decide, by decide⟩

end Merge

end Stage
end LeadTime

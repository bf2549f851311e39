import LeadTime.Error
import LeadTime.Layers
import LeadTime.Stage

/-! Judging the time of a stage: the thresholds between the buckets, and each bucket as a condition. -/
namespace LeadTime

open Sql

namespace Stage

def limit (s : Stage) : LimitSide → DurationLimit
  | .lower => s.lowerLimit
  | .upper => s.upperLimit

def limitSeconds (s : Stage) (side : LimitSide) : Except Error Nat :=
  if (s.limit side).length < 0x8000000000000000 then .ok (s.limit side).length
  else .error (.limitOutOfRange side s.name)

def pastUpper (s : Stage) : Except Error Nat := do
  let upper ← s.limitSeconds .upper
  if upper + 1 < 0x8000000000000000 then return upper + 1 else throw (.limitOutOfRange .upper s.name)

/-- Good is less than the lower limit; up to a second past the upper limit a stage needs attention. -/
def limitThresholds (s : Stage) : Except Error Thresholds := do
  let lower ← s.limitSeconds .lower
  let past ← s.pastUpper
  return ⟨Int64.ofInt ((lower : Int) - 1), Int64.ofInt past⟩

/-- The thresholds of a stage: those that are given, else those of its limits. Good ends first. -/
def thresholds (s : Stage) (given : Option Thresholds) : Except Error Thresholds := do
  let t ← match given with
    | some t => .ok t
    | none => s.limitThresholds
  if t.good < t.needsAttention then return t
  else throw (.invalidThresholds t.good.toInt t.needsAttention.toInt s.name)

def histogramEnd (s : Stage) : Except Error Nat :=
  match s.upperLimit.seconds? with
  | none => .error (.limitOutOfRange .upper s.name)
  | some upper => if upper + 1 < 0x10000000000000000 then .ok (upper + 1)
    else .error (.limitOutOfRange .upper s.name)

end Stage

namespace Thresholds

def goodEnd (t : Thresholds) : Expr := .number t.good.toInt

def attentionEnd (t : Thresholds) : Expr := .number t.needsAttention.toInt

def condition (t : Thresholds) (stage : Nat) (bucket : RatingBucket) : Expr :=
  let time := Expr.name (durationColumn stage)
  .group <| match bucket with
    | .missing => .isNull time
    | .good => .binary .atMost time t.goodEnd
    | .needsAttention =>
      .binary .and (.binary .greater time t.goodEnd) (.binary .atMost time t.attentionEnd)
    | .slow => .binary .greater time t.attentionEnd

def bucket (t : Thresholds) (stage : Nat) : Expr :=
  let time := Expr.name (durationColumn stage)
  let label (b : RatingBucket) : Expr := .quoted b.name
  .choice
    (.arm (.binary .or (.isNull time) (.equal time (.number 0))) (label .missing)
      (.arm (.binary .and (.binary .greater time (.number 0)) (.binary .atMost time t.goodEnd)) (label .good)
        (.arm (.binary .and (.binary .greater time t.goodEnd) (.binary .atMost time t.attentionEnd))
          (label .needsAttention) (.otherwise (label .slow)))))

end Thresholds
end LeadTime

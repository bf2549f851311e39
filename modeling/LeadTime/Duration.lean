/-! Time budgets of stages and their exact length in seconds. -/
namespace LeadTime

inductive TimeUnit where
  | seconds
  | minutes
  | hours
  | days
  deriving DecidableEq, Repr

namespace TimeUnit

def all : List TimeUnit := [.seconds, .minutes, .hours, .days]

def name : TimeUnit → String
  | .seconds => "seconds"
  | .minutes => "minutes"
  | .hours => "hours"
  | .days => "days"

def length : TimeUnit → Nat
  | .seconds => 1
  | .minutes => 60
  | .hours => 3600
  | .days => 86400

end TimeUnit

/-- A number of units; the least and greatest time a stage should take are limits. -/
structure DurationLimit where
  value : UInt64
  unit : TimeUnit
  deriving DecidableEq, Repr

namespace DurationLimit

def zero : DurationLimit := ⟨0, .seconds⟩

def ofDays (n : UInt64) : DurationLimit := ⟨n, .days⟩

def length (d : DurationLimit) : Nat := d.value.toNat * d.unit.length

/-- The length where it fits 64 bits. -/
def seconds? (d : DurationLimit) : Option Nat := if d.length < 0x10000000000000000 then some d.length else none

theorem seconds?_eq_some_iff {d : DurationLimit} {n : Nat} :
    d.seconds? = some n ↔ d.length = n ∧ n < 0x10000000000000000 := by
  unfold seconds?
  split <;> constructor <;> intro h <;> grind

end DurationLimit
end LeadTime

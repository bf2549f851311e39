import LeadTime.Anchor

/-! The joins that a FROM chain can carry: the name each has, the joins that it reads from, and its place
in the chain. -/
namespace LeadTime

inductive Join where
  | commit
  | pullRequest
  | issue
  | review
  | cicdMapping
  | freshness
  | startEvent
  | sprint
  | statusHistory
  | label (stage : Nat)
  | jobRun (stage : Nat)
  | genericEvent (stage : Nat)
  deriving DecidableEq, Repr

namespace Join

def tableAlias : Join → String
  | .commit => "c"
  | .pullRequest => "pr"
  | .issue => "im"
  | .review => "prr"
  | .cicdMapping => "csm"
  | .freshness => "it"
  | .startEvent => "ge"
  | .sprint => "sprints"
  | .statusHistory => "ims"
  | .label stage => "lbl" ++ toString stage
  | .jobRun stage => "run" ++ toString stage
  | .genericEvent stage => "ge" ++ toString stage

/-- Joins whose line comes from whoever asks for them. -/
def isSupplied : Join → Bool
  | .sprint | .label _ | .jobRun _ | .genericEvent _ => true
  | _ => false

/-- The place in the chain: a group, and the stage within the last one. -/
def rank : Join → Nat × Nat
  | .commit => (0, 0)
  | .pullRequest | .issue => (1, 0)
  | .review => (2, 0)
  | .cicdMapping => (3, 0)
  | .freshness => (4, 0)
  | .startEvent => (5, 0)
  | .sprint => (6, 0)
  | .statusHistory => (7, 0)
  | .label stage | .jobRun stage | .genericEvent stage => (8, stage)

def ranksBefore (a b : Join) : Bool :=
  a.rank.1 < b.rank.1 || (a.rank.1 == b.rank.1 && a.rank.2 ≤ b.rank.2)

def dependency? : Join → Option Join
  | .pullRequest | .issue | .cicdMapping => some .commit
  | .review | .label _ => some .pullRequest
  | .freshness | .startEvent | .sprint | .statusHistory | .genericEvent _ => some .issue
  | .commit | .jobRun _ => none

/-- All joins that this one reads from, each after those it reads from itself. -/
def dependencies : Join → List Join
  | .commit | .jobRun _ => []
  | .pullRequest | .issue | .cicdMapping => [.commit]
  | .review | .label _ => [.commit, .pullRequest]
  | .freshness | .startEvent | .sprint | .statusHistory | .genericEvent _ => [.commit, .issue]

theorem rank_dependency_lt {j d : Join} (h : j.dependency? = some d) : d.rank.1 < j.rank.1 := by
  cases j <;> simp only [dependency?, Option.some.injEq, reduceCtorEq] at h <;> subst h <;> simp [rank]

end Join

def Anchor.join (a : Anchor) : Join := if a.isIssue then .issue else .pullRequest

theorem Anchor.tableAlias_join (a : Anchor) : a.join.tableAlias = a.tableAlias := by
  unfold join tableAlias
  split <;> rfl

end LeadTime

import LeadTime.Text.Chars

/-! The kinds of event a stage can end with, and how a configured word names one: blanks around it and the
case of its ASCII letters do not matter. -/
namespace LeadTime

inductive EventKind where
  | statusReached
  | commitCreated
  | prCreated
  | prLabelAdded
  | prReviewStarted
  | prApproved
  | prMerged
  | jobRun
  | deployJobRun
  | ciJobRun
  | cdJobRun
  | thirdPartyCiJobRun
  | genericEvent
  deriving DecidableEq, Repr

/-- Equality of texts up to the case of ASCII letters. -/
def Text.sameLetters (a b : String) : Bool := a.toList.map Char.toLower = b.toList.map Char.toLower

namespace EventKind

def all : List EventKind :=
  [.statusReached, .commitCreated, .prCreated, .prLabelAdded, .prReviewStarted, .prApproved,
    .prMerged, .jobRun, .deployJobRun, .ciJobRun, .cdJobRun, .thirdPartyCiJobRun, .genericEvent]

def name : EventKind → String
  | .statusReached => "status_reached"
  | .commitCreated => "commit_created"
  | .prCreated => "pr_created"
  | .prLabelAdded => "pr_label_added"
  | .prReviewStarted => "pr_review_started"
  | .prApproved => "pr_approved"
  | .prMerged => "pr_merged"
  | .jobRun => "job_run"
  | .deployJobRun => "deploy_job_run"
  | .ciJobRun => "ci_job_run"
  | .cdJobRun => "cd_job_run"
  | .thirdPartyCiJobRun => "third_party_ci_job_run"
  | .genericEvent => "generic_event"

def isJobRun : EventKind → Bool
  | .jobRun | .deployJobRun | .ciJobRun | .cdJobRun | .thirdPartyCiJobRun => true
  | _ => false

/-- Kinds whose runs a CD run can come from. -/
def isCi : EventKind → Bool
  | .jobRun | .ciJobRun | .thirdPartyCiJobRun => true
  | _ => false

def needsIssues : EventKind → Bool
  | .statusReached | .genericEvent => true
  | _ => false

def ofText? (text : String) : Option EventKind :=
  all.find? fun kind => Text.sameLetters kind.name (Text.trim text)

theorem mem_all (kind : EventKind) : kind ∈ all := by cases kind <;> decide

end EventKind
end LeadTime

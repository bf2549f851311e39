import LeadTime.Request
import Mathlib

/-! Requests that differ in the values of users alone. A revaluation gives every text that a request hands in as a value
another one, and every period, instant and mark of activity; what names a kind, a parameter, a column, a stage
or a mode stays. -/
namespace LeadTime

/-- New values: texts change one by one, the rest by place. -/
structure Revaluation where
  text : String → String
  trendKey : Nat → Int64
  start : Instant
  stop : Instant
  isActive : Bool

namespace KeyMap

variable {α β : Type*}

def mapValues (change : String → α → β) (m : KeyMap α) : KeyMap β where
  entries := m.entries.map fun pair => (pair.1, change pair.1 pair.2)
  nodup := by
    rw [List.map_map]
    exact m.nodup

@[simp] theorem entries_mapValues (change : String → α → β) (m : KeyMap α) :
    (m.mapValues change).entries = m.entries.map fun pair => (pair.1, change pair.1 pair.2) := rfl

end KeyMap

namespace Datum

mutual

/-- The texts changed at every depth; keys stay. -/
def retext (f : String → String) : Datum → Datum
  | .text s => .text (f s)
  | .list items => .list (retextItems f items)
  | .map entries => .map (retextEntries f entries)
  | .null => .null
  | .bool b => .bool b
  | .int n => .int n
  | .float bits => .float bits

def retextItems (f : String → String) : List Datum → List Datum
  | [] => []
  | item :: rest => retext f item :: retextItems f rest

def retextEntries (f : String → String) : List (String × Datum) → List (String × Datum)
  | [] => []
  | (key, value) :: rest => (key, retext f value) :: retextEntries f rest

end

variable (f : String → String)

theorem retextItems_eq (items : List Datum) : retextItems f items = items.map (retext f) := by
  induction items with
  | nil => rfl
  | cons item rest ih => rw [retextItems, ih, List.map_cons]

theorem retextEntries_eq (entries : List (String × Datum)) :
    retextEntries f entries = entries.map fun entry => (entry.1, retext f entry.2) := by
  induction entries with
  | nil => rfl
  | cons entry rest ih => rw [retextEntries, ih, List.map_cons]

@[simp] theorem keys_retextEntries (entries : List (String × Datum)) :
    (retextEntries f entries).map Prod.fst = entries.map Prod.fst := by
  rw [retextEntries_eq, List.map_map]
  rfl

mutual

theorem sorted_retext : (d : Datum) → d.Sorted → (d.retext f).Sorted
  | .list items, h => by
    simp only [Sorted, retext] at h ⊢
    exact sortedItems_retext items h
  | .map entries, h => by
    simp only [Sorted, retext, keys_retextEntries] at h ⊢
    exact ⟨h.1, sortedEntries_retext entries h.2⟩
  | .null, _ | .bool _, _ | .int _, _ | .float _, _ | .text _, _ => by simp [Sorted, retext]

theorem sortedItems_retext : (items : List Datum) → SortedItems items → SortedItems (retextItems f items)
  | [], _ => by simp [SortedItems, retextItems]
  | item :: rest, h => by
    simp only [SortedItems, retextItems] at h ⊢
    exact ⟨sorted_retext item h.1, sortedItems_retext rest h.2⟩

theorem sortedEntries_retext :
    (entries : List (String × Datum)) → SortedEntries entries → SortedEntries (retextEntries f entries)
  | [], _ => by simp [SortedEntries, retextEntries]
  | (key, value) :: rest, h => by
    simp only [SortedEntries, retextEntries] at h ⊢
    exact ⟨sorted_retext value h.1, sortedEntries_retext rest h.2⟩

end

end Datum

namespace RunFilter

def keys : List String :=
  ["cicd_user_ids", "exclude_cicd_user_ids", "job_statuses", "exclude_job_statuses", "services", "environments",
    "deployment_types", "branches", "repository"]

end RunFilter

namespace RawFilter

def retextEntry (f : String → String) (entry : String × Datum) : String × Datum :=
  if entry.1 ∈ RunFilter.keys then (entry.1, entry.2.retext f) else entry

theorem fst_retextEntry (f : String → String) (entry : String × Datum) : (retextEntry f entry).1 = entry.1 := by
  unfold retextEntry
  split <;> rfl

theorem sortedEntries_map (f : String → String) {entries : List (String × Datum)}
    (h : Datum.SortedEntries entries) : Datum.SortedEntries (entries.map (retextEntry f)) := by
  induction entries with
  | nil => trivial
  | cons entry rest ih =>
    obtain ⟨key, value⟩ := entry
    simp only [Datum.SortedEntries, List.map_cons, retextEntry] at h ⊢
    refine ⟨?_, ih h.2⟩
    split
    · exact Datum.sorted_retext f value h.1
    · exact h.1

def retext (f : String → String) (raw : RawFilter) : RawFilter where
  entries := raw.entries.map (retextEntry f)
  sorted := by
    have h := raw.sorted
    simp only [Datum.Sorted] at h ⊢
    have hkeys : (raw.entries.map (retextEntry f)).map Prod.fst = raw.entries.map Prod.fst := by
      rw [List.map_map]
      exact List.map_congr_left fun entry _ => fst_retextEntry f entry
    exact ⟨hkeys ▸ h.1, sortedEntries_map f h.2⟩

end RawFilter

/-- Parameters of these names are not bound: the first says which approval counts, the second must not be empty. -/
def Event.isPlainParam (name : String) : Bool :=
  Text.sameLetters name "approval" || Text.sameLetters name "deploy_job_marker"

def Event.retextParam (f : String → String) (name : String) (values : List String) : List String :=
  if isPlainParam name then values else values.map f

def Event.retext (f : String → String) (e : Event) : Event :=
  { e with values := e.values.map f, params := e.params.mapValues (retextParam f) }

def Stage.retext (f : String → String) (s : Stage) : Stage :=
  { s with event := s.event.retext f, filter := s.filter.map (RawFilter.retext f) }

@[simp] theorem Stage.name_retext (f : String → String) (s : Stage) : (s.retext f).name = s.name := rfl

@[simp] theorem Stage.order_retext (f : String → String) (s : Stage) : (s.retext f).order = s.order := rfl

@[simp] theorem Stage.kind?_retext (f : String → String) (s : Stage) : (s.retext f).kind? = s.kind? := rfl

def PipelineConfig.retext (f : String → String) (p : PipelineConfig) : PipelineConfig :=
  { p with
    preDevelopment := p.preDevelopment.map (Stage.retext f)
    fixed := p.fixed.map (Stage.retext f)
    postDevelopment := p.postDevelopment.map (Stage.retext f)
    startingEventTypes := p.startingEventTypes.map f }

namespace Revaluation

variable (v : Revaluation)

def query (q : Query) : Query :=
  { q with stackValues := q.stackValues.map v.text, trendKeys := q.trendKeys.mapIdx fun i _ => v.trendKey i }

def criteria (m : KeyMap (List String)) : KeyMap (List String) := m.mapValues fun _ values => values.map v.text

def issueFilter (f : IssueFilter) : IssueFilter :=
  { f with
    integrationIds := f.integrationIds.map v.text
    sprintStates := f.sprintStates.map v.text
    isActive := f.isActive.map fun _ => v.isActive
    criteria := v.criteria f.criteria }

def codeFilter (f : CodeFilter) : CodeFilter :=
  { f with integrationIds := f.integrationIds.map v.text, criteria := v.criteria f.criteria }

def range (t : TimeRange) : TimeRange := ⟨t.start.map fun _ => v.start, t.stop.map fun _ => v.stop⟩

def jobRunFilter (f : JobRunFilter) : JobRunFilter :=
  { f with endTime := f.endTime.map v.range, criteria := v.criteria f.criteria }

def orgUnit (u : OrgUnit) : OrgUnit := { u with userIds := u.userIds.map v.text }

def filters (f : EntityFilters) : EntityFilters where
  issues := f.issues.map v.issueFilter
  pullRequests := f.pullRequests.map v.codeFilter
  commits := f.commits.map v.codeFilter
  jobRuns := f.jobRuns.map v.jobRunFilter
  orgUnit := v.orgUnit f.orgUnit

/-- The request with all that users hand in as values changed. -/
def request (r : Request) : Request := ⟨r.pipeline.retext v.text, v.query r.query, v.filters r.filters⟩

end Revaluation
end LeadTime

import LeadTime.Document.Datum
import LeadTime.Duration
import LeadTime.EventKind
import LeadTime.KeyMap

/-! Stages as they are configured, and the pipeline that groups them. -/
namespace LeadTime

/-- The event that ends a stage. Its kind is kept as written and named only when the stage is used. -/
structure Event where
  kind : String
  values : List String
  params : KeyMap (List String)
  anyLabelAdded : Bool

namespace Event

def ofKind (kind : EventKind) : Event := ⟨kind.name, [], .empty, false⟩

def withValues (e : Event) (values : List String) : Event := { e with values := values }

def withParam (e : Event) (name : String) (values : List String) : Event :=
  { e with params := e.params.insert name values }

/-- The values of the first parameter of that name, letter case aside. -/
def param? (e : Event) (name : String) : Option (List String) :=
  (e.params.entries.find? fun pair => Text.sameLetters pair.1 name).map Prod.snd

def paramValues (e : Event) (name : String) : List String := (e.param? name).getD []

end Event

/-- An uninterpreted filter of job runs, its keys ascending at every depth. -/
structure RawFilter where
  entries : List (String × Datum)
  sorted : (Datum.map entries).Sorted

namespace RawFilter

def ofEntries (entries : List (String × Datum)) : RawFilter :=
  ⟨Datum.sortEntries entries, by
    simp only [Datum.Sorted]
    exact ⟨Datum.ascending_sortEntries entries, Datum.sortedEntries_sortEntries entries⟩⟩

end RawFilter

/-- One phase of a pipeline, with the time it should take. -/
structure Stage where
  name : String
  description : String
  order : Int32
  lowerLimit : DurationLimit
  upperLimit : DurationLimit
  event : Event
  filter : Option RawFilter

namespace Stage

/-- A stage that should take from one to seven days. -/
def new (name : String) (order : Int32) (event : Event) : Stage :=
  ⟨name, "", order, .ofDays 1, .ofDays 7, event, none⟩

def withLimits (s : Stage) (lower upper : DurationLimit) : Stage :=
  { s with lowerLimit := lower, upperLimit := upper }

def kind? (s : Stage) : Option EventKind := EventKind.ofText? s.event.kind

end Stage

/-- A pipeline as configured: three groups of stages and what starts the clock. -/
structure PipelineConfig where
  name : String
  description : String
  preDevelopment : List Stage
  fixed : List Stage
  postDevelopment : List Stage
  startsAtCommit : Bool
  startsAtGenericEvent : Bool
  startingEventTypes : List String

end LeadTime

import LeadTime.Binding
import LeadTime.Request

/-! A request, and the values inside it, as data. Every field is written, in the order of the record; only a
stage's missing filter is left out. -/
namespace LeadTime

def Datum.ofTexts (texts : List String) : Datum := .list (texts.map .text)

def Datum.ofOption {α : Type} (encode : α → Datum) : Option α → Datum
  | none => .null
  | some a => encode a

def Datum.ofKeyMap {α : Type} (encode : α → Datum) (m : KeyMap α) : Datum :=
  .map (m.entries.map fun pair => (pair.1, encode pair.2))

def Datum.ofNat (n : Nat) : Datum := .int n

def DurationLimit.encode (d : DurationLimit) : Datum :=
  .map [("value", .ofNat d.value.toNat), ("unit", .text d.unit.name)]

def Event.encode (e : Event) : Datum :=
  .map [("type", .text e.kind), ("values", .ofTexts e.values), ("params", .ofKeyMap .ofTexts e.params),
    ("any_label_added", .bool e.anyLabelAdded)]

def Stage.encode (s : Stage) : Datum :=
  .map ([("name", .text s.name), ("description", .text s.description), ("order", .int s.order.toInt),
    ("lower_limit", s.lowerLimit.encode), ("upper_limit", s.upperLimit.encode),
    ("event", s.event.encode)] ++
    match s.filter with
    | none => []
    | some filter => [("filter", .map filter.entries)])

def PipelineConfig.encode (p : PipelineConfig) : Datum :=
  .map [("name", .text p.name), ("description", .text p.description),
    ("pre_development_stages", .list (p.preDevelopment.map Stage.encode)),
    ("fixed_stages", .list (p.fixed.map Stage.encode)),
    ("post_development_stages", .list (p.postDevelopment.map Stage.encode)),
    ("starting_event_is_commit_created", .bool p.startsAtCommit),
    ("starting_event_is_generic_event", .bool p.startsAtGenericEvent),
    ("starting_generic_event_types", .ofTexts p.startingEventTypes)]

def Thresholds.encode (t : Thresholds) : Datum :=
  .map [("good_seconds", .int t.good.toInt), ("needs_attention_seconds", .int t.needsAttention.toInt)]

def Query.encode (q : Query) : Datum :=
  .map [("across", .text q.across.name), ("calculation", .text q.calculation.name),
    ("issue_system", .text q.issueSystem.name),
    ("stack", .ofOption (fun k => .text (StackKind.name k)) q.stack),
    ("value_stacks", .ofTexts q.stackValues),
    ("value_trend_keys", .list (q.trendKeys.map fun k => .int k.toInt)),
    ("page", .ofNat q.page.toNat),
    ("page_size", .ofOption (fun n => .ofNat (UInt64.toNat n)) q.pageSize),
    ("sort", .ofKeyMap (fun o => .text (SortOrder.name o)) q.sort),
    ("histogram_stage_name", .ofOption .text q.targetStage),
    ("histogram_buckets", .ofNat q.buckets.toNat),
    ("limit_to_only_applicable_data", .bool q.onlyApplicable),
    ("ratings", .list (q.ratings.map fun r => .text r.name)),
    ("rating_thresholds", .ofOption Thresholds.encode q.thresholds)]

def OrgUnit.encode (o : OrgUnit) : Datum :=
  .map [("ou_ref_id", .ofOption (fun n => .int (Int64.toInt n)) o.refId), ("user_ids", .ofTexts o.userIds)]

def IssueFilter.encode (f : IssueFilter) : Datum :=
  .map [("integration_ids", .ofTexts f.integrationIds), ("sprint_states", .ofTexts f.sprintStates),
    ("is_active", .ofOption .bool f.isActive), ("apply_org_unit_scoping", .bool f.orgUnitScoped),
    ("criteria", .ofKeyMap .ofTexts f.criteria)]

def CodeFilter.encode (f : CodeFilter) : Datum :=
  .map [("integration_ids", .ofTexts f.integrationIds),
    ("apply_org_unit_scoping", .bool f.orgUnitScoped), ("criteria", .ofKeyMap .ofTexts f.criteria)]

def Instant.encode (i : Instant) : Datum := .text i.text

def TimeRange.encode (r : TimeRange) : Datum :=
  .map [("start", .ofOption Instant.encode r.start), ("end", .ofOption Instant.encode r.stop)]

def JobRunFilter.encode (f : JobRunFilter) : Datum :=
  .map [("end_time_range", .ofOption TimeRange.encode f.endTime),
    ("apply_org_unit_scoping", .bool f.orgUnitScoped), ("criteria", .ofKeyMap .ofTexts f.criteria)]

def EntityFilters.encode (f : EntityFilters) : Datum :=
  .map [("issues", .ofOption IssueFilter.encode f.issues),
    ("pull_requests", .ofOption CodeFilter.encode f.pullRequests),
    ("commits", .ofOption CodeFilter.encode f.commits),
    ("job_runs", .ofOption JobRunFilter.encode f.jobRuns), ("org_unit", f.orgUnit.encode)]

def Request.encode (r : Request) : Datum :=
  .map [("pipeline", r.pipeline.encode), ("query", r.query.encode), ("filters", r.filters.encode)]

def ParamValue.encode : ParamValue → Datum
  | .bool b => .bool b
  | .int n => .int n.toInt
  | .intList ns => .list (ns.map fun n => .int n.toInt)
  | .text s => .text s
  | .textList ss => .ofTexts ss

end LeadTime

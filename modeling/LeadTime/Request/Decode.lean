import LeadTime.Binding
import LeadTime.Document.Decoder
import LeadTime.Request

/-! Reading a request, and the values inside it, from a document. -/
namespace LeadTime

open Decoder

variable {ν : Type} [Node ν]

def DurationLimit.decode (node : ν) : Option DurationLimit := do
  let [value, unit] ← record ["value", "unit"] node | none
  return {
    value := ← required uint64 value
    unit := ← orElse .seconds (word TimeUnit.all TimeUnit.name) unit }

def Event.decode (node : ν) : Option Event := do
  let [kind, values, params, anyLabelAdded] ←
    record ["type", "values", "params", "any_label_added"] node | none
  return {
    kind := ← required text kind
    values := ← orElse [] texts values
    params := ← orElse .empty (keyMap texts) params
    anyLabelAdded := ← orElse false bool anyLabelAdded }

def RawFilter.decode (node : ν) : Option RawFilter := do
  let entries ← Node.map? node
  return .ofEntries (← entries.mapM fun pair => (Node.datum? pair.2).map (pair.1, ·))

def Stage.decode (node : ν) : Option Stage := do
  let [name, description, order, lower, upper, event, filter] ←
    record ["name", "description", "order", "lower_limit", "upper_limit", "event", "filter"] node | none
  return {
    name := ← required text name
    description := ← orElse "" text description
    order := ← orElse 0 int32 order
    lowerLimit := ← orElse .zero DurationLimit.decode lower
    upperLimit := ← orElse .zero DurationLimit.decode upper
    event := ← required Event.decode event
    filter := ← optional RawFilter.decode filter }

def PipelineConfig.decode (node : ν) : Option PipelineConfig := do
  let [name, description, pre, fixed, post, atCommit, atGeneric, types] ← record
    ["name", "description", "pre_development_stages", "fixed_stages", "post_development_stages",
      "starting_event_is_commit_created", "starting_event_is_generic_event",
      "starting_generic_event_types"] node | none
  return {
    name := ← required text name
    description := ← orElse "" text description
    preDevelopment := ← orElse [] (list Stage.decode) pre
    fixed := ← orElse [] (list Stage.decode) fixed
    postDevelopment := ← orElse [] (list Stage.decode) post
    startsAtCommit := ← orElse false bool atCommit
    startsAtGenericEvent := ← orElse false bool atGeneric
    startingEventTypes := ← orElse [] texts types }

def Thresholds.decode (node : ν) : Option Thresholds := do
  let [good, needsAttention] ← record ["good_seconds", "needs_attention_seconds"] node | none
  return { good := ← required int64 good, needsAttention := ← required int64 needsAttention }

def Query.decode (node : ν) : Option Query := do
  let [across, calculation, issueSystem, stack, stackValues, trendKeys, page, pageSize, sort,
      targetStage, buckets, onlyApplicable, ratings, thresholds] ← record
    ["across", "calculation", "issue_system", "stack", "value_stacks", "value_trend_keys", "page",
      "page_size", "sort", "histogram_stage_name", "histogram_buckets",
      "limit_to_only_applicable_data", "ratings", "rating_thresholds"] node | none
  let q := Query.standard
  return {
    across := ← orElse q.across (word Across.all Across.name) across
    calculation := ← orElse q.calculation (word Calculation.all Calculation.name) calculation
    issueSystem := ← orElse q.issueSystem (word IssueSystem.all IssueSystem.name) issueSystem
    stack := ← optional (word StackKind.all StackKind.name) stack
    stackValues := ← orElse q.stackValues texts stackValues
    trendKeys := ← orElse q.trendKeys (list int64) trendKeys
    page := ← orElse q.page uint64 page
    pageSize := ← optional uint64 pageSize
    sort := ← orElse q.sort (keyMap (word SortOrder.all SortOrder.name)) sort
    targetStage := ← optional text targetStage
    buckets := ← orElse q.buckets uint32 buckets
    onlyApplicable := ← orElse q.onlyApplicable bool onlyApplicable
    ratings := ← orElse q.ratings (list (word RatingBucket.all RatingBucket.name)) ratings
    thresholds := ← optional Thresholds.decode thresholds }

def OrgUnit.decode (node : ν) : Option OrgUnit := do
  let [refId, userIds] ← record ["ou_ref_id", "user_ids"] node | none
  return { refId := ← optional int64 refId, userIds := ← orElse [] texts userIds }

def IssueFilter.decode (node : ν) : Option IssueFilter := do
  let [ids, sprintStates, isActive, byUnit, criteria] ← record
    ["integration_ids", "sprint_states", "is_active", "apply_org_unit_scoping", "criteria"] node | none
  return {
    integrationIds := ← orElse [] texts ids
    sprintStates := ← orElse [] texts sprintStates
    isActive := ← optional bool isActive
    orgUnitScoped := ← orElse false bool byUnit
    criteria := ← orElse .empty (keyMap texts) criteria }

def CodeFilter.decode (node : ν) : Option CodeFilter := do
  let [ids, byUnit, criteria] ←
    record ["integration_ids", "apply_org_unit_scoping", "criteria"] node | none
  return {
    integrationIds := ← orElse [] texts ids
    orgUnitScoped := ← orElse false bool byUnit
    criteria := ← orElse .empty (keyMap texts) criteria }

def Instant.decode (node : ν) : Option Instant := do Instant.ofText? (← Decoder.text node)

def TimeRange.decode (node : ν) : Option TimeRange := do
  let [start, stop] ← record ["start", "end"] node | none
  return { start := ← optional Instant.decode start, stop := ← optional Instant.decode stop }

def JobRunFilter.decode (node : ν) : Option JobRunFilter := do
  let [endTime, byUnit, criteria] ←
    record ["end_time_range", "apply_org_unit_scoping", "criteria"] node | none
  return {
    endTime := ← optional TimeRange.decode endTime
    orgUnitScoped := ← orElse false bool byUnit
    criteria := ← orElse .empty (keyMap texts) criteria }

def EntityFilters.decode (node : ν) : Option EntityFilters := do
  let [issues, pullRequests, commits, jobRuns, orgUnit] ←
    record ["issues", "pull_requests", "commits", "job_runs", "org_unit"] node | none
  return {
    issues := ← optional IssueFilter.decode issues
    pullRequests := ← optional CodeFilter.decode pullRequests
    commits := ← optional CodeFilter.decode commits
    jobRuns := ← optional JobRunFilter.decode jobRuns
    orgUnit := ← orElse .everyone OrgUnit.decode orgUnit }

def Request.decode (node : ν) : Option Request := do
  let [pipeline, query, filters] ← record ["pipeline", "query", "filters"] node | none
  return {
    pipeline := ← required PipelineConfig.decode pipeline
    query := ← orElse .standard Query.decode query
    filters := ← orElse .unrestricted EntityFilters.decode filters }

/-- A bound value without a tag: the first of boolean, integer, integers, text and texts that fits. -/
def ParamValue.decode (node : ν) : Option ParamValue :=
  ((Decoder.bool node).map .bool).or <|
    ((int64 node).map .int).or <|
      ((list int64 node).map .intList).or <|
        ((Decoder.text node).map .text).or ((texts node).map .textList)

end LeadTime

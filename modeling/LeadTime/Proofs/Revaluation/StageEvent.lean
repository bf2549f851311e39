import LeadTime.Proofs.Except
import LeadTime.Proofs.Revaluation.Request
import LeadTime.Proofs.StageEvent.Clause
import Mathlib

/-! The events of stages under new values. Reading an event fails for the values of users as it does for others, and its
clause asks for the same and writes the same: what differs is bound. -/
namespace LeadTime

open Sql

variable {f : String → String}

def TextPattern.retext (f : String → String) (p : TextPattern) : TextPattern := ⟨p.begins.map f, p.contains.map f⟩

namespace RunFilter

def retext (f : String → String) (r : RunFilter) : RunFilter where
  userIds := r.userIds.map f
  excludedUserIds := r.excludedUserIds.map f
  statuses := r.statuses.map f
  excludedStatuses := r.excludedStatuses.map f
  services := r.services.map f
  environments := r.environments.map f
  deploymentTypes := r.deploymentTypes.map f
  branches := r.branches.map f
  repository := r.repository.map (TextPattern.retext f)

theorem agree_text (d : Datum) : Agree (fun s s' => s' = f s) (text d) (text (d.retext f)) := by
  cases d <;> first | exact .error | exact .ok rfl

theorem agree_texts (d : Datum) : Agree (fun s s' => s' = s.map f) (texts d) (texts (d.retext f)) := by
  cases d with
  | list items =>
    rw [Datum.retext, Datum.retextItems_eq]
    exact .mapM agree_text items
  | _ => exact .error

theorem agree_optionalText (d : Datum) :
    Agree (fun s s' => s' = s.map f) (optionalText d) (optionalText (d.retext f)) := by
  have h : Agree (fun s s' => s' = s.map f) ((text d).map some) ((text (d.retext f)).map some) :=
    (agree_text d).map fun _ _ h => by rw [h]; rfl
  cases d with
  | null => exact .ok rfl
  | _ => exact h

theorem agree_patternPart (part : String × Datum) (p : TextPattern) :
    Agree (fun p p' => p' = TextPattern.retext f p) (patternPart p part)
      (patternPart (p.retext f) (part.1, part.2.retext f)) := by
  obtain ⟨key, d⟩ := part
  simp only [patternPart]
  split
  · exact (agree_optionalText d).map fun _ _ h => by rw [h]; rfl
  · exact (agree_optionalText d).map fun _ _ h => by rw [h]; rfl
  · exact .ok rfl

theorem agree_pattern (d : Datum) : Agree (fun p p' => p' = TextPattern.retext f p) (pattern d) (pattern (d.retext f)) := by
  cases d with
  | map parts =>
    rw [Datum.retext, Datum.retextEntries_eq]
    exact .foldlM (fun part p p' h => by rw [h]; exact agree_patternPart part p) rfl
  | list items =>
    rw [Datum.retext, Datum.retextItems_eq]
    simp only [pattern, ← List.map_take, List.length_map]
    refine (Agree.mapM agree_optionalText _).bind fun parts parts' h => ?_
    split
    · exact .error
    · refine .ok ?_
      rw [h, TextPattern.retext]
      simp only [List.getElem?_map]
      cases parts[0]? <;> cases parts[1]? <;> rfl
  | _ => exact .error

theorem agree_optionalPattern (d : Datum) :
    Agree (fun p p' => p' = p.map (TextPattern.retext f)) (optionalPattern d) (optionalPattern (d.retext f)) := by
  have h : Agree (fun p p' => p' = p.map (TextPattern.retext f)) ((pattern d).map some)
      ((pattern (d.retext f)).map some) := (agree_pattern d).map fun _ _ h => by rw [h]; rfl
  cases d with
  | null => exact .ok rfl
  | _ => exact h

theorem take_of_notMem {key : String} (h : key ∉ keys) (r : RunFilter) (d : Datum) : take r (key, d) = .ok r := by
  simp only [take]
  split
  all_goals first
    | rfl
    | exact absurd (by decide) h

theorem agree_take (entry : String × Datum) (r : RunFilter) :
    Agree (fun r r' => r' = RunFilter.retext f r) (take r entry) (take (r.retext f) (RawFilter.retextEntry f entry)) := by
  obtain ⟨key, d⟩ := entry
  by_cases hk : key ∈ keys
  · have hentry : RawFilter.retextEntry f (key, d) = (key, d.retext f) := if_pos hk
    rw [hentry]
    simp only [keys, List.mem_cons, List.not_mem_nil, or_false] at hk
    rcases hk with rfl | rfl | rfl | rfl | rfl | rfl | rfl | rfl | rfl
    case inr.inr.inr.inr.inr.inr.inr.inr => exact (agree_optionalPattern d).map fun _ _ h => by rw [h]; rfl
    all_goals exact (agree_texts d).map fun _ _ h => by rw [h]; rfl
  · have hentry : RawFilter.retextEntry f (key, d) = (key, d) := if_neg hk
    rw [hentry, take_of_notMem hk, take_of_notMem hk]
    exact .ok rfl

theorem agree_ofRaw (raw : Option RawFilter) :
    Agree (fun r r' => r' = RunFilter.retext f r) (ofRaw raw) (ofRaw (raw.map (RawFilter.retext f))) := by
  cases raw with
  | none => exact .ok rfl
  | some raw => exact .foldlM (fun entry r r' h => by rw [h]; exact agree_take entry r) rfl

end RunFilter

def BranchFilter.retext (f : String → String) (b : BranchFilter) : BranchFilter :=
  ⟨b.source.map f, b.target.map f, b.sourcePattern.map f, b.targetPattern.map f⟩

def RunMatch.retext (f : String → String) (r : RunMatch) : RunMatch :=
  ⟨r.jobIds.map f, r.params.map fun pair => (pair.1, Event.retextParam f pair.1 pair.2)⟩

namespace Event

theorem isPlainParam_congr {a b : String} (h : Text.sameLetters a b = true) : isPlainParam a = isPlainParam b := by
  simp only [Text.sameLetters, decide_eq_true_eq] at h
  simp [isPlainParam, Text.sameLetters, h]

theorem retextParam_of_not {name : String} (h : isPlainParam name = false) (values : List String) :
    retextParam f name values = values.map f := by
  simp [retextParam, h]

theorem paramValues_retext (e : Event) (name : String) :
    (e.retext f).paramValues name = retextParam f name (e.paramValues name) := by
  have hparam : (e.retext f).param? name = (e.param? name).map (retextParam f name) := by
    simp only [param?, retext, KeyMap.entries_mapValues, List.find?_map, Option.map_map, Function.comp_def]
    cases h : e.params.entries.find? fun pair => Text.sameLetters pair.1 name with
    | none => rfl
    | some pair =>
      have hname : Text.sameLetters pair.1 name = true := by simpa using List.find?_some h
      simp [retextParam, isPlainParam_congr hname]
  rw [paramValues, paramValues, hparam]
  cases e.param? name with
  | none => simp [retextParam]
  | some values => rfl

theorem paramValues_retext_of_not {name : String} (h : isPlainParam name = false) (e : Event) :
    (e.retext f).paramValues name = (e.paramValues name).map f := by
  rw [paramValues_retext, retextParam_of_not h]

theorem paramValues_retext_of_plain {name : String} (h : isPlainParam name = true) (e : Event) :
    (e.retext f).paramValues name = e.paramValues name := by
  rw [paramValues_retext, retextParam, if_pos h]

end Event

theorem BranchFilter.ofEvent_retext (e : Event) (patterns : Bool) :
    ofEvent (e.retext f) patterns = (ofEvent e patterns).retext f := by
  have hsource : (e.retext f).paramValues "source_branches" = _ := Event.paramValues_retext_of_not (by decide) e
  have htarget : (e.retext f).paramValues "target_branches" = _ := Event.paramValues_retext_of_not (by decide) e
  have hsource' : (e.retext f).paramValues "source_branches_regex" = _ :=
    Event.paramValues_retext_of_not (by decide) e
  have htarget' : (e.retext f).paramValues "target_branches_regex" = _ :=
    Event.paramValues_retext_of_not (by decide) e
  cases patterns <;> simp [ofEvent, BranchFilter.retext, hsource, htarget, hsource', htarget', List.head?_map]

theorem RunMatch.ofEvent_retext (e : Event) (reserved : List String) :
    ofEvent (e.retext f) reserved = (ofEvent e reserved).retext f := by
  simp [ofEvent, RunMatch.retext, Event.retext, List.filter_map, Function.comp_def]

namespace StageEvent

def retext (f : String → String) : StageEvent → StageEvent
  | .statusReached statuses => .statusReached (statuses.map f)
  | .commitCreated => .commitCreated
  | .prCreated branches => .prCreated (branches.retext f)
  | .prLabelAdded labels => .prLabelAdded (labels.map (·.map f))
  | .prReviewStarted => .prReviewStarted
  | .prApproved aggregate => .prApproved aggregate
  | .prMerged branches => .prMerged (branches.retext f)
  | .jobRun runs filter => .jobRun (runs.retext f) (filter.retext f)
  | .deployJobRun runs marker buildJobIds => .deployJobRun (runs.retext f) marker (buildJobIds.map f)
  | .ciJobRun runs filter => .ciJobRun (runs.retext f) (filter.retext f)
  | .cdJobRun runs filter => .cdJobRun (runs.retext f) (filter.retext f)
  | .thirdPartyCiJobRun runs => .thirdPartyCiJobRun (runs.retext f)
  | .genericEvent types => .genericEvent (types.map f)

@[simp] theorem kind_retext (e : StageEvent) : (e.retext f).kind = e.kind := by cases e <;> rfl

theorem approvalAggregate_retext (e : Event) : approvalAggregate (e.retext f) = approvalAggregate e := by
  have h : (e.retext f).paramValues "approval" = _ := Event.paramValues_retext_of_plain (by decide) e
  rw [approvalAggregate, approvalAggregate, h]

theorem markerOf_retext (s : Stage) : markerOf (s.retext f) = markerOf s := by
  have h : (s.retext f).event.paramValues markerParam = s.event.paramValues markerParam :=
    Event.paramValues_retext_of_plain (by decide) s.event
  rw [markerOf, markerOf, h]
  rfl

theorem agree_filterOf (s : Stage) : Agree (fun r r' => r' = RunFilter.retext f r) (filterOf s) (filterOf (s.retext f)) := by
  have h := RunFilter.agree_ofRaw (f := f) s.filter
  simp only [filterOf, Stage.retext]
  generalize RunFilter.ofRaw s.filter = x at h ⊢
  generalize RunFilter.ofRaw (s.filter.map (RawFilter.retext f)) = y at h ⊢
  cases h with
  | error => exact .error
  | ok h => exact .ok h

/-- A stage has an event under new values where it has one, and it is that event under new values. -/
theorem agree_ofStage (s : Stage) : Agree (fun e e' => e' = retext f e) (ofStage s) (ofStage (s.retext f)) := by
  have hkind : (s.retext f).kind? = s.kind? := rfl
  have hruns (reserved : List String) := RunMatch.ofEvent_retext (f := f) s.event reserved
  have hbranches (patterns : Bool) := BranchFilter.ofEvent_retext (f := f) s.event patterns
  have hbuilds : (s.event.retext f).paramValues buildJobsParam = _ :=
    Event.paramValues_retext_of_not (by decide) s.event
  have hfilter {event : RunFilter → StageEvent} {event' : RunFilter → StageEvent}
      (h : ∀ r, event' (r.retext f) = retext f (event r)) :
      Agree (fun e e' => e' = retext f e) ((filterOf s).map event) ((filterOf (s.retext f)).map event') :=
    (agree_filterOf s).map fun r r' hr => by rw [hr, h]
  simp only [ofStage, hkind]
  cases s.kind? with
  | none => exact .error
  | some kind =>
    cases kind with
    | prCreated => exact .ok (congrArg StageEvent.prCreated (hbranches false))
    | prMerged => exact .ok (congrArg StageEvent.prMerged (hbranches true))
    | prLabelAdded =>
      refine .ok ?_
      cases h : s.event.anyLabelAdded <;> simp [Stage.retext, Event.retext, retext, h]
    | prApproved => exact .ok (congrArg StageEvent.prApproved (approvalAggregate_retext s.event))
    | jobRun | ciJobRun | cdJobRun =>
      refine hfilter fun r => ?_
      simp only [retext, Stage.retext, hruns]
    | thirdPartyCiJobRun => exact .ok (congrArg StageEvent.thirdPartyCiJobRun (hruns []))
    | deployJobRun =>
      rw [markerOf_retext]
      have hmarker : Agree Eq (markerOf s) (markerOf s) := .refl (fun _ => rfl) _
      refine hmarker.map fun marker marker' h => ?_
      rw [h]
      simp only [retext, Stage.retext, hruns, hbuilds]
    | _ => exact .ok rfl

end StageEvent

structure Terms.Alike (a b : Terms) : Prop where
  conditions : b.conditions = a.conditions
  names : b.names = a.names

namespace Terms

theorem Alike.refl (a : Terms) : a.Alike a := ⟨rfl, rfl⟩

theorem Alike.append {a a' b b' : Terms} (ha : a.Alike a') (hb : b.Alike b') : (a ++ b).Alike (a' ++ b') :=
  ⟨by rw [conditions_append, conditions_append, ha.conditions, hb.conditions],
    by rw [names_append, names_append, ha.names, hb.names]⟩

theorem Alike.all {ts ts' : List Terms} (h : List.Forall₂ Alike ts ts') : (all ts).Alike (all ts') := by
  induction h with
  | nil => exact .refl _
  | cons h _ ih => exact h.append ih

theorem Alike.anyOf {ts ts' : List Terms} (h : List.Forall₂ Alike ts ts') : (anyOf ts).Alike (anyOf ts') := by
  have hall := Alike.all h
  cases h with
  | nil => exact .refl _
  | cons => exact ⟨congrArg (fun conditions => [Expr.anyOf conditions]) hall.conditions, hall.names⟩

theorem Alike.anyOf_zipIdx {α : Type} (change : α → α) (items : List α) {terms : α × Nat → Terms}
    (h : ∀ a i, (terms (a, i)).Alike (terms (change a, i))) :
    (Terms.anyOf (items.zipIdx.map terms)).Alike (Terms.anyOf ((items.map change).zipIdx.map terms)) := by
  refine .anyOf ?_
  rw [List.zipIdx_map, List.map_map, List.forall₂_map_left_iff, List.forall₂_map_right_iff, List.forall₂_same]
  exact fun pair _ => h pair.1 pair.2

end Terms

namespace RunFilter

theorem alike_inList (column placeholder : String) (values : List String) :
    (inList column placeholder values).Alike (inList column placeholder (values.map f)) := by
  cases values <;> exact ⟨rfl, rfl⟩

theorem alike_notInList (column placeholder : String) (values : List String) :
    (notInList column placeholder values).Alike (notInList column placeholder (values.map f)) := by
  cases values <;> exact ⟨rfl, rfl⟩

theorem alike_repositoryTerms (stage : Nat) (pattern : Option TextPattern) :
    (repositoryTerms stage pattern).Alike (repositoryTerms stage (pattern.map (TextPattern.retext f))) := by
  cases pattern with
  | none => exact .refl _
  | some p =>
    obtain ⟨begins, contains⟩ := p
    cases begins <;> cases contains <;> exact ⟨rfl, rfl⟩

theorem alike_terms (r : RunFilter) (stage : Nat) (flag : Option PlatformFlag) :
    (r.terms stage flag).Alike ((r.retext f).terms stage flag) := by
  refine .all ?_
  refine .cons (alike_inList _ _ _) (.cons (alike_notInList _ _ _) (.cons (alike_inList _ _ _)
    (.cons (alike_notInList _ _ _) (.cons ?_ (.cons ?_ (.cons ?_ (.cons ?_ (.cons (alike_repositoryTerms _ _)
      (.cons (.refl _) .nil)))))))))
  · exact .anyOf_zipIdx f r.services fun _ _ => ⟨rfl, rfl⟩
  · exact .anyOf_zipIdx f r.environments fun _ _ => ⟨rfl, rfl⟩
  · exact .anyOf_zipIdx f r.deploymentTypes fun _ _ => ⟨rfl, rfl⟩
  · have htake : (r.branches.map f).take 2 = (r.branches.take 2).map f := List.map_take.symm
    simp only [branchTerms, retext, htake]
    exact .anyOf_zipIdx f (r.branches.take 2) fun _ _ => ⟨rfl, rfl⟩

end RunFilter

theorem BranchFilter.alike_terms (b : BranchFilter) (stage : Nat) :
    (b.terms stage).Alike ((b.retext f).terms stage) := by
  obtain ⟨source, target, sourcePattern, targetPattern⟩ := b
  -- Which restrictions there are depends on whether there are values, not on the values.
  cases source <;> cases target <;> cases sourcePattern <;> cases targetPattern <;> exact ⟨rfl, rfl⟩

theorem RunMatch.alike_terms (r : RunMatch) (stage first : Nat) :
    (r.terms stage first).Alike ((r.retext f).terms stage first) := by
  refine .append ?_ (.anyOf_zipIdx (fun pair => (pair.1, Event.retextParam f pair.1 pair.2)) r.params fun _ _ => ⟨rfl, rfl⟩)
  simp only [retext, List.isEmpty_map]
  split <;> exact ⟨rfl, rfl⟩

structure Demand.Alike (a b : Demand) : Prop where
  requests : b.requests = a.requests
  names : b.bindings.map Prod.fst = a.bindings.map Prod.fst

namespace Demand

@[simp] theorem requests_append (a b : Demand) : (a ++ b).requests = a.requests ++ b.requests := rfl

@[simp] theorem bindings_append (a b : Demand) : (a ++ b).bindings = a.bindings ++ b.bindings := rfl

theorem Alike.refl (d : Demand) : d.Alike d := ⟨rfl, rfl⟩

theorem Alike.append {a a' b b' : Demand} (ha : a.Alike a') (hb : b.Alike b') : (a ++ b).Alike (a' ++ b') :=
  ⟨by rw [requests_append, requests_append, ha.requests, hb.requests],
    by rw [bindings_append, bindings_append, List.map_append, List.map_append, ha.names, hb.names]⟩

end Demand

structure StageClause.Alike (a b : StageClause) : Prop where
  timestamp : b.timestamp = a.timestamp
  aggregate : b.aggregate = a.aggregate
  predicates : b.predicates = a.predicates
  demand : a.demand.Alike b.demand

namespace StageEvent.Clause

variable {ctx : EventContext} {stage : Nat}

theorem alike_ofTime {timestamp : Expr} {requests requests' : List JoinRequest}
    {bindings bindings' : List (String × ParamValue)} (h : requests' = requests)
    (hn : bindings'.map Prod.fst = bindings.map Prod.fst) :
    (ofTime timestamp requests bindings).Alike (ofTime timestamp requests' bindings') :=
  ⟨rfl, rfl, rfl, h, hn⟩

theorem alike_ofPullRequest (column : String) (aggregate : Aggregate) (branches : BranchFilter) :
    (ofPullRequest ctx stage column aggregate branches).Alike
      (ofPullRequest ctx stage column aggregate (branches.retext f)) := by
  have h := branches.alike_terms (f := f) stage
  refine ⟨rfl, rfl, ?_, ?_, h.names⟩ <;> simp only [ofPullRequest, h.conditions]

theorem alike_ofRun {before : List JoinRequest} {source source' : Source} {link : String → Expr}
    {bindings bindings' : List (String × ParamValue)} (h : source' = source)
    (hn : bindings'.map Prod.fst = bindings.map Prod.fst) :
    (ofRun stage before source link bindings).Alike (ofRun stage before source' link bindings') :=
  alike_ofTime (by rw [h]) hn

theorem runSelect_retext (shape : RunShape) (runs : RunMatch) {terms terms' : Terms} (h : terms.Alike terms') :
    runSelect ctx shape (runs.retext f) terms' = runSelect ctx shape runs terms := by
  simp only [runSelect, RunMatch.retext, List.isEmpty_map, h.conditions]

theorem alike_ofRuns (shape : RunShape) (runs : RunMatch) {filter filter' : Terms} (h : filter.Alike filter') :
    (ofRuns ctx stage shape runs filter).Alike (ofRuns ctx stage shape (runs.retext f) filter') := by
  have hterms := ((runs.alike_terms (f := f) stage 0).append h).append (.refl (runPredicates ctx stage))
  simp only [ofRuns, ofMappedRun]
  exact alike_ofRun (runSelect_retext shape runs hterms) hterms.names

theorem alike_ofCdRuns (ci : Nat) (runs : RunMatch) (filter : RunFilter) :
    (ofCdRuns ctx stage ci runs filter).Alike (ofCdRuns ctx stage ci (runs.retext f) (filter.retext f)) := by
  have hterms := ((runs.alike_terms (f := f) stage 0).append (filter.alike_terms (f := f) stage (some .cd))).append
    (.refl (runPredicates ctx stage))
  simp only [ofCdRuns]
  exact alike_ofRun (runSelect_retext .platformCd runs hterms) hterms.names

theorem alike_ofDeploy (runs : RunMatch) (marker : String) (buildJobIds : List String) :
    (ofDeploy ctx stage runs marker buildJobIds).Alike
      (ofDeploy ctx stage (runs.retext f) marker (buildJobIds.map f)) := by
  have hruns := runs.alike_terms (f := f) stage 1
  simp only [ofDeploy, ofMappedRun]
  refine alike_ofRun ?_ ?_
  · simp only [Terms.conditions_append, hruns.conditions]
    cases buildJobIds <;> rfl
  · simp only [Terms.bindings_append, List.map_append]
    rw [show (RunMatch.terms _ _ _).bindings.map Prod.fst = _ from hruns.names]
    cases buildJobIds <;> rfl

end StageEvent.Clause

open StageEvent.Clause in
/-- The clause of an event under new values is alike, and fails where it does. -/
theorem StageEvent.agree_clause (ctx : EventContext) (name : String) (stage : Nat) (event : StageEvent) :
    Agree StageClause.Alike (event.clause ctx name stage) ((event.retext f).clause ctx name stage) := by
  cases event with
  | statusReached statuses => exact .ok ⟨rfl, rfl, rfl, rfl, rfl⟩
  | prCreated branches | prMerged branches => exact .ok (alike_ofPullRequest _ _ branches)
  | prLabelAdded labels => cases labels <;> exact .ok ⟨rfl, rfl, rfl, rfl, rfl⟩
  | jobRun runs filter => exact .ok (alike_ofRuns _ runs (filter.alike_terms stage _))
  | ciJobRun runs filter => exact .ok (alike_ofRuns _ runs (filter.alike_terms stage _))
  | thirdPartyCiJobRun runs => exact .ok (alike_ofRuns _ runs (.refl _))
  | cdJobRun runs filter =>
    simp only [StageEvent.clause, StageEvent.retext]
    cases ctx.previousCi with
    | none => exact .error
    | some ci => exact .ok (alike_ofCdRuns ci runs filter)
  | deployJobRun runs marker buildJobIds => exact .ok (alike_ofDeploy runs marker buildJobIds)
  | genericEvent types => cases types <;> exact .ok ⟨rfl, rfl, rfl, rfl, rfl⟩
  | _ => exact .ok ⟨rfl, rfl, rfl, rfl, rfl⟩

end LeadTime

import LeadTime.Proofs.JoinSet
import LeadTime.Proofs.Requests
import LeadTime.Proofs.SharedRows
import Mathlib

/-! Deployments by the platform follow what they deploy. The runs of a CD stage are joined to those of the last stage
before it that builds, whatever stages stand between, on a line that comes after the line of those runs and after the
mapping that they are found by. -/
namespace LeadTime

open Sql

/-- The kinds of event whose runs build what is deployed. -/
def EventKind.building : List EventKind := [.jobRun, .ciJobRun, .thirdPartyCiJobRun]

/-- The stage at `ci` builds, and is the last such stage before the one at `stage`. -/
structure Pipeline.IsLastBuildBefore (p : Pipeline) (stage ci : Nat) : Prop where
  before : ci < stage
  builds : ∃ s, p.stages[ci]? = some s ∧ ∃ kind ∈ EventKind.building, s.kind? = some kind
  last : ∀ between s, ci < between → between < stage → p.stages[between]? = some s →
    ∀ kind ∈ EventKind.building, s.kind? ≠ some kind

/-- The line joins a select of runs under the name of a stage, where its column holds what that of the table does. -/
def Sql.JoinLine.JoinsRuns (line : JoinLine) (stage : Nat) (selected column table column' : String) : Prop :=
  ∃ rest, text line.tokens = "LEFT JOIN (SELECT " ++ selected ++ " FROM " ++ rest ++ ") AS run" ++ toString stage ++
    " ON run" ++ toString stage ++ "." ++ column ++ " = " ++ table ++ "." ++ column'

/-- In the chain of the plan, the runs of the stage at `cd` are joined to those of the stage at `ci`. -/
structure Plan.Correlates (p : Plan) (schema : String) (cd ci : Nat) (mapping build deployment : JoinLine) : Prop where
  maps : text mapping.tokens = "LEFT JOIN " ++ schema ++ ".cicd_scm_mapping AS csm ON csm.commit_id = c.id"
  /-- Builds are found by the mapping. -/
  builds : build.JoinsRuns ci "jr.id, jr.end_time" "id" "csm" "cicd_job_run_id"
  /-- Deployments are found by the builds, through the column that tells what they deploy. -/
  deploys : deployment.JoinsRuns cd "jr.id, jr.end_time, jram.cicd_job_run_id1 AS ci_job_run_id" "ci_job_run_id"
    ("run" ++ toString ci) "id"
  /-- The three lines come in this order. -/
  ordered : [mapping, build, deployment].Sublist p.joins.lines
  /-- No other line gives the name of the deployments. -/
  only : ∀ line ∈ p.joins.lines, line.introduced? = some ("run" ++ toString cd) → line = deployment

theorem EventKind.mem_building {kind : EventKind} : kind ∈ building ↔ kind.isCi = true := by cases kind <;> decide

theorem Stage.isCi_iff {s : Stage} : s.isCi = true ↔ ∃ kind ∈ EventKind.building, s.kind? = some kind := by
  cases hk : s.kind? <;> simp [isCi, hk, EventKind.mem_building]

theorem Pipeline.isLastBuildBefore_of_ciBefore {p : Pipeline} {stage ci : Nat} (h : p.ciBefore stage = some ci) :
    p.IsLastBuildBefore stage ci := by
  have htake (i : Nat) (s : Stage) : (p.stages.take stage)[i]? = some s ↔ i < stage ∧ p.stages[i]? = some s := by
    rw [List.getElem?_take]
    split <;> simp [*]
  obtain ⟨⟨s, hs, hci⟩, hlast⟩ := getLast?_filter_zipIdx_eq_some_iff.1 h
  obtain ⟨hlt, hs⟩ := (htake ci s).1 hs
  refine ⟨hlt, ⟨s, hs, Stage.isCi_iff.1 hci⟩, fun between s hafter hbefore hs kind hm hk => ?_⟩
  have hnot := hlast between s hafter ((htake between s).2 ⟨hbefore, hs⟩)
  rw [Stage.isCi_iff.2 ⟨kind, hm, hk⟩] at hnot
  cases hnot

theorem Pipeline.IsLastBuildBefore.unique {p : Pipeline} {stage ci ci' : Nat} (h : p.IsLastBuildBefore stage ci)
    (h' : p.IsLastBuildBefore stage ci') : ci' = ci := by
  obtain ⟨s, hs, kind, hm, hk⟩ := h.builds
  obtain ⟨s', hs', kind', hm', hk'⟩ := h'.builds
  rcases Nat.lt_trichotomy ci ci' with hlt | heq | hlt
  · exact absurd hk' (h.last ci' s' hlt h'.before hs' kind' hm')
  · exact heq.symm
  · exact absurd hk (h'.last ci s hlt h.before hs kind hm)

theorem sublist_of_pairwise {α : Type} {R : α → α → Prop} (hrefl : ∀ a, R a a) {items picks : List α}
    (hi : items.Pairwise R) (hp : picks.Pairwise fun a b => ¬ R b a) (hm : ∀ a ∈ picks, a ∈ items) :
    picks.Sublist items := by
  induction items generalizing picks with
  | nil => rw [List.eq_nil_iff_forall_not_mem.2 fun a ha => List.not_mem_nil (hm a ha)]
  | cons item rest ih =>
    rw [List.pairwise_cons] at hi
    cases picks with
    | nil => exact List.nil_sublist _
    | cons pick more =>
      obtain ⟨hpick, hmore⟩ := List.pairwise_cons.1 hp
      rw [List.forall_mem_cons] at hm
      by_cases he : pick = item
      · subst he
        refine (ih hi.2 hmore fun a ha => ?_).cons_cons pick
        refine (List.mem_cons.1 (hm.2 a ha)).resolve_left ?_
        rintro rfl
        exact hpick a ha (hrefl a)
      · have hrest : pick ∈ rest := (List.mem_cons.1 hm.1).resolve_left he
        refine (ih hi.2 hp (List.forall_mem_cons.2 ⟨hrest, fun a ha => ?_⟩)).cons item
        refine (List.mem_cons.1 (hm.2 a ha)).resolve_left ?_
        rintro rfl
        exact hpick a ha (hi.1 pick hrest)

namespace Sql.JoinLine

/-- A select of runs under the name of a stage, joined on one pair of columns. -/
def runs (stage : Nat) (select : TableSelect) (column table column' : String) : JoinLine :=
  .join .left (.select select) (Join.jobRun stage).tableAlias
    [.same (Join.jobRun stage).tableAlias column table column']

theorem joinsRuns_runs {stage : Nat} {select : TableSelect} {column table column' selected : String}
    (h : text (selectList select.items) = "SELECT " ++ selected) :
    (runs stage select column table column').JoinsRuns stage selected column table column' := by
  obtain ⟨rest, hrest⟩ := select.exists_tokens
  refine ⟨text rest, ?_⟩
  simp only [runs, tokens, Source.tokens, hrest, onAll, Expr.same, Expr.equal, Expr.tokens, Operator.text,
    Join.tableAlias, Side.text, separated, List.map_cons, List.map_nil, text_append, text_cons, text_nil, Token.text, h,
    String.append_assoc, String.append_empty]
  rfl

end Sql.JoinLine

theorem text_items_runSelect (s : RunSelect) (schema : String) : text (selectList (s.select schema).items) =
    "SELECT jr.id, jr.end_time" ++
      if s.shape = .platformCd then ", jram.cicd_job_run_id1 AS ci_job_run_id" else "" := by
  obtain ⟨shape, withParams, conditions⟩ := s
  cases shape <;> rfl

namespace StageEvent

variable {ctx : EventContext} {name : String} {stage : Nat} {event : StageEvent} {clause : StageClause}

theorem requests_of_isCi (h : event.clause ctx name stage = .ok clause) (hci : event.kind.isCi = true) :
    ∃ select : TableSelect, text (selectList select.items) = "SELECT jr.id, jr.end_time" ∧
      clause.demand.requests = [.held .cicdMapping,
        .supplied (.jobRun stage) (.runs stage select "id" "csm" "cicd_job_run_id")] := by
  cases event with
  | jobRun runs filter | thirdPartyCiJobRun runs | ciJobRun runs filter =>
    cases h
    exact ⟨_, text_items_runSelect _ _, rfl⟩
  | _ => cases hci

theorem requests_of_cdJobRun (h : event.clause ctx name stage = .ok clause) (hcd : event.kind = .cdJobRun) :
    ∃ (ci : Nat) (select : TableSelect), ctx.previousCi = some ci ∧
      text (selectList select.items) = "SELECT jr.id, jr.end_time, jram.cicd_job_run_id1 AS ci_job_run_id" ∧
      clause.demand.requests = [.supplied (.jobRun stage)
        (.runs stage select "ci_job_run_id" (Join.jobRun ci).tableAlias "id")] := by
  cases event with
  | cdJobRun runs filter =>
    obtain ⟨ci, hci, rfl⟩ := clause_cdJobRun_eq_ok.1 h
    exact ⟨ci, _, hci, text_items_runSelect _ _, rfl⟩
  | _ => cases hcd

end StageEvent

namespace Registry

variable {r : Registry}

/-- Entries whose joins rank each before the next are written in this order. -/
theorem sublist_lines {entries : List JoinEntry} (hm : ∀ e ∈ entries, e ∈ r.entries)
    (hp : entries.Pairwise fun a b => b.join.ranksBefore a.join = false) :
    (entries.flatMap JoinEntry.written).Sublist r.lines := by
  refine List.Sublist.flatMap (sublist_of_pairwise (fun e => ?_) r.pairwise_ordered ?_ fun e he => ?_) _
  · simpa using Join.ranksBefore_total e.join e.join
  · simpa using hp
  · exact mem_ordered.2 (hm e he)

theorem Formed.eq_of_introduced (h : r.Formed) {line line' : JoinLine} {name : String} (hl : line ∈ r.lines)
    (hl' : line' ∈ r.lines) (hn : line.introduced? = some name) (hn' : line'.introduced? = some name) : line = line' := by
  have hnodup : (Sql.aliases r.lines).Nodup := (List.nodup_cons.1 h.nodup_aliases).2
  have hdiffer := List.pairwise_filterMap.1 hnodup
  have : Std.Symm fun a b : JoinLine => ∀ n, a.introduced? = some n → ∀ n', b.introduced? = some n' → n ≠ n' :=
    ⟨fun _ _ hab n hn n' hn' => (hab n' hn' n hn).symm⟩
  by_contra hne
  exact hdiffer.forall hl hl' hne name hn name hn' rfl

end Registry

namespace Compilation

variable {c : Compiler} {r : Request} (k : Compilation c r)

theorem written_eq_lines {e : JoinEntry} (he : e ∈ k.met.joins.entries) (hevent : e.join ≠ .startEvent)
    (hrequest : e.join ≠ .pullRequest) : e.written = e.lines := by
  rw [JoinEntry.written, k.conditions_eq_nil he hevent hrequest, extendLast_nil]

theorem exists_runs {i : Nat} {stage : Stage} {clause : StageClause} {line : JoinLine}
    (hstage : k.pipeline.stages[i]? = some stage) (hclause : k.ClauseAt i stage clause)
    (hm : .supplied (.jobRun i) line ∈ clause.demand.requests)
    (honly : ∀ req ∈ clause.demand.requests, req.join = .jobRun i → req = .supplied (.jobRun i) line) :
    ∃ e ∈ k.met.joins.entries, e.join = .jobRun i ∧ e.written = [line] := by
  have hjoined : k.met.joins.isJoined (.jobRun i) = true := (Makes.stage hstage hclause hm).isJoined_supplied
  obtain ⟨e, he, hj⟩ := Registry.holds_iff.1 (Registry.holds_of_isJoined hjoined (Join.ne_anchor_of_stage rfl _))
  refine ⟨e, he, hj, ?_⟩
  rw [k.written_eq_lines he (by simp [hj]) (by simp [hj])]
  obtain ⟨req, hreq, hputs⟩ := (k.stemsFrom_met e he).lines
  rw [hj] at hputs
  have hjoin : req.join = .jobRun i := hputs.join.elim Eq.symm fun hn => by cases Registry.isSupplied_of_mem_needed hn
  obtain ⟨stage', clause', hstage', hclause', hm'⟩ := hreq.ofRun hjoin
  rw [hstage] at hstage'
  cases hstage'
  rw [hclause.unique hclause'] at hm'
  have hreq' := honly req hm' hjoin
  rcases hputs with ⟨hn, -⟩ | ⟨rfl, -⟩ | ⟨line', rfl, hl⟩
  · cases Registry.isSupplied_of_mem_needed hn
  · cases hreq'
  · cases hreq'
    exact hl

theorem exists_mapping (h : k.Makes (.held .cicdMapping)) : ∃ e ∈ k.met.joins.entries, e.join = .cicdMapping ∧
    e.written = [.leftTable (k.context.table "cicd_scm_mapping") "csm" [.same "csm" "commit_id" "c" "id"]] := by
  have hne : Join.cicdMapping ≠ k.met.joins.context.anchor.join := by
    rcases Registry.anchor_join k.met.joins.context.anchor with h | h <;> rw [h] <;> simp
  obtain ⟨e, he, hj⟩ := Registry.holds_iff.1 (Registry.holds_of_isJoined h.isJoined hne)
  refine ⟨e, he, hj, ?_⟩
  rw [k.written_eq_lines he (by simp [hj]) (by simp [hj])]
  rcases (k.ingests_met e he).lines with hl | ⟨hs, -⟩
  · rw [hl, hj, context_met]
    rfl
  · rw [hj] at hs
    cases hs

theorem exists_builds {ci : Nat} {stage : Stage} (hstage : k.pipeline.stages[ci]? = some stage)
    (hci : stage.isCi = true) : k.Makes (.held .cicdMapping) ∧
      ∃ select : TableSelect, text (selectList select.items) = "SELECT jr.id, jr.end_time" ∧
        ∃ e ∈ k.met.joins.entries, e.join = .jobRun ci ∧
          e.written = [.runs ci select "id" "csm" "cicd_job_run_id"] := by
  obtain ⟨clause, ⟨event, he, hc⟩, -⟩ := k.columns_stages.2 ci stage hstage
  have hclause : k.ClauseAt ci stage clause := ⟨event, he, hc⟩
  rw [Stage.isCi, StageEvent.kind_ofStage he, Option.any_some] at hci
  obtain ⟨select, hitems, hrequests⟩ := StageEvent.requests_of_isCi hc hci
  refine ⟨.stage hstage hclause (by simp [hrequests]), select, hitems, ?_⟩
  exact k.exists_runs hstage hclause (by simp [hrequests]) (by simp [hrequests, JoinRequest.join])

theorem exists_deployments {cd : Nat} {stage : Stage} (hstage : k.pipeline.stages[cd]? = some stage)
    (hcd : stage.kind? = some .cdJobRun) : ∃ ci, k.pipeline.ciBefore cd = some ci ∧ ∃ select : TableSelect,
      text (selectList select.items) = "SELECT jr.id, jr.end_time, jram.cicd_job_run_id1 AS ci_job_run_id" ∧
        ∃ e ∈ k.met.joins.entries, e.join = .jobRun cd ∧
          e.written = [.runs cd select "ci_job_run_id" (Join.jobRun ci).tableAlias "id"] := by
  obtain ⟨clause, ⟨event, he, hc⟩, -⟩ := k.columns_stages.2 cd stage hstage
  have hclause : k.ClauseAt cd stage clause := ⟨event, he, hc⟩
  rw [StageEvent.kind_ofStage he, Option.some.injEq] at hcd
  obtain ⟨ci, select, hci, hitems, hrequests⟩ := StageEvent.requests_of_cdJobRun hc hcd
  refine ⟨ci, hci, select, hitems, ?_⟩
  exact k.exists_runs hstage hclause (by simp [hrequests]) (by simp [hrequests])

theorem exists_correlates {cd : Nat} {stage : Stage} (hstage : k.pipeline.stages[cd]? = some stage)
    (hcd : stage.kind? = some .cdJobRun) : ∃ ci, k.pipeline.IsLastBuildBefore cd ci ∧
      ∃ mapping build deployment, k.plan.Correlates c.settings.schema cd ci mapping build deployment := by
  obtain ⟨ci, hci, select, hitems, deployed, hd, hjd, hwd⟩ := k.exists_deployments hstage hcd
  have hlast : k.pipeline.IsLastBuildBefore cd ci := Pipeline.isLastBuildBefore_of_ciBefore hci
  obtain ⟨build, hbuild, hbuilds⟩ := hlast.builds
  obtain ⟨hmapping, select', hitems', built, hb, hjb, hwb⟩ := k.exists_builds hbuild (Stage.isCi_iff.2 hbuilds)
  obtain ⟨mapped, hm, hjm, hwm⟩ := k.exists_mapping hmapping
  have hordered : ([mapped, built, deployed].flatMap JoinEntry.written).Sublist k.met.joins.lines := by
    refine Registry.sublist_lines (by simp [hm, hb, hd]) ?_
    simp [hjm, hjb, hjd, Join.ranksBefore, Join.rank, hlast.before]
  rw [List.flatMap_cons, List.flatMap_cons, List.flatMap_cons, hwm, hwb, hwd, List.flatMap_nil, List.append_nil] at hordered
  refine ⟨ci, hlast, .leftTable (k.context.table "cicd_scm_mapping") "csm" [.same "csm" "commit_id" "c" "id"],
    .runs ci select' "id" "csm" "cicd_job_run_id", .runs cd select "ci_job_run_id" (Join.jobRun ci).tableAlias "id", ?_⟩
  constructor
  case maps =>
    simp [JoinLine.leftTable, JoinLine.tokens, Source.tokens, Table.tokens, JoinContext.table, Side.text, onAll, Expr.same,
      Expr.equal, Expr.tokens, Operator.text, separated, Token.text, String.append_assoc]
    rfl
  case builds => exact JoinLine.joinsRuns_runs hitems'
  case deploys => exact JoinLine.joinsRuns_runs hitems
  case ordered => exact hordered
  case only => exact fun line hline hname => k.formed_met.eq_of_introduced hline (hordered.subset (by simp)) hname rfl

end Compilation

/-- In every query that compiles, the runs of each CD stage are joined to those of the last stage before it that builds,
after these and after the mapping, in the chain as it is written. -/
theorem Compiler.correlates_of_compile {c : Compiler} {r : Request} {q : CompiledQuery} (h : c.compile r = .ok q) :
    ∃ p, c.plan r = .ok p ∧ p.query = q ∧ p.pipeline.stages = Pipeline.stagesOf r.pipeline ∧
      (∃ before after, q.sql = before ++ "\n".intercalate (p.joins.lines.map fun line => text line.tokens) ++ after) ∧
      ∀ cd stage, p.pipeline.stages[cd]? = some stage → stage.kind? = some .cdJobRun →
        ∃ ci, p.pipeline.IsLastBuildBefore cd ci ∧
          ∃ mapping build deployment, p.Correlates c.settings.schema cd ci mapping build deployment := by
  obtain ⟨k, rfl⟩ := Compilation.of_compile h
  exact ⟨k.plan, k.plan_eq_ok, rfl, k.stages_eq, k.written_plan.exists_lines,
    fun cd stage hstage hcd => k.exists_correlates hstage hcd⟩

theorem Compiler.correlates_delivery : ∃ q p, (⟨.standard, .criteria⟩ : Compiler).compile .delivery = .ok q ∧
    (⟨.standard, .criteria⟩ : Compiler).plan .delivery = .ok p ∧ p.query = q ∧ p.pipeline.IsLastBuildBefore 3 2 ∧
      ∃ mapping build deployment, p.Correlates "public" 3 2 mapping build deployment := by
  obtain ⟨q, hq⟩ := exists_compile_eq_ok Request.isOk_plan_delivery
  obtain ⟨p, hp, hpq, hstages, -, hcorrelates⟩ := correlates_of_compile hq
  have hcd : ((Pipeline.stagesOf Request.delivery.pipeline)[3]?.bind Stage.kind?) = some .cdJobRun := by cbv
  obtain ⟨stage, hstage, hkind⟩ := Option.bind_eq_some_iff.1 hcd
  obtain ⟨ci, hlast, hlines⟩ := hcorrelates 3 stage (hstages ▸ hstage) hkind
  have hci : p.pipeline.ciBefore 3 = some 2 := by
    rw [Pipeline.ciBefore, hstages]
    cbv
  obtain rfl : ci = 2 := (Pipeline.isLastBuildBefore_of_ciBefore hci).unique hlast
  exact ⟨q, p, hq, hp, hpq, hlast, hlines⟩

end LeadTime

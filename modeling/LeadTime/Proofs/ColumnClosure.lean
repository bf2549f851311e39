import LeadTime.Proofs.ColumnNames
import LeadTime.Proofs.QueryText
import LeadTime.Proofs.Shape
import LeadTime.Proofs.SharedRows
import LeadTime.Proofs.Sql.Columns
import LeadTime.Proofs.StageColumns
import Mathlib

/-! Every layer reads columns of the layer beneath it. The layers of a query, from the innermost select to its outer
shape and the count around it, read no column but those that the layer beneath gives, and none gives a name twice. -/
namespace LeadTime

open Sql
open Placeholder (Undigited)

namespace Formula

theorem reads_floored (e : Expr) : (floored e).reads = e.reads := by
  rw [floored, Expr.reads_apply _ (List.cons_ne_nil _ _)]
  simp

theorem reads_expression (f : Formula) (stage : ℕ) :
    (f.expression stage).reads ⊆ [.name (durationColumn stage)] := by
  cases f with
  | zeroFloor =>
    rw [expression, reads_floored]
    exact List.Subset.refl _
  | nullPreserving =>
    rw [expression, Expr.reads_apply _ (List.cons_ne_nil _ _)]
    simp

end Formula

theorem gives_duration (stage : ℕ) (beneath : List String) : (duration stage).gives beneath = [durationColumn stage] := by
  cases stage <;> rfl

namespace Layers

variable (l : Layers)

section Columns

variable (beneath : List String)

theorem columnsOf_groups : columnsOf l.groups beneath = l.groupColumns := by
  rw [groups, columnsOf_map id beneath fun _ _ => rfl, List.map_id]

theorem map_indices (column : ℕ → String) : l.stages.zipIdx.map (fun pair => column pair.2) = l.indices.map column := by
  have hsnd : l.stages.zipIdx.map Prod.snd = l.indices := by
    rw [List.zipIdx_map_snd, indices, List.range_eq_range']
  rw [← hsnd, List.map_map]
  rfl

theorem columns_reduce : l.reduce.columns beneath = l.timeColumns := by
  rw [Layer.columns, reduce, columnsOf_append, columnsOf_groups, columnsOf_cons,
    columnsOf_map (fun pair => eventColumn pair.2) beneath fun _ _ => rfl, map_indices]
  rfl

theorem columns_durations : l.durations.columns beneath = l.secondsColumns := by
  rw [Layer.columns, durations, Layer.over, columnsOf_append, columnsOf_groups,
    columnsOf_map durationColumn beneath fun stage _ => gives_duration stage beneath]
  rfl

theorem columns_enriched : l.enriched.columns beneath = l.reportColumns := by
  rw [Layer.columns, enriched, Layer.over, columnsOf_append, columnsOf_append, columnsOf_groups,
    columnsOf_map durationColumn beneath fun _ _ => rfl]
  rfl

theorem nodup_columns_reduce : (l.reduce.columns beneath).Nodup := by
  rw [columns_reduce]
  exact l.nodup_timeColumns

theorem nodup_columns_durations : (l.durations.columns beneath).Nodup := by
  rw [columns_durations]
  exact l.nodup_secondsColumns

theorem nodup_columns_enriched : (l.enriched.columns beneath).Nodup := by
  rw [columns_enriched]
  exact l.nodup_reportColumns

theorem columnsOf_baseItems : columnsOf l.baseItems beneath = l.timeColumns := by
  rw [baseItems, columnsOf_append, columnsOf_append, columnsOf_append, columnsOf_cons,
    columnsOf_map Prod.snd beneath fun _ _ => rfl, columnsOf_map (fun _ => "stack") beneath fun _ _ => rfl,
    columnsOf_map (fun pair => eventColumn pair.2) beneath fun _ _ => rfl, map_indices]
  rw [timeColumns, groupColumns, Anchor.identityColumns]
  cases l.trend <;> cases l.stack <;> simp [Projection.gives]

end Columns

variable {l}

theorem start_mem_timeColumns : startColumn ∈ l.timeColumns := List.mem_append_right _ List.mem_cons_self

theorem event_mem_timeColumns {stage : ℕ} (h : stage < l.stages.length) : eventColumn stage ∈ l.timeColumns :=
  List.mem_append_right _ (List.mem_cons_of_mem _ (List.mem_map_of_mem (List.mem_range.2 h)))

theorem duration_mem_secondsColumns {stage : ℕ} (h : stage < l.stages.length) :
    durationColumn stage ∈ l.secondsColumns :=
  List.mem_append_right _ (List.mem_map_of_mem (List.mem_range.2 h))

theorem duration_mem_reportColumns {stage : ℕ} (h : stage < l.stages.length) :
    durationColumn stage ∈ l.reportColumns :=
  List.mem_append_left _ (duration_mem_secondsColumns h)

theorem group_mem_reportColumns {column : String} (h : column ∈ l.groupColumns) : column ∈ l.reportColumns :=
  List.mem_append_left _ (List.mem_append_left _ h)

theorem total_mem_reportColumns : "t" ∈ l.reportColumns := List.mem_append_right _ List.mem_cons_self

theorem id_mem_groupColumns : "u_id" ∈ l.groupColumns := by
  refine l.groupColumns_cases (P := fun columns => "u_id" ∈ columns) ?_
  intro calculation issueSystem trend stack
  cases calculation <;> cases issueSystem <;> cases trend <;> cases stack <;> decide

theorem reads_groups {beneath : List String} (h : l.groupColumns ⊆ beneath) :
    ∀ i ∈ l.groups, i.reads ⊆ beneath.map .name := by
  intro i hi
  obtain ⟨column, hc, rfl⟩ := List.mem_map.1 hi
  exact name_subset (h hc)

variable (own : List String)

theorem closed_reduce : l.reduce.Closed own l.timeColumns where
  items := by
    intro i hi
    rcases List.mem_append.1 hi with hi | hi
    · exact reads_groups (List.subset_append_left _ _) i hi
    · rcases List.mem_cons.1 hi with rfl | hi
      · exact name_subset start_mem_timeColumns
      · obtain ⟨⟨column, stage⟩, hpair, rfl⟩ := List.mem_map.1 hi
        exact name_subset (event_mem_timeColumns (List.mem_zipIdx' hpair).1)
  condition := by simp [reduce]
  groups column hc := .inl (List.mem_append_left _ hc)
  order := by simp [reduce]
  nodup := l.nodup_columns_reduce _

theorem reads_duration {stage : ℕ} (h : stage < l.stages.length) :
    (duration stage).reads ⊆ l.timeColumns.map .name := by
  have hstage := event_mem_timeColumns h
  cases stage with
  | zero =>
    have hreads : (duration 0).reads = [eventColumn 0, startColumn].map .name := by simp [duration, Projection.reads]
    rw [hreads]
    exact List.map_subset _ (List.cons_subset.2 ⟨hstage, by simp [start_mem_timeColumns]⟩)
  | succ stage =>
    have hreads : (duration (stage + 1)).reads =
        (eventColumn (stage + 1) :: ((List.range (stage + 1)).reverse.map eventColumn ++ [startColumn])).map .name := by
      have hcoalesce (columns : List String) (hne : columns ≠ []) :
          (Expr.apply "COALESCE" (columns.map .name)).reads = columns.map .name := by
        rw [Expr.reads_apply _ (by simpa using hne), Expr.reads_names]
      have hearlier := hcoalesce ((List.range (stage + 1)).reverse.map eventColumn ++ [startColumn]) (by simp)
      simp only [duration, Projection.reads, Expr.seen_epoch, Expr.seen_binary, Expr.seen_name, hearlier]
      rfl
    have hearlier : (List.range (stage + 1)).reverse.map eventColumn ⊆ l.timeColumns := by
      intro c hc
      obtain ⟨i, hi, rfl⟩ := List.mem_map.1 hc
      exact event_mem_timeColumns ((List.mem_range.1 (List.mem_reverse.1 hi)).trans h)
    rw [hreads]
    exact List.map_subset _ (List.cons_subset.2 ⟨hstage, List.append_subset.2 ⟨hearlier, by simp [start_mem_timeColumns]⟩⟩)

theorem closed_durations : l.durations.Closed own l.timeColumns := by
  refine Layer.closed_over _ (fun i hi => ?_) (l.nodup_columns_durations _)
  rcases List.mem_append.1 hi with hi | hi
  · exact reads_groups (List.subset_append_left _ _) i hi
  · obtain ⟨stage, hs, rfl⟩ := List.mem_map.1 hi
    exact reads_duration (List.mem_range.1 hs)

theorem reads_total (h : l.stages ≠ []) : l.total.reads = l.indices.map fun stage => .name (durationColumn stage) := by
  have hne : (l.indices.map fun stage => Formula.floored (.name (durationColumn stage))) ≠ [] := by
    simpa [indices] using h
  simp only [total, Expr.seen_group, Expr.reads_chain .plus hne, List.flatMap_map, Formula.reads_floored, Expr.seen_name]
  exact List.flatMap_pure_eq_map _ _

theorem closed_enriched (h : l.stages ≠ []) : l.enriched.Closed own l.secondsColumns := by
  have hseconds {stage : ℕ} (hs : stage ∈ l.indices) :
      Token.name (durationColumn stage) ∈ l.secondsColumns.map .name :=
    List.mem_map_of_mem (duration_mem_secondsColumns (List.mem_range.1 hs))
  refine Layer.closed_over _ (fun i hi => ?_) (l.nodup_columns_enriched _)
  rcases List.mem_append.1 hi with hi | hi
  · rcases List.mem_append.1 hi with hi | hi
    · exact reads_groups (List.subset_append_left _ _) i hi
    · obtain ⟨stage, hs, rfl⟩ := List.mem_map.1 hi
      intro t ht
      rw [List.mem_singleton.1 (Formula.reads_expression _ _ ht)]
      exact hseconds hs
  · rw [List.mem_singleton.1 hi, Projection.reads, reads_total h]
    intro t ht
    obtain ⟨stage, hs, rfl⟩ := List.mem_map.1 ht
    exact hseconds hs

theorem trend_mem_groupColumns (h : l.trend = true) : "trend" ∈ l.groupColumns := by
  rw [groupColumns, h]
  simp

theorem stack_mem_groupColumns (h : l.stack.isSome = true) : "stack" ∈ l.groupColumns := by
  rw [groupColumns, h]
  simp

theorem notMem_reportColumns {column : String} (h : column ∈ ["bucket", "rating"]) : column ∉ l.reportColumns := by
  have hgroup : column ∉ l.groupColumns := l.notMem_groupColumns (List.mem_cons_of_mem _ (List.mem_cons_of_mem _ h))
  have hundigited : Undigited column.toList ∧ column ≠ "t" := by
    clear hgroup
    revert column
    decide
  intro hm
  rcases List.mem_append.1 hm with hm | hm
  · rcases List.mem_append.1 hm with hm | hm
    · exact hgroup hm
    · obtain ⟨i, -, rfl⟩ := List.mem_map.1 hm
      exact not_undigited_durationColumn i hundigited.1
  · exact hundigited.2 (List.mem_singleton.1 hm)

end Layers

namespace OutputShape

def statisticSuffixes : List String := ["_median", "_p90", "_p95", "_mean", "_count"]

theorem columnsOf_statistics (stages : ℕ) (beneath : List String) :
    columnsOf (statistics stages) beneath =
      (List.range stages ×ˢ statisticSuffixes).map fun pair => durationColumn pair.1 ++ pair.2 := by
  cases stages with
  | zero => rfl
  | succ n =>
    change ((List.range (n + 1)).flatMap stageStatistics).flatMap _ = List.map _ (List.product _ _)
    rw [List.flatMap_assoc, List.product, List.map_flatMap]
    rfl

theorem nodup_statistics (stages : ℕ) (beneath : List String) : (columnsOf (statistics stages) beneath).Nodup := by
  rw [columnsOf_statistics]
  refine List.Nodup.map_on ?_ (List.nodup_range.product (by decide))
  rintro ⟨i, after⟩ hi ⟨j, after'⟩ hj heq
  have hends : ∀ after ∈ statisticSuffixes, Placeholder.EndsNumber after.toList := by
    simp [statisticSuffixes, Placeholder.EndsNumber]
  obtain ⟨-, rfl, rfl⟩ := Placeholder.numbered_inj (by decide) (by decide) (hends after (List.mem_product.1 hi).2)
    (hends after' (List.mem_product.1 hj).2) heq
  rfl

theorem digited_statistics {stages : ℕ} {beneath : List String} :
    ∀ c ∈ columnsOf (statistics stages) beneath, ¬ Undigited c.toList := by
  rw [columnsOf_statistics]
  intro c hc
  obtain ⟨⟨i, after⟩, -, rfl⟩ := List.mem_map.1 hc
  exact not_undigited_append_repr "s" i after

theorem reads_stageStatistics (stage : ℕ) : ∀ i ∈ stageStatistics stage, i.reads = [.name (durationColumn stage)] := by
  simp [stageStatistics, Projection.reads]

theorem reads_statistics {stages : ℕ} {beneath : List String} (h : ∀ i < stages, durationColumn i ∈ beneath) :
    ∀ i ∈ statistics stages, i.reads ⊆ beneath.map .name := by
  intro i hi
  cases stages with
  | zero =>
    rw [List.mem_singleton.1 hi]
    exact List.nil_subset _
  | succ n =>
    obtain ⟨stage, hs, hi⟩ := List.mem_flatMap.1 hi
    rw [reads_stageStatistics stage i hi]
    exact name_subset (h stage (List.mem_range.1 hs))

theorem closed_grouped {own beneath : List String} {column : String} {stages : ℕ} {order : Option (List OrderTerm)}
    (hcolumn : column ∈ beneath) (hundigited : Undigited column.toList) (h : ∀ i < stages, durationColumn i ∈ beneath)
    (horder : ∀ terms ∈ order, ∀ o ∈ terms, o.key = .name column) :
    (Layer.mk (.name column :: statistics stages) "enrich" none [column] order).Closed own beneath where
  items := List.forall_mem_cons.2 ⟨name_subset hcolumn, reads_statistics h⟩
  condition := by simp
  groups := by simp [hcolumn]
  order terms ht o ho := .inl (horder terms ht o ho ▸ name_subset hcolumn)
  nodup := List.nodup_cons.2 ⟨fun hm => digited_statistics column hm hundigited, nodup_statistics stages beneath⟩

theorem reads_bucketWidth (stage stop buckets : ℕ) :
    (bucketWidth stage stop buckets).reads = [.name (durationColumn stage)] := by
  rw [bucketWidth, Expr.reads_apply _ (List.cons_ne_nil _ _)]
  simp

theorem reads_bucket (t : Thresholds) (stage : ℕ) :
    (t.bucket stage).reads ⊆ [.name (durationColumn stage)] := by
  simp [Thresholds.bucket, Thresholds.goodEnd, Thresholds.attentionEnd, Expr.equal]

theorem reads_condition (t : Thresholds) (stage : ℕ) (bucket : RatingBucket) :
    (t.condition stage bucket).reads ⊆ [.name (durationColumn stage)] := by
  cases bucket <;> simp [Thresholds.condition, Thresholds.goodEnd, Thresholds.attentionEnd]

variable {q : Query} {p : Pipeline} {l : Layers}

theorem reads_order (hlength : l.stages.length = p.stages.length) {o : OrderTerm}
    (h : o ∈ (ListingOrder.ofQuery q p).terms) : o.key.reads ⊆ l.reportColumns.map .name := by
  rcases ListingOrder.cases_terms h with ⟨name, stage, index, order, hstage, rfl⟩ | ⟨order, ho⟩
  · have hlt := (List.getElem?_eq_some_iff.1 (Pipeline.stage?_eq_some hstage).1).1
    exact name_subset (Layers.duration_mem_reportColumns (hlength ▸ hlt))
  · rcases List.mem_pair.1 ho with rfl | rfl
    · exact name_subset Layers.total_mem_reportColumns
    · exact name_subset (Layers.group_mem_reportColumns Layers.id_mem_groupColumns)

theorem closed_all {own beneath : List String} {as : String} {condition : Option Expr} {order : Option (List OrderTerm)}
    (hcondition : ∀ c ∈ condition, c.reads ⊆ beneath.map .name)
    (horder : ∀ terms ∈ order, ∀ o ∈ terms, o.key.reads ⊆ beneath.map .name) (hnodup : beneath.Nodup) :
    (Layer.mk [.all none] as condition [] order).Closed own beneath where
  items := by simp [Projection.reads]
  condition := hcondition
  groups := by simp
  order terms ht o ho := .inl (horder terms ht o ho)
  nodup := by simpa [Layer.columns, Projection.gives] using hnodup

/-- Rows that are counted by a column of the layer itself, made of the seconds of one stage. -/
theorem closed_counted {beneath : List String} {items : List Projection} {as column : String} {stage : ℕ}
    {order : Option (List OrderTerm)} (hown : column ∈ ["bucket", "rating"]) (hcolumn : column ∉ beneath)
    (hstage : durationColumn stage ∈ beneath) (hitems : ∀ i ∈ items, i.reads ⊆ [.name (durationColumn stage)])
    (hgives : column ∈ columnsOf items beneath) (horder : ∀ terms ∈ order, terms = [byColumn column])
    (hnodup : (columnsOf items beneath).Nodup) :
    (Layer.mk items as none [column] order).Closed ["bucket", "rating"] beneath where
  items i hi := List.Subset.trans (hitems i hi) (name_subset hstage)
  condition := by simp
  groups c hc := by
    rw [List.mem_singleton.1 hc]
    exact .inr ⟨hown, hgives, hcolumn⟩
  order terms ht o ho := by
    rw [horder terms ht, List.mem_singleton] at ho
    rw [ho]
    exact .inr ⟨column, hown, rfl, hgives, hcolumn⟩
  nodup := hnodup

theorem closed_layers {shape : OutputShape} (h : q.Shaped p shape) (hlength : l.stages.length = p.stages.length)
    (hne : p.stages ≠ []) (htrend : q.across = .trend → l.trend = true)
    (hstack : q.across = .stack → l.stack.isSome = true) :
    ClosedOver ["bucket", "rating"] l.reportColumns (shape.layers p.stages.length) := by
  have hall : ∀ i < p.stages.length, durationColumn i ∈ l.reportColumns := by
    intro i hi
    exact Layers.duration_mem_reportColumns (hlength ▸ hi)
  have hat {stage : Stage} {index : ℕ} (hs : p.stages[index]? = some stage) : durationColumn index ∈ l.reportColumns :=
    hall index (List.getElem?_eq_some_iff.1 hs).1
  have hlisting : (Layer.mk [.all none] "enrich" none [] (some (ListingOrder.ofQuery q p).terms)).Closed
      ["bucket", "rating"] l.reportColumns := by
    refine closed_all (by simp) (fun terms ht o ho => ?_) l.nodup_reportColumns
    cases ht
    exact reads_order hlength ho
  cases h with
  | velocity => exact ⟨Layer.closed_over _ (reads_statistics hall) (nodup_statistics _ _), trivial⟩
  | trend h =>
    have hcolumn := Layers.group_mem_reportColumns (Layers.trend_mem_groupColumns (htrend h))
    exact ⟨closed_grouped hcolumn (by decide) hall (by simp [byColumn]), trivial⟩
  | stack h =>
    have hcolumn := Layers.group_mem_reportColumns (Layers.stack_mem_groupColumns (hstack h))
    exact ⟨closed_grouped hcolumn (by decide) hall (by simp), trivial⟩
  | listing h hratings page => exact ⟨hlisting, trivial⟩
  | rated h hratings page hconditions =>
    have hcolumns : (Layer.mk [.all none] "enrich" none [] (some (ListingOrder.ofQuery q p).terms)).columns
        l.reportColumns = l.reportColumns := List.append_nil _
    refine ⟨hlisting, ?_, trivial⟩
    rw [hcolumns]
    refine closed_all (fun c hc => ?_) (by simp) l.nodup_reportColumns
    cases hc
    rw [Expr.reads_anyOf (Query.ratingConditions_ne_nil hconditions hratings hne)]
    intro t ht
    obtain ⟨condition, hc, ht⟩ := List.mem_flatMap.1 ht
    obtain ⟨stage, index, t', bucket, hs, -, -, rfl⟩ := Query.exists_of_mem_ratingConditions hconditions condition hc
    exact name_subset (hat hs) (reads_condition t' index bucket ht)
  | histogram h hname hstage hstop =>
    have hs := hat (Pipeline.stage?_eq_some hstage).1
    refine ⟨closed_counted (by decide) (Layers.notMem_reportColumns (by decide)) hs ?_ ?_ ?_ ?_, trivial⟩
    · simp [Projection.reads, reads_bucketWidth, counted]
    · simp [Projection.gives]
    · simp
    · simp [Projection.gives, counted]
  | rating h hname hstage ht =>
    have hs := hat (Pipeline.stage?_eq_some hstage).1
    refine ⟨closed_counted (by decide) (Layers.notMem_reportColumns (by decide)) hs ?_ ?_ ?_ ?_, trivial⟩
    · simpa [Projection.reads, counted] using reads_bucket _ _
    · simp [Projection.gives]
    · simp
    · simp [Projection.gives, counted]

end OutputShape

section Innermost

theorem Anchor.qualified_createdAt (a : Anchor) : a.createdAt.Qualified := by
  obtain ⟨calculation, issueSystem⟩ := a
  cases calculation <;> cases issueSystem <;> simp [Anchor.createdAt, Expr.Qualified]

theorem StartTime.qualified_clause (a : Anchor) (s : StartTime) : (s.clause a).expression.Qualified := by
  induction s with
  | anchorCreated => exact a.qualified_createdAt
  | commitCreated => simp [clause, Expr.Qualified]
  | genericEvent types otherwise ih =>
    refine Expr.qualified_apply _ (List.cons_ne_nil _ _) fun e he => ?_
    rcases List.mem_pair.1 he with rfl | rfl
    · simp [Expr.Qualified]
    · exact ih

theorem StageEvent.qualified_clause {event : StageEvent} {ctx : EventContext} {name : String} {index : ℕ}
    {clause : StageClause} (h : event.clause ctx name index = .ok clause) : clause.timestamp.Qualified := by
  have hreview (states : List String) (hne : states ≠ []) (aggregate : Aggregate) :
      (Clause.ofReview states aggregate).timestamp.Qualified := by
    have hstates : (states.map Expr.quoted).flatMap Expr.reads = [] := by simp
    simp [Clause.ofReview, Clause.ofTime, Expr.Qualified, Expr.whenever, Expr.amongTexts, Expr.reads_chain, hne, hstates]
  cases event with
  | cdJobRun runs filter =>
    obtain ⟨ci, -, rfl⟩ := clause_cdJobRun_eq_ok.1 h
    simp [Clause.ofCdRuns, Clause.ofRun, Clause.ofTime, Expr.Qualified]
  | statusReached statuses =>
    cases h
    unfold Clause.ofStatus
    cases ctx.joins.anchor.issueSystem <;>
      simp [Clause.ofTime, Expr.Qualified, Expr.whenever, Expr.among, Expr.apply, Expr.chain]
  | prReviewStarted =>
    cases h
    exact hreview _ (by decide) _
  | prApproved aggregate =>
    cases h
    exact hreview _ (by decide) _
  | _ =>
    cases h
    simp [Clause.ofPullRequest, Clause.ofLabel, Clause.ofRuns, Clause.ofMappedRun, Clause.ofRun, Clause.ofDeploy,
      Clause.ofGenericEvent, Clause.ofTime, Expr.Qualified]

theorem Layers.qualified_baseItems {l : Layers} (hstart : l.start.Qualified)
    (hstages : ∀ column ∈ l.stages, column.timestamp.Qualified) (hstack : ∀ e ∈ l.stack, e.Qualified) :
    ∀ i ∈ l.baseItems, ∀ c, Token.name c ∉ i.reads := by
  have hidentity : ∀ column ∈ l.anchor.identity, column.1.Qualified := by
    obtain ⟨⟨calculation, issueSystem⟩, _⟩ := l
    cases calculation <;> cases issueSystem <;> simp [Anchor.identity, Expr.Qualified]
  have htrend : l.anchor.trend.Qualified := by
    unfold Anchor.trend
    split <;> simp [Expr.Qualified]
  intro i hi
  simp only [baseItems, List.mem_append, List.mem_cons, List.mem_map] at hi
  rcases hi with ((⟨column, hc, rfl⟩ | hi) | ⟨e, he, rfl⟩) | rfl | ⟨⟨column, stage⟩, hc, rfl⟩
  · exact hidentity column hc
  · split at hi
    · rw [List.mem_singleton.1 hi]
      exact htrend
    · cases hi
  · exact hstack e (Option.mem_toList.1 he)
  · exact hstart
  · exact hstages column (List.fst_mem_of_mem_zipIdx hc)

end Innermost

theorem Plan.tokens_eq (p : Plan) :
    ∃ page, Sql.reads page = [] ∧ p.tokens = stacked p.outerLayers p.layers.base ++ page := by
  rw [Plan.tokens, OutputShape.tokens, body_eq]
  cases p.shape.page? with
  | none => exact ⟨[], rfl, rfl⟩
  | some page => exact ⟨.fixed "\n" :: page.tokens, rfl, rfl⟩

/-- Every layer reads columns that the layer beneath gives, and gives no name twice. The innermost select, beneath which
there are tables alone, reads from tables by their names. -/
structure Plan.ColumnClosed (p : Plan) : Prop where
  /-- The text is that of these layers and a page, which reads nothing. -/
  sql : ∃ page, Sql.reads page = [] ∧ p.query.sql = Sql.text (stacked p.outerLayers p.layers.base ++ page)
  countSql : ∀ sql ∈ p.query.countSql,
    sql = Sql.text (stacked (p.outerLayers ++ [OutputShape.countLayer]) p.layers.base)
  tables : ∀ i ∈ p.layers.baseItems, ∀ c, Token.name c ∉ i.reads
  columns : columnsOf p.layers.baseItems [] = p.layers.timeColumns
  nodup : p.layers.timeColumns.Nodup
  /-- Only the column that a histogram or a rating counts by is one of the layer itself. -/
  closed : ClosedOver ["bucket", "rating"] p.layers.timeColumns (p.outerLayers ++ [OutputShape.countLayer])

theorem Query.isSome_of_stackColumn {q : Query} {a : Anchor} {stack : Option Expr} (h : q.stackColumn a = .ok stack)
    (hacross : q.across = .stack) : stack.isSome = true := by
  unfold stackColumn at h
  rw [if_neg (not_not.2 hacross)] at h
  split at h
  · cases h
  · split at h <;> cases h
    rfl

namespace Compilation

variable {c : Compiler} {r : Request} (k : Compilation c r)

theorem qualified_stack : ∀ e ∈ k.stack, e.Qualified := by
  intro e he
  rcases Query.stackColumn_eq_ok k.stacked with hstack | ⟨-, kind, hstack⟩
  · rw [hstack] at he
    cases he
  · rw [hstack] at he
    cases he
    split <;> simp [Expr.Qualified]

theorem qualified_columns : ∀ column ∈ k.progress.columns, column.timestamp.Qualified := by
  intro column hc
  obtain ⟨i, hi⟩ := List.mem_iff_getElem?.1 hc
  have hlt : i < k.pipeline.stages.length := k.columns_stages.1 ▸ (List.getElem?_eq_some_iff.1 hi).1
  obtain ⟨clause, ⟨event, -, hclause⟩, hcolumn⟩ := k.columns_stages.2 i _ (List.getElem?_eq_getElem hlt)
  rw [hi] at hcolumn
  cases hcolumn
  exact StageEvent.qualified_clause hclause

theorem closed_outerLayers :
    ClosedOver ["bucket", "rating"] k.plan.layers.timeColumns (k.plan.outerLayers ++ [OutputShape.countLayer]) := by
  have hlength : k.plan.layers.stages.length = k.pipeline.stages.length := k.columns_stages.1
  have hne : k.pipeline.stages ≠ [] := Pipeline.stages_ne_nil k.assembled
  have hne' : k.plan.layers.stages ≠ [] := by
    rw [← List.length_pos_iff, hlength]
    exact List.length_pos_iff.2 hne
  have hshape := OutputShape.closed_layers (Query.shaped_of_eq_ok k.shaped) hlength hne
    (fun h => by simp [plan, h]) (fun h => Query.isSome_of_stackColumn k.stacked h)
  have hcount (beneath : List String) : OutputShape.countLayer.Closed ["bucket", "rating"] beneath :=
    Layer.closed_over _ (by simp [Projection.reads]) (by simp [Layer.columns, Layer.over, Projection.gives])
  refine ⟨Layers.closed_reduce _, ?_⟩
  rw [Layers.columns_reduce]
  refine ⟨Layers.closed_durations _, ?_⟩
  rw [Layers.columns_durations]
  refine ⟨Layers.closed_enriched _ hne', ?_⟩
  rw [Layers.columns_enriched]
  exact closedOver_append.2 ⟨hshape, hcount _, trivial⟩

end Compilation

/-- Where compiling succeeds, every layer of the query and of its count is closed over the layer beneath. -/
theorem Compiler.columnClosed_of_compile {c : Compiler} {r : Request} {q : CompiledQuery} (h : c.compile r = .ok q) :
    ∃ p, c.plan r = .ok p ∧ p.query = q ∧ p.ColumnClosed := by
  obtain ⟨p, hp, rfl⟩ := Except.map_eq_ok.1 h
  obtain ⟨k, rfl⟩ := Compilation.of_plan hp
  obtain ⟨page, hpage, htokens⟩ := k.plan.tokens_eq
  refine ⟨_, hp, rfl, {
    sql := ⟨page, hpage, congrArg Sql.text htokens⟩
    countSql := ?_
    tables := ?_
    columns := k.plan.layers.columnsOf_baseItems []
    nodup := k.plan.layers.nodup_timeColumns
    closed := k.closed_outerLayers }⟩
  · intro sql hsql
    obtain ⟨tokens, ht, rfl⟩ := Option.mem_map.1 hsql
    obtain ⟨_, -, rfl⟩ := Option.mem_map.1 ht
    rw [k.plan.body_eq]
    simp only [stacked, List.foldl_append, List.foldl_cons, List.foldl_nil]
  · exact Layers.qualified_baseItems (StartTime.qualified_clause _ _) k.qualified_columns k.qualified_stack

theorem Compiler.columnClosed_listing : ∃ q, (⟨.standard, .criteria⟩ : Compiler).compile .listing = .ok q ∧
    ∃ p, (⟨.standard, .criteria⟩ : Compiler).plan .listing = .ok p ∧ p.query = q ∧ p.ColumnClosed := by
  obtain ⟨q, hq⟩ := exists_compile_eq_ok Request.isOk_plan_listing
  exact ⟨q, hq, columnClosed_of_compile hq⟩

end LeadTime

import LeadTime.Proofs.ColumnClosure
import LeadTime.Proofs.Registry.Ingestion
import Mathlib

/-! Columns stand for the stages that the answer says. What is called after the number of a stage is, in each layer, made
of what that stage yields, and the outer shape is about the stage that the query names. -/
namespace LeadTime

open Sql

namespace Sql

def itemsNamed (items : List Projection) (column : String) : List Projection :=
  items.filter fun i => decide (column ∈ i.gives [])

theorem itemsNamed_of_nodup {items : List Projection} {i : Projection} {column : String}
    (hnodup : (columnsOf items []).Nodup) (hi : i ∈ items) (hgives : i.gives [] = [column]) :
    itemsNamed items column = [i] := by
  induction items with
  | nil => cases hi
  | cons first rest ih =>
    rw [columnsOf_cons, List.nodup_append'] at hnodup
    obtain ⟨-, hrest, hdisjoint⟩ := hnodup
    rcases List.mem_cons.1 hi with rfl | hi
    · have hnone : itemsNamed rest column = [] := by
        refine List.filter_eq_nil_iff.2 fun j hj hm => ?_
        have hcolumn : column ∈ i.gives [] := by simp [hgives]
        exact hdisjoint hcolumn (List.mem_flatMap.2 ⟨j, hj, of_decide_eq_true hm⟩)
      rw [itemsNamed, List.filter_cons_of_pos (by simp [hgives])]
      exact congrArg (i :: ·) hnone
    · have hcolumn : column ∈ columnsOf rest [] := List.mem_flatMap.2 ⟨i, hi, by simp [hgives]⟩
      have hfirst : column ∉ first.gives [] := fun hm => hdisjoint hm hcolumn
      rw [itemsNamed, List.filter_cons_of_neg (by simpa using hfirst)]
      exact ih hrest hi

/-- The items of a select list that give a column, as they are written. -/
def textsNamed (items : List Projection) (column : String) : List String := (itemsNamed items column).map Projection.text

def Layer.selected (l : Layer) : List Token :=
  l.items.flatMap Projection.reads ++ l.condition.toList.flatMap Expr.reads

/-- The select list of a layer and its condition, as they are written. -/
def Layer.selectedTexts (l : Layer) : List String := l.items.map Projection.text ++ l.condition.toList.map Expr.text

theorem Expr.mem_tokens_of_mem_reads {e : Expr} {t : Token} (h : t ∈ e.reads) : t ∈ e.tokens := by
  obtain ⟨t', ht, hread⟩ := List.mem_filterMap.1 h
  cases t' <;> simp at hread <;> exact hread ▸ ht

theorem Projection.mem_tokens_of_mem_reads {i : Projection} {t : Token} (h : t ∈ i.reads) : t ∈ i.tokens := by
  cases i with
  | named e => exact List.mem_append_left _ (Expr.mem_tokens_of_mem_reads h)
  | unnamed e => exact Expr.mem_tokens_of_mem_reads h
  | all table =>
    cases table with
    | none => cases h
    | some table => exact h
  | name | column | blank => exact h

theorem Layer.exists_selectedTexts {l : Layer} {t : Token} (h : t ∈ l.selected) :
    ∃ written ∈ l.selectedTexts, ∃ before after, written = before ++ t.text ++ after := by
  rcases List.mem_append.1 h with h | h
  · obtain ⟨i, hi, ht⟩ := List.mem_flatMap.1 h
    exact ⟨i.text, List.mem_append_left _ (List.mem_map_of_mem hi),
      exists_text_of_mem (Projection.mem_tokens_of_mem_reads ht)⟩
  · obtain ⟨e, he, ht⟩ := List.mem_flatMap.1 h
    exact ⟨e.text, List.mem_append_right _ (List.mem_map_of_mem he), exists_text_of_mem (Expr.mem_tokens_of_mem_reads ht)⟩

end Sql

/-- The columns of the times before a stage, the nearest one first and the start last. -/
def earlierColumns (stage : ℕ) : List String :=
  (List.range stage).reverse.map (fun before => "e" ++ toString before) ++ ["estart"]

/-- The seconds of a stage, as they are written: since the nearest earlier stage that was reached, else since the start. -/
def durationText (stage : ℕ) : String :=
  if stage = 0 then "ABS(EXTRACT(EPOCH FROM (e0 - estart)))"
  else
    "EXTRACT(EPOCH FROM (e" ++ toString stage ++ " - COALESCE(" ++ ", ".intercalate (earlierColumns stage) ++ ")))"

def statisticsTexts (stage : ℕ) : List String :=
  let column := "s" ++ toString stage
  ["PERCENTILE_CONT(0.5) WITHIN GROUP (ORDER BY " ++ column ++ ") AS " ++ column ++ "_median",
    "PERCENTILE_CONT(0.9) WITHIN GROUP (ORDER BY " ++ column ++ ") AS " ++ column ++ "_p90",
    "PERCENTILE_CONT(0.95) WITHIN GROUP (ORDER BY " ++ column ++ ") AS " ++ column ++ "_p95",
    "AVG(" ++ column ++ ") AS " ++ column ++ "_mean", "COUNT(" ++ column ++ ") AS " ++ column ++ "_count"]

theorem text_duration (stage : ℕ) : (duration stage).text = durationText stage ++ " AS s" ++ toString stage := by
  cases stage with
  | zero =>
    have hfirst : (duration 0).text = "ABS(EXTRACT(EPOCH FROM (e0 - estart))) AS s0" := by decide +kernel
    rw [durationText, if_pos rfl, hfirst]
    rfl
  | succ stage =>
    have hearlier : ((List.range (stage + 1)).reverse.map eventColumn ++ [startColumn]) = earlierColumns (stage + 1) := rfl
    have hopen : "EXTRACT(EPOCH FROM (e" = "EXTRACT" ++ ("(" ++ ("EPOCH FROM " ++ ("(" ++ "e"))) := rfl
    have hcall : " - COALESCE(" = " - " ++ ("COALESCE" ++ "(") := rfl
    have hclose : ")))" = ")" ++ (")" ++ ")") := rfl
    have has : " AS s" = " AS " ++ "s" := rfl
    rw [durationText, if_neg stage.succ_ne_zero, hopen, hcall, hclose, has]
    simp only [duration, hearlier, Projection.text_named, Expr.text_epoch, Expr.text_group, Expr.text_binary, Expr.apply,
      Expr.text_call, Expr.text_chain_names, Expr.text_name, Operator.text, eventColumn, durationColumn, String.append_assoc]

theorem text_stageStatistics (stage : ℕ) :
    (OutputShape.stageStatistics stage).map Projection.text = statisticsTexts stage := by
  have hmedian : "PERCENTILE_CONT(0.5) WITHIN GROUP (ORDER BY " =
    "PERCENTILE_CONT(" ++ ("0.5" ++ ") WITHIN GROUP (ORDER BY ") := rfl
  have hp90 : "PERCENTILE_CONT(0.9) WITHIN GROUP (ORDER BY " =
    "PERCENTILE_CONT(" ++ ("0.9" ++ ") WITHIN GROUP (ORDER BY ") := rfl
  have hp95 : "PERCENTILE_CONT(0.95) WITHIN GROUP (ORDER BY " =
    "PERCENTILE_CONT(" ++ ("0.95" ++ ") WITHIN GROUP (ORDER BY ") := rfl
  have hmean : "AVG(" = "AVG" ++ "(" := rfl
  have hcount : "COUNT(" = "COUNT" ++ "(" := rfl
  have has : ") AS " = ")" ++ " AS " := rfl
  simp only [OutputShape.stageStatistics, statisticsTexts, List.map_cons, List.map_nil, Projection.text_named,
    Expr.text_percentile, Expr.text_call, Expr.text_group, Expr.text_name, durationColumn, hmedian, hp90, hp95, hmean, hcount,
    has, String.append_assoc]

namespace OutputShape

def itemsOf (items : List Projection) (stage : ℕ) : List Projection :=
  items.filter fun i => decide (Token.name (durationColumn stage) ∈ i.reads)

theorem itemsOf_stageStatistics (other stage : ℕ) :
    itemsOf (stageStatistics other) stage = if other = stage then stageStatistics stage else [] := by
  split
  · rename_i h
    subst h
    exact List.filter_eq_self.2 fun i hi => by simp [reads_stageStatistics other i hi]
  · rename_i h
    refine List.filter_eq_nil_iff.2 fun i hi => ?_
    have hne : durationColumn stage ≠ durationColumn other := fun heq => h (durationColumn_injective heq).symm
    simpa [reads_stageStatistics other i hi] using hne

theorem itemsOf_statistics {stages stage : ℕ} (h : stage < stages) :
    itemsOf (statistics stages) stage = stageStatistics stage := by
  obtain ⟨n, rfl⟩ : ∃ n, stages = n + 1 := ⟨stages - 1, by omega⟩
  have hfilter : itemsOf (statistics (n + 1)) stage =
      (List.range (n + 1)).flatMap fun other => if other = stage then stageStatistics stage else [] := by
    change ((List.range (n + 1)).flatMap stageStatistics).filter _ = _
    rw [List.filter_flatMap]
    exact List.flatMap_congr fun other _ => itemsOf_stageStatistics other stage
  rw [hfilter, Registry.flatMap_ite_of_nodup List.nodup_range, if_pos (List.mem_range.2 h)]

variable {q : Query} {p : Pipeline}

/-- The modes that count every stage are of one layer, in which the column of a stage is read by the stage's statistics. -/
theorem exists_layer_of_statistics {shape : OutputShape} (h : q.Shaped p shape)
    (hacross : q.across ∈ [.velocity, .trend, .stack]) :
    ∃ l, shape.layers p.stages.length = [l] ∧
      ∀ stage < p.stages.length, itemsOf l.items stage = stageStatistics stage := by
  -- What rows are grouped by besides has a name without digits, and so is the column of no stage.
  have hgroup (column : String) (hundigited : Placeholder.Undigited column.toList) (stage : ℕ) :
      itemsOf (.name column :: statistics p.stages.length) stage = itemsOf (statistics p.stages.length) stage := by
    refine List.filter_cons_of_neg ?_
    have hne : durationColumn stage ≠ column := fun heq => not_undigited_durationColumn stage (heq ▸ hundigited)
    simpa [Projection.reads] using hne
  cases h with
  | velocity h => exact ⟨_, rfl, fun stage hs => itemsOf_statistics hs⟩
  | trend h => exact ⟨_, rfl, fun stage hs => (hgroup "trend" (by decide) stage).trans (itemsOf_statistics hs)⟩
  | stack h => exact ⟨_, rfl, fun stage hs => (hgroup "stack" (by decide) stage).trans (itemsOf_statistics hs)⟩
  | listing h | rated h | histogram h | rating h => simp [h] at hacross

theorem mem_reads_condition (t : Thresholds) (stage : ℕ) (bucket : RatingBucket) :
    Token.name (durationColumn stage) ∈ (t.condition stage bucket).reads := by
  cases bucket <;> simp [Thresholds.condition]

/-- The query is about one stage: that of its name, and of several the first. -/
def Targets (q : Query) (p : Pipeline) (layers : List Layer) : Prop :=
  ∃ name stage index, q.targetStage = some name ∧ p.stages[index]? = some stage ∧ stage.name = name ∧
    (∀ i < index, ∀ earlier, p.stages[i]? = some earlier → earlier.name ≠ name) ∧
    (∃ written ∈ layers.flatMap Layer.selectedTexts, ∃ before after, written = before ++ "s" ++ toString index ++ after) ∧
    ∀ t ∈ layers.flatMap Layer.selected, t = .name (durationColumn index)

theorem targets_of_selected {layers : List Layer} {name : String} {stage : Stage} {index : ℕ}
    (hname : q.targetStage = some name) (hget : p.stages[index]? = some stage) (hnamed : stage.name = name)
    (hfirst : ∀ i < index, ∀ earlier, p.stages[i]? = some earlier → earlier.name ≠ name)
    (hne : layers.flatMap Layer.selected ≠ [])
    (hall : ∀ t ∈ layers.flatMap Layer.selected, t = .name (durationColumn index)) : Targets q p layers := by
  obtain ⟨t, ht⟩ := List.exists_mem_of_ne_nil _ hne
  obtain ⟨l, hl, hread⟩ := List.mem_flatMap.1 ht
  obtain ⟨written, hw, before, after, rfl⟩ := Layer.exists_selectedTexts hread
  refine ⟨name, stage, index, hname, hget, hnamed, hfirst, ⟨_, List.mem_flatMap.2 ⟨l, hl, hw⟩, before, after, ?_⟩, hall⟩
  rw [hall t ht, Token.text, durationColumn]
  simp only [String.append_assoc]

theorem targets_of_name {shape : OutputShape} (h : q.Shaped p shape)
    (hacross : q.across ∈ [.histogram, .rating] ∨ q.across = .values ∧ q.ratings ≠ [] ∧ q.targetStage.isSome = true) :
    Targets q p (shape.layers p.stages.length) := by
  cases h with
  | velocity h | trend h | stack h => simp [h] at hacross
  | listing h hratings => simp [h, hratings] at hacross
  | rated h hratings page hconditions =>
    have hsome : q.targetStage.isSome = true := (hacross.resolve_left (by simp [h])).2.2
    obtain ⟨name, hname⟩ := Option.isSome_iff_exists.1 hsome
    obtain ⟨stage, index, t, hstage, -, rfl⟩ := Query.ratingConditions_of_name hname hconditions
    obtain ⟨hget, hnamed, hfirst⟩ := Pipeline.stage?_eq_some hstage
    have hne : q.ratings.map (t.condition index) ≠ [] := by simpa using hratings
    have hselected : (layers p.stages.length (.values (ListingOrder.ofQuery q p).terms page
        (some (q.ratings.map (t.condition index))))).flatMap Layer.selected =
        (q.ratings.map (t.condition index)).flatMap Expr.reads := by
      simp [layers, Layer.selected, Projection.reads, Expr.anyOf, Expr.reads_chain .or hne]
    refine targets_of_selected hname hget hnamed hfirst ?_ ?_ <;> rw [hselected]
    · obtain ⟨bucket, rest, hcons⟩ := List.exists_cons_of_ne_nil hratings
      exact List.ne_nil_of_mem (List.mem_flatMap.2
        ⟨_, List.mem_map_of_mem (hcons ▸ List.mem_cons_self), mem_reads_condition t index bucket⟩)
    · intro token htoken
      obtain ⟨condition, hc, htoken⟩ := List.mem_flatMap.1 htoken
      obtain ⟨bucket, -, rfl⟩ := List.mem_map.1 hc
      exact List.mem_singleton.1 (reads_condition t index bucket htoken)
  | histogram h hname hstage hstop =>
    obtain ⟨hget, hnamed, hfirst⟩ := Pipeline.stage?_eq_some hstage
    refine targets_of_selected hname hget hnamed hfirst ?_ ?_ <;>
      simp [layers, Layer.selected, Projection.reads, reads_bucketWidth, counted]
  | rating h hname hstage ht =>
    obtain ⟨hget, hnamed, hfirst⟩ := Pipeline.stage?_eq_some hstage
    refine targets_of_selected hname hget hnamed hfirst ?_ ?_ <;>
      simp [layers, Layer.selected, Projection.reads, counted, Thresholds.bucket, Thresholds.goodEnd,
        Thresholds.attentionEnd, Expr.equal]

end OutputShape

namespace StageMap

theorem entries_ofStages (stages : List Stage) : (ofStages stages).entries = (List.range stages.length).zip stages := by
  change stages.zipIdx.map Prod.swap = _
  rw [List.zipIdx_eq_zip_range', ← List.range_eq_range']
  exact List.zip_swap stages (List.range stages.length)

theorem mem_entries_ofStages {stages : List Stage} {index : ℕ} {stage : Stage} :
    (index, stage) ∈ (ofStages stages).entries ↔ stages[index]? = some stage := by
  rw [← List.mk_mem_zipIdx_iff_getElem?]
  simp [ofStages]

end StageMap

/-- The columns of a plan are those of the stages that its answer lists. -/
structure Plan.Aligned (c : Compiler) (r : Request) (p : Plan) : Prop where
  /-- The query is its rows under three layers and those of its shape, each of which is written with its items. -/
  written : p.Written
  assembled : Pipeline.assemble r.pipeline r.query = .ok p.pipeline
  stageMap : p.query.stages.entries =
    (List.range (Pipeline.stagesOf r.pipeline).length).zip (Pipeline.stagesOf r.pipeline)
  /-- The time of a stage is that of its event's clause, in the stage's place, and collapses as the event says. -/
  times : ∃ runTerms runWarnings, (c.scope r p.pipeline).runTerms = .ok (runTerms, runWarnings) ∧
    ∀ i stage, (i, stage) ∈ p.query.stages.entries → ∃ event clause, StageEvent.ofStage stage = .ok event ∧
      event.clause ⟨c.joinContext r.query p.pipeline.anchor, p.pipeline.lastJobRun?, runTerms.conditions,
        p.pipeline.ciBefore i⟩ stage.name i = .ok clause ∧
      textsNamed p.layers.baseItems (eventColumn i) = [clause.timestamp.text ++ " AS e" ++ toString i] ∧
      textsNamed p.layers.reduce.items (eventColumn i) =
        [(if stage.countsLatest then "MAX" else "MIN") ++ "(e" ++ toString i ++ ") AS e" ++ toString i]
  start : textsNamed p.layers.baseItems startColumn = [p.layers.start.text ++ " AS estart"] ∧
    textsNamed p.layers.reduce.items startColumn = ["MIN(estart) AS estart"]
  seconds : ∀ i < p.pipeline.stages.length,
    textsNamed p.layers.durations.items (durationColumn i) = [durationText i ++ " AS s" ++ toString i] ∧
      textsNamed p.layers.enriched.items (durationColumn i) =
        [(p.layers.formula.expression i).text ++ " AS s" ++ toString i]
  reported : p.layers.enriched.columns p.layers.secondsColumns =
    p.layers.groupColumns ++ (List.range p.pipeline.stages.length).map durationColumn ++ ["t"]
  exactly : ∀ i, durationColumn i ∈ p.layers.enriched.columns p.layers.secondsColumns ↔ i < p.pipeline.stages.length
  statistics : r.query.across ∈ [.velocity, .trend, .stack] → ∃ l, p.shape.layers p.pipeline.stages.length = [l] ∧
    ∀ i < p.pipeline.stages.length, (OutputShape.itemsOf l.items i).map Projection.text = statisticsTexts i
  target : r.query.across ∈ [.histogram, .rating] ∨
      r.query.across = .values ∧ r.query.ratings ≠ [] ∧ r.query.targetStage.isSome = true →
    OutputShape.Targets r.query p.pipeline (p.shape.layers p.pipeline.stages.length)

namespace Layers

variable {l : Layers}

theorem textsNamed_eq {items : List Projection} {value : Expr} {column : String} (hnodup : (columnsOf items []).Nodup)
    (hi : .named value column ∈ items) : textsNamed items column = [value.text ++ " AS " ++ column] := by
  rw [textsNamed, itemsNamed_of_nodup hnodup hi rfl, List.map_singleton, Projection.text_named]

theorem textsNamed_baseItems {i : ℕ} {column : StageColumn} (h : l.stages[i]? = some column) :
    textsNamed l.baseItems (eventColumn i) = [column.timestamp.text ++ " AS e" ++ toString i] := by
  have hmem := List.mk_mem_zipIdx_iff_getElem?.2 h
  have hitem : .named column.timestamp (eventColumn i) ∈ l.baseItems :=
    List.mem_append_right _ (List.mem_cons_of_mem _ (List.mem_map.2 ⟨_, hmem, rfl⟩))
  have hnodup : (columnsOf l.baseItems []).Nodup := by
    rw [columnsOf_baseItems]
    exact l.nodup_timeColumns
  have has : " AS e" = " AS " ++ "e" := rfl
  rw [textsNamed_eq hnodup hitem, eventColumn, has]
  simp only [String.append_assoc]

theorem textsNamed_reduce {i : ℕ} {column : StageColumn} (h : l.stages[i]? = some column) :
    textsNamed l.reduce.items (eventColumn i) =
      [column.aggregate.function ++ "(e" ++ toString i ++ ") AS e" ++ toString i] := by
  have hmem := List.mk_mem_zipIdx_iff_getElem?.2 h
  have hitem : aggregated column.aggregate (eventColumn i) ∈ l.reduce.items :=
    List.mem_append_right _ (List.mem_cons_of_mem _ (List.mem_map.2 ⟨_, hmem, rfl⟩))
  have hopen : "(e" = "(" ++ "e" := rfl
  have has : ") AS e" = ")" ++ (" AS " ++ "e") := rfl
  rw [textsNamed_eq (l.nodup_columns_reduce []) hitem, Expr.text_call, Expr.text_group, Expr.text_name, eventColumn, hopen, has]
  simp only [String.append_assoc]

theorem textsNamed_start : textsNamed l.baseItems startColumn = [l.start.text ++ " AS estart"] ∧
    textsNamed l.reduce.items startColumn = ["MIN(estart) AS estart"] := by
  have hbase : .named l.start startColumn ∈ l.baseItems := List.mem_append_right _ List.mem_cons_self
  have hreduce : aggregated .min startColumn ∈ l.reduce.items := List.mem_append_right _ List.mem_cons_self
  constructor
  · rw [textsNamed_eq (by rw [columnsOf_baseItems]; exact l.nodup_timeColumns) hbase, startColumn, String.append_assoc]
    rfl
  · rw [textsNamed_eq (l.nodup_columns_reduce []) hreduce]
    rfl

theorem textsNamed_durations {i : ℕ} (h : i < l.stages.length) :
    textsNamed l.durations.items (durationColumn i) = [durationText i ++ " AS s" ++ toString i] := by
  have hi : i ∈ l.indices := List.mem_range.2 h
  rw [textsNamed, itemsNamed_of_nodup (l.nodup_columns_durations []) (List.mem_append_right _ (List.mem_map_of_mem hi))
    (gives_duration i []), List.map_singleton, text_duration]

theorem textsNamed_enriched {i : ℕ} (h : i < l.stages.length) :
    textsNamed l.enriched.items (durationColumn i) = [(l.formula.expression i).text ++ " AS s" ++ toString i] := by
  have hitem : .named (l.formula.expression i) (durationColumn i) ∈ l.enriched.items :=
    List.mem_append_left _ (List.mem_append_right _ (List.mem_map.2 ⟨i, List.mem_range.2 h, rfl⟩))
  have has : " AS s" = " AS " ++ "s" := rfl
  rw [textsNamed_eq (l.nodup_columns_enriched []) hitem, durationColumn, has]
  simp only [String.append_assoc]

theorem durationColumn_mem_reportColumns {i : ℕ} : durationColumn i ∈ l.reportColumns ↔ i < l.stages.length := by
  refine ⟨fun hm => ?_, duration_mem_reportColumns⟩
  rcases List.mem_append.1 hm with hm | hm
  · rcases List.mem_append.1 hm with hm | hm
    · exact absurd (l.undigited_groupColumns _ hm) (not_undigited_durationColumn i)
    · obtain ⟨j, hj, heq⟩ := List.mem_map.1 hm
      exact durationColumn_injective heq ▸ List.mem_range.1 hj
  · exact absurd (List.mem_singleton.1 hm ▸ by decide) (not_undigited_durationColumn i)

end Layers

/-- The time of a stage is written where it is selected and where it collapses, both times under the stage's number. -/
theorem Compilation.exists_writtenClause {c : Compiler} {r : Request} (k : Compilation c r) {i : ℕ} {stage : Stage}
    (h : k.pipeline.stages[i]? = some stage) : ∃ event clause, StageEvent.ofStage stage = .ok event ∧
      event.clause ⟨k.context, k.pipeline.lastJobRun?, k.runTerms.conditions, k.pipeline.ciBefore i⟩ stage.name i =
        .ok clause ∧
      textsNamed k.plan.layers.baseItems (eventColumn i) = [clause.timestamp.text ++ " AS e" ++ toString i] ∧
      textsNamed k.plan.layers.reduce.items (eventColumn i) =
        [(if stage.countsLatest then "MAX" else "MIN") ++ "(e" ++ toString i ++ ") AS e" ++ toString i] := by
  obtain ⟨clause, ⟨event, he, hc⟩, hcolumn⟩ := k.columns_stages.2 i stage h
  have hfunction : clause.aggregate.function = if stage.countsLatest then "MAX" else "MIN" := by
    rw [StageEvent.aggregate_clause hc, StageEvent.aggregate_ofStage he]
    split <;> rfl
  refine ⟨event, clause, he, hc, Layers.textsNamed_baseItems (l := k.plan.layers) hcolumn, ?_⟩
  rw [Layers.textsNamed_reduce (l := k.plan.layers) hcolumn, hfunction]

/-- Where compiling succeeds, the columns of the query are those of the stages that the answer lists. -/
theorem Compiler.aligned_of_compile {c : Compiler} {r : Request} {q : CompiledQuery} (h : c.compile r = .ok q) :
    ∃ p, c.plan r = .ok p ∧ p.query = q ∧ p.Aligned c r := by
  obtain ⟨p, hp, rfl⟩ := Except.map_eq_ok.1 h
  obtain ⟨k, rfl⟩ := Compilation.of_plan hp
  have hlength : k.plan.layers.stages.length = k.pipeline.stages.length := k.columns_stages.1
  have hshaped := Query.shaped_of_eq_ok k.shaped
  refine ⟨_, hp, rfl, ?_⟩
  constructor
  case written => exact k.written_plan
  case assembled => exact k.assembled
  case stageMap =>
    rw [← k.stages_eq]
    exact StageMap.entries_ofStages k.pipeline.stages
  case times =>
    exact ⟨k.runTerms, k.runWarnings, k.ranOver, fun i stage hm =>
      k.exists_writtenClause (StageMap.mem_entries_ofStages.1 hm)⟩
  case start => exact Layers.textsNamed_start
  case seconds =>
    intro i hi
    exact ⟨Layers.textsNamed_durations (hlength ▸ hi), Layers.textsNamed_enriched (hlength ▸ hi)⟩
  case reported =>
    change _ = k.plan.layers.groupColumns ++ (List.range k.pipeline.stages.length).map durationColumn ++ ["t"]
    rw [Layers.columns_enriched, ← hlength]
    rfl
  case exactly =>
    intro i
    rw [Layers.columns_enriched, Layers.durationColumn_mem_reportColumns, hlength]
    rfl
  case statistics =>
    intro hacross
    obtain ⟨l, hlayers, hitems⟩ := OutputShape.exists_layer_of_statistics hshaped hacross
    refine ⟨l, hlayers, fun i hi => ?_⟩
    rw [hitems i hi, text_stageStatistics]
  case target => exact OutputShape.targets_of_name hshaped

def Request.mergeTimes : Request :=
  { Request.delivery with query := { Query.standard with across := .histogram, targetStage := some "merge" } }

theorem Request.isOk_plan_mergeTimes : ((⟨.standard, .criteria⟩ : Compiler).plan mergeTimes).isOk = true := by cbv

theorem Compiler.aligned_mergeTimes : ∃ q, (⟨.standard, .criteria⟩ : Compiler).compile .mergeTimes = .ok q ∧
    ∃ p, (⟨.standard, .criteria⟩ : Compiler).plan .mergeTimes = .ok p ∧ p.query = q ∧
      p.Aligned ⟨.standard, .criteria⟩ .mergeTimes := by
  obtain ⟨q, hq⟩ := exists_compile_eq_ok Request.isOk_plan_mergeTimes
  exact ⟨q, hq, aligned_of_compile hq⟩

end LeadTime

import LeadTime.Plan
import LeadTime.Proofs.Except
import LeadTime.Proofs.Sql.Legible
import Mathlib

/-! The layers around the innermost select. They have no placeholders of their own and read back as text, so that the
placeholders of a query are those of its innermost layer. -/
namespace LeadTime

open Sql

/-- The layer adds no placeholders, and reads back. -/
structure Sql.Layer.Plain (l : Layer) : Prop where
  legible : l.Legible
  items : ∀ i ∈ l.items, placeholders i.tokens = []
  condition : ∀ c ∈ l.condition, c.placeholders = []
  order : ∀ terms ∈ l.orderBy, ∀ o ∈ terms, o.key.placeholders = []

namespace Sql

theorem placeholders_orderTerm (o : OrderTerm) : placeholders o.tokens = o.key.placeholders := by
  obtain ⟨key, direction, nullsLast⟩ := o
  cases direction <;> cases nullsLast <;> simp [OrderTerm.tokens]

theorem Layer.Plain.placeholders_tokens {l : Layer} (h : l.Plain) (inner : List Token) :
    placeholders (l.tokens inner) = placeholders inner := by
  obtain ⟨items, as, condition, groupBy, orderBy⟩ := l
  have hitems : items.flatMap (fun i => placeholders i.tokens) = [] := List.flatMap_eq_nil_iff.2 h.items
  have hgroup (columns : List String) : columns.flatMap (fun _ => ([] : List String)) = [] :=
    List.flatMap_eq_nil_iff.2 fun _ _ => rfl
  have hcondition : ∀ c, condition = some c → c.placeholders = [] := h.condition
  have horder : ∀ terms, orderBy = some terms → terms.flatMap (fun o => o.key.placeholders) = [] :=
    fun terms ht => List.flatMap_eq_nil_iff.2 (h.order terms ht)
  cases condition <;> cases groupBy <;> cases orderBy <;>
    simp [Layer.tokens, List.flatMap_map, placeholders_orderTerm, hitems, hgroup, hcondition, horder]

theorem placeholders_stacked {layers : List Layer} (h : ∀ l ∈ layers, l.Plain) (inner : List Token) :
    placeholders (stacked layers inner) = placeholders inner := by
  induction layers generalizing inner with
  | nil => rfl
  | cons l rest ih =>
    rw [List.forall_mem_cons] at h
    exact (ih h.2 _).trans (h.1.placeholders_tokens inner)

end Sql

@[simp] theorem noColon_eventColumn (stage : Nat) : NoColon (eventColumn stage) :=
  (noColon_append _ _).2 ⟨by decide, noColon_repr stage⟩

@[simp] theorem noColon_durationColumn (stage : Nat) : NoColon (durationColumn stage) :=
  (noColon_append _ _).2 ⟨by decide, noColon_repr stage⟩

theorem Anchor.noColon_identityColumns (a : Anchor) : ∀ column ∈ a.identityColumns, NoColon column := by
  obtain ⟨calculation, issueSystem⟩ := a
  cases calculation <;> cases issueSystem <;> simp [identityColumns, identity] <;> decide

namespace Layers

attribute [local simp] Layer.over Formula.floored aggregated

variable (l : Layers)

theorem noColon_groupColumns : ∀ column ∈ l.groupColumns, NoColon column := by
  intro column hc
  simp only [groupColumns, List.mem_append] at hc
  rcases hc with (hc | hc) | hc
  · exact l.anchor.noColon_identityColumns column hc
  · split at hc <;> simp at hc
    subst hc
    decide
  · split at hc <;> simp at hc
    subst hc
    decide

theorem plain_groups : ∀ i ∈ l.groups, i.Legible ∧ placeholders i.tokens = [] := by
  intro i hi
  obtain ⟨column, hc, rfl⟩ := List.mem_map.1 hi
  exact ⟨l.noColon_groupColumns column hc, rfl⟩

theorem noColon_function (a : Aggregate) : NoColon a.function := by cases a <;> decide

theorem plain_reduce : l.reduce.Plain := by
  have hitems : ∀ i ∈ l.reduce.items, i.Legible ∧ placeholders i.tokens = [] := by
    intro i hi
    rcases List.mem_append.1 hi with hi | hi
    · exact l.plain_groups i hi
    · rcases List.mem_cons.1 hi with rfl | hi
      · exact ⟨by simp +decide, by simp⟩
      · obtain ⟨⟨column, stage⟩, -, rfl⟩ := List.mem_map.1 hi
        exact ⟨by simp [noColon_function], by simp⟩
  refine ⟨⟨fun i hi => (hitems i hi).1, show NoColon "base" by decide, by simp [reduce], l.noColon_groupColumns,
      by simp [reduce]⟩,
    fun i hi => (hitems i hi).2, by simp [reduce], by simp [reduce]⟩

theorem plain_over {items : List Projection} {as : String} (ha : NoColon as)
    (h : ∀ i ∈ items, i.Legible ∧ placeholders i.tokens = []) : (Layer.over items as).Plain :=
  ⟨⟨fun i hi => (h i hi).1, ha, by simp, by simp, by simp⟩, fun i hi => (h i hi).2, by simp, by simp⟩

theorem plain_duration (stage : Nat) : (duration stage).Legible ∧ placeholders (duration stage).tokens = [] := by
  cases stage with
  | zero => exact ⟨by simp +decide [duration], by simp [duration]⟩
  | succ stage =>
    have hp : ∀ column ∈ (List.range (stage + 1)).reverse.map eventColumn ++ [startColumn], NoColon column := by
      intro column hc
      rcases List.mem_append.1 hc with hc | hc
      · obtain ⟨i, -, rfl⟩ := List.mem_map.1 hc
        exact noColon_eventColumn i
      · rw [List.mem_singleton.1 hc]
        decide
    constructor
    · simp only [duration, Projection.legible_named, Expr.Legible, Expr.apply, Expr.legible_chain,
        List.forall_mem_map]
      exact ⟨⟨noColon_eventColumn _, by decide, hp⟩, noColon_durationColumn _⟩
    · simp [duration]

theorem plain_durations : l.durations.Plain := by
  refine plain_over (by decide) fun i hi => ?_
  rcases List.mem_append.1 hi with hi | hi
  · exact l.plain_groups i hi
  · obtain ⟨stage, -, rfl⟩ := List.mem_map.1 hi
    exact plain_duration stage

theorem plain_formula (f : Formula) (stage : Nat) :
    (f.expression stage).Legible ∧ (f.expression stage).placeholders = [] := by
  cases f <;> exact ⟨by simp +decide [Formula.expression], by simp [Formula.expression]⟩

theorem plain_enriched : l.enriched.Plain := by
  refine plain_over (by decide) fun i hi => ?_
  rcases List.mem_append.1 hi with hi | hi
  · rcases List.mem_append.1 hi with hi | hi
    · exact l.plain_groups i hi
    · obtain ⟨stage, -, rfl⟩ := List.mem_map.1 hi
      obtain ⟨hl, hp⟩ := plain_formula l.formula stage
      exact ⟨by simpa using hl, by simpa using hp⟩
  · rw [List.mem_singleton.1 hi]
    exact ⟨by simp +decide [total], by simp [total, List.flatMap_map]⟩

theorem placeholders_identity (a : Anchor) :
    ∀ column ∈ a.identity, column.1.placeholders = [] := by
  obtain ⟨calculation, issueSystem⟩ := a
  cases calculation <;> cases issueSystem <;> simp [Anchor.identity]

theorem placeholders_trend (a : Anchor) : a.trend.placeholders = [] := by
  unfold Anchor.trend
  split <;> simp

variable {l}

theorem mem_placeholders_base (hstart : l.start.placeholders = []) (hstack : ∀ e ∈ l.stack, e.placeholders = [])
    {name : String} : name ∈ placeholders l.base ↔ name ∈ l.stages.flatMap (·.timestamp.placeholders) ∨
      name ∈ placeholders l.chain ∨ name ∈ l.conditions.flatMap Expr.placeholders := by
  have hsource : placeholders l.source.tokens = [] := by cases l.source <;> simp [From.tokens]
  have hchain : placeholders (if l.chain.isEmpty then [] else .fixed "\n" :: l.chain) = placeholders l.chain := by
    cases hc : l.chain <;> simp
  have hidentity : (l.anchor.identity.map fun column => Projection.named column.1 column.2).flatMap
      (fun i => placeholders i.tokens) = [] := by
    simpa [List.flatMap_map, List.flatMap_eq_nil_iff] using placeholders_identity l.anchor
  have htrend : (if l.trend then [Projection.named l.anchor.trend "trend"] else []).flatMap
      (fun i => placeholders i.tokens) = [] := by
    split <;> simp [placeholders_trend]
  have hstacked : (l.stack.toList.map fun e => Projection.named e "stack").flatMap
      (fun i => placeholders i.tokens) = [] := by
    simpa [List.flatMap_map, List.flatMap_eq_nil_iff] using hstack
  have hitems : l.baseItems = l.anchor.identity.map (fun column => .named column.1 column.2) ++
      (if l.trend then [.named l.anchor.trend "trend"] else []) ++ (l.stack.toList.map fun e => .named e "stack") ++
      .named l.start startColumn :: l.stages.zipIdx.map fun indexed =>
        .named indexed.1.timestamp (eventColumn indexed.2) := rfl
  have hstages : (l.stages.zipIdx.map fun indexed => Projection.named indexed.1.timestamp
      (eventColumn indexed.2)).flatMap (fun i => placeholders i.tokens) =
      l.stages.flatMap (·.timestamp.placeholders) := by
    have h := List.zipIdx_map_fst 0 l.stages
    conv_rhs => rw [← h, List.flatMap_map]
    rw [List.flatMap_map]
    exact List.flatMap_congr fun column _ => by simp
  simp only [base, hitems, View.of_append, View.of_selectList, List.flatMap_append, List.flatMap_cons,
    hidentity, htrend, hstacked, hstages, View.of_cons, hsource, hchain, View.of_whereAll]
  simp [hstart]

theorem legible_identity (a : Anchor) :
    ∀ column ∈ a.identity, column.1.Legible ∧ NoColon column.2 := by
  obtain ⟨calculation, issueSystem⟩ := a
  cases calculation <;> cases issueSystem <;> simp +decide [Anchor.identity]

theorem legible_trend (a : Anchor) : a.trend.Legible := by
  unfold Anchor.trend
  split <;> simp +decide

theorem legible_base (hsource : Sql.Legible l.source.tokens) (hstart : l.start.Legible)
    (hstack : ∀ e ∈ l.stack, e.Legible) (hstages : ∀ column ∈ l.stages, column.timestamp.Legible)
    (hchain : Sql.Legible l.chain) (hconditions : ∀ c ∈ l.conditions, c.Legible) : Sql.Legible l.base := by
  have hitems : ∀ i ∈ l.baseItems, i.Legible := by
    intro i hi
    simp only [baseItems, List.mem_append, List.mem_cons, List.mem_map, Option.mem_toList] at hi
    rcases hi with ((⟨column, hc, rfl⟩ | hi) | ⟨e, he, rfl⟩) | rfl | ⟨⟨column, stage⟩, hc, rfl⟩
    · exact legible_identity l.anchor column hc
    · split at hi
      · rw [List.mem_singleton.1 hi]
        exact ⟨legible_trend l.anchor, by decide⟩
      · simp at hi
    · exact ⟨hstack e he, by decide⟩
    · exact ⟨hstart, by decide⟩
    · exact ⟨hstages column (List.fst_mem_of_mem_zipIdx hc), noColon_eventColumn stage⟩
  have hlines : Sql.Legible (if l.chain.isEmpty then [] else .fixed "\n" :: l.chain) := by
    split
    · exact .nil
    · exact .fixed (by decide) hchain
  have hfrom : Sql.Legible (selectList l.baseItems ++ .fixed " FROM " :: l.source.tokens) :=
    (legible_selectList hitems).append (.fixed (by decide) hsource) (by simp; decide)
  refine (hfrom.append hlines ?_).append (legible_whereAll (by decide) hconditions) (leads_whereAll (by decide) _)
  split
  · simp
  · simp; decide

theorem legible_durationTokens (h : Sql.Legible l.base) : Sql.Legible l.durationTokens := by
  refine legible_stacked (fun layer hl => ?_) h
  rcases List.mem_pair.1 hl with rfl | rfl
  · exact l.plain_reduce.legible
  · exact l.plain_durations.legible

theorem legible_tokens (h : Sql.Legible l.base) : Sql.Legible l.tokens :=
  l.plain_enriched.legible.tokens (legible_durationTokens h)

theorem placeholders_tokens (l : Layers) : placeholders l.tokens = placeholders l.base := by
  rw [tokens, l.plain_enriched.placeholders_tokens, durationTokens, placeholders_stacked]
  intro layer hl
  rcases List.mem_pair.1 hl with rfl | rfl
  · exact l.plain_reduce
  · exact l.plain_durations

end Layers

namespace OutputShape

attribute [local simp] Layer.over stageStatistics counted bucketWidth byColumn

theorem plain_statistics (stages : Nat) : ∀ i ∈ statistics stages, i.Legible ∧ placeholders i.tokens = [] := by
  intro i hi
  unfold statistics at hi
  split at hi
  · rw [List.mem_singleton.1 hi]
    exact ⟨trivial, rfl⟩
  · obtain ⟨stage, -, hi⟩ := List.mem_flatMap.1 hi
    simp only [stageStatistics, List.mem_cons, List.not_mem_nil, or_false] at hi
    rcases hi with rfl | rfl | rfl | rfl | rfl <;> exact ⟨by simp +decide, by simp⟩

theorem plain_grouped {items : List Projection} {as : String} {groupBy : List String} {orderBy : Option (List OrderTerm)}
    (ha : NoColon as) (h : ∀ i ∈ items, i.Legible ∧ placeholders i.tokens = []) (hg : ∀ c ∈ groupBy, NoColon c)
    (ho : ∀ terms ∈ orderBy, ∀ o ∈ terms, o.Legible ∧ o.key.placeholders = []) :
    Layer.Plain ⟨items, as, none, groupBy, orderBy⟩ :=
  ⟨⟨fun i hi => (h i hi).1, ha, by simp, hg, fun terms ht o hm => (ho terms ht o hm).1⟩,
    fun i hi => (h i hi).2, by simp, fun terms ht o hm => (ho terms ht o hm).2⟩

def Plain : OutputShape → Prop
  | .values orderBy _ ratings => (∀ o ∈ orderBy, o.Legible ∧ o.key.placeholders = []) ∧
      ∀ conditions ∈ ratings, ∀ c ∈ conditions, c.Legible ∧ c.placeholders = []
  | _ => True

theorem plain_bucket (t : Thresholds) (stage : Nat) :
    (t.bucket stage).Legible ∧ (t.bucket stage).placeholders = [] := by
  constructor
  · simp +decide [Thresholds.bucket, Thresholds.goodEnd, Thresholds.attentionEnd, Expr.tokens]
  · simp [Thresholds.bucket, Thresholds.goodEnd, Thresholds.attentionEnd]

theorem plain_condition (t : Thresholds) (stage : Nat) (bucket : RatingBucket) :
    (t.condition stage bucket).Legible ∧ (t.condition stage bucket).placeholders = [] := by
  cases bucket <;> constructor <;> simp [Thresholds.condition, Thresholds.goodEnd, Thresholds.attentionEnd]

theorem Plain.layers {shape : OutputShape} (h : shape.Plain) (stages : Nat) :
    ∀ l ∈ shape.layers stages, l.Plain := by
  have hstat := plain_statistics stages
  cases shape with
  | velocity => exact List.forall_mem_singleton.2 (Layers.plain_over (by decide) hstat)
  | trend =>
    refine List.forall_mem_singleton.2 (plain_grouped (by decide) ?_ (by decide) (by simp; decide))
    exact List.forall_mem_cons.2 ⟨⟨show NoColon "trend" by decide, rfl⟩, hstat⟩
  | stack =>
    refine List.forall_mem_singleton.2 (plain_grouped (by decide) ?_ (by decide) (by simp))
    exact List.forall_mem_cons.2 ⟨⟨show NoColon "stack" by decide, rfl⟩, hstat⟩
  | values orderBy page ratings =>
    obtain ⟨horder, hratings⟩ := h
    refine List.forall_mem_cons.2 ⟨plain_grouped (by decide) (by simp) (by simp) (by simpa using horder), fun l hl => ?_⟩
    obtain ⟨conditions, hc, rfl⟩ := List.mem_map.1 hl
    have hr := hratings conditions (Option.mem_toList.1 hc)
    have hl : (Expr.anyOf conditions).Legible := by simpa using fun c hc => (hr c hc).1
    have hp : (Expr.anyOf conditions).placeholders = [] := by
      simpa [List.flatMap_eq_nil_iff] using fun c hc => (hr c hc).2
    refine ⟨⟨by simp, show NoColon "histo" by decide, ?_, by simp, by simp⟩, by simp, ?_, by simp⟩
    · exact fun c hc => Option.some.inj hc ▸ hl
    · exact fun c hc => Option.some.inj hc ▸ hp
  | histogram stage stop buckets =>
    refine List.forall_mem_singleton.2 (plain_grouped (by decide) ?_ (by decide) (by simp; decide))
    simp +decide
  | rating stage thresholds =>
    obtain ⟨hl, hp⟩ := plain_bucket thresholds stage
    refine List.forall_mem_singleton.2 (plain_grouped (by decide) ?_ (by decide) (by simp))
    simp +decide [hl, hp]

theorem plain_countLayer : countLayer.Plain :=
  Layers.plain_over (by decide) (List.forall_mem_singleton.2 ⟨by simp +decide, by simp⟩)

section Tokens

variable {shape : OutputShape} (h : shape.Plain) (stages : Nat) {inner : List Token}
include h

theorem Plain.placeholders_body : placeholders (shape.body stages inner) = placeholders inner :=
  placeholders_stacked (h.layers stages) inner

theorem Plain.legible_body (hi : Legible inner) : Legible (shape.body stages inner) :=
  legible_stacked (fun l hl => (h.layers stages l hl).legible) hi

theorem Plain.placeholders_tokens : placeholders (shape.tokens stages inner) = placeholders inner := by
  simp only [tokens, View.of_append, h.placeholders_body]
  cases shape.page? <;> simp [Page.tokens]

theorem Plain.legible_tokens (hi : Legible inner) : Legible (shape.tokens stages inner) := by
  refine (h.legible_body stages hi).append ?_ ?_
  · cases hp : shape.page? with
    | none => exact .nil
    | some page =>
      have hpage : NoColon ("LIMIT " ++ toString page.limit ++ " OFFSET " ++ toString page.offset) := by
        simp only [noColon_append, Nat.toString_eq_repr, noColon_repr]
        decide
      exact .fixed (by decide) (.singleton (Or.inl hpage))
  · cases shape.page? <;> simp; decide

theorem Plain.placeholders_countTokens {tokens : List Token}
    (ht : tokens ∈ shape.countTokens stages inner) : placeholders tokens = placeholders inner := by
  obtain ⟨page, -, rfl⟩ := Option.map_eq_some_iff.1 ht
  rw [plain_countLayer.placeholders_tokens, h.placeholders_body]

theorem Plain.legible_countTokens (hi : Legible inner) {tokens : List Token}
    (ht : tokens ∈ shape.countTokens stages inner) : Legible tokens := by
  obtain ⟨page, -, rfl⟩ := Option.map_eq_some_iff.1 ht
  exact plain_countLayer.legible.tokens (h.legible_body stages hi)

end Tokens

end OutputShape

theorem ListingOrder.plain_ofQuery (q : Query) (p : Pipeline) :
    ∀ o ∈ (ofQuery q p).terms, o.Legible ∧ o.key.placeholders = [] := by
  have hvalue (column : String) (hc : NoColon column) (order : SortOrder) :
      (byValue column order).Legible ∧ (byValue column order).key.placeholders = [] := by
    refine ⟨⟨hc, ?_⟩, rfl⟩
    cases order <;> simp [byValue, SortOrder.keyword] <;> decide
  have htotal (order : SortOrder) : ∀ o ∈ byTotal order, o.Legible ∧ o.key.placeholders = [] := by
    intro o ho
    rcases List.mem_pair.1 ho with rfl | rfl
    · exact hvalue "t" (by decide) order
    · exact ⟨⟨show NoColon "u_id" by decide, by simp [SortOrder.keyword]; decide⟩, rfl⟩
  intro o ho
  simp only [ofQuery] at ho
  split at ho
  · exact htotal _ o ho
  · obtain ⟨part, hp, ho⟩ := List.mem_flatMap.1 ho
    obtain ⟨key, -, rfl⟩ := List.mem_map.1 hp
    simp only [ofKey] at ho
    split at ho
    · rw [List.mem_singleton.1 ho]
      exact hvalue _ (noColon_durationColumn _) _
    · split at ho
      · exact htotal _ o ho
      · simp at ho

theorem Query.plain_ratingConditions {q : Query} {p : Pipeline} {conditions : List Expr}
    (h : q.ratingConditions p = .ok conditions) : ∀ c ∈ conditions, c.Legible ∧ c.placeholders = [] := by
  simp only [ratingConditions, Except.bind_eq_ok] at h
  obtain ⟨stages, -, lists, hl, h⟩ := h
  cases h
  intro c hc
  obtain ⟨list, hm, hc⟩ := List.mem_flatten.1 hc
  obtain ⟨⟨stage, index⟩, -, ht⟩ := mem_of_mapM_eq_ok hl list hm
  obtain ⟨t, -, rfl⟩ := Except.map_eq_ok.1 ht
  obtain ⟨bucket, -, rfl⟩ := List.mem_map.1 hc
  exact OutputShape.plain_condition t index bucket

theorem Query.plain_shape {q : Query} {p : Pipeline} {size : UInt64} {shape : OutputShape}
    (h : q.shape p size = .ok shape) : shape.Plain := by
  unfold Query.shape at h
  split at h
  case h_4 =>
    obtain ⟨page, -, h⟩ := Except.bind_eq_ok.1 h
    have horder := ListingOrder.plain_ofQuery q p
    split at h <;> obtain ⟨ratings, hr, h⟩ := Except.bind_eq_ok.1 h <;> cases h
    · cases hr
      exact ⟨horder, by simp⟩
    · obtain ⟨conditions, hq, rfl⟩ := Except.map_eq_ok.1 hr
      exact ⟨horder, fun c hc => Option.some.inj hc ▸ plain_ratingConditions hq⟩
  case h_5 =>
    split at h
    · cases h
    · simp only [Except.bind_eq_ok] at h
      obtain ⟨⟨stage, index⟩, -, _, -, h⟩ := h
      cases h
      trivial
  case h_6 =>
    simp only [Except.bind_eq_ok] at h
    obtain ⟨⟨stage, index⟩, -, _, -, h⟩ := h
    cases h
    trivial
  all_goals
    cases h
    trivial

end LeadTime

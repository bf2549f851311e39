import LeadTime.Proofs.Pipeline
import LeadTime.Proofs.Rejection.Mode
import Mathlib

/-! The outer shape that a query takes, read back: which stage it is about, which conditions a listing is restricted by,
and what the terms of its order are. -/
namespace LeadTime

open Sql

theorem Pipeline.requireStage_eq_ok {p : Pipeline} {name : String} {indexed : Stage × Nat} :
    p.requireStage name = .ok indexed ↔ p.stage? name = some indexed := by
  unfold requireStage
  cases p.stage? name <;> simp

theorem Pipeline.stage?_eq_some {p : Pipeline} {name : String} {stage : Stage} {index : Nat}
    (h : p.stage? name = some (stage, index)) :
    p.stages[index]? = some stage ∧ stage.name = name ∧
      ∀ i < index, ∀ earlier, p.stages[i]? = some earlier → earlier.name ≠ name := by
  obtain ⟨hname, before, after, happ, hbefore⟩ := List.find?_eq_some_iff_append.1 h
  have hget : p.stages.zipIdx[before.length]? = some (stage, index) := by simp [happ]
  obtain ⟨hstage, hindex⟩ : p.stages[before.length]? = some stage ∧ before.length = index := by
    simpa [List.getElem?_zipIdx] using hget
  subst hindex
  refine ⟨hstage, by simpa using hname, fun i hi earlier hearlier => ?_⟩
  have hmem : (earlier, i) ∈ before := by
    have hat : p.stages.zipIdx[i]? = some (earlier, i) := by simp [List.getElem?_zipIdx, hearlier]
    rw [happ, List.getElem?_append_left hi] at hat
    exact List.mem_of_getElem? hat
  simpa using hbefore _ hmem

/-- What a map that succeeds made of each item, where a part of it alone may fail. -/
theorem exists_of_mapM_map_eq_ok {ε α β γ : Type} {f : α → Except ε β} {g : α → β → γ} {items : List α}
    {results : List γ} (h : items.mapM (fun a => (f a).map (g a)) = .ok results) :
    ∃ parts, List.Forall₂ (fun a b => f a = .ok b) items parts ∧
      results = (items.zip parts).map fun pair => g pair.1 pair.2 := by
  induction items generalizing results with
  | nil =>
    cases h
    exact ⟨[], .nil, rfl⟩
  | cons a rest ih =>
    simp only [List.mapM_cons, Except.bind_eq_ok, Except.map_eq_ok] at h
    obtain ⟨_, ⟨b, hb, rfl⟩, more, hmore, h⟩ := h
    obtain ⟨parts, hparts, rfl⟩ := ih hmore
    cases h
    exact ⟨b :: parts, .cons hb hparts, rfl⟩

namespace Query

variable {q : Query} {p : Pipeline}

inductive Shaped (q : Query) (p : Pipeline) : OutputShape → Prop
  | velocity (h : q.across = .velocity) : Shaped q p .velocity
  | trend (h : q.across = .trend) : Shaped q p .trend
  | stack (h : q.across = .stack) : Shaped q p .stack
  | listing (h : q.across = .values) (hratings : q.ratings = []) (page : Page) :
    Shaped q p (.values (ListingOrder.ofQuery q p).terms page none)
  | rated (h : q.across = .values) (hratings : q.ratings ≠ []) (page : Page) {conditions : List Expr}
    (hconditions : q.ratingConditions p = .ok conditions) :
    Shaped q p (.values (ListingOrder.ofQuery q p).terms page (some conditions))
  | histogram (h : q.across = .histogram) {name : String} {stage : Stage} {index stop : Nat}
    (hname : q.targetStage = some name) (hstage : p.stage? name = some (stage, index))
    (hstop : stage.histogramEnd = .ok stop) : Shaped q p (.histogram index stop q.buckets.toNat)
  | rating (h : q.across = .rating) {name : String} {stage : Stage} {index : Nat} {t : Thresholds}
    (hname : q.targetStage = some name) (hstage : p.stage? name = some (stage, index))
    (hthresholds : stage.thresholds q.thresholds = .ok t) : Shaped q p (.rating index t)

theorem requireTarget_eq_ok {indexed : Stage × Nat} (h : q.requireTarget p = .ok indexed) :
    ∃ name, q.targetStage = some name ∧ p.stage? name = some indexed := by
  unfold requireTarget at h
  cases hname : q.targetStage with
  | none => simp [hname] at h
  | some name => exact ⟨name, rfl, Pipeline.requireStage_eq_ok.1 (by simpa [hname] using h)⟩

theorem shaped_of_eq_ok {size : UInt64} {shape : OutputShape} (h : q.shape p size = .ok shape) : q.Shaped p shape := by
  unfold Query.shape at h
  split at h
  case h_1 hacross =>
    cases h
    exact .velocity hacross
  case h_2 hacross =>
    cases h
    exact .trend hacross
  case h_3 hacross =>
    cases h
    exact .stack hacross
  case h_4 hacross =>
    obtain ⟨page, -, h⟩ := Except.bind_eq_ok.1 h
    by_cases hr : q.ratings = []
    · rw [hr] at h
      cases h
      exact .listing hacross hr page
    · rw [if_neg (by simpa using hr)] at h
      obtain ⟨ratings, hratings, h⟩ := Except.bind_eq_ok.1 h
      obtain ⟨conditions, hconditions, rfl⟩ := Except.map_eq_ok.1 hratings
      cases h
      exact .rated hacross hr page hconditions
  case h_5 hacross =>
    split at h
    · cases h
    · obtain ⟨⟨stage, index⟩, htarget, h⟩ := Except.bind_eq_ok.1 h
      obtain ⟨stop, hstop, h⟩ := Except.bind_eq_ok.1 h
      obtain ⟨name, hname, hstage⟩ := requireTarget_eq_ok htarget
      cases h
      exact .histogram hacross hname hstage hstop
  case h_6 hacross =>
    obtain ⟨⟨stage, index⟩, htarget, h⟩ := Except.bind_eq_ok.1 h
    obtain ⟨t, ht, h⟩ := Except.bind_eq_ok.1 h
    obtain ⟨name, hname, hstage⟩ := requireTarget_eq_ok htarget
    cases h
    exact .rating hacross hname hstage ht

theorem ratingConditions_eq_ok {conditions : List Expr} (h : q.ratingConditions p = .ok conditions) :
    ∃ rated ts, q.ratedStages p = .ok rated ∧
      List.Forall₂ (fun (indexed : Stage × Nat) t => indexed.1.thresholds q.thresholds = .ok t) rated ts ∧
      conditions = (rated.zip ts).flatMap fun pair => q.ratings.map (pair.2.condition pair.1.2) := by
  simp only [ratingConditions, Except.bind_eq_ok] at h
  obtain ⟨rated, hrated, lists, hlists, h⟩ := h
  cases h
  obtain ⟨ts, hts, rfl⟩ := exists_of_mapM_map_eq_ok
    (g := fun (indexed : Stage × Nat) (t : Thresholds) => q.ratings.map (t.condition indexed.2)) hlists
  exact ⟨rated, ts, hrated, hts, by rw [List.flatMap_def]⟩

theorem ratingConditions_of_name {name : String} {conditions : List Expr} (hname : q.targetStage = some name)
    (h : q.ratingConditions p = .ok conditions) :
    ∃ stage index t, p.stage? name = some (stage, index) ∧ stage.thresholds q.thresholds = .ok t ∧
      conditions = q.ratings.map (t.condition index) := by
  obtain ⟨rated, ts, hrated, hts, rfl⟩ := ratingConditions_eq_ok h
  simp only [ratedStages, hname, Except.map_eq_ok] at hrated
  obtain ⟨⟨stage, index⟩, hstage, rfl⟩ := hrated
  obtain ⟨t, rest, ht, hrest, rfl⟩ := List.forall₂_cons_left_iff.1 hts
  cases List.forall₂_nil_left_iff.1 hrest
  exact ⟨stage, index, t, Pipeline.requireStage_eq_ok.1 hstage, ht, by simp⟩

theorem ratedStages_eq_ok {rated : List (Stage × Nat)} (h : q.ratedStages p = .ok rated) :
    (∀ stage index, (stage, index) ∈ rated → p.stages[index]? = some stage) ∧ (p.stages ≠ [] → rated ≠ []) := by
  unfold ratedStages at h
  cases hname : q.targetStage with
  | none =>
    rw [hname] at h
    cases h
    exact ⟨fun stage index hm => List.mem_zipIdx_iff_getElem?.1 hm, by simp⟩
  | some name =>
    simp only [hname, Except.map_eq_ok] at h
    obtain ⟨⟨stage, index⟩, hstage, rfl⟩ := h
    refine ⟨fun stage' index' hm => ?_, by simp⟩
    cases List.mem_singleton.1 hm
    exact (Pipeline.stage?_eq_some (Pipeline.requireStage_eq_ok.1 hstage)).1

theorem exists_of_mem_ratingConditions {conditions : List Expr} (h : q.ratingConditions p = .ok conditions) :
    ∀ c ∈ conditions, ∃ (stage : Stage) (index : Nat) (t : Thresholds) (bucket : RatingBucket), p.stages[index]? = some stage ∧
      stage.thresholds q.thresholds = .ok t ∧ bucket ∈ q.ratings ∧ c = t.condition index bucket := by
  obtain ⟨rated, ts, hrated, hts, rfl⟩ := ratingConditions_eq_ok h
  intro c hc
  obtain ⟨⟨⟨stage, index⟩, t⟩, hpair, hc⟩ := List.mem_flatMap.1 hc
  obtain ⟨bucket, hb, rfl⟩ := List.mem_map.1 hc
  have ht := (List.forall₂_iff_zip.1 hts).2 hpair
  exact ⟨stage, index, t, bucket, (ratedStages_eq_ok hrated).1 stage index (List.of_mem_zip hpair).1, ht, hb, rfl⟩

theorem ratingConditions_ne_nil {conditions : List Expr} (h : q.ratingConditions p = .ok conditions)
    (hratings : q.ratings ≠ []) (hstages : p.stages ≠ []) : conditions ≠ [] := by
  obtain ⟨rated, ts, hrated, hts, rfl⟩ := ratingConditions_eq_ok h
  cases hts with
  | nil => exact absurd rfl ((ratedStages_eq_ok hrated).2 hstages)
  | cons _ _ => simp [hratings]

end Query

namespace ListingOrder

theorem cases_terms {q : Query} {p : Pipeline} {o : OrderTerm} (h : o ∈ (ofQuery q p).terms) :
    (∃ name stage index order, p.stage? name = some (stage, index) ∧ o = byValue (durationColumn index) order) ∨
      ∃ order, o ∈ byTotal order := by
  simp only [ofQuery] at h
  split at h
  · exact .inr ⟨_, h⟩
  · obtain ⟨part, hp, ho⟩ := List.mem_flatMap.1 h
    obtain ⟨⟨name, order⟩, -, rfl⟩ := List.mem_map.1 hp
    unfold ofKey at ho
    cases hstage : p.stageIndex? name with
    | some index =>
      obtain ⟨⟨stage, place⟩, hfound, rfl⟩ := Option.map_eq_some_iff.1 hstage
      simp only [hstage, List.mem_singleton] at ho
      exact .inl ⟨name, stage, place, order, hfound, ho⟩
    | none =>
      simp only [hstage] at ho
      split at ho
      · exact .inr ⟨order, ho⟩
      · cases ho

end ListingOrder
end LeadTime

import LeadTime.Proofs.Pages
import LeadTime.Proofs.RatingBuckets
import LeadTime.Proofs.Sql.Ordering
import Mathlib

/-! The order of a listing. It always breaks ties of the total by the anchor's id, but leaves ties of a stage's time as they
are; so a listing that is ordered by stages alone has no order of its own among rows that tie, and its pages need not fit
together. -/
namespace LeadTime

open Sql

def ListingOrder.byId : OrderTerm := ⟨.name "u_id", some SortOrder.desc.keyword, false⟩

/-- If a sort key names a stage, another one stands for the total. -/
def Query.BreaksTies (q : Query) (p : Pipeline) : Prop :=
  (∃ key ∈ q.sort.keys, p.stage? key ≠ none) → ∃ key ∈ q.sort.keys, p.stage? key = none ∧ key ∈ ListingOrder.totalKeys

namespace ListingOrder

variable {q : Query} {p : Pipeline} {key : String × SortOrder}

def asked (q : Query) (p : Pipeline) : List OrderTerm := q.sort.entries.flatMap fun key => (ofKey p key).terms

theorem terms_ofQuery (q : Query) (p : Pipeline) :
    (ofQuery q p).terms = if asked q p = [] then byTotal .desc else asked q p := by
  simp only [ofQuery, List.flatMap_map, List.isEmpty_iff]
  rfl

theorem terms_ofKey_of_stage {stage : Stage} {index : ℕ} (h : p.stage? key.1 = some (stage, index)) :
    (ofKey p key).terms = [byValue (durationColumn index) key.2] := by
  simp [ofKey, Pipeline.stageIndex?, h]

theorem terms_ofKey_of_none (h : p.stage? key.1 = none) :
    (ofKey p key).terms = if key.1 ∈ totalKeys then byTotal key.2 else [] := by
  simp only [ofKey, Pipeline.stageIndex?, h, Option.map_none]
  split <;> rfl

theorem byId_mem_byTotal (order : SortOrder) : byId ∈ byTotal order := List.mem_cons_of_mem _ (List.mem_singleton.2 rfl)

theorem byValue_ne_byId (column : String) (order : SortOrder) : byValue column order ≠ byId := by
  simp [byValue, byId]

theorem byId_mem_terms_ofKey_iff : byId ∈ (ofKey p key).terms ↔ p.stage? key.1 = none ∧ key.1 ∈ totalKeys := by
  cases h : p.stage? key.1 with
  | some found =>
    obtain ⟨stage, index⟩ := found
    simp [terms_ofKey_of_stage h, (byValue_ne_byId _ _).symm]
  | none =>
    rw [terms_ofKey_of_none h]
    split <;> simp_all [byId_mem_byTotal]

theorem terms_ofKey_eq_nil_iff : (ofKey p key).terms = [] ↔ p.stage? key.1 = none ∧ key.1 ∉ totalKeys := by
  cases h : p.stage? key.1 with
  | some found =>
    obtain ⟨stage, index⟩ := found
    simp [terms_ofKey_of_stage h]
  | none =>
    rw [terms_ofKey_of_none h]
    split <;> simp_all [byTotal]

theorem terms_ne_nil : (ofQuery q p).terms ≠ [] := by
  rw [terms_ofQuery]
  split
  · exact List.cons_ne_nil _ _
  · assumption

/-- The anchor's id is among the terms unless stages are asked for, and the total is not. -/
theorem byId_mem_terms_iff : byId ∈ (ofQuery q p).terms ↔ q.BreaksTies p := by
  have hid : byId ∈ asked q p ↔ ∃ key ∈ q.sort.keys, p.stage? key = none ∧ key ∈ totalKeys := by
    simp only [asked, List.mem_flatMap, byId_mem_terms_ofKey_iff, KeyMap.keys, List.mem_map,
      exists_exists_and_eq_and]
  have hnone : asked q p = [] ↔ ∀ key ∈ q.sort.keys, p.stage? key = none ∧ key ∉ totalKeys := by
    simp only [asked, List.flatMap_eq_nil_iff, terms_ofKey_eq_nil_iff, KeyMap.keys, List.forall_mem_map]
  rw [terms_ofQuery, Query.BreaksTies]
  split
  · rename_i hempty
    refine iff_of_true (byId_mem_byTotal _) ?_
    rintro ⟨key, hkey, hstage⟩
    exact absurd (hnone.1 hempty key hkey).1 hstage
  · rename_i hasked
    rw [hid]
    refine ⟨fun h _ => h, fun h => ?_⟩
    by_contra hno
    refine hasked (hnone.2 fun key hkey => ?_)
    have hstage : p.stage? key = none := by
      by_contra hstage
      exact hno (h ⟨key, hkey, hstage⟩)
    exact ⟨hstage, fun htotal => hno ⟨key, hkey, hstage, htotal⟩⟩

theorem cases_columns {o : OrderTerm} (h : o ∈ (ofQuery q p).terms) :
    (∃ stage < p.stages.length, ∃ order, o = byValue (durationColumn stage) order) ∨
      (∃ order, o = byValue "t" order) ∨ o = byId := by
  rcases cases_terms h with ⟨name, stage, index, order, hstage, rfl⟩ | ⟨order, ho⟩
  · have hget := (Pipeline.stage?_eq_some hstage).1
    exact .inl ⟨index, (List.getElem?_eq_some_iff.1 hget).1, order, rfl⟩
  · rcases List.mem_pair.1 ho with rfl | rfl
    · exact .inr (.inl ⟨order, rfl⟩)
    · exact .inr (.inr rfl)

end ListingOrder

namespace Stage.Anchored

variable {l : Layers} {f : Formula} (a : Anchored)

theorem get?_report_id : (a.report l f).get? "u_id" = some (a.groups "u_id") := by
  have hid : "u_id" ∈ l.anchor.identityColumns := by
    unfold Anchor.identityColumns Anchor.identity
    split <;> simp
  refine Row.get?_eq_some (Layers.nodup_reportRow _ _ _ _) (List.mem_append_left _ (List.mem_append_left _ ?_))
  exact List.mem_map_of_mem (f := fun column => (column, a.groups column))
    (List.mem_append_left _ (List.mem_append_left _ hid))

theorem get?_report_total :
    (a.report l f).get? "t" = some (.number (totalSeconds a.start a.times l.stages.length)) :=
  Row.get?_eq_some (Layers.nodup_reportRow _ _ _ _) (List.mem_append_right _ (List.mem_singleton.2 rfl))

/-- The anchors have different ids, of one type. -/
structure Apart (a b : Anchored) : Prop where
  alike : (a.groups "u_id").Alike (b.groups "u_id")
  ne : a.groups "u_id" ≠ b.groups "u_id"

instance : Std.Symm Apart := ⟨fun _ _ h => ⟨h.alike.symm, h.ne.symm⟩⟩

end Stage.Anchored

open Stage (Anchored)

section Rows

variable {q : Query} {p : Pipeline} {l : Layers} {f : Formula}

theorem ListingOrder.denotes_byId (a : Anchored) : byId.key.Denotes (a.report l f) (a.groups "u_id") :=
  .name a.get?_report_id

theorem ListingOrder.denotes_times (hl : l.stages.length = p.stages.length) {o : OrderTerm} (ho : o ∈ (ofQuery q p).terms)
    (hid : o ≠ byId) : ∃ seconds : ℚ → (ℕ → Option ℚ) → Option ℚ,
      ∀ a : Anchored, o.key.Denotes (a.report l f) (.ofNumber (seconds a.start a.times)) := by
  rcases cases_columns ho with ⟨stage, hstage, order, rfl⟩ | ⟨order, rfl⟩ | rfl
  · exact ⟨fun start times => f.reported (seconds start times stage), fun a => .name (a.get?_report f (hl ▸ hstage))⟩
  · exact ⟨fun start times => some (totalSeconds start times l.stages.length), fun a => .name a.get?_report_total⟩
  · exact absurd rfl hid

theorem ListingOrder.comparable (hl : l.stages.length = p.stages.length) {a b : Anchored}
    (h : (a.groups "u_id").Alike (b.groups "u_id")) : Comparable (ofQuery q p).terms (a.report l f) (b.report l f) := by
  intro o ho
  by_cases hid : o = byId
  · subst hid
    exact ⟨_, _, denotes_byId a, denotes_byId b, h⟩
  · obtain ⟨seconds, hseconds⟩ := denotes_times hl ho hid
    exact ⟨_, _, hseconds a, hseconds b, Value.alike_ofNumber _ _⟩

theorem ListingOrder.total_of_breaksTies (hl : l.stages.length = p.stages.length) (h : q.BreaksTies p) {a b : Anchored}
    (hab : a.Apart b) : Precedes (ofQuery q p).terms (a.report l f) (b.report l f) ∨
      Precedes (ofQuery q p).terms (b.report l f) (a.report l f) := by
  rcases (comparable hl hab.alike).total with hpre | hpre | hties
  · exact .inl hpre
  · exact .inr hpre
  · obtain ⟨v, ha, hb⟩ := hties byId (byId_mem_terms_iff.2 h)
    exact absurd (((denotes_byId a).iff_eq.1 ha).trans ((denotes_byId b).iff_eq.1 hb).symm) hab.ne

theorem ListingOrder.ties_of_not_breaksTies (hl : l.stages.length = p.stages.length) (h : ¬ q.BreaksTies p)
    {a b : Anchored} (hstart : a.start = b.start) (htimes : a.times = b.times) :
    Ties (ofQuery q p).terms (a.report l f) (b.report l f) := by
  intro o ho
  have hid : o ≠ byId := by
    rintro rfl
    exact h (byId_mem_terms_iff.1 ho)
  obtain ⟨seconds, hseconds⟩ := denotes_times hl ho hid
  exact ⟨_, hseconds a, hstart ▸ htimes ▸ hseconds b⟩

/-- The pages of a listing, each out of a run of its own. -/
def pagesOf (runs : ℕ → List Row) (size count : ℕ) : List Row :=
  (List.range count).flatMap fun number => (⟨size, number * size⟩ : Page).rows (runs number)

/-- A run of the listing of these anchors: their rows in an order that the terms allow. -/
structure Query.Lists (q : Query) (p : Pipeline) (l : Layers) (f : Formula) (anchors : List Anchored) (run : List Row) :
    Prop where
  perm : run.Perm (anchors.map (·.report l f))
  arranged : Arranged (ListingOrder.ofQuery q p).terms run

theorem Query.Lists.eq_of_breaksTies (hl : l.stages.length = p.stages.length) (hbreaks : q.BreaksTies p)
    {anchors : List Anchored} (hapart : anchors.Pairwise Anchored.Apart) {run run' : List Row} (h : q.Lists p l f anchors run)
    (h' : q.Lists p l f anchors run') : run = run' := by
  refine h.arranged.eq h'.arranged (h.perm.trans h'.perm.symm) fun x hx y hy => ?_
  obtain ⟨a, ha, rfl⟩ := List.mem_map.1 (h.perm.mem_iff.1 hx)
  obtain ⟨b, hb, rfl⟩ := List.mem_map.1 (h.perm.mem_iff.1 hy)
  by_cases hab : a = b
  · exact .inl (by rw [hab])
  · exact .inr (ListingOrder.total_of_breaksTies hl hbreaks (hapart.forall ha hb hab))

theorem pagesOf_const {run : List Row} {size count : ℕ} (h : run.length ≤ count * size) :
    pagesOf (fun _ => run) size count = run := by
  rw [pagesOf, Page.flatMap_rows, List.take_of_length_le h]

def twins (id : ℚ) : Anchored := ⟨0, fun _ => none, fun _ => .number id⟩

def takingTurns (first second : Row) (number : ℕ) : List Row :=
  if number = 0 then [first, second] else [second, first]

theorem pagesOf_takingTurns (first second : Row) : pagesOf (takingTurns first second) 1 2 = [first, first] := rfl

theorem apart_twins : (twins 1).Apart (twins 2) := ⟨trivial, by simp [twins]⟩

theorem ListingOrder.ties_twins (hl : l.stages.length = p.stages.length) (h : ¬ q.BreaksTies p) (a b : ℚ) :
    Ties (ofQuery q p).terms ((twins a).report l f) ((twins b).report l f) :=
  ties_of_not_breaksTies hl h (a := twins a) (b := twins b) rfl rfl

theorem ListingOrder.lists_takingTurns (hl : l.stages.length = p.stages.length) (h : ¬ q.BreaksTies p) (number : ℕ) :
    q.Lists p l f [twins 1, twins 2] (takingTurns ((twins 1).report l f) ((twins 2).report l f) number) := by
  unfold takingTurns
  split
  · exact ⟨List.Perm.refl _, List.pairwise_pair.2 (ties_twins hl h 2 1).not_precedes⟩
  · exact ⟨List.Perm.swap _ _ _, List.pairwise_pair.2 (ties_twins hl h 1 2).not_precedes⟩

theorem report_twins_ne : (twins 1).report l f ≠ (twins 2).report l f := by
  intro he
  have hid := congrArg (Row.get? · "u_id") he
  simp only [Anchored.get?_report_id] at hid
  exact apart_twins.ne (Option.some.inj hid)

/-- The order of a listing, and what becomes of its pages. -/
structure Query.OrdersListing (q : Query) (p : Pipeline) (l : Layers) (f : Formula) : Prop where
  nonempty : (ListingOrder.ofQuery q p).terms ≠ []
  columns : ∀ o ∈ (ListingOrder.ofQuery q p).terms,
    (∃ stage < p.stages.length, ∃ order, o = ListingOrder.byValue (durationColumn stage) order) ∨
      (∃ order, o = ListingOrder.byValue "t" order) ∨ o = ListingOrder.byId
  /-- Every term has a value in every row. -/
  present : ∀ o ∈ (ListingOrder.ofQuery q p).terms, ∀ a : Anchored, ∃ v, o.key.Denotes (a.report l f) v
  asymmetric : ∀ a b : Row, Precedes (ListingOrder.ofQuery q p).terms a b → ¬ Precedes (ListingOrder.ofQuery q p).terms b a
  /-- Anchors can be listed. -/
  lists : ∀ anchors : List Anchored, (∀ a ∈ anchors, ∀ b ∈ anchors, (a.groups "u_id").Alike (b.groups "u_id")) →
    ∃ run, q.Lists p l f anchors run
  /-- Of two anchors one comes before the other, whatever their times, only where ties are broken. -/
  total_iff : (∀ a b : Anchored, a.Apart b → Precedes (ListingOrder.ofQuery q p).terms (a.report l f) (b.report l f) ∨
    Precedes (ListingOrder.ofQuery q p).terms (b.report l f) (a.report l f)) ↔ q.BreaksTies p
  /-- Pages from one run each show every row once, whatever the runs, only where ties are broken. -/
  pages_iff : (∀ (anchors : List Anchored) (runs : ℕ → List Row) (size count : ℕ), anchors.Pairwise Anchored.Apart →
    (∀ number, q.Lists p l f anchors (runs number)) → anchors.length ≤ count * size →
    (pagesOf runs size count).Perm (anchors.map (·.report l f))) ↔ q.BreaksTies p

/-- The terms of a listing put any two anchors in an order, and so its pages fit together, exactly where some key stands for
the total or none names a stage. Otherwise anchors that took the same time for each stage that is asked for tie, whatever
their ids. -/
theorem Query.ordersListing (q : Query) {p : Pipeline} {l : Layers} (hl : l.stages.length = p.stages.length) (f : Formula) :
    q.OrdersListing p l f where
  nonempty := ListingOrder.terms_ne_nil
  columns _ := ListingOrder.cases_columns
  present o ho a := by
    obtain ⟨v, -, hv, -⟩ := ListingOrder.comparable (a := a) hl (Value.alike_self _) o ho
    exact ⟨v, hv⟩
  asymmetric _ _ h := h.asymm
  lists anchors h := by
    obtain ⟨run, hperm, harranged⟩ := exists_arranged (anchors.map (·.report l f)) fun x hx y hy => by
      obtain ⟨a, ha, rfl⟩ := List.mem_map.1 hx
      obtain ⟨b, hb, rfl⟩ := List.mem_map.1 hy
      exact ListingOrder.comparable (q := q) hl (h a ha b hb)
    exact ⟨run, hperm, harranged⟩
  total_iff := by
    refine ⟨fun h => ?_, fun h a b hab => ListingOrder.total_of_breaksTies hl h hab⟩
    by_contra hno
    exact (h _ _ apart_twins).elim (ListingOrder.ties_twins hl hno 1 2).not_precedes
      (ListingOrder.ties_twins hl hno 2 1).not_precedes
  pages_iff := by
    refine ⟨fun h => ?_, fun h anchors runs size count hapart hruns hcount => ?_⟩
    · by_contra hno
      have hperm := h [twins 1, twins 2] _ 1 2 (List.pairwise_pair.2 apart_twins)
        (ListingOrder.lists_takingTurns hl hno) (le_refl 2)
      have hmem : (twins 2).report l f ∈ [(twins 1).report l f, (twins 1).report l f] := hperm.mem_iff.2 (by simp)
      exact report_twins_ne (by simpa [eq_comm] using hmem)
    · have hsame : runs = fun _ => runs 0 :=
        funext fun number => (hruns number).eq_of_breaksTies hl h hapart (hruns 0)
      have hlength : (runs 0).length ≤ count * size := by
        rw [(hruns 0).perm.length_eq, List.length_map]
        exact hcount
      rw [hsame, pagesOf_const hlength]
      exact (hruns 0).perm

end Rows

section Merges

def Layers.oneMerge : Layers := { Layers.merges with stages := [⟨.column "pr" "pr_merged_at", .max⟩] }

def Query.sorted (keys : List (String × SortOrder)) : Query :=
  { Query.standard with across := .values, sort := .ofList keys }

theorem Query.breaksTies_total : (Query.sorted [("merge", .asc), ("total", .asc)]).BreaksTies Stage.merged :=
  fun _ => ⟨"total", by decide, by rfl, by decide⟩

theorem Query.not_breaksTies_merge : ¬ (Query.sorted [("merge", .asc)]).BreaksTies Stage.merged := by
  have hkeys : (Query.sorted [("merge", .asc)]).sort.keys = ["merge"] := by rfl
  have hstage : (Stage.merged.stage? "merge").isSome = true := by decide
  intro h
  rw [BreaksTies, hkeys] at h
  obtain ⟨key, hkey, hnone, -⟩ := h ⟨"merge", List.mem_singleton_self _, Option.isSome_iff_ne_none.1 hstage⟩
  cases List.mem_singleton.1 hkey
  exact Option.isSome_iff_ne_none.1 hstage hnone

/-- With the total asked for besides, every page shows anchors that the others do not. -/
theorem Query.ordersListing_total : Layers.oneMerge.stages.length = Stage.merged.stages.length ∧
    ∃ run, (Query.sorted [("merge", .asc), ("total", .asc)]).Lists Stage.merged .oneMerge .nullPreserving [twins 1, twins 2] run ∧
      (pagesOf (fun _ => run) 1 2).Perm [(twins 1).report .oneMerge .nullPreserving, (twins 2).report .oneMerge .nullPreserving] := by
  have hlength : Layers.oneMerge.stages.length = Stage.merged.stages.length := rfl
  have horders := (Query.sorted [("merge", .asc), ("total", .asc)]).ordersListing hlength .nullPreserving
  obtain ⟨run, hrun⟩ := horders.lists [twins 1, twins 2] (by simp [twins, Value.Alike])
  exact ⟨hlength, run, hrun, horders.pages_iff.2 breaksTies_total [twins 1, twins 2] (fun _ => run) 1 2
    (List.pairwise_pair.2 apart_twins) (fun _ => hrun) (le_refl 2)⟩

/-- In the order of a stage alone neither of two rows with different ids comes first; one may be on both of two pages, and
the other on none. -/
theorem Query.pages_repeat_merge :
    let q := Query.sorted [("merge", .asc)]
    let first := (twins 1).report .oneMerge .nullPreserving
    let second := (twins 2).report .oneMerge .nullPreserving
    (twins 1).Apart (twins 2) ∧
      ¬ (Precedes (ListingOrder.ofQuery q Stage.merged).terms first second ∨
        Precedes (ListingOrder.ofQuery q Stage.merged).terms second first) ∧
      (∀ number, q.Lists Stage.merged .oneMerge .nullPreserving [twins 1, twins 2] (takingTurns first second number)) ∧
      pagesOf (takingTurns first second) 1 2 = [first, first] ∧ first ≠ second := by
  intro q first second
  have hlength : Layers.oneMerge.stages.length = Stage.merged.stages.length := rfl
  have hties (a b : ℚ) : ¬ Precedes (ListingOrder.ofQuery q Stage.merged).terms
      ((twins a).report .oneMerge .nullPreserving) ((twins b).report .oneMerge .nullPreserving) :=
    (ListingOrder.ties_twins hlength not_breaksTies_merge a b).not_precedes
  exact ⟨apart_twins, not_or.2 ⟨hties 1 2, hties 2 1⟩,
    ListingOrder.lists_takingTurns hlength not_breaksTies_merge, pagesOf_takingTurns _ _, report_twins_ne⟩

end Merges

end LeadTime

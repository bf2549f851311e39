import LeadTime.Proofs.Registry.Chain
import Mathlib

/-! The chain of a registry is closed: no line reads from a table that is named further on. A join is put in only
where what it reads from directly is there, and that ranks strictly before it, so that the order of the chain
keeps it before. -/
namespace LeadTime

open Sql

namespace Join

theorem ranksBefore_iff {a b : Join} :
    a.ranksBefore b = true ↔ a.rank.1 < b.rank.1 ∨ a.rank.1 = b.rank.1 ∧ a.rank.2 ≤ b.rank.2 := by
  simp [ranksBefore]

theorem ranksBefore_trans (a b c : Join) (hab : a.ranksBefore b = true) (hbc : b.ranksBefore c = true) :
    a.ranksBefore c = true := by
  rw [ranksBefore_iff] at *
  omega

theorem ranksBefore_total (a b : Join) : (a.ranksBefore b || b.ranksBefore a) = true := by
  rw [Bool.or_eq_true, ranksBefore_iff, ranksBefore_iff]
  omega

/-- What a join reads from directly ranks strictly before it. -/
theorem ranksBefore_dependency {j d : Join} (h : j.dependency? = some d) : j.ranksBefore d = false := by
  have hr := rank_dependency_lt h
  rw [Bool.eq_false_iff, Ne, ranksBefore_iff]
  omega
end Join

namespace JoinContext

variable {context : JoinContext} {j : Join}

section Lines

attribute [local simp] table latestIngestion eventLink JoinLine.leftTable JoinLine.introduced? JoinLine.conditions
  JoinLine.tables JoinLine.SourceClosed Source.Closed Join.tableAlias ClosedLines

theorem closed_issueSelect (context : JoinContext) : context.issueSelect.Closed := by
  cases hf : context.freshness <;>
    simp [TableSelect.Closed, TableSelect.introduced, issueSelect, hf]
theorem sourceClosed_lines (context : JoinContext) (j : Join) : ∀ l ∈ context.lines j, l.SourceClosed := by
  cases j
  case commit =>
    simp only [lines, commitLines]
    split <;> simp
  case pullRequest =>
    simp only [lines, pullRequestLines]
    split <;> simp
  case issue =>
    simp only [lines, issueLines]
    split <;> simp [closed_issueSelect]
  case statusHistory =>
    simp only [lines, statusLines]
    split <;> simp
  all_goals simp [lines]

theorem closedLines_lines (hj : j ≠ context.anchor.join) {known : List String}
    (ha : context.anchor.tableAlias ∈ known)
    (hd : ∀ d, j.dependency? = some d → d.tableAlias ∈ known) : ClosedLines known (context.lines j) := by
  cases j <;> simp only [Join.dependency?, Option.some.injEq, forall_eq', reduceCtorEq, false_imp_iff,
    implies_true] at hd
  case commit =>
    simp only [lines, commitLines]
    cases hi : context.anchor.isIssue <;> simp_all [Anchor.tableAlias]
  case pullRequest =>
    have hi : context.anchor.isIssue = true := by
      by_contra hi
      simp [Anchor.join, hi] at hj
    simp only [lines, pullRequestLines]
    cases hc : context.prIssueCorrelation <;> simp_all [Anchor.tableAlias]
  case issue =>
    have hi : context.anchor.isIssue = false := by
      by_contra hi
      simp [Anchor.join, hi] at hj
    simp only [lines, issueLines]
    cases hc : context.prIssueCorrelation <;> simp_all [Anchor.tableAlias]
  case statusHistory =>
    simp only [lines, statusLines]
    split <;> simp_all
  all_goals simp_all [lines]

end Lines

end JoinContext

namespace Registry

variable {r s : Registry} {j d : Join} {req : JoinRequest} {reqs : List JoinRequest}

/-- The names that stand before a join: the anchor's, and those of held joins that rank strictly before it. -/
def below (r : Registry) (j : Join) : List String :=
  r.context.anchor.tableAlias ::
    (r.entries.filter fun e => !j.ranksBefore e.join).map fun e => e.join.tableAlias

theorem anchor_mem_below : r.context.anchor.tableAlias ∈ r.below j := List.mem_cons_self

theorem mem_below (hd : r.isJoined d = true) (hr : j.ranksBefore d = false) : d.tableAlias ∈ r.below j := by
  rcases isJoined_iff.1 hd with rfl | hd
  · rw [Anchor.tableAlias_join]
    exact anchor_mem_below
  · obtain ⟨e, he, rfl⟩ := holds_iff.1 hd
    exact List.mem_cons_of_mem _ (List.mem_map.2 ⟨e, List.mem_filter.2 ⟨he, by simp [hr]⟩, rfl⟩)

theorem below_subset_push (j : Join) (i : Join) (lines : List JoinLine) : r.below j ⊆ (r.push i lines).below j := by
  simp [below, push]

theorem below_addCondition (i : Join) (c : Expr) (j : Join) : (r.addCondition i c).below j = r.below j := by
  simp only [below, addCondition, List.filter_map, List.map_map]
  congr 1
  have hj : ∀ e : JoinEntry, (if e.join = i then { e with conditions := e.conditions ++ [c] } else e).join = e.join := by
    intro e
    split <;> rfl
  simp [Function.comp_def, hj]

/-- The registry is held together: it is formed, and its lines read only from what stands before their join. -/
structure Closed (r : Registry) : Prop extends r.Formed where
  sources : ∀ e ∈ r.entries, ∀ l ∈ e.lines, l.SourceClosed
  conditions : ∀ e ∈ r.entries, ∀ c ∈ e.conditions, c.tables ⊆ [e.join.tableAlias]
  reads : ∀ e ∈ r.entries, ClosedLines (r.below e.join) e.lines

end Registry

structure Sql.JoinLine.Suits (r : Registry) (j : Join) (line : JoinLine) : Prop where
  introduced : line.introduced? = some j.tableAlias
  conditions : line.conditions ≠ []
  source : line.SourceClosed
  tables : ∀ name ∈ line.tables, name = j.tableAlias ∨ (∃ d, j.dependency? = some d ∧ name = d.tableAlias) ∨
    name ∈ r.below j

def JoinRequest.Closed (r : Registry) : JoinRequest → Prop
  | .held j => j.isSupplied = false
  | .supplied j line => j.isSupplied = true ∧ line.Suits r j
  | .condition j c => c.tables ⊆ [j.tableAlias]

theorem JoinRequest.Closed.proper {r : Registry} {req : JoinRequest} (h : req.Closed r) : req.Proper := by
  cases req with
  | held j => exact h
  | supplied j line => exact ⟨h.1, h.2.introduced, h.2.conditions⟩
  | condition j c => trivial

namespace Registry

variable {r s : Registry} {j d : Join} {req : JoinRequest} {reqs : List JoinRequest}

theorem closed_empty (context : JoinContext) : (empty context).Closed :=
  ⟨formed_empty context, by simp [empty], by simp [empty], by simp [empty]⟩

theorem Closed.push {lines : List JoinLine} (h : r.Closed) (hj : r.isJoined j = false)
    (hs : JoinEntry.Shaped r.context ⟨j, lines, []⟩) (hsources : ∀ l ∈ lines, l.SourceClosed)
    (hl : ClosedLines (r.below j) lines) : (r.push j lines).Closed where
  toFormed := h.toFormed.push hj hs
  sources e he := by
    rcases List.mem_append.1 he with he | he
    · exact h.sources e he
    · rw [List.mem_singleton.1 he]
      exact hsources
  conditions e he := by
    rcases List.mem_append.1 he with he | he
    · exact h.conditions e he
    · rw [List.mem_singleton.1 he]
      simp
  reads e he := by
    rcases List.mem_append.1 he with he | he
    · exact (h.reads e he).mono (below_subset_push _ _ _)
    · rw [List.mem_singleton.1 he]
      exact hl.mono (below_subset_push _ _ _)

theorem Closed.addCondition {c : Expr} (h : r.Closed) (hc : c.tables ⊆ [j.tableAlias]) :
    (r.addCondition j c).Closed where
  toFormed := h.toFormed.addCondition c
  sources e he := by
    obtain ⟨e, hm, rfl⟩ := List.mem_map.1 he
    split <;> exact h.sources e hm
  conditions e he := by
    obtain ⟨e, hm, rfl⟩ := List.mem_map.1 he
    split
    · rename_i hj
      intro d hd
      rcases List.mem_append.1 hd with hd | hd
      · exact h.conditions e hm d hd
      · rw [List.mem_singleton.1 hd, hj]
        exact hc
    · exact h.conditions e hm
  reads e he := by
    obtain ⟨e, hm, rfl⟩ := List.mem_map.1 he
    rw [below_addCondition]
    split <;> exact h.reads e hm

/-- What a join reads from directly stands before it once all that it needs is there. -/
theorem mem_below_of_dependency (hneeded : ∀ d ∈ needed r.context j, r.isJoined d = true)
    (hd : j.dependency? = some d) : d.tableAlias ∈ r.below j := by
  refine mem_below ?_ (Join.ranksBefore_dependency hd)
  rcases mem_needed_of_dependency r.context hd with rfl | hn
  · exact isJoined_anchor
  · exact hneeded d hn

theorem Closed.request (h : r.Closed) (hreq : req.Closed r) : (r.request req).Closed := by
  -- What a supplied line reads may stand anywhere below, so nothing that stands there may go.
  suffices key : (r.request req).Closed ∧ ∀ j, r.below j ⊆ (r.request req).below j from key.1
  refine request_induction (P := fun s => s.Closed ∧ ∀ j, r.below j ⊆ s.below j)
    ⟨h, fun _ => List.Subset.refl _⟩ ?_ ?_
  · rintro s j lines hc ⟨hs, hbelow⟩ hj hneeded hlines
    refine ⟨?_, fun i => List.Subset.trans (hbelow i) (below_subset_push _ _ _)⟩
    rw [← hc] at hneeded hlines
    have hshaped := shaped_of_putsIn hreq.proper hlines
    have hja : j ≠ s.context.anchor.join := ne_anchor_of_notJoined hj
    have hown : ClosedLines (s.below j) (s.context.lines j) :=
      JoinContext.closedLines_lines hja anchor_mem_below fun d hd => mem_below_of_dependency hneeded hd
    rcases hlines with ⟨hn, rfl⟩ | ⟨rfl, rfl⟩ | ⟨line, rfl, rfl⟩
    · exact hs.push hj hshaped (JoinContext.sourceClosed_lines _ _) hown
    · exact hs.push hj hshaped (JoinContext.sourceClosed_lines _ _) hown
    · obtain ⟨-, suits⟩ := hreq
      refine hs.push hj hshaped (by simpa using suits.source) ⟨fun name hn => ?_, trivial⟩
      rw [suits.introduced, Option.toList_some, List.singleton_append, List.mem_cons]
      rcases suits.tables name hn with rfl | ⟨d, hd, rfl⟩ | hb
      · exact Or.inl rfl
      · exact Or.inr (mem_below_of_dependency hneeded hd)
      · exact Or.inr (hbelow j hb)
  · rintro i c rfl
    exact ⟨h.addCondition hreq, fun j => by rw [below_addCondition]; exact List.Subset.refl _⟩

/-- Each request keeps the registry closed that those before it left. -/
def CloseAll (r : Registry) : List JoinRequest → Prop
  | [] => True
  | req :: rest => req.Closed r ∧ CloseAll (r.request req) rest

theorem closeAll_append {more : List JoinRequest} (h : r.CloseAll reqs) (hm : (r.requestAll reqs).CloseAll more) :
    r.CloseAll (reqs ++ more) := by
  induction reqs generalizing r with
  | nil => exact hm
  | cons req rest ih => exact ⟨h.1, ih h.2 hm⟩

theorem proper_of_closeAll (h : r.CloseAll reqs) : ∀ req ∈ reqs, req.Proper := by
  induction reqs generalizing r with
  | nil => simp
  | cons req rest ih => exact List.forall_mem_cons.2 ⟨h.1.proper, ih h.2⟩

theorem Closed.requestAll (h : r.Closed) (hreqs : r.CloseAll reqs) : (r.requestAll reqs).Closed := by
  induction reqs generalizing r with
  | nil => exact h
  | cons req rest ih => exact ih (h.request hreqs.1) hreqs.2

theorem pairwise_ordered (r : Registry) : r.ordered.Pairwise fun a b => a.join.ranksBefore b.join = true :=
  List.pairwise_mergeSort (fun a b c => Join.ranksBefore_trans a.join b.join c.join)
    (fun a b => Join.ranksBefore_total a.join b.join) r.entries

/-- Entries in the order of their joins are closed, where each reads only from names that are known and from joins
that rank strictly before it: of these, none comes later. -/
theorem closedLines_of_pairwise {known : List String} {entries : List JoinEntry}
    (hp : entries.Pairwise fun a b => a.join.ranksBefore b.join = true)
    (hentry : ∀ e ∈ entries, e.join.tableAlias ∈ Sql.aliases e.written)
    (h : ∀ e ∈ entries, ClosedLines
      (((entries.filter fun d => !e.join.ranksBefore d.join).map fun d => d.join.tableAlias) ++ known) e.written) :
    ClosedLines known (entries.flatMap JoinEntry.written) := by
  induction entries generalizing known with
  | nil => trivial
  | cons e rest ih =>
    rw [List.pairwise_cons] at hp
    rw [List.forall_mem_cons] at hentry h
    have hself : e.join.ranksBefore e.join = true := by simpa using Join.ranksBefore_total e.join e.join
    have hfirst : ((e :: rest).filter fun d => !e.join.ranksBefore d.join) = [] := by
      rw [List.filter_eq_nil_iff]
      rintro d (_ | ⟨_, hd⟩)
      · simp [hself]
      · simp [hp.1 d hd]
    rw [hfirst] at h
    refine ClosedLines.append (by simpa using h.1) (ih hp.2 hentry.2 fun d hd => (h.2 d hd).mono ?_)
    intro name hn
    simp only [List.filter_cons, List.mem_append] at hn ⊢
    rcases hn with hn | hn
    · split at hn
      · rcases List.mem_cons.1 hn with rfl | hn
        · exact Or.inr (Or.inl hentry.1)
        · exact Or.inl hn
      · exact Or.inl hn
    · exact Or.inr (Or.inr hn)

theorem Closed.closedLines (h : r.Closed) : ClosedLines [r.context.anchor.tableAlias] r.lines := by
  refine closedLines_of_pairwise r.pairwise_ordered (fun e he => ?_) fun e he => ?_
  · have hs := h.shaped e (mem_ordered.1 he)
    rw [JoinEntry.written, aliases_extendLast, hs.aliases]
    exact List.mem_append_right _ (List.mem_singleton_self _)
  · have he := mem_ordered.1 he
    have hw : ClosedLines (r.below e.join) e.written :=
      (h.reads e he).extendLast (h.shaped e he).last (h.conditions e he)
    refine hw.mono fun name hn => ?_
    rcases List.mem_cons.1 hn with rfl | hn
    · exact List.mem_append_right _ (List.mem_singleton_self _)
    · obtain ⟨d, hd, rfl⟩ := List.mem_map.1 hn
      obtain ⟨hd, hr⟩ := List.mem_filter.1 hd
      exact List.mem_append_left _ (List.mem_map.2 ⟨d, List.mem_filter.2 ⟨mem_ordered.2 hd, hr⟩, rfl⟩)

theorem Closed.sourceClosed (h : r.Closed) : ∀ l ∈ r.lines, l.SourceClosed := by
  intro l hl
  obtain ⟨e, he, hl⟩ := List.mem_flatMap.1 hl
  exact sourceClosed_extendLast (h.sources e (mem_ordered.1 he)) _ l hl

end Registry
end LeadTime

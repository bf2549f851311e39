import LeadTime.Proofs.Sql.Leaves
import Mathlib

/-! Names of tables and where they are given. The lines of a FROM chain are closed when each condition reads only from
tables that its own line or an earlier one names; a select in brackets is closed when it names all that it
reads from. -/
namespace LeadTime.Sql

namespace JoinLine

def tables (l : JoinLine) : List String := l.conditions.flatMap Expr.tables

def extend : JoinLine → List Expr → JoinLine
  | .join side source as on, conditions => .join side source as (on ++ conditions)
  | .verbatim text, _ => .verbatim text

@[simp] theorem introduced?_extend (l : JoinLine) (conditions : List Expr) :
    (l.extend conditions).introduced? = l.introduced? := by cases l <;> rfl

theorem tables_extend_subset (l : JoinLine) (conditions : List Expr) :
    (l.extend conditions).tables ⊆ l.tables ++ conditions.flatMap Expr.tables := by
  cases l with
  | join => simp [extend, tables, JoinLine.conditions]
  | verbatim => simp [extend, tables, JoinLine.conditions]

theorem tokens_extend {l : JoinLine} (h : l.conditions ≠ []) (conditions : List Expr) :
    (l.extend conditions).tokens = l.tokens ++ conditions.flatMap fun c => .fixed " AND " :: c.tokens := by
  cases l with
  | verbatim text => exact absurd rfl h
  | join side source as on =>
    have hon : separated " AND " ((on ++ conditions).map Expr.tokens) =
        separated " AND " (on.map Expr.tokens) ++ conditions.flatMap fun c => .fixed " AND " :: c.tokens := by
      induction on with
      | nil => exact absurd rfl h
      | cons e rest ih =>
        cases rest with
        | cons next rest =>
          have ih := ih (by simp [JoinLine.conditions])
          simp only [List.cons_append, List.map_cons, separated] at ih ⊢
          rw [ih]
          simp
        | nil =>
          clear ih h
          induction conditions generalizing e with
          | nil => simp [separated]
          | cons c rest ih => simpa [separated] using ih c
    rw [extend, tokens, onAll, hon]
    simp [tokens, onAll]

theorem extend_nil (l : JoinLine) : l.extend [] = l := by cases l <;> simp [extend]

end JoinLine

def aliases (lines : List JoinLine) : List String := lines.filterMap JoinLine.introduced?

@[simp] theorem aliases_nil : aliases [] = [] := rfl

theorem aliases_cons (l : JoinLine) (rest : List JoinLine) :
    aliases (l :: rest) = l.introduced?.toList ++ aliases rest := by
  cases h : l.introduced? <;> simp [aliases, h]

@[simp] theorem aliases_append (a b : List JoinLine) : aliases (a ++ b) = aliases a ++ aliases b :=
  List.filterMap_append

theorem aliases_flatMap {α : Type} (f : α → List JoinLine) (items : List α) :
    aliases (items.flatMap f) = items.flatMap fun i => aliases (f i) := by
  induction items with
  | nil => rfl
  | cons i rest ih => simp [ih]

def From.introduced? : From → Option String
  | .table _ as => some as
  | .verbatim _ => none

/-- Each condition reads from known tables, from its own line's, or from those of the lines before it. -/
def ClosedLines : (known : List String) → List JoinLine → Prop
  | _, [] => True
  | known, l :: rest => l.tables ⊆ l.introduced?.toList ++ known ∧
      ClosedLines (l.introduced?.toList ++ known) rest

theorem ClosedLines.mono {known more : List String} {lines : List JoinLine} (hs : known ⊆ more)
    (h : ClosedLines known lines) : ClosedLines more lines := by
  induction lines generalizing known more with
  | nil => trivial
  | cons l rest ih =>
    have hl : l.introduced?.toList ++ known ⊆ l.introduced?.toList ++ more := fun name hn =>
      List.mem_append.2 ((List.mem_append.1 hn).imp_right fun h => hs h)
    exact ⟨List.Subset.trans h.1 hl, ih hl h.2⟩

theorem ClosedLines.append {known : List String} {a b : List JoinLine} (ha : ClosedLines known a)
    (hb : ClosedLines (aliases a ++ known) b) : ClosedLines known (a ++ b) := by
  induction a generalizing known with
  | nil => exact hb
  | cons l rest ih =>
    refine ⟨ha.1, ih ha.2 (hb.mono ?_)⟩
    intro name hn
    simp only [aliases_cons, List.mem_append] at hn ⊢
    tauto

def extendLast : List JoinLine → List Expr → List JoinLine
  | [], _ => []
  | [l], conditions => [l.extend conditions]
  | l :: rest, conditions => l :: extendLast rest conditions

theorem extendLast_nil (lines : List JoinLine) : extendLast lines [] = lines := by
  induction lines with
  | nil => rfl
  | cons l rest ih =>
    cases rest with
    | nil => rw [extendLast, JoinLine.extend_nil]
    | cons next rest => rw [extendLast, ih]; simp

theorem mem_extendLast {lines : List JoinLine} {conditions : List Expr} {line : JoinLine}
    (h : line ∈ extendLast lines conditions) : line ∈ lines ∨ ∃ last ∈ lines, line = last.extend conditions := by
  induction lines with
  | nil => cases h
  | cons l rest ih =>
    cases rest with
    | nil => exact Or.inr ⟨l, List.mem_cons_self, List.mem_singleton.1 h⟩
    | cons next rest =>
      rcases List.mem_cons.1 h with rfl | h
      · exact Or.inl List.mem_cons_self
      · exact (ih h).imp (List.mem_cons_of_mem _) fun ⟨last, hl, he⟩ => ⟨last, List.mem_cons_of_mem _ hl, he⟩

@[simp] theorem aliases_extendLast (lines : List JoinLine) (conditions : List Expr) :
    aliases (extendLast lines conditions) = aliases lines := by
  induction lines with
  | nil => rfl
  | cons l rest ih =>
    cases rest with
    | nil => simp [extendLast, aliases_cons]
    | cons next rest => simp only [extendLast, aliases_cons] at ih ⊢; rw [ih]

theorem ClosedLines.extendLast {known : List String} {lines : List JoinLine} {conditions : List Expr}
    {as : String} (h : ClosedLines known lines) (hl : lines.getLast?.bind JoinLine.introduced? = some as)
    (hc : ∀ c ∈ conditions, c.tables ⊆ [as]) : ClosedLines known (extendLast lines conditions) := by
  induction lines generalizing known with
  | nil => trivial
  | cons l rest ih =>
    cases rest with
    | cons next rest => exact ⟨h.1, ih h.2 (by simpa using hl)⟩
    | nil =>
      refine ⟨?_, trivial⟩
      have has : l.introduced? = some as := by simpa using hl
      rw [JoinLine.introduced?_extend]
      refine List.Subset.trans (l.tables_extend_subset conditions) (List.append_subset.2 ⟨h.1, ?_⟩)
      intro name hn
      obtain ⟨c, hm, hn⟩ := List.mem_flatMap.1 hn
      have := hc c hm hn
      simp_all

theorem separated_append {separator : String} {a b : List (List Token)} (ha : a ≠ []) (hb : b ≠ []) :
    separated separator (a ++ b) = separated separator a ++ .fixed separator :: separated separator b := by
  induction a with
  | nil => exact absurd rfl ha
  | cons part rest ih =>
    cases rest with
    | nil =>
      obtain ⟨p, ps, rfl⟩ := List.exists_cons_of_ne_nil hb
      rfl
    | cons next rest =>
      have ih := ih (by simp)
      simp only [List.cons_append, separated] at ih ⊢
      rw [ih]
      simp

theorem separated_flatMap {α : Type} {separator : String} {f : α → List (List Token)} {items : List α}
    (h : ∀ i ∈ items, f i ≠ []) :
    separated separator (items.map fun i => separated separator (f i)) = separated separator (items.flatMap f) := by
  induction items with
  | nil => rfl
  | cons i rest ih =>
    rw [List.forall_mem_cons] at h
    cases rest with
    | nil => simp [separated]
    | cons j rest =>
      have hne : (j :: rest).flatMap f ≠ [] := by simp [h.2 j List.mem_cons_self]
      rw [List.flatMap_cons, separated_append h.1 hne, ← ih h.2]
      rfl

theorem tokens_extendLast {lines : List JoinLine} (hne : lines ≠ []) (h : ∀ l ∈ lines, l.conditions ≠ [])
    (conditions : List Expr) :
    separated "\n" ((extendLast lines conditions).map JoinLine.tokens) =
      separated "\n" (lines.map JoinLine.tokens) ++ conditions.flatMap fun c => .fixed " AND " :: c.tokens := by
  induction lines with
  | nil => exact absurd rfl hne
  | cons l rest ih =>
    rw [List.forall_mem_cons] at h
    cases rest with
    | nil => simpa [extendLast, separated] using JoinLine.tokens_extend h.1 conditions
    | cons next rest =>
      have ih := ih (by simp) h.2
      have hx : (extendLast (next :: rest) conditions).map JoinLine.tokens ≠ [] := by
        cases rest <;> simp [extendLast]
      have hm : (next :: rest).map JoinLine.tokens ≠ [] := by simp
      have hhead {rest : List (List Token)} (hr : rest ≠ []) :
          separated "\n" (l.tokens :: rest) = l.tokens ++ .fixed "\n" :: separated "\n" rest :=
        separated_append (List.cons_ne_nil l.tokens []) hr
      rw [extendLast, List.map_cons, List.map_cons, hhead hx, hhead hm, ih]
      · simp
      · simp

def TableSelect.Closed (s : TableSelect) : Prop := Sql.tables s.tokens ⊆ s.introduced

/-- Both sides are closed, and the rest reads from the two of them. -/
structure PairedSelect.Closed (s : PairedSelect) : Prop where
  left : s.left.Closed
  right : s.right.Closed
  items : Sql.tables (selectList s.items) ⊆ [s.leftAs, s.rightAs]
  on : Sql.tables (onAll s.on) ⊆ [s.leftAs, s.rightAs]

def Source.Closed : Source → Prop
  | .table _ => True
  | .select s => s.Closed
  | .paired s => s.Closed

def JoinLine.SourceClosed : JoinLine → Prop
  | .join _ source _ _ => source.Closed
  | .verbatim _ => True

theorem sourceClosed_extendLast {lines : List JoinLine} (h : ∀ l ∈ lines, l.SourceClosed)
    (conditions : List Expr) : ∀ l ∈ extendLast lines conditions, l.SourceClosed := by
  intro l hm
  rcases mem_extendLast hm with hl | ⟨last, hl, rfl⟩
  · exact h l hl
  · have hlast := h last hl
    cases last with
    | join side source as on => exact hlast
    | verbatim text => trivial

end LeadTime.Sql

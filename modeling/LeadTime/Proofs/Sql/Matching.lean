import LeadTime.Binding
import LeadTime.Proofs.Sql.Evaluation
import Mathlib

/-! Which rows a select over tables keeps. A joined row is seen through the texts in the columns of its tables, and a
placeholder through what is bound to it. Only a condition that is true keeps a row, so that falsehood and NULL need not be
told apart. -/
namespace LeadTime.Sql

/-- The text in a column of a table, in one joined row; none where it is NULL. -/
abbrev Cells := String → String → Option String

namespace Expr

def operand? (bound : Bindings) (cells : Cells) : Expr → Option String
  | .column t c => cells t c
  | .quoted s => some s
  | .placeholder p =>
    match bound.get? p with
    | some (.text s) => some s
    | _ => none
  | _ => none

def members (bound : Bindings) : Expr → List String
  | .group e => e.members bound
  | .placeholder p =>
    match bound.get? p with
    | some (.textList values) => values
    | _ => []
  | _ => []

/-- The condition is true of the row. Read are the forms that a run's jobs and parameters are asked for in; no other is
true. -/
def Holds (bound : Bindings) (cells : Cells) : Expr → Prop
  | .group e => e.Holds bound cells
  | .binary .and l r => l.Holds bound cells ∧ r.Holds bound cells
  | .binary .or l r => l.Holds bound cells ∨ r.Holds bound cells
  | .binary .equal l r => ∃ s, l.operand? bound cells = some s ∧ r.operand? bound cells = some s
  | .binary .isIn e list => ∃ s ∈ list.members bound, e.operand? bound cells = some s
  | _ => False

variable {bound : Bindings} {cells : Cells} {table name placeholder : String}

theorem holds_anyOf {conditions : List Expr} :
    (anyOf conditions).Holds bound cells ↔ ∃ c ∈ conditions, c.Holds bound cells := by
  rw [anyOf, Holds]
  induction conditions with
  | nil => simp [chain, Holds]
  | cons c rest ih =>
    cases rest with
    | nil => simp [chain]
    | cons next more =>
      rw [List.exists_mem_cons_iff, ← ih]
      exact Iff.rfl

theorem holds_equal_placeholder {s : String} (h : bound.get? placeholder = some (.text s)) :
    (equal (column table name) (.placeholder placeholder)).Holds bound cells ↔ cells table name = some s := by
  simp [equal, Holds, operand?, h]

theorem holds_same {table' name' : String} :
    (same table name table' name').Holds bound cells ↔ ∃ s, cells table name = some s ∧ cells table' name' = some s :=
  Iff.rfl

theorem holds_among {values : List String} (h : bound.get? placeholder = some (.textList values)) :
    ((column table name).among placeholder).Holds bound cells ↔ ∃ s ∈ values, cells table name = some s := by
  simp [among, Holds, operand?, members, h]

end Expr

/-- A text stands for the operand, whether it is NULL or not. -/
def Expr.IsOperand : Expr → Prop
  | .column _ _ | .quoted _ | .placeholder _ => True
  | _ => False

def Expr.IsRead : Expr → Prop
  | .group e => e.IsRead
  | .binary .and l r | .binary .or l r => l.IsRead ∧ r.IsRead
  | .binary .equal l r => l.IsOperand ∧ r.IsOperand
  | .binary .isIn e (.group (.placeholder _)) => e.IsOperand
  | _ => False

/-- The condition is read, and stands between others that AND joins as the tree that it is. -/
structure Expr.IsTerm (e : Expr) : Prop where
  read : e.IsRead
  bracketed : e.Bracketed
  apart : Operator.and.strength < e.strength

namespace Expr

variable {l r e : Expr}

theorem isOperand_column (table name : String) : (column table name).IsOperand := trivial

theorem isOperand_placeholder (name : String) : (placeholder name).IsOperand := trivial

theorem IsOperand.strength_eq (h : e.IsOperand) : e.strength = 9 := by
  cases e <;> first | rfl | cases h

theorem IsOperand.bracketed (h : e.IsOperand) : e.Bracketed := by
  cases e <;> trivial

theorem isTerm_equal (hl : l.IsOperand) (hr : r.IsOperand) : (equal l r).IsTerm where
  read := ⟨hl, hr⟩
  bracketed := ⟨hl.bracketed, hr.bracketed, by rw [hl.strength_eq]; decide, .inl (by rw [hr.strength_eq]; decide)⟩
  apart := by simp [equal, strength, Operator.strength]

theorem isTerm_among (h : e.IsOperand) (placeholder : String) : (e.among placeholder).IsTerm where
  read := h
  bracketed := ⟨h.bracketed, trivial, by rw [h.strength_eq]; decide, .inl (by simp [strength, Operator.strength])⟩
  apart := by simp [among, strength, Operator.strength]

theorem isTerm_both (hl : l.IsTerm) (hr : r.IsTerm) : (group (binary .and l r)).IsTerm where
  read := ⟨hl.read, hr.read⟩
  bracketed := ⟨hl.bracketed, hr.bracketed, hl.apart, .inl hr.apart⟩
  apart := by simp [strength, Operator.strength]

theorem isTerm_anyOf {conditions : List Expr} (hne : conditions ≠ []) (h : ∀ c ∈ conditions, c.IsTerm) :
    (anyOf conditions).IsTerm where
  read := by
    show (chain .or conditions).IsRead
    induction conditions with
    | nil => exact absurd rfl hne
    | cons c rest ih =>
      obtain ⟨hc, hrest⟩ := List.forall_mem_cons.1 h
      cases rest with
      | nil => exact hc.read
      | cons next more => exact ⟨hc.read, ih (List.cons_ne_nil _ _) hrest⟩
  bracketed := by
    have hterms (c : Expr) (hc : c ∈ conditions) : c.Bracketed ∧ Operator.or.strength < c.strength :=
      ⟨(h c hc).bracketed, lt_trans (by decide) (h c hc).apart⟩
    exact bracketed_chain (by decide) hterms
  apart := by simp [anyOf, strength, Operator.strength]

end Expr

/-- A joined row is kept: the tables are joined in it, and what is asked of it holds. -/
structure TableSelect.Keeps (s : TableSelect) (bound : Bindings) (cells : Cells) : Prop where
  joined : ∀ j ∈ s.joins, ∀ e ∈ j.on, e.Holds bound cells
  asked : ∀ e ∈ s.conditions, e.Holds bound cells

end LeadTime.Sql

import LeadTime.Sql.Select
import Mathlib

/-! What an expression over one row is worth: exact numbers and three-valued truths, with NULL for what is not known.
Times and differences of times are numbers of seconds. An expression that this reading does not cover (a placeholder, a
column of a table, a function over many rows, an operator over texts) has no value at all, which is not NULL. -/
namespace LeadTime.Sql

inductive Value where
  | null
  | number (value : ℚ)
  | truth (value : Bool)
  | text (value : String)
  deriving DecidableEq

namespace Value

def ofNumber : Option ℚ → Value
  | none => .null
  | some n => .number n

def ofTruth : Option Bool → Value
  | none => .null
  | some b => .truth b

def number? : Value → Option (Option ℚ)
  | .null => some none
  | .number n => some (some n)
  | _ => none

def truth? : Value → Option (Option Bool)
  | .null => some none
  | .truth b => some (some b)
  | _ => none

@[simp] theorem number?_ofNumber (n : Option ℚ) : (ofNumber n).number? = some n := by cases n <;> rfl

@[simp] theorem truth?_ofTruth (b : Option Bool) : (ofTruth b).truth? = some b := by cases b <;> rfl

def arithmetic (f : ℚ → ℚ → ℚ) (left right : Value) : Option Value :=
  return ofNumber (Option.map₂ f (← left.number?) (← right.number?))

def comparison (holds : ℚ → ℚ → Bool) (left right : Value) : Option Value :=
  return ofTruth (Option.map₂ holds (← left.number?) (← right.number?))

/-- Both hold: not so as soon as one does not. -/
def both : Option Bool → Option Bool → Option Bool
  | some false, _ | _, some false => some false
  | some true, some true => some true
  | _, _ => none

/-- One holds: so as soon as one does. -/
def either : Option Bool → Option Bool → Option Bool
  | some true, _ | _, some true => some true
  | some false, some false => some false
  | _, _ => none

@[simp] theorem both_known (a b : Bool) : both (some a) (some b) = some (a && b) := by cases a <;> cases b <;> rfl

@[simp] theorem either_known (a b : Bool) : either (some a) (some b) = some (a || b) := by cases a <;> cases b <;> rfl

def connective (f : Option Bool → Option Bool → Option Bool) (left right : Value) : Option Value :=
  return ofTruth (f (← left.truth?) (← right.truth?))

def firstKnown : List Value → Value
  | [] => .null
  | .null :: rest => firstKnown rest
  | v :: _ => v

/-- The greatest number among those that are not NULL. -/
def greatest (values : List Value) : Option Value :=
  (values.mapM number?).map fun numbers => ofNumber numbers.reduceOption.max?

def call (function : String) (arguments : List Value) : Option Value :=
  match function, arguments with
  | "ABS", [v] => v.number?.map fun n => .ofNumber (n.map (|·|))
  | "COALESCE", _ :: _ => some (firstKnown arguments)
  | "GREATEST", _ :: _ => greatest arguments
  | _, _ => none

theorem call_greatest {numbers : List (Option ℚ)} (h : numbers ≠ []) :
    call "GREATEST" (numbers.map ofNumber) = some (ofNumber numbers.reduceOption.max?) := by
  have hnumbers : (numbers.map ofNumber).mapM number? = some numbers := by
    clear h
    induction numbers with
    | nil => rfl
    | cons n rest ih => simp [List.mapM_cons, ih]
  cases numbers with
  | nil => exact absurd rfl h
  | cons n rest =>
    change greatest ((n :: rest).map ofNumber) = _
    rw [greatest, hnumbers, Option.map_some]

def single : List Value → Option Value
  | [v] => some v
  | _ => none

end Value

def Operator.value (left right : Value) : Operator → Option Value
  | .plus => Value.arithmetic (· + ·) left right
  | .minus => Value.arithmetic (· - ·) left right
  | .equal => Value.comparison (· = ·) left right
  | .greater => Value.comparison (· > ·) left right
  | .less => Value.comparison (· < ·) left right
  | .atMost => Value.comparison (· ≤ ·) left right
  | .and => Value.connective Value.both left right
  | .or => Value.connective Value.either left right
  | _ => none

abbrev Row := List (String × Value)

namespace Row

def get? (row : Row) (column : String) : Option Value := row.lookup column

theorem get?_eq_some {row : Row} (h : (row.map Prod.fst).Nodup) {column : String} {v : Value} (hm : (column, v) ∈ row) :
    row.get? column = some v := by
  induction row with
  | nil => cases hm
  | cons cell rest ih =>
    obtain ⟨hfirst, hrest⟩ := List.nodup_cons.1 h
    rcases List.mem_cons.1 hm with rfl | hm
    · simp [get?]
    · have hne : column ≠ cell.1 := by
        rintro rfl
        exact hfirst (List.mem_map.2 ⟨_, hm, rfl⟩)
      rw [get?, List.lookup_cons, beq_eq_false_iff_ne.2 hne]
      exact ih hrest hm

end Row

namespace Expr

/-- The values of an expression, of which a comma makes several. -/
def values (row : Row) : Expr → Option (List Value)
  | .null => some [.null]
  | .number n => some [.number n]
  | .quoted s => some [.text s]
  | .name c => do return [← row.get? c]
  | .call function arguments => do return [← Value.call function (← arguments.values row)]
  | .group e | .choice e | .otherwise e => e.values row
  | .binary op left right => do
    let l ← left.values row
    let r ← right.values row
    if op = .comma then return l ++ r else return [← op.value (← Value.single l) (← Value.single r)]
  | .isNull e => do return [.truth ((← Value.single (← e.values row)) = .null)]
  | .isNotNull e => do return [.truth ((← Value.single (← e.values row)) ≠ .null)]
  | .epoch e => do return [.ofNumber (← (← Value.single (← e.values row)).number?)]
  -- An arm is taken only where its condition is true: neither where it is false nor where it is NULL.
  | .arm condition value rest => do
    if (← (← Value.single (← condition.values row)).truth?) = some true then value.values row else rest.values row
  | .now | .star | .column _ _ | .placeholder _ | .verbatim _ | .cast _ _ | .percentile _ _ => none

-- What a form is worth by what its parts are, so that nothing below has to unfold `values`.
section Values

variable {row : Row} {e l r : Expr} {v w : Value}

theorem values_name (c : String) : (name c).values row = (row.get? c).bind fun v => some [v] := rfl

theorem values_call {f : String} {vs : List Value} (h : e.values row = some vs) :
    (call f e).values row = (Value.call f vs).bind fun v => some [v] := by
  change (e.values row).bind _ = _
  rw [h]
  rfl

theorem values_isNull (h : e.values row = some [v]) : (isNull e).values row = some [.truth (v = .null)] := by
  change (e.values row).bind _ = _
  rw [h]
  rfl

theorem values_epoch (h : e.values row = some [v]) :
    (epoch e).values row = v.number?.bind fun n => some [.ofNumber n] := by
  change (e.values row).bind _ = _
  rw [h]
  rfl

theorem values_binary {op : Operator} (hop : op ≠ .comma) (hl : l.values row = some [v])
    (hr : r.values row = some [w]) : (binary op l r).values row = (op.value v w).bind fun x => some [x] := by
  change (l.values row).bind (fun _ => (r.values row).bind _) = _
  rw [hl, hr]
  exact if_neg hop

theorem values_comma {vs ws : List Value} (hl : l.values row = some vs) (hr : r.values row = some ws) :
    (binary .comma l r).values row = some (vs ++ ws) := by
  change (l.values row).bind (fun _ => (r.values row).bind _) = _
  rw [hl, hr]
  rfl

theorem values_arm {condition : Expr} (h : condition.values row = some [v]) :
    (arm condition l r).values row = v.truth?.bind fun b => if b = some true then l.values row else r.values row := by
  change (condition.values row).bind _ = _
  rw [h]
  rfl

end Values

def Denotes (row : Row) (e : Expr) (v : Value) : Prop := e.values row = some [v]

instance (row : Row) (e : Expr) (v : Value) : Decidable (e.Denotes row v) :=
  inferInstanceAs (Decidable (e.values row = some [v]))

namespace Denotes

variable {row : Row} {e l r : Expr} {m n : Option ℚ} {a b : Option Bool} {v w x : Value}

theorem iff_eq (h : e.Denotes row v) : e.Denotes row w ↔ v = w := by
  rw [Denotes, h]
  simp

theorem name {column : String} (h : row.get? column = some v) : (Expr.name column).Denotes row v := by
  simp [Denotes, values_name, h]

theorem number (n : Int) : (Expr.number n).Denotes row (.ofNumber (some n)) := rfl

theorem quoted (s : String) : (Expr.quoted s).Denotes row (.text s) := rfl

theorem group (h : e.Denotes row v) : (Expr.group e).Denotes row v := h

theorem choice (h : e.Denotes row v) : (Expr.choice e).Denotes row v := h

theorem otherwise (h : e.Denotes row v) : (Expr.otherwise e).Denotes row v := h

theorem epoch (h : e.Denotes row (.ofNumber n)) : (Expr.epoch e).Denotes row (.ofNumber n) := by
  rw [Denotes] at h
  simp [Denotes, values_epoch h]

theorem isNull (h : e.Denotes row (.ofNumber n)) : (Expr.isNull e).Denotes row (.ofTruth (some n.isNone)) := by
  rw [Denotes] at h
  cases n <;> simp [Denotes, values_isNull h, Value.ofNumber, Value.ofTruth]

theorem binary {op : Operator} (hop : op ≠ .comma) (hl : l.Denotes row v) (hr : r.Denotes row w)
    (h : op.value v w = some x) : (Expr.binary op l r).Denotes row x := by
  rw [Denotes] at hl hr
  simp [Denotes, values_binary hop hl hr, h]

theorem plus (hl : l.Denotes row (.ofNumber m)) (hr : r.Denotes row (.ofNumber n)) :
    (Expr.binary .plus l r).Denotes row (.ofNumber (Option.map₂ (· + ·) m n)) :=
  binary (by decide) hl hr (by simp [Operator.value, Value.arithmetic])

theorem minus (hl : l.Denotes row (.ofNumber m)) (hr : r.Denotes row (.ofNumber n)) :
    (Expr.binary .minus l r).Denotes row (.ofNumber (Option.map₂ (· - ·) m n)) :=
  binary (by decide) hl hr (by simp [Operator.value, Value.arithmetic])

theorem equal (hl : l.Denotes row (.ofNumber m)) (hr : r.Denotes row (.ofNumber n)) :
    (Expr.binary .equal l r).Denotes row (.ofTruth (Option.map₂ (fun m n => decide (m = n)) m n)) :=
  binary (by decide) hl hr (by simp [Operator.value, Value.comparison])

theorem greater (hl : l.Denotes row (.ofNumber m)) (hr : r.Denotes row (.ofNumber n)) :
    (Expr.binary .greater l r).Denotes row (.ofTruth (Option.map₂ (fun m n => decide (m > n)) m n)) :=
  binary (by decide) hl hr (by simp [Operator.value, Value.comparison])

theorem atMost (hl : l.Denotes row (.ofNumber m)) (hr : r.Denotes row (.ofNumber n)) :
    (Expr.binary .atMost l r).Denotes row (.ofTruth (Option.map₂ (fun m n => decide (m ≤ n)) m n)) :=
  binary (by decide) hl hr (by simp [Operator.value, Value.comparison])

theorem and (hl : l.Denotes row (.ofTruth a)) (hr : r.Denotes row (.ofTruth b)) :
    (Expr.binary .and l r).Denotes row (.ofTruth (Value.both a b)) :=
  binary (by decide) hl hr (by simp [Operator.value, Value.connective])

theorem or (hl : l.Denotes row (.ofTruth a)) (hr : r.Denotes row (.ofTruth b)) :
    (Expr.binary .or l r).Denotes row (.ofTruth (Value.either a b)) :=
  binary (by decide) hl hr (by simp [Operator.value, Value.connective])

theorem arm {condition : Expr} (hc : condition.Denotes row (.ofTruth b)) (hv : e.Denotes row v) (hr : r.Denotes row w) :
    (Expr.arm condition e r).Denotes row (if b = some true then v else w) := by
  rw [Denotes] at hc hv hr
  cases b with
  | none => simp [Denotes, values_arm hc, hr]
  | some b => cases b <;> simp [Denotes, values_arm hc, hv, hr]

end Denotes

theorem values_chain_comma {row : Row} {es : List Expr} {vs : List Value} (hne : es ≠ [])
    (h : List.Forall₂ (Denotes row) es vs) : (chain .comma es).values row = some vs := by
  induction h with
  | nil => exact absurd rfl hne
  | @cons e v es vs he hes ih =>
    rw [Denotes] at he
    cases hes with
    | nil => exact he
    | cons he' hes' => simp [chain, values_comma he (ih (List.cons_ne_nil _ _))]

theorem Denotes.apply {row : Row} {f : String} {es : List Expr} {vs : List Value} {v : Value} (hne : es ≠ [])
    (h : List.Forall₂ (Denotes row) es vs) (hf : Value.call f vs = some v) : (Expr.apply f es).Denotes row v := by
  simp [Denotes, Expr.apply, values_call (values_chain_comma hne h), hf]

theorem Denotes.greatest {row : Row} {l r : Expr} {m n : Option ℚ} (hl : l.Denotes row (.ofNumber m))
    (hr : r.Denotes row (.ofNumber n)) :
    (Expr.apply "GREATEST" [l, r]).Denotes row (.ofNumber [m, n].reduceOption.max?) := by
  have hvalues : List.Forall₂ (Denotes row) [l, r] ([m, n].map .ofNumber) := .cons hl (.cons hr .nil)
  exact .apply (List.cons_ne_nil _ _) hvalues (Value.call_greatest (List.cons_ne_nil _ _))

end Expr

def Operator.strength : Operator → ℕ
  | .comma => 0
  | .or => 1
  | .and => 2
  | .equal | .greater | .less | .atMost => 4
  | .isIn | .notIn | .like => 5
  | .overlaps | .matchesPattern | .includes | .member | .memberText | .attribute => 6
  | .plus | .minus => 7

namespace Expr

/-- How tightly the outermost form binds; brackets, names and calls bind as tightly as can be. -/
def strength : Expr → ℕ
  | .binary op _ _ => op.strength
  | .isNull _ | .isNotNull _ => 3
  | .cast _ _ => 8
  | _ => 9

/-- The text of the expression is read back as its tree: each operand binds tighter than its operator. Only on the right
of an operator for which the order of operations does not matter may the same one stand. -/
def Bracketed : Expr → Prop
  | .binary op l r => l.Bracketed ∧ r.Bracketed ∧ op.strength < l.strength ∧
    (op.strength < r.strength ∨ op ∈ [.comma, .or, .and, .plus] ∧ ∃ m n, r = .binary op m n)
  | .isNull e | .isNotNull e => e.Bracketed ∧ 3 < e.strength
  | .cast e _ => e.Bracketed ∧ 8 < e.strength
  | .call _ e | .group e | .epoch e | .percentile _ e | .choice e | .otherwise e => e.Bracketed
  | .arm condition value rest => condition.Bracketed ∧ value.Bracketed ∧ rest.Bracketed
  | .null | .now | .star | .number _ | .quoted _ | .name _ | .column _ _ | .placeholder _ | .verbatim _ => True

theorem bracketed_chain {op : Operator} (hop : op ∈ [.comma, .or, .and, .plus]) {es : List Expr}
    (h : ∀ e ∈ es, e.Bracketed ∧ op.strength < e.strength) : (chain op es).Bracketed := by
  induction es with
  | nil => trivial
  | cons e rest ih =>
    obtain ⟨he, hrest⟩ := List.forall_mem_cons.1 h
    match rest with
    | [] => exact he.1
    | next :: [] => exact ⟨he.1, ih hrest, he.2, .inl (hrest next List.mem_cons_self).2⟩
    | next :: next' :: more => exact ⟨he.1, ih hrest, he.2, .inr ⟨hop, next, _, rfl⟩⟩

end Expr

end LeadTime.Sql

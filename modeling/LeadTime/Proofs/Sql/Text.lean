import LeadTime.Sql.Select
import Mathlib

/-! The text of selects. Lists are written with a separator between each two of their parts, and a layer is written with
its items around the layer beneath. -/
namespace LeadTime.Sql

theorem text_separated (separator : String) (parts : List (List Token)) :
    text (separated separator parts) = separator.intercalate (parts.map text) := by
  induction parts with
  | nil => rfl
  | cons part rest ih =>
    cases rest with
    | nil => simp [separated]
    | cons next rest =>
      rw [List.map_cons] at ih
      simp only [separated, text_append, text_cons, ih, List.map_cons, String.intercalate_cons_cons, Token.text,
        String.append_assoc]

namespace Expr

variable {e l r : Expr} {s : String}

theorem text_binary (op : Operator) : (binary op l r).text = l.text ++ op.text ++ r.text := by
  simp [text, tokens, Token.text, String.append_assoc]

theorem text_group : (group e).text = "(" ++ e.text ++ ")" := by simp [text, tokens, Token.text, String.append_assoc]

theorem text_isNull : (isNull e).text = e.text ++ " IS NULL" := by simp [text, tokens, Token.text]

theorem text_cast : (cast e s).text = e.text ++ ("::" ++ s) := by simp [text, tokens, Token.text]

theorem text_call : (call s e).text = s ++ (group e).text := by
  simp [text, tokens, Token.text, String.append_assoc]

theorem text_epoch : (epoch e).text = "EXTRACT" ++ ("(" ++ ("EPOCH FROM " ++ (group e).text) ++ ")") := by
  simp [text, tokens, Token.text, String.append_assoc]
  rfl

theorem text_percentile : (percentile s e).text = "PERCENTILE_CONT(" ++ s ++ ") WITHIN GROUP (ORDER BY " ++ e.text ++ ")" := by
  simp [text, tokens, Token.text, String.append_assoc]

theorem text_name : (name s).text = s := by simp [text, tokens, Token.text]

theorem text_chain_names (columns : List String) : (chain .comma (columns.map name)).text = ", ".intercalate columns := by
  induction columns with
  | nil => rfl
  | cons column rest ih =>
    cases rest with
    | nil => exact text_name
    | cons next rest =>
      rw [List.map_cons, List.map_cons, chain, text_binary, text_name, String.intercalate_cons_cons, ← ih]
      · rfl
      · simp

end Expr

theorem Projection.text_named (value : Expr) (name : String) : (named value name).text = value.text ++ " AS " ++ name := by
  simp [text, Expr.text, tokens, Token.text, String.append_assoc]

theorem exists_text_of_mem {t : Token} {tokens : List Token} (h : t ∈ tokens) :
    ∃ before after, text tokens = before ++ t.text ++ after := by
  obtain ⟨before, after, rfl⟩ := List.append_of_mem h
  exact ⟨text before, text after, by rw [text_append, text_cons, String.append_assoc]⟩

theorem exists_text_of_infix {inner outer : List Token} (h : inner <:+: outer) :
    ∃ before after, text outer = before ++ text inner ++ after := by
  obtain ⟨before, after, rfl⟩ := h
  exact ⟨text before, text after, by rw [text_append, text_append]⟩

theorem infix_separated {separator : String} {part : List Token} {parts : List (List Token)} (h : part ∈ parts) :
    part <:+: separated separator parts := by
  induction parts with
  | nil => cases h
  | cons first rest ih =>
    cases rest with
    | nil => exact List.mem_singleton.1 h ▸ List.infix_rfl
    | cons next rest =>
      rw [separated]
      · rcases List.mem_cons.1 h with rfl | h
        · exact (List.prefix_append _ _).isInfix
        · exact (ih h).trans ((List.suffix_cons _ _).trans (List.suffix_append _ _)).isInfix
      · simp

theorem text_selectList (items : List Projection) :
    text (selectList items) = "SELECT " ++ ", ".intercalate (items.map Projection.text) := by
  rw [selectList, text_cons, text_separated, List.map_map]
  rfl

theorem text_onAll (conditions : List Expr) :
    text (onAll conditions) = " ON " ++ " AND ".intercalate (conditions.map Expr.text) := by
  rw [onAll, text_cons, text_separated, List.map_map]
  rfl

theorem text_whereAll (keyword : String) {conditions : List Expr} (h : conditions ≠ []) :
    text (whereAll keyword conditions) = keyword ++ " AND ".intercalate (conditions.map Expr.text) := by
  rw [whereAll, text_cons, text_separated, List.map_map]
  · rfl
  · exact h

theorem text_names (columns : List String) :
    text (separated ", " (columns.map fun c => [.name c])) = ", ".intercalate columns := by
  have hname : text ∘ (fun c => [Token.name c]) = id := by
    funext c
    simp [Token.text]
  rw [text_separated, List.map_map, hname, List.map_id]

/-- The text of terms that AND joins, after ` WHERE `; nothing where there are none. -/
def whereText : List String → String
  | [] => ""
  | terms => " WHERE " ++ " AND ".intercalate terms

theorem TableSelect.text_tokens (s : TableSelect) : text s.tokens =
    text { s with conditions := [] }.tokens ++ whereText (s.conditions.map Expr.text) := by
  have hfront : text { s with conditions := [] }.tokens ++ text (whereAll " WHERE " s.conditions) = text s.tokens := by
    simp only [tokens, text_append, whereAll, text_nil, String.append_empty]
  rw [← hfront]
  cases h : s.conditions with
  | nil => rfl
  | cons e rest => exact congrArg _ (text_whereAll " WHERE " (List.cons_ne_nil e rest))

theorem TableSelect.exists_tokens (s : TableSelect) : ∃ rest, s.tokens = selectList s.items ++ .fixed " FROM " :: rest := by
  simp only [tokens, List.append_assoc, List.cons_append]
  exact ⟨_, rfl⟩

/-- What a layer writes after the layer beneath. -/
def Layer.closing (l : Layer) : String :=
  ") AS " ++ l.as ++
    (match l.condition with
      | none => ""
      | some c => " WHERE " ++ c.text) ++
    (match l.groupBy with
      | [] => ""
      | columns => " GROUP BY " ++ ", ".intercalate columns) ++
    match l.orderBy with
      | none => ""
      | some terms => " ORDER BY " ++ ", ".intercalate (terms.map OrderTerm.text)

def Layer.around (l : Layer) (inner : String) : String :=
  "SELECT " ++ ", ".intercalate (l.items.map Projection.text) ++ " FROM (\n" ++ inner ++ "\n" ++ l.closing

/-- A text under layers, the first of which is the innermost. -/
def nest (layers : List Layer) (inner : String) : String := layers.foldl (fun text layer => layer.around text) inner

theorem Layer.text_tokens (l : Layer) (inner : List Token) : text (l.tokens inner) = l.around (text inner) := by
  have hbreak : "\n) AS " = "\n" ++ ") AS " := rfl
  have hcolumns := text_names l.groupBy
  obtain ⟨items, as, condition, groupBy, orderBy⟩ := l
  cases condition <;> cases groupBy <;> cases orderBy <;>
    simp only [Layer.tokens, around, closing, text_selectList, text_append, text_cons, text_nil, Token.text, hbreak,
      String.append_assoc, String.append_empty, text_separated, List.map_map, hcolumns] <;> rfl

theorem text_stacked (layers : List Layer) (inner : List Token) :
    text (stacked layers inner) = nest layers (text inner) := by
  induction layers generalizing inner with
  | nil => rfl
  | cons layer rest ih =>
    have hrest : text (stacked (layer :: rest) inner) = nest rest (text (layer.tokens inner)) := ih _
    rw [hrest, layer.text_tokens]
    rfl

/-- What layers write around a text does not depend on the text. -/
theorem exists_nest (layers : List Layer) : ∃ before after, ∀ inner, nest layers inner = before ++ inner ++ after := by
  induction layers with
  | nil => exact ⟨"", "", fun inner => by simp [nest]⟩
  | cons layer rest ih =>
    obtain ⟨before, after, h⟩ := ih
    refine ⟨before ++ "SELECT " ++ ", ".intercalate (layer.items.map Projection.text) ++ " FROM (\n",
      "\n" ++ layer.closing ++ after, fun inner => ?_⟩
    have hrest : nest (layer :: rest) inner = before ++ layer.around inner ++ after := h _
    rw [hrest, Layer.around]
    simp only [String.append_assoc]

end LeadTime.Sql

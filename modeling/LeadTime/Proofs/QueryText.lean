import LeadTime.Proofs.Sql.Text
import LeadTime.Proofs.Stages
import Mathlib

/-! The text of a query. It is the select of its rows, with the layers around it and with a page after them: a layer is
written around the layer beneath, and the rows are written with their joins, one on each line, and with all conditions
on whole rows. -/
namespace LeadTime

open Sql

def OutputShape.pageText (shape : OutputShape) : String :=
  match shape.page? with
  | none => ""
  | some page => "\nLIMIT " ++ toString page.limit ++ " OFFSET " ++ toString page.offset

theorem OutputShape.text_tokens (shape : OutputShape) (stages : ℕ) (inner : List Token) :
    text (shape.tokens stages inner) = text (shape.body stages inner) ++ shape.pageText := by
  rw [tokens, text_append, pageText]
  cases shape.page? with
  | none => rfl
  | some page =>
    have hline : "\nLIMIT " = "\n" ++ "LIMIT " := rfl
    simp only [text_cons, text_nil, Token.text, Page.tokens, hline, String.append_assoc, String.append_empty]

def counting (body : String) : String := "SELECT COUNT(*) FROM (\n" ++ body ++ "\n) AS counted"

theorem OutputShape.text_countLayer (body : List Token) : text (countLayer.tokens body) = counting (text body) := by
  have hitems : ", ".intercalate (countLayer.items.map Projection.text) = "COUNT(*)" := by decide
  have hclosing : countLayer.closing = ") AS counted" := by decide
  have hform (inner : String) : counting inner = "SELECT " ++ "COUNT(*)" ++ " FROM (\n" ++ inner ++ "\n" ++ ") AS counted" := by
    have hbreak : "\n) AS counted" = "\n" ++ ") AS counted" := rfl
    have hhead : "SELECT COUNT(*) FROM (\n" = "SELECT " ++ "COUNT(*)" ++ " FROM (\n" := rfl
    exact (congrArg₂ (fun head tail => head ++ inner ++ tail) hhead hbreak).trans String.append_assoc.symm
  rw [Layer.text_tokens, Layer.around, hitems, hclosing, hform]

/-- The select of the rows of a query, as it is written. -/
structure RowSelect where
  items : List String
  source : String
  lines : List String
  conditions : List String

/-- The items and the source, the joins below them, and the conditions below these. -/
def RowSelect.text (s : RowSelect) : String :=
  "\n".intercalate (("SELECT " ++ ", ".intercalate s.items ++ " FROM " ++ s.source) :: s.lines ++
    ["WHERE " ++ " AND ".intercalate s.conditions])

namespace RowSelect

variable (s : RowSelect)

theorem exists_conditions : ∃ before, s.text = before ++ "\nWHERE " ++ " AND ".intercalate s.conditions := by
  have hwhere : ("\nWHERE " : String) = "\n" ++ "WHERE " := rfl
  refine ⟨"\n".intercalate (("SELECT " ++ ", ".intercalate s.items ++ " FROM " ++ s.source) :: s.lines), ?_⟩
  rw [text, String.intercalate_append_of_ne_nil (by simp) (by simp), String.intercalate_singleton, hwhere]
  simp only [String.append_assoc]

theorem exists_lines : ∃ before after, s.text = before ++ "\n".intercalate s.lines ++ after := by
  cases h : s.lines with
  | nil => exact ⟨"", s.text, by simp⟩
  | cons line rest =>
    rw [text, h, String.intercalate_append_of_ne_nil (by simp) (by simp), String.intercalate_cons_of_ne_nil (by simp)]
    exact ⟨_, _, String.append_assoc ..⟩

end RowSelect

namespace Plan

/-- The layers around the rows, from the inside to the outside. -/
def outerLayers (p : Plan) : List Layer :=
  p.layers.reduce :: p.layers.durations :: p.layers.enriched :: p.shape.layers p.pipeline.stages.length

theorem body_eq (p : Plan) :
    p.shape.body p.pipeline.stages.length p.layers.tokens = stacked p.outerLayers p.layers.base := by
  simp only [OutputShape.body, Layers.tokens, Layers.durationTokens, outerLayers, stacked, List.foldl_cons, List.foldl_nil]

def rowSelect (p : Plan) : RowSelect where
  items := p.layers.baseItems.map Projection.text
  source := Sql.text p.layers.source.tokens
  lines := p.joins.lines.map fun line => Sql.text line.tokens
  conditions := p.layers.conditions.map Expr.text

def bodyText (p : Plan) : String := nest p.outerLayers p.rowSelect.text

/-- The query is written out of the plan's rows, whose source and lines end with the names that they give. -/
structure Written (p : Plan) : Prop where
  sql : p.query.sql = p.bodyText ++ p.shape.pageText
  countSql : p.query.countSql = p.shape.page?.map fun _ => counting p.bodyText
  source : ∃ table : Table, p.layers.source = .table table p.pipeline.anchor.tableAlias ∧
    p.rowSelect.source = table.schema ++ "." ++ table.name ++ " AS " ++ p.pipeline.anchor.tableAlias
  /-- A line ends with the name that it gives and with its conditions. -/
  lines : ∀ line ∈ p.joins.lines, ∃ joined name, line.introduced? = some name ∧
    Sql.text line.tokens = joined ++ " AS " ++ name ++ " ON " ++ " AND ".intercalate (line.conditions.map Expr.text)

variable {p : Plan}

theorem text_base (hchain : p.layers.chain = separated "\n" (p.joins.lines.map JoinLine.tokens))
    (hconditions : p.layers.conditions ≠ []) : Sql.text p.layers.base = p.rowSelect.text := by
  have hjoins : Sql.text p.layers.chain = "\n".intercalate p.rowSelect.lines := by
    rw [hchain, text_separated, List.map_map]
    rfl
  have hwhere : ("\nWHERE " : String) = "\n" ++ "WHERE " := rfl
  have hfrom (chain : List Token) : Sql.text (selectList p.layers.baseItems ++ .fixed " FROM " :: p.layers.source.tokens ++
      chain ++ whereAll "\nWHERE " p.layers.conditions) =
      "SELECT " ++ ", ".intercalate p.rowSelect.items ++ " FROM " ++ p.rowSelect.source ++ Sql.text chain ++
        ("\n" ++ ("WHERE " ++ " AND ".intercalate p.rowSelect.conditions)) := by
    rw [text_append, text_append, text_append, text_selectList, text_whereAll _ hconditions, hwhere, text_cons]
    simp only [rowSelect, Token.text, String.append_assoc]
  rw [Layers.base, hfrom, RowSelect.text]
  -- The chain brings a line break of its own, but only where something is joined.
  cases hlines : p.joins.lines with
  | nil =>
    have hnone : p.rowSelect.lines = [] := by rw [rowSelect, hlines, List.map_nil]
    have hempty : p.layers.chain = [] := by
      rw [hchain, hlines]
      rfl
    rw [hempty, hnone]
    simp [String.append_assoc]
  | cons line rest =>
    have hne : p.rowSelect.lines ≠ [] := by simp [rowSelect, hlines]
    have hfilled : p.layers.chain.isEmpty = false := by
      rw [hchain, hlines]
      cases line <;> cases rest <;> simp [separated, JoinLine.tokens]
    rw [if_neg (Bool.eq_false_iff.1 hfilled), text_cons, hjoins, String.intercalate_append_of_ne_nil (by simp) (by simp),
      String.intercalate_cons_of_ne_nil hne, String.intercalate_singleton, Token.text]
    simp only [String.append_assoc]

theorem text_body (hchain : p.layers.chain = separated "\n" (p.joins.lines.map JoinLine.tokens))
    (hconditions : p.layers.conditions ≠ []) :
    Sql.text (p.shape.body p.pipeline.stages.length p.layers.tokens) = p.bodyText := by
  rw [p.body_eq, text_stacked, text_base hchain hconditions, bodyText]

theorem written {table : Table} (hsource : p.layers.source = .table table p.pipeline.anchor.tableAlias)
    (hchain : p.layers.chain = separated "\n" (p.joins.lines.map JoinLine.tokens)) (hconditions : p.layers.conditions ≠ [])
    (hlines : ∀ line ∈ p.joins.lines, line.conditions ≠ []) : p.Written where
  sql := by
    rw [query, tokens, OutputShape.text_tokens, text_body hchain hconditions]
  countSql := by
    have hcount : p.query.countSql = p.shape.page?.map fun _ =>
        Sql.text (OutputShape.countLayer.tokens (p.shape.body p.pipeline.stages.length p.layers.tokens)) :=
      Option.map_map ..
    rw [hcount, OutputShape.text_countLayer, text_body hchain hconditions]
  source := by
    refine ⟨table, hsource, ?_⟩
    have htext : p.rowSelect.source = Sql.text (From.tokens (.table table p.pipeline.anchor.tableAlias)) := by
      rw [rowSelect, hsource]
    simp only [htext, From.tokens, Table.tokens, text_append, text_cons, text_nil, Token.text, String.append_assoc,
      String.append_empty]
  lines line hl := by
    obtain ⟨side, source, as, on⟩ | text := line
    · refine ⟨side.text ++ Sql.text source.tokens, as, rfl, ?_⟩
      have hon : " AS " ++ as ++ Sql.text (onAll on) = " AS " ++ as ++ " ON " ++ " AND ".intercalate (on.map Expr.text) := by
        rw [text_onAll, ← String.append_assoc]
      simp only [JoinLine.tokens, JoinLine.conditions, text_append, text_cons, text_nil, Token.text, String.append_assoc,
        String.append_empty] at hon ⊢
      rw [hon]
    · exact absurd rfl (hlines _ hl)

/-- What a query writes around the select of its rows depends on the layers around them and on the shape alone. -/
theorem Written.exists_around {p₀ : Plan} (h : p.Written) (h₀ : p₀.Written) (hlayers : p.outerLayers = p₀.outerLayers)
    (hshape : p.shape = p₀.shape) : ∃ before after,
      p.query.sql = before ++ p.rowSelect.text ++ after ∧ p₀.query.sql = before ++ p₀.rowSelect.text ++ after := by
  obtain ⟨before, after, hnest⟩ := exists_nest p₀.outerLayers
  refine ⟨before, after ++ p₀.shape.pageText, ?_, ?_⟩
  · rw [h.sql, bodyText, hlayers, hshape, hnest, String.append_assoc]
  · rw [h₀.sql, bodyText, hnest, String.append_assoc]

theorem Written.exists_sql (h : p.Written) : ∃ before after, p.query.sql = before ++ p.rowSelect.text ++ after := by
  obtain ⟨before, after, hsql, -⟩ := h.exists_around h rfl rfl
  exact ⟨before, after, hsql⟩

theorem Written.exists_lines (h : p.Written) : ∃ before after,
    p.query.sql = before ++ "\n".intercalate (p.joins.lines.map fun line => Sql.text line.tokens) ++ after := by
  obtain ⟨before, after, hsql⟩ := h.exists_sql
  obtain ⟨above, below, hlines⟩ := p.rowSelect.exists_lines
  refine ⟨before ++ above, below ++ after, ?_⟩
  rw [hsql, hlines]
  simp only [rowSelect, String.append_assoc]

theorem Written.exists_line (h : p.Written) {line : JoinLine} (hl : line ∈ p.joins.lines) :
    ∃ before after, p.query.sql = before ++ Sql.text line.tokens ++ after := by
  obtain ⟨before, after, hsql⟩ := h.exists_lines
  have hinfix : line.tokens <:+: separated "\n" (p.joins.lines.map JoinLine.tokens) :=
    infix_separated (List.mem_map_of_mem hl)
  obtain ⟨above, below, hlines⟩ := exists_text_of_infix hinfix
  rw [text_separated, List.map_map] at hlines
  refine ⟨before ++ above, below ++ after, hsql.trans ?_⟩
  have hchain : "\n".intercalate (p.joins.lines.map fun line => Sql.text line.tokens) = _ := hlines
  rw [hchain]
  simp only [String.append_assoc]

theorem Written.exists_where (h : p.Written) : ∃ before after,
    p.query.sql = before ++ "\nWHERE " ++ " AND ".intercalate (p.layers.conditions.map Expr.text) ++ after := by
  obtain ⟨before, after, hsql⟩ := h.exists_sql
  obtain ⟨above, hconditions⟩ := p.rowSelect.exists_conditions
  refine ⟨before ++ above, after, ?_⟩
  rw [hsql, hconditions]
  simp only [rowSelect, String.append_assoc]

end Plan

namespace Compilation

variable {c : Compiler} {r : Request} (k : Compilation c r)

theorem conditions_ne_nil : k.plan.layers.conditions ≠ [] := by
  obtain ⟨entities, stack, -, -, -, hclauses⟩ := Scope.clauses_eq_ok k.posed
  have hconditions : k.plan.layers.conditions = k.conditions ++ k.progress.predicates := rfl
  simp [hconditions, conditions, hclauses, Scope.anchorPart]

theorem written_plan : k.plan.Written :=
  Plan.written rfl k.formed_met.tokens_eq k.conditions_ne_nil k.formed_met.conditions_lines

end Compilation
end LeadTime

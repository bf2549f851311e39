import LeadTime.Proofs.Shape
import LeadTime.Proofs.SharedRows
import Mathlib

/-! The pages of a listing. Whatever the number of the page, a listing is one body with a page of it after it, and the
count query counts the rows of that body; so the pages one after the other are the rows of the body, each of them once.
The other modes have no pages. -/
namespace LeadTime

open Sql

namespace Page

def rows {α : Type} (p : Page) (all : List α) : List α := (all.drop p.offset).take p.limit

theorem new_eq_error {number size : ℕ} (hs : 0 < size) (h : 0x10000000000000000 ≤ number * size) :
    Page.new number size = .error (.pageOutOfRange number size) := by
  rw [Page.new, if_neg hs.ne', if_neg (not_lt.2 h)]

section Rows

variable {α : Type} (all : List α) (size : ℕ)

theorem flatMap_rows (count : ℕ) :
    (List.range count).flatMap (fun number => (⟨size, number * size⟩ : Page).rows all) = all.take (count * size) := by
  induction count with
  | zero => simp
  | succ count ih => rw [List.range_succ, List.flatMap_append, ih, Nat.succ_mul, List.take_add, List.flatMap_singleton, rows]

variable {all}

theorem disjoint_rows_of_lt (h : all.Nodup) {a b : ℕ} (hab : a < b) :
    ((⟨size, a * size⟩ : Page).rows all).Disjoint ((⟨size, b * size⟩ : Page).rows all) := by
  have hle : a * size + size ≤ b * size := by
    rw [← Nat.succ_mul]
    exact Nat.mul_le_mul_right size hab
  have hfirst : (⟨size, a * size⟩ : Page).rows all ⊆ all.take (a * size + size) := by
    rw [List.take_add]
    exact List.subset_append_right _ _
  exact List.disjoint_of_subset_left hfirst
    (List.disjoint_of_subset_right (List.take_subset _ _) (List.disjoint_take_drop h hle))

theorem disjoint_rows (h : all.Nodup) {a b : ℕ} (hab : a ≠ b) :
    ((⟨size, a * size⟩ : Page).rows all).Disjoint ((⟨size, b * size⟩ : Page).rows all) := by
  rcases Nat.lt_or_gt_of_ne hab with hlt | hlt
  · exact disjoint_rows_of_lt size h hlt
  · exact (disjoint_rows_of_lt size h hlt).symm

end Rows
end Page

def Request.onPage (r : Request) (number : UInt64) : Request :=
  { r with query := { r.query with page := number } }

def Compiler.pageSize (c : Compiler) (r : Request) : ℕ := (r.query.pageSize.getD c.settings.defaultPageSize).toNat

def Across.closing? : Across → Option String
  | .velocity => some ") AS enrich"
  | .trend => some ") AS enrich GROUP BY trend ORDER BY trend"
  | .stack => some ") AS enrich GROUP BY stack"
  | .values => none
  | .histogram => some ") AS histo GROUP BY bucket ORDER BY bucket"
  | .rating => some ") AS histo GROUP BY rating"

def selectAll (inner closing : String) : String := "SELECT * FROM (\n" ++ inner ++ "\n" ++ closing

/-- A listing of the inner query in its order, with a filter or without one, before its page. -/
def listingBody (inner order : String) (filter : Option String) : String :=
  let ordered := selectAll inner (") AS enrich ORDER BY " ++ order)
  match filter with
  | none => ordered
  | some condition => selectAll ordered (") AS histo WHERE " ++ condition)

/-- The pages of a request for a listing, of which one was compiled to `q`, are windows of one body, and together the
whole of it; the count query counts the body without a page. -/
structure Compiler.Listing (c : Compiler) (r : Request) (q : CompiledQuery) (inner body : String) : Prop where
  form : ∃ order filter, body = listingBody inner order filter ∧ (filter = none ↔ r.query.ratings = [])
  counted : q.countSql = some ("SELECT COUNT(*) FROM (\n" ++ body ++ "\n) AS counted")
  nonempty : 0 < c.pageSize r
  /-- Pages differ in nothing but where they start. -/
  page : ∀ number : UInt64, number.toNat * c.pageSize r < 2 ^ 64 → c.compile (r.onPage number) = .ok { q with
    sql := body ++ "\nLIMIT " ++ toString (c.pageSize r) ++ " OFFSET " ++ toString (number.toNat * c.pageSize r) }
  outOfRange : ∀ number : UInt64, 2 ^ 64 ≤ number.toNat * c.pageSize r →
    c.compile (r.onPage number) = .error (.pageOutOfRange number.toNat (c.pageSize r))
  /-- The pages up to the last one show the first rows, in order. -/
  tiles : ∀ {α : Type} (rows : List α) (last : ℕ),
    (List.range (last + 1)).flatMap (fun number => (⟨c.pageSize r, number * c.pageSize r⟩ : Page).rows rows) =
      rows.take ((last + 1) * c.pageSize r)
  disjoint : ∀ {α : Type} (rows : List α), rows.Nodup → ∀ a b, a ≠ b →
    ((⟨c.pageSize r, a * c.pageSize r⟩ : Page).rows rows).Disjoint ((⟨c.pageSize r, b * c.pageSize r⟩ : Page).rows rows)

/-- A listing has pages, and the other modes have none: neither a count query, nor anything after the inner query but
what it is grouped and ordered by. -/
structure Compiler.Pages (c : Compiler) (r : Request) (q : CompiledQuery) (inner : String) : Prop where
  listing : r.query.across = .values → ∃ body, c.Listing r q inner body
  whole : ∀ closing ∈ r.query.across.closing?,
    q.countSql = none ∧ ∃ items, q.sql = "SELECT " ++ items ++ " FROM (\n" ++ inner ++ "\n" ++ closing

namespace Query

variable {q : Query} {p : Pipeline} {size : UInt64} {shape : OutputShape}

def listedRatings (q : Query) (p : Pipeline) : Except Error (Option (List Expr)) :=
  if q.ratings.isEmpty then .ok none else (q.ratingConditions p).map some

theorem shape_of_values (hacross : q.across = .values) :
    q.shape p size = Page.new q.page.toNat (q.pageSize.getD size).toNat >>= fun page =>
      (q.listedRatings p).map fun ratings => .values (ListingOrder.ofQuery q p).terms page ratings := by
  simp only [Query.shape, hacross, listedRatings]
  congr 1
  funext page
  by_cases hr : q.ratings.isEmpty = true
  · rw [if_pos hr, if_pos hr]
    rfl
  · rw [if_neg hr, if_neg hr]
    cases q.ratingConditions p <;> rfl

theorem listedRatings_eq_ok {ratings : Option (List Expr)} (h : q.listedRatings p = .ok ratings) :
    ratings = none ↔ q.ratings = [] := by
  unfold listedRatings at h
  split at h
  · rename_i hr
    cases h
    simpa using hr
  · rename_i hr
    obtain ⟨conditions, -, rfl⟩ := Except.map_eq_ok.1 h
    simpa using hr

theorem exists_ratings_of_shape (hacross : q.across = .values) (h : q.shape p size = .ok shape) :
    ∃ ratings, (ratings = none ↔ q.ratings = []) ∧ (∃ page, Page.new q.page.toNat (q.pageSize.getD size).toNat = .ok page) ∧
      ∀ number : UInt64, ({ q with page := number } : Query).shape p size =
        (Page.new number.toNat (q.pageSize.getD size).toNat).map fun page =>
          .values (ListingOrder.ofQuery q p).terms page ratings := by
  rw [shape_of_values hacross] at h
  obtain ⟨page, hpage, h⟩ := Except.bind_eq_ok.1 h
  obtain ⟨ratings, hratings, -⟩ := Except.map_eq_ok.1 h
  refine ⟨ratings, listedRatings_eq_ok hratings, ⟨page, hpage⟩, fun number => ?_⟩
  have hsame : ({ q with page := number } : Query).listedRatings p = .ok ratings := hratings
  rw [shape_of_values (q := { q with page := number }) hacross, hsame]
  cases Page.new number.toNat (q.pageSize.getD size).toNat <;> rfl

end Query

namespace Compilation

variable {c : Compiler} {r : Request} (k : Compilation c r)

theorem plan_onPage {number : UInt64} {shape : OutputShape}
    (h : (r.onPage number).query.shape k.pipeline c.settings.defaultPageSize = .ok shape) :
    c.plan (r.onPage number) = .ok { k.plan with shape := shape } := by
  let k' : Compilation c (r.onPage number) :=
    ⟨k.pipeline, shape, k.stack, k.runTerms, k.runWarnings, k.progress, k.clauses, k.assembled, h, k.stacked, k.ranOver,
      k.added, k.posed⟩
  exact k'.plan_eq_ok

theorem compile_onPage_eq_error {number : UInt64} {e : Error}
    (h : (r.onPage number).query.shape k.pipeline c.settings.defaultPageSize = .error e) :
    c.compile (r.onPage number) = .error e := by
  have hassembled : Pipeline.assemble (r.onPage number).pipeline (r.onPage number).query = .ok k.pipeline := k.assembled
  have hplan : c.plan (r.onPage number) = .error e := by
    simp only [Compiler.plan, hassembled, h, bind, Except.bind]
  rw [Compiler.compile, hplan]
  rfl

end Compilation

theorem selectAll_eq (inner closing : String) :
    selectAll inner closing = "SELECT " ++ "*" ++ " FROM (\n" ++ inner ++ "\n" ++ closing := by
  unfold selectAll
  simp only [String.reduceAppend]

theorem Sql.Layer.around_all {l : Layer} (h : l.items = [.all none]) (inner : String) :
    l.around inner = selectAll inner l.closing := by
  have hall : ", ".intercalate (l.items.map Projection.text) = "*" := by
    rw [h]
    decide
  rw [around, hall, selectAll_eq]

namespace OutputShape

theorem text_tokens_of_closing {q : Query} {p : Pipeline} {shape : OutputShape} (h : q.Shaped p shape) {closing : String}
    (hclosing : q.across.closing? = some closing) (stages : ℕ) (inner : List Token) :
    shape.page? = none ∧
      ∃ items, text (shape.tokens stages inner) = "SELECT " ++ items ++ " FROM (\n" ++ text inner ++ "\n" ++ closing := by
  have hlayer (l : Layer) (hl : l.closing = closing) : ∃ items,
      text (l.tokens inner ++ []) = "SELECT " ++ items ++ " FROM (\n" ++ text inner ++ "\n" ++ closing :=
    ⟨", ".intercalate (l.items.map Projection.text), by rw [List.append_nil, l.text_tokens, Layer.around, hl]⟩
  cases h with
  | velocity hacross | trend hacross | stack hacross | histogram hacross | rating hacross =>
    rw [hacross] at hclosing
    cases hclosing
    exact ⟨rfl, hlayer _ rfl⟩
  | listing hacross | rated hacross =>
    rw [hacross] at hclosing
    cases hclosing

theorem text_body_values (terms : List OrderTerm) (page : Page) (ratings : Option (List Expr)) (stages : ℕ)
    (inner : List Token) :
    text ((OutputShape.values terms page ratings).body stages inner) =
      listingBody (text inner) (", ".intercalate (terms.map OrderTerm.text))
        (ratings.map fun conditions => (Expr.anyOf conditions).text) := by
  let ordered : Layer := ⟨[.all none], "enrich", none, [], some terms⟩
  have hordered : ordered.around (text inner) =
      selectAll (text inner) (") AS enrich ORDER BY " ++ ", ".intercalate (terms.map OrderTerm.text)) := by
    have hclosing : ordered.closing = ") AS enrich ORDER BY " ++ ", ".intercalate (terms.map OrderTerm.text) := by
      simp [ordered, Layer.closing, ← String.append_assoc]
    rw [Layer.around_all rfl, hclosing]
  rw [body, text_stacked]
  cases ratings with
  | none => exact hordered
  | some conditions =>
    let restricted : Layer := ⟨[.all none], "histo", some (.anyOf conditions), [], none⟩
    have hclosing : restricted.closing = ") AS histo WHERE " ++ (Expr.anyOf conditions).text := by
      simp [restricted, Layer.closing, ← String.append_assoc]
    have hbody : restricted.around (ordered.around (text inner)) =
        selectAll (ordered.around (text inner)) restricted.closing := Layer.around_all rfl _
    rw [hordered, hclosing] at hbody
    exact hbody

end OutputShape

theorem Plan.query_of_values {p : Plan} {terms : List OrderTerm} {page : Page} {ratings : Option (List Expr)}
    (h : p.shape = .values terms page ratings) {body : String}
    (hbody : body = listingBody (text p.layers.tokens) (", ".intercalate (terms.map OrderTerm.text))
      (ratings.map fun conditions => (Expr.anyOf conditions).text)) :
    p.query.sql = body ++ "\nLIMIT " ++ toString page.limit ++ " OFFSET " ++ toString page.offset ∧
      p.query.countSql = some (counting body) := by
  have htext : text (p.shape.body p.pipeline.stages.length p.layers.tokens) = body := by
    rw [h, OutputShape.text_body_values, hbody]
  have hsql : p.query.sql = text (p.shape.body p.pipeline.stages.length p.layers.tokens) ++ p.shape.pageText :=
    p.shape.text_tokens _ _
  have hcounted : p.query.countSql = some (text (OutputShape.countLayer.tokens
      (p.shape.body p.pipeline.stages.length p.layers.tokens))) := by
    simp only [Plan.query, Plan.countTokens, OutputShape.countTokens, h, OutputShape.page?, Option.map_some]
  have hpage : p.shape.pageText = "\nLIMIT " ++ toString page.limit ++ " OFFSET " ++ toString page.offset := by
    rw [h]
    rfl
  rw [OutputShape.text_countLayer, htext] at hcounted
  rw [htext, hpage] at hsql
  exact ⟨by rw [hsql]; simp only [String.append_assoc], hcounted⟩

namespace Compilation

variable {c : Compiler} {r : Request} (k : Compilation c r)

theorem compile_onPage_eq_ok {number : UInt64} {terms : List OrderTerm} {page : Page} {ratings : Option (List Expr)}
    (h : (r.onPage number).query.shape k.pipeline c.settings.defaultPageSize = .ok (.values terms page ratings))
    {body : String} (hbody : body = listingBody (text k.plan.layers.tokens)
      (", ".intercalate (terms.map OrderTerm.text)) (ratings.map fun conditions => (Expr.anyOf conditions).text)) :
    c.compile (r.onPage number) = .ok { k.plan.query with
      sql := body ++ "\nLIMIT " ++ toString page.limit ++ " OFFSET " ++ toString page.offset
      countSql := some (counting body) } := by
  obtain ⟨hsql, hcounted⟩ := Plan.query_of_values (p := { k.plan with shape := .values terms page ratings }) rfl hbody
  rw [Compiler.compile, k.plan_onPage h, ← hsql, ← hcounted]
  rfl

theorem listing (hacross : r.query.across = .values) : ∃ body, c.Listing r k.plan.query (text k.plan.layers.tokens) body := by
  obtain ⟨ratings, hratings, ⟨page, hpage⟩, hshape⟩ := Query.exists_ratings_of_shape hacross k.shaped
  let terms := (ListingOrder.ofQuery r.query k.pipeline).terms
  let order := ", ".intercalate (terms.map OrderTerm.text)
  let filter := ratings.map fun conditions => (Expr.anyOf conditions).text
  let body := listingBody (text k.plan.layers.tokens) order filter
  have hself : k.plan.shape = .values terms page ratings := by
    have hsame := k.shaped.symm.trans (hshape r.query.page)
    rw [hpage] at hsame
    exact Except.ok.inj hsame
  have hcounted : k.plan.query.countSql = some (counting body) := (k.plan.query_of_values hself rfl).2
  have hsize : 0 < c.pageSize r := (Page.new_eq_ok_iff.1 hpage).1
  refine ⟨body, ⟨order, filter, rfl, by simpa [filter] using hratings⟩, hcounted, hsize, ?page, ?outOfRange, ?tiles, ?disjoint⟩
  case page =>
    intro number hnumber
    have hnew : Page.new number.toNat (c.pageSize r) = .ok ⟨c.pageSize r, number.toNat * c.pageSize r⟩ :=
      Page.new_eq_ok_iff.2 ⟨hsize, hnumber, rfl⟩
    have hother := (hshape number).trans (congrArg (Except.map _) hnew)
    rw [k.compile_onPage_eq_ok hother rfl, hcounted]
  case outOfRange =>
    intro number hnumber
    have hnew : Page.new number.toNat (c.pageSize r) = .error (.pageOutOfRange number.toNat (c.pageSize r)) :=
      Page.new_eq_error hsize hnumber
    exact k.compile_onPage_eq_error ((hshape number).trans (congrArg (Except.map _) hnew))
  case tiles => exact fun rows last => Page.flatMap_rows rows _ (last + 1)
  case disjoint => exact fun rows hrows a b hab => Page.disjoint_rows _ hrows hab

end Compilation

/-- A request that is compiled is compiled for every page, and what differs from page to page is where it starts. -/
theorem Compiler.pages_of_compile {c : Compiler} {r : Request} {q : CompiledQuery} (h : c.compile r = .ok q) :
    ∃ p, c.plan r = .ok p ∧ p.query = q ∧ c.Pages r q (text p.layers.tokens) := by
  obtain ⟨k, rfl⟩ := Compilation.of_compile h
  refine ⟨k.plan, k.plan_eq_ok, rfl, k.listing, fun closing hclosing => ?_⟩
  obtain ⟨hpage, items, hsql⟩ := OutputShape.text_tokens_of_closing (Query.shaped_of_eq_ok k.shaped) hclosing
    k.pipeline.stages.length k.plan.layers.tokens
  have hcounted : k.plan.query.countSql = none := by
    simp only [Plan.query, Plan.countTokens, OutputShape.countTokens, Option.map_eq_none_iff]
    exact hpage
  exact ⟨hcounted, items, hsql⟩

theorem Compiler.pages_listing : ∃ q p body, (⟨.standard, .criteria⟩ : Compiler).compile .listing = .ok q ∧
    (⟨.standard, .criteria⟩ : Compiler).plan .listing = .ok p ∧
    (⟨.standard, .criteria⟩ : Compiler).Listing .listing q (text p.layers.tokens) body ∧
    (⟨.standard, .criteria⟩ : Compiler).compile (Request.listing.onPage 3) =
      .ok { q with sql := body ++ "\nLIMIT 10 OFFSET 30" } := by
  obtain ⟨q, hq⟩ := Compiler.exists_compile_eq_ok Request.isOk_plan_listing
  obtain ⟨p, hp, -, hpages⟩ := Compiler.pages_of_compile hq
  obtain ⟨body, hlisting⟩ := hpages.listing rfl
  have hpage := hlisting.page 3 (by decide)
  have hwindow : body ++ "\nLIMIT " ++ toString 10 ++ " OFFSET " ++ toString 30 = body ++ "\nLIMIT 10 OFFSET 30" := by
    simp only [String.append_assoc]
    rfl
  exact ⟨q, p, body, hq, hp, hlisting, hwindow ▸ hpage⟩

end LeadTime

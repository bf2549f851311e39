import LeadTime.Binding
import LeadTime.Proofs.Sql.Leaves
import LeadTime.Proofs.Sql.Scan
import Mathlib

/-! Trees whose text reads back: no text in them holds a colon, and each placeholder is one name. Their tokens are
legible, since no tree puts a name character right after a placeholder. -/
namespace LeadTime.Sql

@[simp] theorem nameChars_append (s t : String) : NameChars (s ++ t) ↔ NameChars s ∧ NameChars t := by
  simp only [NameChars, String.toList_append, List.mem_append, or_imp, forall_and]

@[simp] theorem noColon_append (s t : String) : NoColon (s ++ t) ↔ NoColon s ∧ NoColon t := by
  simp [NoColon]

theorem NameChars.noColon {s : String} (h : NameChars s) : NoColon s :=
  fun hm => ne_colon_of_isNameChar (h _ hm) rfl

theorem IsName.append {s t : String} (hs : IsName s) (ht : NameChars t) : IsName (s ++ t) :=
  ⟨by simp [hs.1], (nameChars_append s t).2 ⟨hs.2, ht⟩⟩

theorem isNameChar_of_isDigit {c : Char} (h : c.isDigit = true) : isNameChar c = true := by
  simp [isNameChar, Char.isAlphanum, h]

theorem isDigit_of_mem_repr {n : Nat} {c : Char} (h : c ∈ n.repr.toList) : c.isDigit = true := by
  rw [Nat.toList_repr] at h
  exact Nat.isDigit_of_mem_toDigits (by decide) (by decide) h

theorem toList_repr_ne_nil (n : Nat) : n.repr.toList ≠ [] := by
  rw [Nat.toList_repr]
  exact Nat.toDigits_ne_nil

@[simp] theorem nameChars_repr (n : Nat) : NameChars n.repr :=
  fun _ hc => isNameChar_of_isDigit (isDigit_of_mem_repr hc)

theorem isName_repr (n : Nat) : IsName n.repr :=
  ⟨fun h => toList_repr_ne_nil n (by simp [h]), nameChars_repr n⟩

@[simp] theorem noColon_repr (n : Nat) : NoColon n.repr := (nameChars_repr n).noColon

@[simp] theorem noColon_toString_int (n : Int) : NoColon (toString n) := by
  cases n with
  | ofNat m => exact noColon_repr m
  | negSucc m =>
    have h : toString (Int.negSucc m) = "-" ++ toString (m + 1) := rfl
    rw [h, noColon_append]
    exact ⟨by decide, noColon_repr _⟩

section Tokens

variable {a b : List Token} {t : Token}

def Leads (tokens : List Token) : Prop := ∀ t ∈ tokens.head?, t.stops = true

instance (tokens : List Token) : Decidable (Leads tokens) :=
  inferInstanceAs (Decidable (∀ t ∈ tokens.head?, t.stops = true))

@[simp] theorem leads_nil : Leads [] := by simp [Leads]

@[simp] theorem leads_cons (t : Token) (rest : List Token) : Leads (t :: rest) ↔ t.stops = true := by
  simp [Leads]

theorem Legible.nil : Legible [] := ⟨by simp, .nil⟩

theorem Legible.append (ha : Legible a) (hb : Legible b) (h : Leads b) : Legible (a ++ b) := by
  refine ⟨fun t ht => ?_, List.isChain_append.2 ⟨ha.apart, hb.apart, fun _ _ t ht => Or.inr (h t ht)⟩⟩
  rcases List.mem_append.1 ht with ht | ht
  · exact ha.each t ht
  · exact hb.each t ht

theorem Legible.cons (h : t.Legible) (hp : t.placeholder? = none) (hb : Legible b) : Legible (t :: b) := by
  refine ⟨?_, List.isChain_cons.2 ⟨fun _ _ => Or.inl hp, hb.apart⟩⟩
  rintro u (_ | ⟨_, hu⟩)
  · exact h
  · exact hb.each u hu

theorem Legible.fixed {s : String} (h : NoColon s) (hb : Legible b) : Legible (.fixed s :: b) :=
  .cons (Or.inl h) rfl hb

theorem Legible.singleton (h : t.Legible) : Legible [t] := ⟨by simpa using h, by simp⟩

theorem Legible.separated {separator : String} (hs : NoColon separator)
    (ht : (Token.fixed separator).stops = true) {parts : List (List Token)} (h : ∀ part ∈ parts, Legible part) :
    Legible (separated separator parts) := by
  induction parts with
  | nil => exact .nil
  | cons part rest ih =>
    rw [List.forall_mem_cons] at h
    cases rest with
    | nil => exact h.1
    | cons next rest => exact h.1.append (.fixed hs (ih h.2)) (by simpa using ht)

theorem Legible.flatMap {α : Type} {f : α → List Token} {items : List α} (h : ∀ i ∈ items, Legible (f i))
    (hl : ∀ i ∈ items, Leads (f i) ∧ f i ≠ []) : Legible (items.flatMap f) := by
  induction items with
  | nil => exact .nil
  | cons i rest ih =>
    rw [List.forall_mem_cons] at h hl
    refine h.1.append (ih h.2 hl.2) ?_
    cases rest with
    | nil => simp
    | cons j rest =>
      obtain ⟨hj, hne⟩ := hl.2 j List.mem_cons_self
      obtain ⟨t, ts, ht⟩ := List.exists_cons_of_ne_nil hne
      simpa [ht] using hj

end Tokens

theorem Operator.noColon_text (op : Operator) : NoColon op.text := by cases op <;> decide

theorem Operator.stops_text (op : Operator) : (Token.fixed op.text).stops = true := by
  cases op <;> decide

namespace Expr

/-- No text in the tree holds a colon, and each placeholder is a name. -/
@[simp] def Legible : Expr → Prop
  | .null | .now | .star | .number _ => True
  | .quoted s | .name s | .verbatim s => NoColon s
  | .column t c => NoColon t ∧ NoColon c
  | .placeholder p => IsName p
  | .call f a => NoColon f ∧ a.Legible
  | .percentile f e => NoColon f ∧ e.Legible
  | .group e | .isNull e | .isNotNull e | .epoch e | .choice e | .otherwise e => e.Legible
  | .cast e type => (type ≠ "" ∧ NoColon type) ∧ e.Legible
  | .binary _ l r => l.Legible ∧ r.Legible
  | .arm c v rest => c.Legible ∧ v.Legible ∧ rest.Legible ∧ Leads rest.tokens

@[simp] theorem legible_chain (op : Operator) (es : List Expr) :
    (chain op es).Legible ↔ ∀ e ∈ es, e.Legible := by
  induction es with
  | nil => simpa [chain] using by decide
  | cons e rest ih =>
    cases rest with
    | nil => simp [chain]
    | cons next rest =>
      rw [List.forall_mem_cons, ← ih]
      rfl

theorem Legible.tokens {e : Expr} (h : e.Legible) : Sql.Legible e.tokens := by
  induction e with
  | null | now | star => exact .singleton (Or.inl (by decide))
  | number n => exact .singleton (Or.inl (noColon_toString_int n))
  | quoted s =>
    refine .singleton ?_
    have h : NoColon ("'" ++ s ++ "'") := by
      rw [noColon_append, noColon_append]
      exact ⟨⟨by decide, h⟩, by decide⟩
    exact h
  | name | verbatim => exact .singleton h
  | column t c =>
    refine .singleton ?_
    have h : NoColon (t ++ "." ++ c) := by
      rw [noColon_append, noColon_append]
      exact ⟨⟨h.1, by decide⟩, h.2⟩
    exact h
  | placeholder p => exact .singleton h
  | call f a ih =>
    have hf : NoColon (f ++ "(") := (noColon_append _ _).2 ⟨h.1, by decide⟩
    exact .fixed hf ((ih h.2).append (.singleton (Or.inl (by decide))) (by decide))
  | percentile f e ih =>
    have hf : NoColon ("PERCENTILE_CONT(" ++ f ++ ") WITHIN GROUP (ORDER BY ") := by
      rw [noColon_append, noColon_append]
      exact ⟨⟨by decide, h.1⟩, by decide⟩
    exact .fixed hf ((ih h.2).append (.singleton (Or.inl (by decide))) (by decide))
  | group e ih => exact .fixed (by decide) ((ih h).append (.singleton (Or.inl (by decide))) (by decide))
  | epoch e ih => exact .fixed (by decide) ((ih h).append (.singleton (Or.inl (by decide))) (by decide))
  | choice e ih => exact .fixed (by decide) ((ih h).append (.singleton (Or.inl (by decide))) (by decide))
  | otherwise e ih => exact .fixed (by decide) (ih h)
  | isNull e ih => exact (ih h).append (.singleton (Or.inl (by decide))) (by decide)
  | isNotNull e ih => exact (ih h).append (.singleton (Or.inl (by decide))) (by decide)
  | cast e type ih =>
    refine (ih h.2).append (.singleton (Or.inr ⟨type, h.1.1, h.1.2, rfl⟩)) ?_
    simp [Token.stops, Token.text, show isNameChar ':' = false by decide]
  | binary op l r ihl ihr =>
    exact (ihl h.1).append (.fixed op.noColon_text (ihr h.2)) (by simpa using op.stops_text)
  | arm c v rest ihc ihv ihr =>
    obtain ⟨hc, hv, hr, hl⟩ := h
    have hvr : Sql.Legible (.fixed " THEN " :: (v.tokens ++ rest.tokens)) :=
      .fixed (by decide) ((ihv hv).append (ihr hr) hl)
    simp only [Expr.tokens, List.cons_append, List.append_assoc]
    exact .fixed (by decide) ((ihc hc).append hvr (by simp; decide))

end Expr

def Projection.Legible : Projection → Prop
  | .name c => NoColon c
  | .column t c => NoColon t ∧ NoColon c
  | .named e n => e.Legible ∧ NoColon n
  | .all none | .blank => True
  | .all (some t) => NoColon t
  | .unnamed e => e.Legible

namespace Projection

variable (e : Expr) (s t : String)

@[simp] theorem legible_name : (name s).Legible ↔ NoColon s := Iff.rfl
@[simp] theorem legible_column : (column t s).Legible ↔ NoColon t ∧ NoColon s := Iff.rfl
@[simp] theorem legible_named : (named e s).Legible ↔ e.Legible ∧ NoColon s := Iff.rfl
@[simp] theorem legible_all_none : (all none).Legible ↔ True := Iff.rfl
@[simp] theorem legible_all_some : (all (some t)).Legible ↔ NoColon t := Iff.rfl
@[simp] theorem legible_unnamed : (unnamed e).Legible ↔ e.Legible := Iff.rfl
@[simp] theorem legible_blank : blank.Legible ↔ True := Iff.rfl

end Projection

theorem Projection.Legible.tokens {p : Projection} (h : p.Legible) : Sql.Legible p.tokens := by
  cases p with
  | name c => exact .singleton h
  | column t c => exact Expr.Legible.tokens (e := .column t c) h
  | named e n => exact h.1.tokens.append (.fixed (by decide) (.singleton h.2)) (by simp; decide)
  | all t =>
    cases t with
    | none => exact .singleton (Or.inl (by decide))
    | some t => exact Expr.Legible.tokens (e := .column t "*") ⟨h, by decide⟩
  | unnamed e => exact Expr.Legible.tokens h
  | blank => exact .nil

theorem legible_selectList {items : List Projection} (h : ∀ i ∈ items, i.Legible) :
    Legible (selectList items) := by
  refine .fixed (by decide) (.separated (by decide) (by decide) fun part hp => ?_)
  obtain ⟨i, hi, rfl⟩ := List.mem_map.1 hp
  exact (h i hi).tokens

theorem legible_conditions {conditions : List Expr} (h : ∀ c ∈ conditions, c.Legible) :
    Legible (separated " AND " (conditions.map Expr.tokens)) := by
  refine .separated (by decide) (by decide) fun part hp => ?_
  obtain ⟨c, hc, rfl⟩ := List.mem_map.1 hp
  exact (h c hc).tokens

theorem legible_onAll {conditions : List Expr} (h : ∀ c ∈ conditions, c.Legible) :
    Legible (onAll conditions) :=
  .fixed (by decide) (legible_conditions h)

theorem legible_whereAll {keyword : String} (hk : NoColon keyword) {conditions : List Expr}
    (h : ∀ c ∈ conditions, c.Legible) : Legible (whereAll keyword conditions) := by
  cases conditions with
  | nil => exact .nil
  | cons c rest => exact .fixed hk (legible_conditions h)

theorem leads_whereAll {keyword : String} (hk : (Token.fixed keyword).stops = true) (conditions : List Expr) :
    Leads (whereAll keyword conditions) := by
  cases conditions with
  | nil => simp [whereAll]
  | cons c rest => simpa [whereAll] using hk

@[simp] def Table.Legible (t : Table) : Prop := NoColon t.schema ∧ NoColon t.name

theorem Table.Legible.tokens {t : Table} (h : t.Legible) : Sql.Legible t.tokens :=
  .cons (t := .verbatim t.schema) h.1 rfl (.fixed (by decide) (.singleton h.2))

theorem legible_as {name : String} (h : NoColon name) : Legible [.fixed " AS ", .name name] :=
  .fixed (by decide) (.singleton h)

@[simp] def TableJoin.Legible (j : TableJoin) : Prop :=
  j.table.Legible ∧ NoColon j.as ∧ ∀ c ∈ j.on, c.Legible

theorem Side.noColon_text (side : Side) : NoColon side.text := by cases side <;> decide

theorem TableJoin.Legible.tokens {j : TableJoin} (h : j.Legible) : Sql.Legible j.tokens :=
  ((Legible.fixed j.side.noColon_text h.1.tokens).append (legible_as h.2.1) (by simp; decide)).append
    (legible_onAll h.2.2) (by simp [onAll]; decide)

@[simp] def TableSelect.Legible (s : TableSelect) : Prop :=
  (∀ i ∈ s.items, i.Legible) ∧ s.table.Legible ∧ (∀ name ∈ s.as, NoColon name) ∧
    (∀ j ∈ s.joins, j.Legible) ∧ ∀ c ∈ s.conditions, c.Legible

theorem TableSelect.Legible.tokens {s : TableSelect} (h : s.Legible) : Sql.Legible s.tokens := by
  obtain ⟨hitems, htable, has, hjoins, hconditions⟩ := h
  have hfrom : Sql.Legible (selectList s.items ++ .fixed " FROM " :: s.table.tokens) :=
    (legible_selectList hitems).append (.fixed (by decide) htable.tokens) (by simp; decide)
  have hchain : Sql.Legible (s.joins.flatMap fun j => .fixed " " :: j.tokens) :=
    .flatMap (fun j hj => .fixed (by decide) (hjoins j hj).tokens) fun j _ => ⟨by simp; decide, by simp⟩
  have hlead : Leads (s.joins.flatMap fun j => .fixed " " :: j.tokens) := by
    cases s.joins with
    | nil => simp
    | cons j rest => simp; decide
  have hall (named : List Token) (hnamed : Sql.Legible (selectList s.items ++ .fixed " FROM " :: s.table.tokens ++ named)) :
      Sql.Legible (selectList s.items ++ .fixed " FROM " :: s.table.tokens ++ named ++
        (s.joins.flatMap fun j => .fixed " " :: j.tokens) ++ whereAll " WHERE " s.conditions) :=
    (hnamed.append hchain hlead).append (legible_whereAll (by decide) hconditions) (leads_whereAll (by decide) _)
  unfold TableSelect.tokens
  cases ha : s.as with
  | none => exact hall [] (by simpa using hfrom)
  | some name => exact hall _ (hfrom.append (legible_as (has name ha)) (by simp; decide))

@[simp] def PairedSelect.Legible (s : PairedSelect) : Prop :=
  (∀ i ∈ s.items, i.Legible) ∧ s.left.Legible ∧ NoColon s.leftAs ∧ s.right.Legible ∧
    NoColon s.rightAs ∧ ∀ c ∈ s.on, c.Legible

theorem PairedSelect.Legible.tokens {s : PairedSelect} (h : s.Legible) : Sql.Legible s.tokens := by
  obtain ⟨hitems, hleft, hleftAs, hright, hrightAs, hon⟩ := h
  have hclose {name : String} (hn : NoColon name) : Sql.Legible [.fixed ") AS ", .name name] :=
    .fixed (by decide) (.singleton hn)
  have hl : Sql.Legible (selectList s.items ++ .fixed " FROM (" :: s.left.tokens) :=
    (legible_selectList hitems).append (.fixed (by decide) hleft.tokens) (by simp; decide)
  have hr : Sql.Legible (.fixed " INNER JOIN (" :: s.right.tokens) := .fixed (by decide) hright.tokens
  exact (((hl.append (hclose hleftAs) (by simp; decide)).append hr (by simp; decide)).append
    (hclose hrightAs) (by simp; decide)).append (legible_onAll hon) (by simp [onAll]; decide)

def Source.Legible : Source → Prop
  | .table t => t.Legible
  | .select s => s.Legible
  | .paired s => s.Legible

@[simp] theorem Source.legible_table (t : Table) : (table t).Legible ↔ t.Legible := Iff.rfl
@[simp] theorem Source.legible_select (s : TableSelect) : (select s).Legible ↔ s.Legible := Iff.rfl
@[simp] theorem Source.legible_paired (s : PairedSelect) : (paired s).Legible ↔ s.Legible := Iff.rfl

theorem Source.Legible.tokens {s : Source} (h : s.Legible) : Sql.Legible s.tokens := by
  have hclose : Sql.Legible [.fixed ")"] := .singleton (Or.inl (by decide))
  cases s with
  | table t => exact Table.Legible.tokens h
  | select s => exact .fixed (by decide) ((TableSelect.Legible.tokens h).append hclose (by simp; decide))
  | paired s => exact .fixed (by decide) ((PairedSelect.Legible.tokens h).append hclose (by simp; decide))

def JoinLine.Legible : JoinLine → Prop
  | .join _ source as on => source.Legible ∧ NoColon as ∧ ∀ c ∈ on, c.Legible
  | .verbatim text => NoColon text

@[simp] theorem JoinLine.legible_join (side : Side) (source : Source) (as : String) (on : List Expr) :
    (join side source as on).Legible ↔ source.Legible ∧ NoColon as ∧ ∀ c ∈ on, c.Legible := Iff.rfl

theorem JoinLine.Legible.tokens {l : JoinLine} (h : l.Legible) : Sql.Legible l.tokens := by
  cases l with
  | join side source as on =>
    exact ((Sql.Legible.fixed side.noColon_text h.1.tokens).append (legible_as h.2.1) (by simp; decide)).append
      (legible_onAll h.2.2) (by simp [onAll]; decide)
  | verbatim text => exact .singleton h

@[simp] def OrderTerm.Legible (o : OrderTerm) : Prop := o.key.Legible ∧ ∀ d ∈ o.direction, NoColon d

theorem OrderTerm.Legible.tokens {o : OrderTerm} (h : o.Legible) : Sql.Legible o.tokens := by
  refine (h.1.tokens.append ?_ ?_).append ?_ ?_
  · cases hd : o.direction with
    | none => exact .nil
    | some d => exact .singleton (Or.inl ((noColon_append _ _).2 ⟨by decide, h.2 d hd⟩))
  · cases o.direction with
    | none => simp
    | some d => simp [Token.stops, Token.text, show isNameChar ' ' = false by decide]
  · cases o.nullsLast with
    | false => exact .nil
    | true => exact .singleton (Or.inl (by decide))
  · cases o.nullsLast <;> decide

@[simp] def Layer.Legible (l : Layer) : Prop :=
  (∀ i ∈ l.items, i.Legible) ∧ NoColon l.as ∧ (∀ c ∈ l.condition, c.Legible) ∧
    (∀ c ∈ l.groupBy, NoColon c) ∧ ∀ terms ∈ l.orderBy, ∀ o ∈ terms, o.Legible

theorem Layer.Legible.tokens {l : Layer} (h : l.Legible) {inner : List Token} (hi : Sql.Legible inner) :
    Sql.Legible (l.tokens inner) := by
  obtain ⟨hitems, has, hcondition, hgroup, horder⟩ := h
  have hfrom : Sql.Legible (selectList l.items ++ .fixed " FROM (\n" :: inner ++ [.fixed "\n) AS ", .name l.as]) :=
    ((legible_selectList hitems).append (.fixed (by decide) hi) (by simp; decide)).append
      (.fixed (by decide) (.singleton has)) (by simp; decide)
  refine ((hfrom.append ?_ ?_).append ?_ ?_).append ?_ ?_
  · cases hc : l.condition with
    | none => exact .nil
    | some c => exact .fixed (by decide) (hcondition c hc).tokens
  · cases l.condition <;> simp; decide
  · cases hg : l.groupBy with
    | nil => exact .nil
    | cons column rest =>
      refine .fixed (by decide) (.separated (by decide) (by decide) fun part hp => ?_)
      obtain ⟨c, hc, rfl⟩ := List.mem_map.1 hp
      exact .singleton (hgroup c (by simpa [hg] using hc))
  · cases l.groupBy <;> simp; decide
  · cases ho : l.orderBy with
    | none => exact .nil
    | some terms =>
      refine .fixed (by decide) (.separated (by decide) (by decide) fun part hp => ?_)
      obtain ⟨o, hm, rfl⟩ := List.mem_map.1 hp
      exact (horder terms ho o hm).tokens
  · cases l.orderBy <;> simp; decide

theorem legible_stacked {layers : List Layer} (h : ∀ l ∈ layers, l.Legible) {inner : List Token}
    (hi : Legible inner) : Legible (stacked layers inner) := by
  induction layers generalizing inner with
  | nil => exact hi
  | cons l rest ih =>
    rw [List.forall_mem_cons] at h
    exact ih h.2 (h.1.tokens hi)

end LeadTime.Sql

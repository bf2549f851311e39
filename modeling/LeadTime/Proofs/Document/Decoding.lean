import LeadTime.Document.Decoder
import LeadTime.Document.Json
import LeadTime.Proofs.Bindings
import LeadTime.Request.Encode
import Mathlib

/-! Decoding what holds a datum. A node that holds a datum answers every question as the datum does, so that a decoder
yields the same from all nodes that hold it; `Yields` says what, for each of the ways in which decoders are put
together. -/
namespace LeadTime

/-- The node is a way of writing the datum. -/
def Node.Holds {ν : Type} [Node ν] (node : ν) (d : Datum) : Prop := Node.datum? node = some d

open Node (Holds)

def Node.HoldsEntry {ν : Type} [Node ν] (pair : String × ν) (entry : String × Datum) : Prop :=
  pair.1 = entry.1 ∧ Holds pair.2 entry.2

open Node (HoldsEntry)

/-- Nodes that answer as the data do that they hold. -/
class LawfulNode (ν : Type) [Node ν] : Prop where
  null? {node : ν} {d : Datum} (h : Holds node d) : Node.null? node = some d.isNull
  bool? {node : ν} {d : Datum} (h : Holds node d) : Node.bool? node = d.bool?
  int? {node : ν} {d : Datum} (h : Holds node d) : Node.int? node = d.int?
  nat? {node : ν} {d : Datum} (h : Holds node d) : Node.nat? node = d.nat?
  text? {node : ν} {d : Datum} (h : Holds node d) : Node.text? node = d.text?
  word? {node : ν} {d : Datum} (h : Holds node d) : Node.word? node = d.word?
  list? {node : ν} {d : Datum} (h : Holds node d) : Option.Rel (List.Forall₂ Holds) (Node.list? node) d.list?
  map? {node : ν} {d : Datum} (h : Holds node d) : Option.Rel (List.Forall₂ HoldsEntry) (Node.map? node) d.map?

instance : LawfulNode Datum where
  null? h := by cases h; rfl
  bool? h := by cases h; rfl
  int? h := by cases h; rfl
  nat? h := by cases h; rfl
  text? h := by cases h; rfl
  word? h := by cases h; rfl
  list? {node d} h := by
    cases h
    show Option.Rel _ node.list? node.list?
    cases node.list? with
    | none => exact .none
    | some items => exact .some (List.forall₂_same.2 fun _ _ => rfl)
  map? {node d} h := by
    cases h
    show Option.Rel _ node.map? node.map?
    cases node.map? with
    | none => exact .none
    | some entries => exact .some (List.forall₂_same.2 fun _ _ => ⟨rfl, rfl⟩)

namespace Json

theorem forall₂_of_itemData? {items : List Json} {ds : List Datum} (h : itemData? items = some ds) :
    List.Forall₂ Holds items ds := by
  induction items generalizing ds with
  | nil => cases h; exact .nil
  | cons item rest ih =>
    simp only [itemData?, Option.bind_eq_bind, Option.bind_eq_some_iff] at h
    obtain ⟨d, hd, ds', hds, h⟩ := h
    cases h
    exact .cons hd (ih hds)

theorem forall₂_of_entryData? {entries : List (String × Json)} {ds : List (String × Datum)}
    (h : entryData? entries = some ds) : List.Forall₂ HoldsEntry entries ds := by
  induction entries generalizing ds with
  | nil => cases h; exact .nil
  | cons entry rest ih =>
    simp only [entryData?, Option.bind_eq_bind, Option.bind_eq_some_iff] at h
    obtain ⟨d, hd, ds', hds, h⟩ := h
    cases h
    exact .cons ⟨rfl, hd⟩ (ih hds)

inductive Writes : Json → Datum → Prop
  | null : Writes .null .null
  | bool (b : Bool) : Writes (.bool b) (.bool b)
  | int (n : ℤ) : Writes (.int n) (.int n)
  | float (bits : UInt64) : Writes (.float bits) (.float bits)
  | text (s : String) : Writes (.text s) (.text s)
  | list {items : List Json} {ds : List Datum} (h : List.Forall₂ Holds items ds) : Writes (.list items) (.list ds)
  | map {entries : List (String × Json)} {ds : List (String × Datum)} (h : List.Forall₂ HoldsEntry entries ds) :
    Writes (.map entries) (.map ds)

theorem writes_of_holds {j : Json} {d : Datum} (h : Holds j d) : Writes j d := by
  cases j with
  | null => cases h; exact .null
  | bool b => cases h; exact .bool b
  | int n => cases h; exact .int n
  | float bits => cases h; exact .float bits
  | text s => cases h; exact .text s
  | list items =>
    obtain ⟨ds, hds, rfl⟩ := Option.map_eq_some_iff.1 h
    exact .list (forall₂_of_itemData? hds)
  | map entries =>
    obtain ⟨ds, hds, rfl⟩ := Option.map_eq_some_iff.1 h
    exact .map (forall₂_of_entryData? hds)
  | void => cases h

theorem Writes.word? {j : Json} {d : Datum} (h : Writes j d) : j.word? = d.word? := by
  cases h with
  | map h =>
    -- A word is the only key of a map with nothing for it.
    rcases h with _ | ⟨⟨hkey, hvalue⟩, _ | ⟨hnext, hrest⟩⟩
    · rfl
    · rename_i pair entry
      obtain ⟨key, value⟩ := pair
      obtain ⟨key', d⟩ := entry
      cases hkey
      cases writes_of_holds hvalue <;> rfl
    · simp [Json.word?, Datum.word?]
  | _ => rfl

instance : LawfulNode Json where
  null? h := by cases writes_of_holds h <;> rfl
  bool? h := by cases writes_of_holds h <;> rfl
  int? h := by cases writes_of_holds h <;> rfl
  nat? h := by cases writes_of_holds h <;> rfl
  text? h := by cases writes_of_holds h <;> rfl
  word? h := (writes_of_holds h).word?
  list? h := by
    cases writes_of_holds h with
    | list hitems => exact .some hitems
    | _ => exact .none
  map? h := by
    cases writes_of_holds h with
    | map hentries => exact .some hentries
    | _ => exact .none

mutual

def ofDatum : Datum → Json
  | .null => .null
  | .bool b => .bool b
  | .int n => .int n
  | .float bits => .float bits
  | .text s => .text s
  | .list items => .list (ofItems items)
  | .map entries => .map (ofEntries entries)

def ofItems : List Datum → List Json
  | [] => []
  | item :: rest => ofDatum item :: ofItems rest

def ofEntries : List (String × Datum) → List (String × Json)
  | [] => []
  | (key, value) :: rest => (key, ofDatum value) :: ofEntries rest

end

mutual

theorem datum?_ofDatum : (d : Datum) → (ofDatum d).datum? = some d
  | .list items => by rw [ofDatum, datum?, itemData?_ofItems items, Option.map_some]
  | .map entries => by rw [ofDatum, datum?, entryData?_ofEntries entries, Option.map_some]
  | .null | .bool _ | .int _ | .float _ | .text _ => by rw [ofDatum, datum?]

theorem itemData?_ofItems : (items : List Datum) → itemData? (ofItems items) = some items
  | [] => by rw [ofItems, itemData?]
  | item :: rest => by simp [ofItems, itemData?, datum?_ofDatum item, itemData?_ofItems rest]

theorem entryData?_ofEntries : (entries : List (String × Datum)) → entryData? (ofEntries entries) = some entries
  | [] => by rw [ofEntries, entryData?]
  | (_, value) :: rest => by simp [ofEntries, entryData?, datum?_ofDatum value, entryData?_ofEntries rest]

end

theorem holds_ofDatum (d : Datum) : Holds (ofDatum d) d := datum?_ofDatum d

end Json

namespace Decoder

variable {ν : Type} [Node ν] {α : Type}

/-- From every node that holds the datum, the decoder yields this. -/
def Yields (decode : ν → Option α) (d : Datum) (result : Option α) : Prop :=
  ∀ node, Holds node d → decode node = result

variable [LawfulNode ν]

section Scalars

theorem yields_text (d : Datum) : Yields (ν := ν) text d d.text? := fun _ h => LawfulNode.text? h

theorem yields_bool (d : Datum) : Yields (ν := ν) bool d d.bool? := fun _ h => LawfulNode.bool? h

theorem yields_int64 (n : Int64) : Yields (ν := ν) int64 (.int n.toInt) (some n) := fun node h => by
  have hlow := n.le_toInt
  have hhigh := n.toInt_lt
  have hint : Node.int? node = some n.toInt := LawfulNode.int? h
  rw [int64, intWithin, hint, Option.filter_some_pos (by simp; omega), Option.map_some, Int64.ofInt_toInt]

theorem yields_int64_none {d : Datum} (hd : d.int? = none) : Yields (ν := ν) int64 d none := fun node h => by
  have hint : Node.int? node = none := (LawfulNode.int? h).trans hd
  rw [int64, intWithin, hint]
  rfl

theorem yields_int32 (n : Int32) : Yields (ν := ν) int32 (.int n.toInt) (some n) := fun node h => by
  have hlow := n.le_toInt
  have hhigh := n.toInt_lt
  have hint : Node.int? node = some n.toInt := LawfulNode.int? h
  rw [int32, intWithin, hint, Option.filter_some_pos (by simp; omega), Option.map_some, Int32.ofInt_toInt]

theorem yields_uint64 (n : UInt64) : Yields (ν := ν) uint64 (.ofNat n.toNat) (some n) := fun node h => by
  have hhigh := n.toNat_lt
  have hnat : Node.nat? node = some n.toNat := LawfulNode.nat? h
  rw [uint64, natWithin, hnat, Option.filter_some_pos (by simp; omega), Option.map_some, UInt64.ofNat_toNat]

theorem yields_uint32 (n : UInt32) : Yields (ν := ν) uint32 (.ofNat n.toNat) (some n) := fun node h => by
  have hhigh := n.toNat_lt
  have hnat : Node.nat? node = some n.toNat := LawfulNode.nat? h
  rw [uint32, natWithin, hnat, Option.filter_some_pos (by simp; omega), Option.map_some, UInt32.ofNat_toNat]

theorem yields_word {all : List α} {name : α → String} (hnames : (all.map name).Nodup) {a : α} (ha : a ∈ all) :
    Yields (ν := ν) (word all name) (.text (name a)) (some a) := fun node hnode => by
  have hword : Node.word? node = some (name a) := LawfulNode.word? hnode
  have hfind : (all.find? fun b => name b = name a) = some a := by
    have hsome : (all.find? fun b => name b = name a).isSome = true := List.find?_isSome.2 ⟨a, ha, by simp⟩
    obtain ⟨b, hb⟩ := Option.isSome_iff_exists.1 hsome
    rw [hb, List.inj_on_of_nodup_map hnames (List.mem_of_find?_eq_some hb) ha (by simpa using List.find?_some hb)]
  rw [word, hword]
  exact hfind

end Scalars

section Composed

variable {decode : ν → Option α} {encode : α → Datum}

theorem mapM_eq_some {β γ : Type} {f : β → Option γ} {items : List β} {results : List γ}
    (h : List.Forall₂ (fun b c => f b = some c) items results) : items.mapM f = some results := by
  induction h with
  | nil => rfl
  | cons hb _ ih => simp [List.mapM_cons, hb, ih]

theorem exists_of_rel {β γ : Type} {rel : β → γ → Prop} {b : Option β} {c : γ} (h : Option.Rel rel b (some c)) :
    ∃ b', b = some b' ∧ rel b' c := by
  cases h with
  | some h => exact ⟨_, rfl, h⟩

theorem exists_items {node : ν} {ds : List Datum} (h : Holds node (.list ds)) :
    ∃ items, Node.list? node = some items ∧ List.Forall₂ Holds items ds := exists_of_rel (LawfulNode.list? h)

theorem exists_entries {node : ν} {ds : List (String × Datum)} (h : Holds node (.map ds)) :
    ∃ entries, Node.map? node = some entries ∧ List.Forall₂ HoldsEntry entries ds := exists_of_rel (LawfulNode.map? h)

theorem yields_list (h : ∀ a, Yields decode (encode a) (some a)) (items : List α) :
    Yields (list decode) (.list (items.map encode)) (some items) := fun node hnode => by
  obtain ⟨nodes, hlist, hnodes⟩ := exists_items hnode
  have hitems := List.forall₂_map_right_iff.1 hnodes
  simp [list, hlist, mapM_eq_some (hitems.imp fun node a => h a node)]

theorem yields_list_of_list?_eq_none {d : Datum} (hd : d.list? = none) : Yields (list decode) d none :=
  fun node hnode => by
  have hlist : Option.Rel (List.Forall₂ Holds) (Node.list? node) none := hd ▸ LawfulNode.list? hnode
  rw [list]
  generalize Node.list? node = items at hlist
  cases hlist
  rfl

theorem yields_list_of_head {d : Datum} (h : Yields decode d none) (ds : List Datum) :
    Yields (list decode) (.list (d :: ds)) none := fun node hnode => by
  obtain ⟨nodes, hlist, _ | ⟨hfirst, hrest⟩⟩ := exists_items hnode
  simp [list, hlist, List.mapM_cons, h _ hfirst]

theorem yields_texts (texts : List String) : Yields (ν := ν) Decoder.texts (.ofTexts texts) (some texts) :=
  yields_list (fun s => yields_text (.text s)) texts

theorem yields_keyMap (h : ∀ a, Yields decode (encode a) (some a)) (m : KeyMap α) :
    Yields (keyMap decode) (.ofKeyMap encode m) (some m) := fun node hnode => by
  obtain ⟨entries, hmap, hentries⟩ := exists_entries hnode
  have hpairs : entries.mapM (fun pair => (decode pair.2).map (pair.1, ·)) = some m.entries := by
    refine mapM_eq_some ((List.forall₂_map_right_iff.1 hentries).imp fun pair entry hp => ?_)
    rw [h entry.2 pair.2 hp.2, hp.1]
    rfl
  simp [keyMap, hmap, hpairs, KeyMap.ofList_entries]

theorem yields_nullable (h : ∀ a, Yields decode (encode a) (some a)) (hnull : ∀ a, (encode a).isNull = false)
    (value : Option α) : Yields (nullable decode) (.ofOption encode value) (some value) := fun node hnode => by
  have hasked := LawfulNode.null? hnode
  cases value with
  | none =>
    rw [nullable, hasked]
    rfl
  | some a =>
    rw [nullable, hasked, Datum.ofOption, hnull, h a node hnode]
    rfl

end Composed

section Records

/-- A field of a record, or its absence, holds the datum that is written for it. -/
abbrev HoldsField (field : Option ν) (d : Option Datum) : Prop := Option.Rel Holds field d

omit [LawfulNode ν] in
theorem filter_eq_nil {entries : List (String × ν)} {ds : List (String × Datum)} {name : String}
    (h : List.Forall₂ HoldsEntry entries ds) (hname : name ∉ ds.map Prod.fst) :
    (entries.filter fun pair => pair.1 = name) = [] := by
  induction h with
  | nil => rfl
  | cons hpair _ ih =>
    simp only [List.map_cons, List.mem_cons, not_or] at hname
    rw [List.filter_cons_of_neg (by simpa [hpair.1] using Ne.symm hname.1), ih hname.2]

omit [LawfulNode ν] in
theorem field?_of_notMem {entries : List (String × ν)} {ds : List (String × Datum)} {name : String}
    (h : List.Forall₂ HoldsEntry entries ds) (hname : name ∉ ds.map Prod.fst) :
    field? entries name = some none := by
  rw [field?, filter_eq_nil h hname]

omit [LawfulNode ν] in
theorem field?_of_mem {entries : List (String × ν)} {ds : List (String × Datum)} {d : String × Datum}
    (h : List.Forall₂ HoldsEntry entries ds) (hnodup : (ds.map Prod.fst).Nodup) (hd : d ∈ ds) :
    ∃ node, field? entries d.1 = some (some node) ∧ Holds node d.2 := by
  induction h with
  | nil => simp at hd
  | @cons pair entry _ _ hpair hrest ih =>
    rw [List.map_cons, List.nodup_cons] at hnodup
    rcases List.mem_cons.1 hd with rfl | hd
    · refine ⟨pair.2, ?_, hpair.2⟩
      rw [field?, List.filter_cons_of_pos (by simp [hpair.1]), filter_eq_nil hrest hnodup.1]
    · have hne : entry.1 ≠ d.1 := fun he => hnodup.1 (he ▸ List.mem_map_of_mem hd)
      obtain ⟨node, hnode, hholds⟩ := ih hnodup.2 hd
      refine ⟨node, ?_, hholds⟩
      rw [field?, List.filter_cons_of_neg (by simpa [hpair.1] using hne)]
      exact hnode

theorem exists_mapM {β γ δ : Type} {f : β → Option γ} {rel : γ → δ → Prop} {items : List β} {results : List δ}
    (h : List.Forall₂ (fun b d => ∃ c, f b = some c ∧ rel c d) items results) :
    ∃ cs, items.mapM f = some cs ∧ List.Forall₂ rel cs results := by
  induction h with
  | nil => exact ⟨[], rfl, .nil⟩
  | cons hb _ ih =>
    obtain ⟨c, hc, hrel⟩ := hb
    obtain ⟨cs, hcs, hrels⟩ := ih
    exact ⟨c :: cs, by simp [List.mapM_cons, hc, hcs], .cons hrel hrels⟩

/-- The fields of a record are those that are written, by their names, and the missing ones after them. -/
theorem yields_record {names : List String} {ds : List (String × Datum)} {build : List (Option ν) → Option α}
    {result : Option α} (missing : List String) (hnodup : names.Nodup) (hnames : names = ds.map Prod.fst ++ missing)
    (h : ∀ fields, List.Forall₂ HoldsField fields (ds.map (fun d => some d.2) ++ missing.map fun _ => none) →
      build fields = result) :
    Yields (fun node => record names node >>= build) (.map ds) result := fun node hnode => by
  obtain ⟨entries, hmap, hentries⟩ := exists_entries hnode
  rw [hnames, List.nodup_append'] at hnodup
  obtain ⟨hwritten, -, hdisjoint⟩ := hnodup
  have hfields : List.Forall₂ (fun name d => ∃ field, field? entries name = some field ∧ HoldsField field d)
      (ds.map Prod.fst ++ missing) (ds.map (fun d => some d.2) ++ missing.map fun _ => none) := by
    refine List.rel_append ?_ ?_
    · rw [List.forall₂_map_left_iff, List.forall₂_map_right_iff, List.forall₂_same]
      intro d hd
      obtain ⟨node, hfield, hholds⟩ := field?_of_mem hentries hwritten hd
      exact ⟨some node, hfield, .some hholds⟩
    · rw [List.forall₂_map_right_iff, List.forall₂_same]
      intro name hname
      exact ⟨none, field?_of_notMem hentries fun hm => hdisjoint hm hname, .none⟩
  obtain ⟨fields, hrecord, hholds⟩ := exists_mapM hfields
  have hnode : record names node = some fields := by
    rw [record, hmap, hnames]
    exact hrecord
  show record names node >>= build = result
  rw [hnode]
  exact h fields hholds

end Records

end Decoder

end LeadTime

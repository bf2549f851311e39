import LeadTime.Proofs.Criteria
import Mathlib

/-! Whether each criterion has a predicate and values of its own. Predicates are kept under the keys of their criteria
and values under placeholders made from these; what comes later replaces what is there under its name. So something is
lost exactly where two criteria, or a criterion and the unit, go by one name. -/
namespace LeadTime

open Sql

/-- What is wanted of a column: one of the values, or none of them. -/
structure Wanted where
  column : String
  excluded : Bool
  values : List String

namespace Wanted

def text (d : Wanted) (tableAlias placeholder : String) : String :=
  tableAlias ++ "." ++ d.column ++ (if d.excluded then " NOT IN (:" else " IN (:") ++ placeholder ++ ")"

def ofCriterion (criterion : String × List String) : Wanted :=
  ⟨(Criterion.ofKey criterion.1).column, (Criterion.ofKey criterion.1).excluded, criterion.2⟩

def Scoped (unitCounts : Bool) (unit : OrgUnit) : Prop := unitCounts = true ∧ unit.userIds ≠ []

instance (unitCounts : Bool) (unit : OrgUnit) : Decidable (Scoped unitCounts unit) :=
  inferInstanceAs (Decidable (_ ∧ _))

/-- All that is wanted: what each criterion with values wants, and the unit's users where they count. -/
def all (userColumn : String) (criteria : KeyMap (List String)) (unitCounts : Bool) (unit : OrgUnit) : List Wanted :=
  (criteria.entries.filter fun criterion => criterion.2 ≠ []).map ofCriterion ++
    if Scoped unitCounts unit then [⟨userColumn, false, unit.userIds⟩] else []

end Wanted

namespace Criterion

theorem toList_exclude (column : String) : ("exclude_" ++ column).toList = exclusionMark ++ column.toList :=
  String.toList_append

theorem ofKey_exclude (column : String) : ofKey ("exclude_" ++ column) = ⟨column, true⟩ := by
  have hmark : exclusionMark.isPrefixOf ("exclude_" ++ column).toList = true := by
    rw [toList_exclude]
    exact List.isPrefixOf_iff_prefix.2 (List.prefix_append _ _)
  rw [ofKey, if_pos hmark, toList_exclude, List.drop_left, String.ofList_toList]

theorem ofKey_excl (column : String) : ofKey ("excl_" ++ column) = ⟨"excl_" ++ column, false⟩ := by
  have hlist : ("excl_" ++ column).toList = ['e', 'x', 'c', 'l', '_'] ++ column.toList := String.toList_append
  have hmark : ¬ exclusionMark.isPrefixOf ("excl_" ++ column).toList = true := by
    rw [hlist]
    exact Bool.false_ne_true
  rw [ofKey, if_neg hmark]

theorem ofKey_cases (key : String) :
    (∃ column, key = "exclude_" ++ column ∧ ofKey key = ⟨column, true⟩) ∨ ofKey key = ⟨key, false⟩ := by
  by_cases hmark : exclusionMark.isPrefixOf key.toList = true
  · obtain ⟨rest, hrest⟩ := List.isPrefixOf_iff_prefix.1 hmark
    have hkey : key = "exclude_" ++ String.ofList rest := by
      rw [← String.toList_inj, toList_exclude, String.toList_ofList, hrest]
    refine Or.inl ⟨String.ofList rest, hkey, ?_⟩
    rw [hkey, ofKey_exclude]
  · exact Or.inr (if_neg hmark)

def suffix (c : Criterion) : String := (if c.excluded then "excl_" else "") ++ c.column

theorem placeholder_eq_suffix (c : Criterion) (tableAlias : String) :
    c.placeholder tableAlias = tableAlias ++ "_" ++ c.suffix := by
  unfold placeholder suffix
  split
  · simp only [String.append_assoc]
    rfl
  · simp

/-- Two keys share a placeholder where they are the same, or where one is marked for exclusion and the other
names a column as if it were. -/
theorem placeholder_eq_iff {key key' tableAlias : String} :
    (ofKey key).placeholder tableAlias = (ofKey key').placeholder tableAlias ↔
      key = key' ∨ ∃ column, key = "excl_" ++ column ∧ key' = "exclude_" ++ column ∨
        key = "exclude_" ++ column ∧ key' = "excl_" ++ column := by
  rw [placeholder_eq_suffix, placeholder_eq_suffix, String.append_right_inj]
  constructor
  · intro h
    rcases ofKey_cases key with ⟨column, rfl, hk⟩ | hk <;> rcases ofKey_cases key' with ⟨column', rfl, hk'⟩ | hk' <;>
      rw [hk, hk'] at h
    · exact Or.inl (congrArg _ ((String.append_right_inj "excl_").1 h))
    · exact Or.inr ⟨column, Or.inr ⟨rfl, h.symm⟩⟩
    · exact Or.inr ⟨column', Or.inl ⟨h, rfl⟩⟩
    · exact Or.inl h
  · rintro (rfl | ⟨column, ⟨rfl, rfl⟩ | ⟨rfl, rfl⟩⟩)
    · rfl
    · rw [ofKey_excl, ofKey_exclude]
      rfl
    · rw [ofKey_excl, ofKey_exclude]
      rfl

theorem placeholder_eq_unit_iff {key tableAlias : String} :
    (ofKey key).placeholder tableAlias = tableAlias ++ "_ou_user_ids" ↔ key = "ou_user_ids" := by
  have hunit : tableAlias ++ "_ou_user_ids" = tableAlias ++ "_" ++ "ou_user_ids" := by
    rw [String.append_assoc]
    rfl
  rw [placeholder_eq_suffix, hunit, String.append_right_inj]
  constructor
  · intro h
    rcases ofKey_cases key with ⟨column, rfl, hk⟩ | hk <;> rw [hk] at h
    · have hl := congrArg String.toList h
      simp [suffix] at hl
    · exact h
  · rintro rfl
    decide

end Criterion

namespace Restriction

/-- What is wanted, with the names under which its predicate and its values are kept. -/
structure Filed where
  key : String
  placeholder : String
  wanted : Wanted

namespace Filed

variable (tableAlias : String)

def ofCriterion (criterion : String × List String) : Filed :=
  ⟨criterion.1, (Criterion.ofKey criterion.1).placeholder tableAlias, .ofCriterion criterion⟩

def ofUnit (userColumn : String) (unit : OrgUnit) : Filed :=
  ⟨"org_unit", tableAlias ++ "_ou_user_ids", ⟨userColumn, false, unit.userIds⟩⟩

def predicate (f : Filed) : Expr :=
  if f.wanted.excluded then (Expr.column tableAlias f.wanted.column).notAmong f.placeholder
  else (Expr.column tableAlias f.wanted.column).among f.placeholder

theorem text_predicate (f : Filed) : (f.predicate tableAlias).text = f.wanted.text tableAlias f.placeholder := by
  unfold predicate Wanted.text
  split <;> simp only [Expr.text, Expr.among, Expr.notAmong, Expr.tokens, Operator.text, List.cons_append,
    List.nil_append, text_cons, text_nil, Token.text, String.append_assoc, String.append_empty] <;> rfl

def all (userColumn : String) (criteria : KeyMap (List String)) (unitCounts : Bool) (unit : OrgUnit) : List Filed :=
  (criteria.entries.filter fun criterion => criterion.2 ≠ []).map (ofCriterion tableAlias) ++
    if Wanted.Scoped unitCounts unit then [ofUnit tableAlias userColumn unit] else []

end Filed

/-- The restriction that is left when each is added in turn. -/
def ofFiled (tableAlias : String) (filed : List Filed) : Restriction :=
  ⟨KeyMap.ofList (filed.map fun f => (f.key, f.predicate tableAlias)),
    KeyMap.ofList (filed.map fun f => (f.placeholder, .textList f.wanted.values))⟩

variable {userColumn tableAlias : String} {criteria : KeyMap (List String)} {unitCounts : Bool} {unit : OrgUnit}
  {r : Restriction}

theorem ofFiled_concat (filed : List Filed) (f : Filed) :
    ofFiled tableAlias (filed ++ [f]) =
      (ofFiled tableAlias filed).add f.key (f.predicate tableAlias) f.placeholder f.wanted.values := by
  simp [ofFiled, add, KeyMap.ofList, KeyMap.insertAll_append]

theorem addCriteria_eq_ok (filed : List Filed) {rest : List (String × List String)}
    (h : rest.foldlM (addCriterion tableAlias) (ofFiled tableAlias filed) = .ok r) :
    r = ofFiled tableAlias
      (filed ++ (rest.filter fun criterion => criterion.2 ≠ []).map (Filed.ofCriterion tableAlias)) := by
  induction rest generalizing filed with
  | nil =>
    cases h
    simp
  | cons criterion rest ih =>
    obtain ⟨s, hs, h⟩ := Except.bind_eq_ok.1 h
    rcases addCriterion_eq_ok hs with ⟨hempty, rfl⟩ | ⟨hne, -, rfl⟩
    · rw [ih _ h, List.filter_cons_of_neg (by simpa using hempty)]
    · have hadd : (ofFiled tableAlias filed).add criterion.1 ((Criterion.ofKey criterion.1).predicate tableAlias)
          ((Criterion.ofKey criterion.1).placeholder tableAlias) criterion.2 =
            ofFiled tableAlias (filed ++ [Filed.ofCriterion tableAlias criterion]) :=
        (ofFiled_concat filed (Filed.ofCriterion tableAlias criterion)).symm
      rw [hadd] at h
      rw [ih _ h, List.filter_cons_of_pos (by simpa using hne), List.map_cons, List.append_assoc,
        List.singleton_append]

theorem ofCriteria_eq_ofFiled (h : ofCriteria userColumn criteria unitCounts tableAlias unit = .ok r) :
    r = ofFiled tableAlias (Filed.all tableAlias userColumn criteria unitCounts unit) := by
  obtain ⟨s, hs, rfl⟩ := Except.map_eq_ok.1 h
  have hcriteria := addCriteria_eq_ok [] hs
  unfold Filed.all Wanted.Scoped
  cases unitCounts with
  | false => simpa using hcriteria
  | true =>
    simp only [addUnit, if_true, true_and, List.isEmpty_iff]
    by_cases hu : unit.userIds = []
    · simpa [hu] using hcriteria
    · rw [if_neg hu, if_pos hu, ofFiled_concat, hcriteria]
      rfl

theorem wanted_all (tableAlias userColumn : String) (criteria : KeyMap (List String)) (unitCounts : Bool)
    (unit : OrgUnit) : (Filed.all tableAlias userColumn criteria unitCounts unit).map (·.wanted) =
      Wanted.all userColumn criteria unitCounts unit := by
  unfold Filed.all Wanted.all
  split <;> simp [Filed.ofCriterion, Filed.ofUnit, Function.comp_def]

/-- The restriction says what is wanted and nothing else: each has a predicate, under a placeholder of its own which is
bound to its values. -/
def Faithful (tableAlias : String) (wanted : List Wanted) (r : Restriction) : Prop :=
  ∃ placeholders : List String, placeholders.Nodup ∧ placeholders.length = wanted.length ∧
    (r.predicates.values.map Expr.text).Perm (wanted.zipWith (·.text tableAlias) placeholders) ∧
    r.bindings.entries.Perm (wanted.zipWith (fun d placeholder => (placeholder, .textList d.values)) placeholders)

theorem Faithful.length {wanted : List Wanted} (h : r.Faithful tableAlias wanted) :
    r.predicates.entries.length = wanted.length ∧ r.bindings.entries.length = wanted.length := by
  obtain ⟨placeholders, -, hl, hp, hb⟩ := h
  have hpl := hp.length_eq
  have hbl := hb.length_eq
  rw [List.length_map, List.length_zipWith, hl, Nat.min_self] at hpl
  rw [List.length_zipWith, hl, Nat.min_self] at hbl
  rw [KeyMap.values, List.length_map] at hpl
  exact ⟨hpl, hbl⟩

/-- All is kept where all names are different, and only there. -/
theorem faithful_ofFiled_iff (filed : List Filed) :
    (ofFiled tableAlias filed).Faithful tableAlias (filed.map (·.wanted)) ↔
      (filed.map (·.key)).Nodup ∧ (filed.map (·.placeholder)).Nodup := by
  constructor
  · intro h
    obtain ⟨hp, hb⟩ := h.length
    rw [List.length_map] at hp hb
    have hkeys := KeyMap.nodup_of_length_ofList (hp.trans (List.length_map _).symm)
    have hplaceholders := KeyMap.nodup_of_length_ofList (hb.trans (List.length_map _).symm)
    rw [List.map_map] at hkeys hplaceholders
    exact ⟨hkeys, hplaceholders⟩
  · rintro ⟨hkeys, hplaceholders⟩
    refine ⟨filed.map (·.placeholder), hplaceholders, by simp, ?_, ?_⟩
    · rw [KeyMap.values, ofFiled, KeyMap.entries_ofList_of_nodup (by simpa [Function.comp_def] using hkeys)]
      simp [Function.comp_def, Filed.text_predicate, List.zipWith_map]
    · rw [ofFiled, KeyMap.entries_ofList_of_nodup (by simpa [Function.comp_def] using hplaceholders)]
      simp [List.zipWith_map]

/-- Nothing goes by the name of something else: no column is named with the mark of an exclusion while the rest of its name
is excluded, and no criterion goes by the names of the unit where that counts. -/
structure Apart (criteria : KeyMap (List String)) (unitCounts : Bool) (unit : OrgUnit) : Prop where
  exclusions : ∀ column values values', ("excl_" ++ column, values) ∈ criteria.entries →
    ("exclude_" ++ column, values') ∈ criteria.entries → values = [] ∨ values' = []
  unit : Wanted.Scoped unitCounts unit → ∀ key ∈ ["org_unit", "ou_user_ids"], ∀ values,
    (key, values) ∈ criteria.entries → values = []

theorem nodup_stated (criteria : KeyMap (List String)) :
    ((criteria.entries.filter fun criterion => criterion.2 ≠ []).map Prod.fst).Nodup :=
  criteria.nodup.sublist (List.filter_sublist.map _)

theorem nodup_map_concat_ite_iff {α β : Type*} {f : α → β} {xs : List α} {last : α} {p : Prop} [Decidable p] :
    ((xs ++ if p then [last] else []).map f).Nodup ↔ (xs.map f).Nodup ∧ (p → f last ∉ xs.map f) := by
  by_cases hp : p
  · simp [hp, List.nodup_append']
  · simp [hp]

theorem nodup_keys_all_iff : ((Filed.all tableAlias userColumn criteria unitCounts unit).map (·.key)).Nodup ↔
    (Wanted.Scoped unitCounts unit → ∀ values, ("org_unit", values) ∈ criteria.entries → values = []) := by
  have hkeys := nodup_stated criteria
  rw [Filed.all, nodup_map_concat_ite_iff, List.map_map]
  simp only [Function.comp_def, Filed.ofCriterion, Filed.ofUnit, hkeys, true_and]
  refine forall_congr' fun _ => ?_
  simp only [List.mem_map, List.mem_filter, decide_eq_true_eq, Prod.exists, exists_and_right, exists_eq_right]
  grind

/-- Among criteria that want something, placeholders repeat only where an exclusion meets a column that is named like
its mark. -/
theorem nodup_placeholders_stated_iff :
    ((criteria.entries.filter fun criterion => criterion.2 ≠ []).map fun criterion =>
      (Criterion.ofKey criterion.1).placeholder tableAlias).Nodup ↔
      ∀ column values values', ("excl_" ++ column, values) ∈ criteria.entries →
        ("exclude_" ++ column, values') ∈ criteria.entries → values = [] ∨ values' = [] := by
  rw [List.nodup_map_iff_inj_on (nodup_stated criteria).of_map]
  simp only [List.mem_filter, decide_eq_true_eq, Criterion.placeholder_eq_iff]
  constructor
  · intro hinj column values values' hm hm'
    by_contra hne
    rw [not_or] at hne
    have heq := hinj _ ⟨hm, hne.1⟩ _ ⟨hm', hne.2⟩ (Or.inr ⟨column, Or.inl ⟨rfl, rfl⟩⟩)
    have hkey := congrArg (fun criterion => Criterion.ofKey criterion.1) heq
    simp [Criterion.ofKey_excl, Criterion.ofKey_exclude] at hkey
  · rintro hexclusions ⟨key, values⟩ ⟨hm, hne⟩ ⟨key', values'⟩ ⟨hm', hne'⟩ hsame
    rcases hsame with rfl | ⟨column, ⟨rfl, rfl⟩ | ⟨rfl, rfl⟩⟩
    · exact List.inj_on_of_nodup_map criteria.nodup hm hm' rfl
    · exact absurd (hexclusions column values values' hm hm') (not_or.2 ⟨hne, hne'⟩)
    · exact absurd (hexclusions column values' values hm' hm) (not_or.2 ⟨hne', hne⟩)

theorem nodup_placeholders_all_iff :
    ((Filed.all tableAlias userColumn criteria unitCounts unit).map (·.placeholder)).Nodup ↔
      (∀ column values values', ("excl_" ++ column, values) ∈ criteria.entries →
        ("exclude_" ++ column, values') ∈ criteria.entries → values = [] ∨ values' = []) ∧
      (Wanted.Scoped unitCounts unit → ∀ values, ("ou_user_ids", values) ∈ criteria.entries → values = []) := by
  rw [Filed.all, nodup_map_concat_ite_iff, List.map_map]
  refine and_congr nodup_placeholders_stated_iff (forall_congr' fun _ => ?_)
  simp only [List.mem_map, List.mem_filter, decide_eq_true_eq, Prod.exists, Function.comp_def, Filed.ofCriterion,
    Filed.ofUnit, Criterion.placeholder_eq_unit_iff]
  grind

/-- A translation keeps all that is wanted, and nothing else, exactly where nothing goes by the name of something else. -/
theorem faithful_ofCriteria_iff (h : ofCriteria userColumn criteria unitCounts tableAlias unit = .ok r) :
    r.Faithful tableAlias (Wanted.all userColumn criteria unitCounts unit) ↔ Apart criteria unitCounts unit := by
  rw [ofCriteria_eq_ofFiled h, ← wanted_all tableAlias, faithful_ofFiled_iff, nodup_keys_all_iff,
    nodup_placeholders_all_iff]
  constructor
  · rintro ⟨hkey, hexclusions, hplaceholder⟩
    refine ⟨hexclusions, fun hscoped => ?_⟩
    simpa using ⟨hkey hscoped, hplaceholder hscoped⟩
  · intro apart
    exact ⟨fun hscoped => apart.unit hscoped _ (by simp), apart.exclusions,
      fun hscoped => apart.unit hscoped _ (by simp)⟩

theorem faithful_apart : ∃ r, ofCriteria "assignee_id"
      (KeyMap.ofList [("priority", ["HIGH"]), ("exclude_status", ["WONTFIX"])]) true "im" ⟨.none, ["u1"]⟩ = .ok r ∧
    r.Faithful "im" (Wanted.all "assignee_id"
      (KeyMap.ofList [("priority", ["HIGH"]), ("exclude_status", ["WONTFIX"])]) true ⟨.none, ["u1"]⟩) := by
  refine ⟨_, rfl, (faithful_ofCriteria_iff rfl).2 ⟨fun column values values' hm _ => ?_, fun _ => ?_⟩⟩
  · have hm : ("excl_" ++ column, values) ∈ [("priority", ["HIGH"]), ("exclude_status", ["WONTFIX"])] := hm
    simp only [List.mem_cons, Prod.mk.injEq, List.not_mem_nil, or_false] at hm
    rcases hm with ⟨hkey, -⟩ | ⟨hkey, -⟩
    · have hl := congrArg String.toList hkey
      simp at hl
    · have hl := congrArg String.toList hkey
      simp at hl
  · simp [KeyMap.ofList, KeyMap.insertAll, KeyMap.insert, KeyMap.empty, putPair]

/-- Criteria that go by one name, and criteria that go by the names of the unit. -/
def clashing : KeyMap (List String) :=
  KeyMap.ofList [("excl_status", ["A"]), ("exclude_status", ["B"]), ("org_unit", ["C"]), ("ou_user_ids", ["D"])]

/-- What goes by one name replaces what was there: values that were allowed by those that are excluded, the predicate of
a criterion by that of the unit, and values of a column by the users. -/
theorem not_faithful_clashing : ∃ r, ofCriteria "assignee_id" clashing true "im" ⟨.none, ["u1"]⟩ = .ok r ∧
    r.predicates.values.map Expr.text = ["im.excl_status IN (:im_excl_status)", "im.status NOT IN (:im_excl_status)",
      "im.assignee_id IN (:im_ou_user_ids)", "im.ou_user_ids IN (:im_ou_user_ids)"] ∧
    r.bindings.entries = [("im_excl_status", .textList ["B"]), ("im_org_unit", .textList ["C"]),
      ("im_ou_user_ids", .textList ["u1"])] ∧
    ¬ r.Faithful "im" (Wanted.all "assignee_id" clashing true ⟨.none, ["u1"]⟩) := by
  refine ⟨_, rfl, by decide, by decide, fun h => ?_⟩
  exact absurd h.length.2 (by decide)

end Restriction
end LeadTime

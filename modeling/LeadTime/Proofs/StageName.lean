import LeadTime.JobRun.Condition
import LeadTime.Proofs.Terms
import Mathlib

/-! The names that stages give to placeholders, as data. A name is a text without digits, the number of its stage, and a
text that does not go on with a digit; so it tells its stage and what it stands for, and no two are the same. -/
namespace LeadTime

namespace Placeholder

def Undigited (cs : List Char) : Prop := ∀ c ∈ cs, c.isDigit = false

instance (cs : List Char) : Decidable (Undigited cs) :=
  decidable_of_iff (cs.all (fun c => !c.isDigit) = true) (by simp [Undigited])

/-- The text does not go on with a number that stands before it. -/
def EndsNumber (cs : List Char) : Prop := ∀ c ∈ cs.head?, c.isDigit = false

theorem takeWhile_digits {n : Nat} {rest : List Char} (h : EndsNumber rest) :
    (n.repr.toList ++ rest).takeWhile Char.isDigit = n.repr.toList := by
  rw [List.takeWhile_append_of_pos fun c hc => Sql.isDigit_of_mem_repr hc]
  cases rest with
  | nil => simp
  | cons c rest => simp [h c rfl]

theorem takeWhile_undigited {cs : List Char} (h : Undigited cs) (n : Nat) (rest : List Char) :
    (cs ++ (n.repr.toList ++ rest)).takeWhile (fun c => !c.isDigit) = cs := by
  rw [List.takeWhile_append_of_pos fun c hc => by rw [h c hc]; rfl]
  obtain ⟨d, ds, hd⟩ := List.exists_cons_of_ne_nil (Sql.toList_repr_ne_nil n)
  have hdigit : d.isDigit = true := Sql.isDigit_of_mem_repr (n := n) (by rw [hd]; exact List.mem_cons_self)
  simp [hd, hdigit]

/-- A text with a number in it is read in one way only. -/
theorem numbered_inj {a b a' b' : String} {m n : Nat} (ha : Undigited a.toList) (ha' : Undigited a'.toList)
    (hb : EndsNumber b.toList) (hb' : EndsNumber b'.toList) (h : a ++ m.repr ++ b = a' ++ n.repr ++ b') :
    a = a' ∧ m = n ∧ b = b' := by
  have hl : a.toList ++ (m.repr.toList ++ b.toList) = a'.toList ++ (n.repr.toList ++ b'.toList) := by
    have hs := congrArg String.toList h
    simpa only [String.toList_append, List.append_assoc] using hs
  have hbefore : a.toList = a'.toList := by
    have ht := congrArg (List.takeWhile fun c => !c.isDigit) hl
    rwa [takeWhile_undigited ha, takeWhile_undigited ha'] at ht
  rw [hbefore, List.append_cancel_left_eq] at hl
  have hnumber : m.repr.toList = n.repr.toList := by
    have ht := congrArg (List.takeWhile Char.isDigit) hl
    rwa [takeWhile_digits hb, takeWhile_digits hb'] at ht
  rw [hnumber, List.append_cancel_left_eq] at hl
  exact ⟨String.toList_injective hbefore, Nat.repr_injective (String.toList_injective hnumber),
    String.toList_injective hl⟩

end Placeholder

/-- What a stage gives a name to. -/
inductive StageName where
  | value
  | indexed (index : Nat)
  | name (index : Nat)
  | endTimeStart
  | endTimeStop
  | metadata (field index : Nat)
  | metadataOther (field index : Nat)
  | users
  | excludedUsers
  | statuses
  | excludedStatuses
  | ciMark
  | cdMark
  | addressBegins
  | addressContains
  deriving DecidableEq, Repr

namespace StageName

def text (stage : Nat) : StageName → String
  | .value => Placeholder.value stage
  | .indexed index => Placeholder.indexedValue stage index
  | .name index => Placeholder.name stage index
  | .endTimeStart => Placeholder.endTimeStart stage
  | .endTimeStop => Placeholder.endTimeStop stage
  | .metadata field index => Placeholder.metadataValue stage field index
  | .metadataOther field index => Placeholder.metadataOther stage field index
  | .users => Placeholder.field stage "cicd_user_ids"
  | .excludedUsers => Placeholder.excluded stage "cicd_user_ids"
  | .statuses => Placeholder.field stage "job_statuses"
  | .excludedStatuses => Placeholder.excluded stage "job_statuses"
  | .ciMark => Placeholder.field stage "is_ci"
  | .cdMark => Placeholder.field stage "is_cd"
  | .addressBegins => Placeholder.metadataPattern stage "repo_url" "begins"
  | .addressContains => Placeholder.metadataPattern stage "repo_url" "contains"

def before : StageName → String
  | .value | .indexed _ | .name _ | .endTimeStart | .endTimeStop => "s"
  | .metadata _ _ | .metadataOther _ _ => ""
  | .users => "cicd_user_ids__"
  | .excludedUsers => "excl_cicd_user_ids__"
  | .statuses => "job_statuses__"
  | .excludedStatuses => "excl_job_statuses__"
  | .ciMark => "is_ci__"
  | .cdMark => "is_cd__"
  | .addressBegins => "metadatarepo_url_begins__"
  | .addressContains => "metadatarepo_url_contains__"

def after : StageName → String
  | .value => "_value"
  | .indexed index => "_value_" ++ index.repr
  | .name index => "_name_" ++ index.repr
  | .endTimeStart => "_job_run_end_start"
  | .endTimeStop => "_job_run_end_end"
  | .metadata field index => "_metadatafield" ++ field.repr ++ ("_val" ++ index.repr ++ "")
  | .metadataOther field index => "_metadatafield" ++ field.repr ++ ("_val" ++ index.repr ++ "_val1")
  | _ => ""

theorem text_eq (stage : Nat) (n : StageName) : n.text stage = n.before ++ stage.repr ++ n.after := by
  apply String.toList_injective
  cases n <;>
    simp [text, before, after, Placeholder.value, Placeholder.indexedValue, Placeholder.name, Placeholder.endTimeStart,
      Placeholder.endTimeStop, Placeholder.metadataValue, Placeholder.metadataOther, Placeholder.metadataPattern,
      Placeholder.field, Placeholder.excluded]

theorem undigited_before (n : StageName) : Placeholder.Undigited n.before.toList := by
  cases n <;> (simp only [before]; decide)

theorem endsNumber_after (n : StageName) : Placeholder.EndsNumber n.after.toList := by
  cases n <;> simp [after, Placeholder.EndsNumber, Char.isDigit]

theorem metadata_inj {f f' k k' : Nat} {t t' : String} (ht : Placeholder.EndsNumber t.toList)
    (ht' : Placeholder.EndsNumber t'.toList)
    (h : "_metadatafield" ++ f.repr ++ ("_val" ++ k.repr ++ t) = "_metadatafield" ++ f'.repr ++ ("_val" ++ k'.repr ++ t')) :
    f = f' ∧ k = k' ∧ t = t' := by
  have hval (n : Nat) (t : String) : Placeholder.EndsNumber ("_val" ++ n.repr ++ t).toList := by
    simp [Placeholder.EndsNumber, Char.isDigit]
  obtain ⟨-, hf, hrest⟩ := Placeholder.numbered_inj (by decide) (by decide) (hval k t) (hval k' t') h
  obtain ⟨-, hk, hs⟩ := Placeholder.numbered_inj (by decide) (by decide) ht ht' hrest
  exact ⟨hf, hk, hs⟩

theorem eq_of_around {a b : StageName} (hb : a.before = b.before) (ha : a.after = b.after) : a = b := by
  have hnil : Placeholder.EndsNumber "".toList := by simp [Placeholder.EndsNumber]
  have hval : Placeholder.EndsNumber "_val1".toList := by simp [Placeholder.EndsNumber, Char.isDigit]
  have hl := congrArg String.toList ha
  cases a <;> cases b <;> simp only [before, String.reduceEq, reduceCtorEq] at hb ⊢
  case metadata.metadata =>
    obtain ⟨rfl, rfl, -⟩ := metadata_inj hnil hnil ha
    rfl
  case metadataOther.metadataOther =>
    obtain ⟨rfl, rfl, -⟩ := metadata_inj hval hval ha
    rfl
  case metadata.metadataOther =>
    obtain ⟨-, -, h⟩ := metadata_inj hnil hval ha
    simp at h
  case metadataOther.metadata =>
    obtain ⟨-, -, h⟩ := metadata_inj hval hnil ha
    simp at h
  case indexed.indexed => rw [Nat.repr_injective ((String.append_right_inj "_value_").1 ha)]
  case name.name => rw [Nat.repr_injective ((String.append_right_inj "_name_").1 ha)]
  all_goals simp [after] at hl

/-- Names are the same only where they are of one stage and stand for the same. -/
theorem text_inj {i j : Nat} {a b : StageName} : a.text i = b.text j ↔ i = j ∧ a = b := by
  constructor
  · intro h
    rw [text_eq, text_eq] at h
    obtain ⟨hb, hn, ha⟩ := Placeholder.numbered_inj a.undigited_before b.undigited_before a.endsNumber_after
      b.endsNumber_after h
    exact ⟨hn, eq_of_around hb ha⟩
  · rintro ⟨rfl, rfl⟩
    rfl

theorem text_injective (stage : Nat) : Function.Injective (text stage) := fun _ _ h => (text_inj.1 h).2

theorem numbered_text (stage : Nat) (n : StageName) : Placeholder.Numbered (n.text stage) := by
  rw [text_eq]
  simp

end StageName

namespace Placeholder

/-- The names that are bound for a whole query. -/
def wide : List String :=
  [codeIntegrationIds, issueIntegrationIds, trendKeys, stackValues, sprintStates, isActive, startingEventTypes]

def filteredAliases : List String := ["im", "pr", "c", "jr"]

/-- The name is of no other step: it is none of a whole query, bounds no time of an end, and does not start as the names
of filters do. -/
structure StageOnly (name : String) : Prop where
  wide : name ∉ wide
  ended : ∀ stage, name ≠ endTimeStart stage ∧ name ≠ endTimeStop stage
  filtered : ∀ tableAlias ∈ filteredAliases, ∀ rest, name ≠ tableAlias ++ "_" ++ rest

end Placeholder

namespace StageName

theorem text_notMem_wide (stage : Nat) (n : StageName) : n.text stage ∉ Placeholder.wide := by
  intro h
  have hwide : ∀ name ∈ Placeholder.wide, ¬ Placeholder.Numbered name := by decide
  exact hwide _ h (n.numbered_text stage)

theorem text_ne_filtered (stage : Nat) (n : StageName) {tableAlias : String}
    (ha : tableAlias ∈ Placeholder.filteredAliases) (rest : String) : n.text stage ≠ tableAlias ++ "_" ++ rest := by
  intro h
  rw [text_eq] at h
  have hl := congrArg String.toList h
  obtain ⟨d, ds, hd⟩ := List.exists_cons_of_ne_nil (Sql.toList_repr_ne_nil stage)
  have hdigit : d.isDigit = true := Sql.isDigit_of_mem_repr (n := stage) (by rw [hd]; exact List.mem_cons_self)
  simp only [Placeholder.filteredAliases, List.mem_cons, List.not_mem_nil, or_false] at ha
  simp only [String.toList_append, hd] at hl
  rcases ha with rfl | rfl | rfl | rfl <;> cases n <;> simp [before] at hl
  all_goals
    rw [hl.1] at hdigit
    revert hdigit
    decide

theorem stageOnly_text (stage : Nat) {n : StageName} (hs : n ≠ .endTimeStart) (ht : n ≠ .endTimeStop) :
    Placeholder.StageOnly (n.text stage) where
  wide := n.text_notMem_wide stage
  ended j := ⟨fun h => hs (text_inj.1 (show n.text stage = endTimeStart.text j from h)).2,
    fun h => ht (text_inj.1 (show n.text stage = endTimeStop.text j from h)).2⟩
  filtered _ ha rest := n.text_ne_filtered stage ha rest

end StageName

end LeadTime

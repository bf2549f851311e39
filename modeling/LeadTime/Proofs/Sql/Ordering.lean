import LeadTime.Proofs.Sql.Evaluation
import Mathlib

/-! The order that a list of terms puts rows in: by the first term, and by the rest where it ties. What ties in all terms may
stand either way, from one run of a query to the next. -/
namespace LeadTime.Sql

namespace Value

/-- Both are values of one type, and the second is the greater one. -/
def Below : Value → Value → Prop
  | .number a, .number b => a < b
  | .text a, .text b => a < b
  | .truth a, .truth b => a < b
  | _, _ => False

/-- The values are of one type, as NULL is of every type. -/
def Alike : Value → Value → Prop
  | .null, _ | _, .null => True
  | .number _, .number _ | .text _, .text _ | .truth _, .truth _ => True
  | _, _ => False

variable {v w x : Value}

@[simp] theorem alike_ofNumber (m n : Option ℚ) : (ofNumber m).Alike (ofNumber n) := by
  cases m <;> cases n <;> trivial

theorem alike_self (v : Value) : v.Alike v := by
  cases v <;> trivial

theorem Alike.symm (h : v.Alike w) : w.Alike v := by
  cases v <;> cases w <;> trivial

theorem Below.asymm (h : v.Below w) : ¬ w.Below v := by
  cases v <;> cases w <;> first
    | exact False.elim h
    | exact lt_asymm h

theorem below_total (h : v.Alike w) (hv : v ≠ .null) (hw : w ≠ .null) (hne : v ≠ w) : v.Below w ∨ w.Below v := by
  cases v <;> cases w <;> first
    | exact False.elim h
    | exact absurd rfl hv
    | exact absurd rfl hw
    | exact lt_or_gt_of_ne fun he => hne (congrArg _ he)

theorem Below.cotrans (h : v.Below w) (ha : v.Alike x) (hx : x ≠ .null) : v.Below x ∨ x.Below w := by
  cases v <;> cases w <;> cases x <;> first
    | exact False.elim h
    | exact False.elim ha
    | exact absurd rfl hx
    | exact (lt_or_ge _ _).imp_right fun hle => lt_of_le_of_lt hle h

end Value

namespace OrderTerm

def Descends (o : OrderTerm) : Prop := o.direction = some "DESC"

/-- NULL comes first: it counts as greater than every value, unless it is told to come last. -/
def NullsFirst (o : OrderTerm) : Prop := o.Descends ∧ o.nullsLast = false

def Before (o : OrderTerm) : Value → Value → Prop
  | .null, .null => False
  | .null, _ => o.NullsFirst
  | _, .null => ¬ o.NullsFirst
  | v, w => (o.Descends ∧ w.Below v) ∨ (¬ o.Descends ∧ v.Below w)

variable {o : OrderTerm} {v w x : Value}

theorem before_null_left (hw : w ≠ .null) : o.Before .null w ↔ o.NullsFirst := by
  cases w <;> first | exact absurd rfl hw | exact Iff.rfl

theorem before_null_right (hv : v ≠ .null) : o.Before v .null ↔ ¬ o.NullsFirst := by
  cases v <;> first | exact absurd rfl hv | exact Iff.rfl

theorem before_known (hv : v ≠ .null) (hw : w ≠ .null) :
    o.Before v w ↔ (o.Descends ∧ w.Below v) ∨ (¬ o.Descends ∧ v.Below w) := by
  cases v <;> cases w <;> first | exact absurd rfl hv | exact absurd rfl hw | exact Iff.rfl

theorem Before.asymm (h : o.Before v w) : ¬ o.Before w v := by
  by_cases hv : v = .null <;> by_cases hw : w = .null
  · subst hv hw
    exact h.elim
  · subst hv
    rw [before_null_left hw] at h
    rw [before_null_right hw]
    exact not_not_intro h
  · subst hw
    rw [before_null_right hv] at h
    rwa [before_null_left hv]
  · rw [before_known hv hw] at h
    rw [before_known hw hv]
    rintro (⟨hd, hb⟩ | ⟨hd, hb⟩)
    · exact (h.resolve_right fun ha => ha.1 hd).2.asymm hb
    · exact (h.resolve_left fun hd' => hd hd'.1).2.asymm hb

theorem not_before_self : ¬ o.Before v v := fun h => h.asymm h

theorem before_total (h : v.Alike w) (hne : v ≠ w) : o.Before v w ∨ o.Before w v := by
  by_cases hv : v = .null
  · subst hv
    rw [before_null_left hne.symm, before_null_right hne.symm]
    exact em _
  · by_cases hw : w = .null
    · subst hw
      rw [before_null_left hne, before_null_right hne]
      exact (em _).symm
    · rw [before_known hv hw, before_known hw hv]
      have hbelow := Value.below_total h hv hw hne
      tauto

theorem Before.cotrans_known (h : o.Before v w) (ha : v.Alike x) (hb : w.Alike x) (hv : v ≠ .null) (hw : w ≠ .null)
    (hx : x ≠ .null) : o.Before v x ∨ o.Before x w := by
  rw [before_known hv hw] at h
  rw [before_known hv hx, before_known hx hw]
  rcases h with ⟨hd, hbelow⟩ | ⟨hd, hbelow⟩
  · exact (hbelow.cotrans hb hx).symm.imp (fun hbelow => .inl ⟨hd, hbelow⟩) fun hbelow => .inl ⟨hd, hbelow⟩
  · exact (hbelow.cotrans ha hx).imp (fun hbelow => .inr ⟨hd, hbelow⟩) fun hbelow => .inr ⟨hd, hbelow⟩

theorem Before.cotrans (h : o.Before v w) (ha : v.Alike x) (hb : w.Alike x) : o.Before v x ∨ o.Before x w := by
  by_cases hv : v = .null
  · subst hv
    have hw : w ≠ .null := by
      rintro rfl
      exact h
    -- The third one is NULL as the first is, or comes after NULL as the second does.
    by_cases hx : x = .null
    · exact .inr (hx ▸ h)
    · rw [before_null_left hw] at h
      exact .inl ((before_null_left hx).2 h)
  · by_cases hw : w = .null
    · subst hw
      by_cases hx : x = .null
      · exact .inl (hx ▸ h)
      · rw [before_null_right hv] at h
        exact .inr ((before_null_right hx).2 h)
    · by_cases hx : x = .null
      · subst hx
        rw [before_null_right hv, before_null_left hw]
        exact (em _).symm
      · exact h.cotrans_known ha hb hv hw hx

end OrderTerm

/-- The first row comes before the second one, by the first of the terms that does not tie. -/
def Precedes : List OrderTerm → Row → Row → Prop
  | [], _, _ => False
  | o :: rest, a, b => ∃ v w, o.key.Denotes a v ∧ o.key.Denotes b w ∧ (o.Before v w ∨ v = w ∧ Precedes rest a b)

variable {terms : List OrderTerm} {a b c : Row}

def Comparable (terms : List OrderTerm) (a b : Row) : Prop :=
  ∀ o ∈ terms, ∃ v w, o.key.Denotes a v ∧ o.key.Denotes b w ∧ v.Alike w

def Ties (terms : List OrderTerm) (a b : Row) : Prop := ∀ o ∈ terms, ∃ v, o.key.Denotes a v ∧ o.key.Denotes b v

theorem precedes_cons {o : OrderTerm} {v w : Value} (hv : o.key.Denotes a v) (hw : o.key.Denotes b w) :
    Precedes (o :: terms) a b ↔ o.Before v w ∨ v = w ∧ Precedes terms a b := by
  constructor
  · rintro ⟨v', w', hv', hw', h⟩
    rwa [hv.iff_eq.1 hv', hw.iff_eq.1 hw']
  · exact fun h => ⟨v, w, hv, hw, h⟩

theorem Precedes.asymm (h : Precedes terms a b) : ¬ Precedes terms b a := by
  induction terms with
  | nil => exact h.elim
  | cons o rest ih =>
    obtain ⟨v, w, hv, hw, h⟩ := h
    rw [precedes_cons hw hv]
    rintro (hb | ⟨rfl, hb⟩)
    · rcases h with h | ⟨rfl, -⟩
      · exact h.asymm hb
      · exact o.not_before_self hb
    · rcases h with h | ⟨-, h⟩
      · exact o.not_before_self h
      · exact ih h hb

theorem Comparable.total (h : Comparable terms a b) : Precedes terms a b ∨ Precedes terms b a ∨ Ties terms a b := by
  induction terms with
  | nil => exact .inr (.inr fun _ ho => absurd ho List.not_mem_nil)
  | cons o rest ih =>
    obtain ⟨⟨v, w, hv, hw, halike⟩, hrest⟩ := List.forall_mem_cons.1 h
    rw [precedes_cons hv hw, precedes_cons hw hv]
    by_cases hne : v = w
    · subst hne
      refine (ih hrest).imp (fun h => .inr ⟨rfl, h⟩) (Or.imp (fun h => .inr ⟨rfl, h⟩) fun h => ?_)
      exact List.forall_mem_cons.2 ⟨⟨v, hv, hw⟩, h⟩
    · exact (OrderTerm.before_total halike hne).imp .inl fun h => .inl (.inl h)

theorem Ties.not_precedes (h : Ties terms a b) : ¬ Precedes terms a b := by
  induction terms with
  | nil => exact id
  | cons o rest ih =>
    obtain ⟨⟨v, hv, hw⟩, hrest⟩ := List.forall_mem_cons.1 h
    rw [precedes_cons hv hw]
    rintro (hb | ⟨-, hb⟩)
    · exact o.not_before_self hb
    · exact ih hrest hb

theorem Precedes.cotrans (h : Precedes terms a b) (hac : Comparable terms a c) (hbc : Comparable terms b c) :
    Precedes terms a c ∨ Precedes terms c b := by
  induction terms with
  | nil => exact h.elim
  | cons o rest ih =>
    obtain ⟨v, w, hv, hw, h⟩ := h
    obtain ⟨⟨v', x, hv', hx, hvx⟩, hac⟩ := List.forall_mem_cons.1 hac
    obtain ⟨⟨w', x', hw', hx', hwx⟩, hbc⟩ := List.forall_mem_cons.1 hbc
    cases hv.iff_eq.1 hv'
    cases hw.iff_eq.1 hw'
    cases hx.iff_eq.1 hx'
    rw [precedes_cons hv hx, precedes_cons hx hw]
    rcases h with h | ⟨rfl, h⟩
    · exact (h.cotrans hvx hwx).imp .inl .inl
    · by_cases hne : v = x
      · subst hne
        exact (ih h hac hbc).imp (fun h => .inr ⟨rfl, h⟩) fun h => .inr ⟨rfl, h⟩
      · exact (OrderTerm.before_total hvx hne).imp .inl .inl

/-- No row stands after one that it precedes. -/
def Arranged (terms : List OrderTerm) (rows : List Row) : Prop := rows.Pairwise fun a b => ¬ Precedes terms b a

theorem exists_arranged (rows : List Row) (h : ∀ a ∈ rows, ∀ b ∈ rows, Comparable terms a b) :
    ∃ run, run.Perm rows ∧ Arranged terms run := by
  classical
  -- Only rows of the list are known to be comparable, so that these are sorted with the proof that they are.
  let inOrder (a b : {row // row ∈ rows}) : Bool := ¬ Precedes terms b.1 a.1
  have htrans (a b c : {row // row ∈ rows}) (hab : inOrder a b) (hbc : inOrder b c) : inOrder a c := by
    simp only [inOrder, decide_eq_true_eq] at hab hbc ⊢
    intro hca
    have hcomparable (x y : {row // row ∈ rows}) : Comparable terms x.1 y.1 := h _ x.2 _ y.2
    exact (hca.cotrans (hcomparable c b) (hcomparable a b)).elim hbc hab
  have htotal (a b : {row // row ∈ rows}) : inOrder a b || inOrder b a := by
    simp only [inOrder, Bool.or_eq_true, decide_eq_true_eq]
    exact not_and_or.1 fun hboth => hboth.1.asymm hboth.2
  refine ⟨(rows.attach.mergeSort inOrder).map Subtype.val, ?_, List.pairwise_map.2 ?_⟩
  · have hperm := (List.mergeSort_perm rows.attach inOrder).map Subtype.val
    rwa [List.attach_map_subtype_val] at hperm
  · exact (List.pairwise_mergeSort htrans htotal _).imp fun hle => by simpa [inOrder] using hle

/-- Where of every two rows one precedes the other, they are arranged in one way. -/
theorem Arranged.eq {rows run : List Row} (h : Arranged terms rows) (h' : Arranged terms run) (hperm : rows.Perm run)
    (htotal : ∀ a ∈ rows, ∀ b ∈ rows, a = b ∨ Precedes terms a b ∨ Precedes terms b a) : rows = run := by
  refine hperm.eq_of_pairwise (fun a b ha hb hab hba => ?_) h h'
  rcases htotal a ha b (hperm.mem_iff.2 hb) with he | he | he
  · exact he
  · exact absurd he hba
  · exact absurd he hab

end LeadTime.Sql

import LeadTime.Proofs.Rejection.Mode
import Mathlib

/-! Arithmetic on limits and on pages. Limits are counted in words of 64 bits, thresholds in signed ones, and rows in
words again; what is computed from them is the exact number, or it is refused because that number does not fit. -/
namespace LeadTime

theorem Thresholds.eq_of_toInt {t u : Thresholds} (hg : t.good.toInt = u.good.toInt)
    (ha : t.needsAttention.toInt = u.needsAttention.toInt) : t = u := by
  cases t
  cases u
  rw [Int64.toInt_inj] at hg ha
  exact mk.injEq .. ▸ ⟨hg, ha⟩

namespace Stage

/-- What is made of the limits of a stage: the end of its histograms, and thresholds where none are given. -/
structure ExactLimits (s : Stage) : Prop where
  /-- A limit has its seconds where they fit a word. -/
  seconds : ∀ side n, (s.limit side).seconds? = some n ↔
    n = (s.limit side).length ∧ (s.limit side).length ≤ 2 ^ 64 - 1
  /-- A histogram ends one past the upper limit, so that its end is neither zero nor wrapped. -/
  histogram_ok : ∀ n, s.histogramEnd = .ok n ↔
    n = s.upperLimit.length + 1 ∧ s.upperLimit.length + 1 ≤ 2 ^ 64 - 1
  /-- No step on words wraps. -/
  histogram_word : ∀ n, s.histogramEnd = .ok n →
    n = (s.upperLimit.value * UInt64.ofNat s.upperLimit.unit.length + 1).toNat
  histogram_error : ∀ e, s.histogramEnd = .error e ↔
    e = .limitOutOfRange .upper s.name ∧ 2 ^ 64 - 1 < s.upperLimit.length + 1
  /-- A limit is out of range. -/
  derived_range : (∃ e, s.thresholds none = .error e ∧ e.kind = .configuration) ↔
    2 ^ 63 - 1 < s.lowerLimit.length ∨ 2 ^ 63 - 1 < s.upperLimit.length + 1
  /-- Both limits are in range, but good would not end first. -/
  derived_order : (∃ e, s.thresholds none = .error e ∧ e.kind = .invalidThresholds) ↔
    s.lowerLimit.length ≤ 2 ^ 63 - 1 ∧ s.upperLimit.length + 1 ≤ 2 ^ 63 - 1 ∧
      (s.upperLimit.length + 1 : ℤ) ≤ s.lowerLimit.length - 1
  derived_ok : ∀ t, s.thresholds none = .ok t ↔
    s.lowerLimit.length ≤ 2 ^ 63 - 1 ∧ s.upperLimit.length + 1 ≤ 2 ^ 63 - 1 ∧
      (s.lowerLimit.length - 1 : ℤ) < s.upperLimit.length + 1 ∧
      t.good.toInt = s.lowerLimit.length - 1 ∧ t.needsAttention.toInt = s.upperLimit.length + 1
  /-- No step on signed words wraps. -/
  derived_words : ∀ t, s.thresholds none = .ok t →
    t = ⟨Int64.ofNat s.lowerLimit.length - 1, Int64.ofNat s.upperLimit.length + 1⟩
  /-- Thresholds that are given are checked for their order alone. -/
  given_ok : ∀ t t', s.thresholds (some t) = .ok t' ↔ t' = t ∧ t.good.toInt < t.needsAttention.toInt
  given_error : ∀ t e, s.thresholds (some t) = .error e ↔
    e = .invalidThresholds t.good.toInt t.needsAttention.toInt s.name ∧ t.needsAttention.toInt ≤ t.good.toInt

variable {s : Stage} {t : Thresholds} {n : ℕ}

theorem histogramEnd_eq_ok (h : s.histogramEnd = .ok n) : n = s.upperLimit.length + 1 := by
  unfold histogramEnd at h
  cases hs : s.upperLimit.seconds? with
  | none => rw [hs] at h; cases h
  | some upper =>
    obtain ⟨rfl, -⟩ := DurationLimit.seconds?_eq_some_iff.1 hs
    rw [hs] at h
    dsimp only at h
    split at h <;> cases h
    rfl

theorem derived_eq_ok (h : s.thresholds none = .ok t) :
    t.good.toInt = s.lowerLimit.length - 1 ∧ t.needsAttention.toInt = s.upperLimit.length + 1 := by
  obtain ⟨t', ht', h⟩ := Except.bind_eq_ok.1 h
  dsimp only at h
  split at h <;> cases h
  exact s.limitThresholds_eq_ok ht'

theorem given_eq_ok {given : Thresholds} (h : s.thresholds (some given) = .ok t) : t = given := by
  obtain ⟨t', ht', h⟩ := Except.bind_eq_ok.1 h
  cases ht'
  dsimp only at h
  split at h <;> cases h
  rfl

theorem exactLimits (s : Stage) : s.ExactLimits where
  seconds side n := by
    rw [DurationLimit.seconds?_eq_some_iff]
    omega
  histogram_ok n := by
    rw [s.raises_histogramEnd.eq_ok_iff (fun _ => histogramEnd_eq_ok) fun a b ha hb => ha.trans hb.symm,
      histogramErrors, errorUnless_eq_nil_iff]
    omega
  histogram_word n h := by
    have hfits := s.raises_histogramEnd.ok_iff.1 ⟨n, h⟩
    rw [histogramErrors, errorUnless_eq_nil_iff] at hfits
    have hword : s.upperLimit.value * UInt64.ofNat s.upperLimit.unit.length + 1 =
        UInt64.ofNat (s.upperLimit.length + 1) := by
      rw [DurationLimit.length, UInt64.ofNat_add, UInt64.ofNat_mul, UInt64.ofNat_toNat]
      rfl
    rw [hword, UInt64.toNat_ofNat_of_lt' hfits, histogramEnd_eq_ok h]
  histogram_error e := by
    rw [s.raises_histogramEnd.error_iff, histogramErrors, head?_errorUnless]
    refine and_congr_right fun _ => ?_
    omega
  derived_range := by
    simp only [(s.raises_thresholds none).error_iff, thresholdErrors, limitErrors, errorUnless]
    split_ifs <;> simp [Error.kind] <;> omega
  derived_order := by
    simp only [(s.raises_thresholds none).error_iff, thresholdErrors, limitErrors, errorUnless]
    split_ifs <;> simp [Error.kind] <;> omega
  derived_ok t := by
    rw [(s.raises_thresholds none).eq_ok_iff (fun _ => derived_eq_ok) fun a b ha hb =>
      Thresholds.eq_of_toInt (ha.1.trans hb.1.symm) (ha.2.trans hb.2.symm)]
    simp only [thresholdErrors, limitErrors, List.append_eq_nil_iff, errorUnless_eq_nil_iff]
    omega
  derived_words t h := by
    obtain ⟨hgood, hattention⟩ := derived_eq_ok h
    have hlower : Int64.ofNat s.lowerLimit.length - 1 = Int64.ofInt (s.lowerLimit.length - 1) := by
      rw [Int64.ofInt_sub, Int64.ofInt_eq_ofNat]
      rfl
    have hupper : Int64.ofNat s.upperLimit.length + 1 = Int64.ofInt (s.upperLimit.length + 1) := by
      rw [Int64.ofInt_add, Int64.ofInt_eq_ofNat]
      rfl
    rw [hlower, hupper, ← hgood, ← hattention, Int64.ofInt_toInt, Int64.ofInt_toInt]
  given_ok t t' := by
    rw [(s.raises_thresholds (some t)).eq_ok_iff (fun _ => given_eq_ok) fun a b ha hb => ha.trans hb.symm,
      thresholdErrors, errorUnless_eq_nil_iff, and_comm]
  given_error t e := by
    rw [(s.raises_thresholds (some t)).error_iff, thresholdErrors, head?_errorUnless, not_lt]

end Stage

namespace Page

structure Exact (number size : ℕ) : Prop where
  ok : ∀ page, new number size = .ok page ↔ 1 ≤ size ∧ number * size ≤ 2 ^ 64 - 1 ∧ page = ⟨size, number * size⟩
  /-- No step on words wraps. -/
  word : ∀ page, new number size = .ok page → page.offset = (UInt64.ofNat number * UInt64.ofNat size).toNat
  error : ∀ e, new number size = .error e ↔ size = 0 ∧ e = .emptyPage ∨
    1 ≤ size ∧ 2 ^ 64 - 1 < number * size ∧ e = .pageOutOfRange number size

theorem exact_new (number size : ℕ) : Exact number size where
  ok page := by
    have hword : number * size < 0x10000000000000000 ↔ number * size ≤ 2 ^ 64 - 1 := by omega
    rw [new_eq_ok_iff, hword]
    rfl
  word page h := by
    obtain ⟨-, hrows, rfl⟩ := new_eq_ok_iff.1 h
    rw [← UInt64.ofNat_mul, UInt64.toNat_ofNat_of_lt' hrows]
  error e := by
    unfold new
    split_ifs with hsize hrows
    · simp [hsize, eq_comm]
    · refine ⟨fun h => absurd h (by simp), fun h => ?_⟩
      omega
    · rw [Except.error.injEq, eq_comm]
      exact ⟨fun h => Or.inr ⟨by omega, by omega, h⟩, fun h => (h.resolve_left fun h => hsize h.1).2.2⟩

end Page

/-- For every stage and every page, what is computed is the exact number, and what does not fit its word is refused. -/
theorem exact_or_refused :
    (∀ s : Stage, s.ExactLimits) ∧ ∀ number size : ℕ, Page.Exact number size :=
  ⟨Stage.exactLimits, Page.exact_new⟩

end LeadTime

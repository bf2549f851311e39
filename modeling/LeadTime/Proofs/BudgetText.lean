import LeadTime.Proofs.ColumnNames
import LeadTime.Report
import Mathlib

/-! The text of a budget tells exactly how many seconds it has. Every number of seconds is one count of one unit, the
largest that divides it; the count and the unit are read back from the text, since digits end where a unit begins. -/
namespace LeadTime

open Placeholder (Undigited EndsNumber)

namespace TimeUnit

def suffix : TimeUnit → String
  | .seconds => "s"
  | .minutes => "min"
  | .hours => "h"
  | .days => "d"

theorem length_injective : Function.Injective length := fun u v => by
  cases u <;> cases v <;> decide

theorem suffix_injective : Function.Injective suffix := fun u v => by
  cases u <;> cases v <;> decide

theorem length_pos (u : TimeUnit) : 0 < u.length := by
  cases u <;> decide

theorem endsNumber_suffix (u : TimeUnit) : EndsNumber u.suffix.toList := by
  cases u <;> simp [suffix, EndsNumber]

end TimeUnit

/-- So many seconds are a count of the largest unit that divides them, and none at all are a count of seconds. -/
structure Counted (n count : ℕ) (unit : TimeUnit) : Prop where
  exact : count * unit.length = n
  largest : n ≠ 0 → ∀ u : TimeUnit, u.length ∣ n → u.length ≤ unit.length
  zero : n = 0 → unit = .seconds

variable {n count count' : ℕ} {unit unit' : TimeUnit}

namespace Counted

theorem zero_seconds : Counted 0 0 .seconds := ⟨rfl, absurd rfl, fun _ => rfl⟩

theorem of_mod_eq_zero {unit : TimeUnit} (hn : n ≠ 0) (hunit : n % unit.length = 0)
    (hlarger : ∀ u : TimeUnit, unit.length < u.length → n % u.length ≠ 0) : Counted n (n / unit.length) unit where
  exact := Nat.div_mul_cancel (Nat.dvd_of_mod_eq_zero hunit)
  largest _ u hu := not_lt.1 fun hlt => hlarger u hlt (Nat.mod_eq_zero_of_dvd hu)
  zero h := absurd h hn

theorem unique (h : Counted n count unit) (h' : Counted n count' unit') : count = count' ∧ unit = unit' := by
  have hunit : unit = unit' := by
    by_cases hn : n = 0
    · rw [h.zero hn, h'.zero hn]
    · have hle : unit.length ≤ unit'.length := h'.largest hn unit (Dvd.intro_left count h.exact)
      have hge : unit'.length ≤ unit.length := h.largest hn unit' (Dvd.intro_left count' h'.exact)
      exact TimeUnit.length_injective (le_antisymm hle hge)
  subst hunit
  exact ⟨Nat.eq_of_mul_eq_mul_right unit.length_pos (h.exact.trans h'.exact.symm), rfl⟩

end Counted

section Seconds

/-- The units are tried from the largest on, so that all larger ones are excluded where one divides. -/
theorem exists_counted (n : ℕ) :
    ∃ count unit, Counted n count unit ∧ secondsText n = toString count ++ unit.suffix := by
  unfold secondsText
  split_ifs with hzero hdays hhours hminutes
  · subst hzero
    exact ⟨0, .seconds, .zero_seconds, rfl⟩
  · refine ⟨_, .days, .of_mod_eq_zero hzero hdays fun u hlt => ?_, rfl⟩
    cases u <;> exact absurd hlt (by decide)
  · refine ⟨_, .hours, .of_mod_eq_zero hzero hhours fun u hlt => ?_, rfl⟩
    cases u with
    | days => exact hdays
    | seconds | minutes | hours => exact absurd hlt (by decide)
  · refine ⟨_, .minutes, .of_mod_eq_zero hzero hminutes fun u hlt => ?_, rfl⟩
    cases u with
    | days => exact hdays
    | hours => exact hhours
    | seconds | minutes => exact absurd hlt (by decide)
  · have hcount : n / TimeUnit.seconds.length = n := Nat.div_one n
    refine ⟨_, .seconds, .of_mod_eq_zero hzero (Nat.mod_one n) fun u hlt => ?_, by rw [hcount]; rfl⟩
    cases u with
    | days => exact hdays
    | hours => exact hhours
    | minutes => exact hminutes
    | seconds => exact absurd hlt (by decide)

/-- The digits of a count end where its unit begins. -/
theorem count_suffix_inj (h : toString count ++ unit.suffix = toString count' ++ unit'.suffix) :
    count = count' ∧ unit = unit' := by
  have hempty : Undigited "".toList := by decide
  have hread : "" ++ count.repr ++ unit.suffix = "" ++ count'.repr ++ unit'.suffix := by
    simpa only [String.empty_append, Nat.toString_eq_repr] using h
  obtain ⟨-, hcount, hsuffix⟩ :=
    Placeholder.numbered_inj hempty hempty unit.endsNumber_suffix unit'.endsNumber_suffix hread
  exact ⟨hcount, TimeUnit.suffix_injective hsuffix⟩

theorem secondsText_eq_iff : secondsText n = toString count ++ unit.suffix ↔ Counted n count unit := by
  obtain ⟨written, writtenUnit, hcounted, htext⟩ := exists_counted n
  constructor
  · intro h
    obtain ⟨rfl, rfl⟩ := count_suffix_inj (htext.symm.trans h)
    exact hcounted
  · intro h
    obtain ⟨rfl, rfl⟩ := hcounted.unique h
    exact htext

example : secondsText 5400 = "90min" := by decide

theorem secondsText_injective : Function.Injective secondsText := fun m n h => by
  obtain ⟨count, unit, hcounted, htext⟩ := exists_counted m
  have hother : Counted n count unit := secondsText_eq_iff.1 (h.symm.trans htext)
  exact hcounted.exact.symm.trans hother.exact

theorem secondsText_ne_of_undigited {text : String} (h : Undigited text.toList) (n : ℕ) : secondsText n ≠ text := by
  obtain ⟨count, unit, -, htext⟩ := exists_counted n
  have hdigit := not_undigited_append_repr "" count unit.suffix
  rw [String.empty_append, ← Nat.toString_eq_repr, ← htext] at hdigit
  rintro rfl
  exact hdigit h

end Seconds

namespace DurationLimit

variable {d e : DurationLimit}

theorem text_of_fits (h : d.length ≤ 2 ^ 64 - 1) : d.text = secondsText d.length := by
  have hseconds : d.seconds? = some d.length := seconds?_eq_some_iff.2 ⟨rfl, by omega⟩
  rw [text, hseconds]

theorem text_of_overflows (h : 2 ^ 64 - 1 < d.length) : d.text = "out of range" := by
  have hseconds : d.seconds? = none := if_neg (by omega)
  rw [text, hseconds]

theorem text_eq_iff :
    d.text = e.text ↔ (2 ^ 64 - 1 < d.length ∧ 2 ^ 64 - 1 < e.length) ∨ d.length = e.length := by
  have hrange : Undigited "out of range".toList := by decide
  by_cases hd : 2 ^ 64 - 1 < d.length <;> by_cases he : 2 ^ 64 - 1 < e.length
  · simp only [text_of_overflows hd, text_of_overflows he, hd, he, and_self, true_or]
  -- Where one of them overflows and the other fits, only one text has a digit.
  · rw [text_of_overflows hd, text_of_fits (not_lt.1 he)]
    refine ⟨fun h => absurd h.symm (secondsText_ne_of_undigited hrange _), ?_⟩
    omega
  · rw [text_of_fits (not_lt.1 hd), text_of_overflows he]
    refine ⟨fun h => absurd h (secondsText_ne_of_undigited hrange _), ?_⟩
    omega
  · rw [text_of_fits (not_lt.1 hd), text_of_fits (not_lt.1 he), secondsText_injective.eq_iff]
    omega

end DurationLimit

/-- Every number of seconds is written as a count and a unit, and only as those that come to exactly this number in the
largest unit; so no two numbers are written alike. Limits are written alike where neither fits a word, or where both have
the same number of seconds. -/
theorem budgets_lossless :
    (∀ n : ℕ, (∃ (count : ℕ) (unit : TimeUnit), secondsText n = toString count ++ unit.suffix) ∧
      ∀ (count : ℕ) (unit : TimeUnit), secondsText n = toString count ++ unit.suffix ↔ Counted n count unit) ∧
    Function.Injective secondsText ∧
    ∀ d e : DurationLimit, d.text = e.text ↔
      (2 ^ 64 - 1 < d.length ∧ 2 ^ 64 - 1 < e.length) ∨ d.length = e.length := by
  refine ⟨fun n => ⟨?_, fun _ _ => secondsText_eq_iff⟩, secondsText_injective, fun _ _ => DurationLimit.text_eq_iff⟩
  obtain ⟨count, unit, -, htext⟩ := exists_counted n
  exact ⟨count, unit, htext⟩

end LeadTime

import LeadTime.Instant
import Mathlib

/-! The text of an instant is read back as that instant. Every number is written in as many digits as it is read in, so
that what follows does not matter; only a year with a sign and a fraction end where their digits do. -/
namespace LeadTime

namespace Text

variable {c : Char} {ds rest : List Char}

theorem isDigit_eq (c : Char) : isDigit c = c.isDigit := by
  rw [Bool.eq_iff_iff]
  simp [isDigit, Char.isDigit, Char.le_def]

theorem isBlank_of_isDigit (h : isDigit c = true) : isBlank c = false := by
  have hdigit : 48 ≤ c.toNat ∧ c.toNat ≤ 57 := by
    simpa [isDigit, Char.le_def, UInt32.le_iff_toNat_le] using h
  simp only [isBlank, Bool.or_eq_false_iff, Bool.and_eq_false_iff, decide_eq_false_iff_not, beq_eq_false_iff_ne]
  omega

theorem trimLeft_cons (h : isBlank c = false) (rest : List Char) : trimLeft (c :: rest) = c :: rest :=
  List.dropWhile_cons_of_neg (by simp [h])

theorem trimLeft_digits (hds : ∀ c ∈ ds, isDigit c = true) (hne : ds ≠ []) (rest : List Char) :
    trimLeft (ds ++ rest) = ds ++ rest := by
  cases ds with
  | nil => exact absurd rfl hne
  | cons c ds => exact trimLeft_cons (isBlank_of_isDigit (hds c List.mem_cons_self)) _

theorem takeWhile_digits (hds : ∀ c ∈ ds, isDigit c = true) (hrest : ∀ c ∈ rest.head?, isDigit c = false) :
    (ds ++ rest).takeWhile isDigit = ds := by
  rw [List.takeWhile_append_of_pos hds]
  cases rest with
  | nil => simp
  | cons c rest => rw [List.takeWhile_cons_of_neg (by simp [hrest c rfl]), List.append_nil]

theorem natOfDigits_eq (ds : List Char) : natOfDigits ds = Nat.ofDigitChars 10 ds 0 := by
  simp only [natOfDigits, Nat.ofDigitChars, Nat.mul_comm]

theorem natOfDigits_zeros (k : ℕ) (ds : List Char) : natOfDigits (List.replicate k '0' ++ ds) = natOfDigits ds := by
  induction k with
  | zero => rfl
  | succ k ih => rw [List.replicate_succ, List.cons_append, natOfDigits, List.foldl_cons]; exact ih

end Text

open Text

namespace Instant

variable {width n : ℕ} {rest : List Char}

section Padded

theorem isDigit_of_mem_padded {c : Char} (h : c ∈ padded width n) : isDigit c = true := by
  rcases List.mem_append.1 h with h | h
  · rw [List.eq_of_mem_replicate h]
    rfl
  · rw [isDigit_eq]
    exact Nat.isDigit_of_mem_toDigits (by decide) (by decide) h

theorem natOfDigits_padded (width n : ℕ) : natOfDigits (padded width n) = n := by
  rw [padded, natOfDigits_zeros, natOfDigits_eq, Nat.ofDigitChars_toDigits (by decide) (by decide)]

theorem padded_ne_nil (width n : ℕ) : padded width n ≠ [] := by
  simp [padded, Nat.toDigits_ne_nil]

theorem exists_padded_eq_cons (width n : ℕ) : ∃ c ds, padded width n = c :: ds ∧ isDigit c = true := by
  obtain ⟨c, ds, hdigits⟩ := List.exists_cons_of_ne_nil (padded_ne_nil width n)
  exact ⟨c, ds, hdigits, isDigit_of_mem_padded (hdigits ▸ List.mem_cons_self)⟩

theorem length_padded (hwidth : 0 < width) (hn : n < 10 ^ width) : (padded width n).length = width := by
  have hle : (Nat.toDigits 10 n).length ≤ width := (Nat.length_toDigits_le_iff (by decide) hwidth).2 hn
  rw [padded, List.length_append, List.length_replicate]
  omega

end Padded

section Parts

theorem number?_digits {ds : List Char} (hds : ∀ c ∈ ds, isDigit c = true) (hne : ds ≠ [])
    (htake : ((ds ++ rest).take width).takeWhile isDigit = ds) :
    number? width (ds ++ rest) = some (natOfDigits ds, rest) := by
  simp [number?, trimLeft_digits hds hne, htake, hne]

theorem number?_padded (hwidth : 0 < width) (hn : n < 10 ^ width) (rest : List Char) :
    number? width (padded width n ++ rest) = some (n, rest) := by
  have htake : ((padded width n ++ rest).take width).takeWhile isDigit = padded width n := by
    rw [List.take_left' (length_padded hwidth hn), List.takeWhile_eq_self_iff]
    exact fun c => isDigit_of_mem_padded
  rw [number?_digits (fun c => isDigit_of_mem_padded) (padded_ne_nil width n) htake, natOfDigits_padded]

theorem number?_length (width n : ℕ) (hrest : ∀ c ∈ rest.head?, isDigit c = false) :
    number? (padded width n ++ rest).length (padded width n ++ rest) = some (n, rest) := by
  have htake : ((padded width n ++ rest).take (padded width n ++ rest).length).takeWhile isDigit = padded width n := by
    rw [List.take_length, takeWhile_digits (fun c => isDigit_of_mem_padded) hrest]
  rw [number?_digits (fun c => isDigit_of_mem_padded) (padded_ne_nil width n) htake, natOfDigits_padded]

theorem mark?_cons {c : Char} (h : isBlank c = false) (rest : List Char) : mark? c (c :: rest) = some rest := by
  simp [mark?, trimLeft_cons h]

theorem year?_of_digit {c : Char} (h : isDigit c = true) (rest : List Char) :
    year? (c :: rest) = (number? 4 (c :: rest)).map fun (n, rest) => ((n : ℤ), rest) := by
  rw [year?, trimLeft_cons (isBlank_of_isDigit h)]
  split
  · rename_i he
    cases he
    cases h
  · rename_i he
    cases he
    cases h
  · rfl

theorem year?_yearText (year : ℤ) (hrest : ∀ c ∈ rest.head?, isDigit c = false) :
    year? (yearText year ++ rest) = some (year, rest) := by
  -- Without a sign there are four digits; after a sign there are as many as it takes.
  by_cases hplain : 0 ≤ year ∧ year ≤ 9999
  · have hread : number? 4 (padded 4 year.toNat ++ rest) = some (year.toNat, rest) :=
      number?_padded (by decide) (by omega) rest
    obtain ⟨c, ds, hdigits, hc⟩ := exists_padded_eq_cons 4 year.toNat
    have hyear : (year.toNat : ℤ) = year := by omega
    rw [yearText, if_pos hplain, hdigits, List.cons_append, year?_of_digit hc, ← List.cons_append, ← hdigits, hread]
    simp [hyear]
  · have hread := number?_length 4 year.natAbs hrest
    have hhead : ((padded 4 year.natAbs ++ rest).head?.map isDigit).getD false = true := by
      obtain ⟨c, ds, hdigits, hc⟩ := exists_padded_eq_cons 4 year.natAbs
      simp [hdigits, hc]
    rw [yearText, if_neg hplain, List.cons_append]
    generalize padded 4 year.natAbs ++ rest = digits at hread hhead
    split
    · have hyear : -(year.natAbs : ℤ) = year := by omega
      rw [year?, trimLeft_cons (by decide)]
      simp only [hhead, hread, if_true, Option.map_some, hyear]
    · have hyear : (year.natAbs : ℤ) = year := by omega
      rw [year?, trimLeft_cons (by decide)]
      simp only [hhead, hread, if_true, Option.map_some, hyear]

theorem fraction?_padded (hwidth : 0 < width) (hmost : width ≤ 9) (hn : n < 10 ^ width)
    (hrest : ∀ c ∈ rest.head?, isDigit c = false) :
    fraction? ('.' :: padded width n ++ rest) = some (n * 10 ^ (9 - width), rest) := by
  have hdigits : (padded width n ++ rest).takeWhile isDigit = padded width n :=
    takeWhile_digits (fun c => isDigit_of_mem_padded) hrest
  have hlength := length_padded hwidth hn
  have hkept : (padded width n).take 9 = padded width n := List.take_of_length_le (by omega)
  simp [fraction?, hdigits, hkept, padded_ne_nil, natOfDigits_padded, hlength]

theorem fraction?_fractionText {nano : ℕ} (hnano : nano < 1000000000) :
    fraction? (fractionText nano ++ ['Z']) = some (nano, ['Z']) := by
  have hrest : ∀ c ∈ ['Z'].head?, isDigit c = false := by simp [isDigit]
  unfold fractionText
  split
  · rename_i hzero
    rw [hzero]
    rfl
  · split
    · rw [fraction?_padded (by decide) (by decide) (by omega) hrest, show nano / 1000000 * 10 ^ (9 - 3) = nano by omega]
    · split
      · rw [fraction?_padded (by decide) (by decide) (by omega) hrest, show nano / 1000 * 10 ^ (9 - 6) = nano by omega]
      · rw [fraction?_padded (by decide) (by decide) (by omega) hrest, show nano * 10 ^ (9 - 9) = nano by omega]

theorem shift_zero {m : Moment} (hhour : m.hour < 24) (hminute : m.minute < 60) : shift m 0 = m := by
  have hclock : ((m.hour * 60 + m.minute - 0 : ℤ) % 1440).toNat = m.hour * 60 + m.minute := by omega
  have hfirst : ¬ (m.hour * 60 + m.minute - 0 : ℤ) < 0 := by omega
  have hlast : (m.hour * 60 + m.minute - 0 : ℤ) < 1440 := by omega
  have hhours : (m.hour * 60 + m.minute) / 60 = m.hour := by omega
  have hminutes : (m.hour * 60 + m.minute) % 60 = m.minute := by omega
  simp only [shift, hclock, if_neg hfirst, if_pos hlast, hhours, hminutes]

end Parts

/-- An instant is read from its own text, whatever its year, its fraction of a second or its leap second. -/
theorem ofText?_text (i : Instant) : ofText? i.text = some i := by
  obtain ⟨⟨-, -, -, hmonth, -, hday⟩, hhour, hminute, hsecond, hnano⟩ := i.valid
  have hdays : daysInMonth i.moment.date.year i.moment.date.month ≤ 31 := by
    unfold daysInMonth
    grind
  have htwo {n : ℕ} (hn : n ≤ 99) (rest : List Char) : number? 2 (padded 2 n ++ rest) = some (n, rest) :=
    number?_padded (by decide) (by omega) rest
  have hdash := mark?_cons (c := '-') (by decide)
  have hcolon := mark?_cons (c := ':') (by decide)
  have hwritten : ofMoment? i.moment = some i := dif_pos i.valid
  simp only [ofText?, text, String.toList_ofList, List.append_assoc, List.cons_append]
  -- The parts are read one after the other, each up to where the next one begins.
  refine Option.bind_eq_some_iff.2 ⟨_, year?_yearText _ (by simp [isDigit]), ?_⟩
  refine Option.bind_eq_some_iff.2 ⟨_, hdash _, ?_⟩
  refine Option.bind_eq_some_iff.2 ⟨_, htwo (by omega) _, ?_⟩
  refine Option.bind_eq_some_iff.2 ⟨_, hdash _, ?_⟩
  refine Option.bind_eq_some_iff.2 ⟨_, htwo (by omega) _, ?_⟩
  refine (if_pos (.inl rfl)).trans ?_
  refine Option.bind_eq_some_iff.2 ⟨_, rfl, ?_⟩
  refine Option.bind_eq_some_iff.2 ⟨_, htwo (by omega) _, ?_⟩
  refine Option.bind_eq_some_iff.2 ⟨_, hcolon _, ?_⟩
  refine Option.bind_eq_some_iff.2 ⟨_, htwo (by omega) _, ?_⟩
  refine Option.bind_eq_some_iff.2 ⟨_, hcolon _, ?_⟩
  refine Option.bind_eq_some_iff.2 ⟨_, htwo (by omega) _, ?_⟩
  refine Option.bind_eq_some_iff.2 ⟨_, fraction?_fractionText hnano, ?_⟩
  refine Option.bind_eq_some_iff.2 ⟨(0, []), rfl, ?_⟩
  refine Option.bind_eq_some_iff.2 ⟨i, hwritten, ?_⟩
  show ofMoment? (shift i.moment 0) = some i
  rw [shift_zero hhour hminute, hwritten]

end Instant
end LeadTime

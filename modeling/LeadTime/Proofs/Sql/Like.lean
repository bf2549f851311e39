import LeadTime.Sql.Token
import Mathlib

/-! Patterns of LIKE. A text with neither wildcards nor backslashes stands for itself in a pattern, so that one which ends
in a percent sign, or is between two, is that of prefixes or of parts. A text with any of them is matched by another one
that has fewer, which `sample` makes; so no other text is found by such patterns as a prefix or a part is. -/
namespace LeadTime.Sql

def isSpecial (c : Char) : Bool := c = '%' || c = '_' || c = '\\'

/-- A text is like a pattern: a percent sign stands for any run of characters and an underscore for any one character, and
a backslash has the next character stand for itself. -/
inductive LikeChars : (pattern text : List Char) → Prop
  | nil : LikeChars [] []
  | run {pattern text : List Char} (skipped : List Char) : LikeChars pattern text →
      LikeChars ('%' :: pattern) (skipped ++ text)
  | one {pattern text : List Char} (c : Char) : LikeChars pattern text → LikeChars ('_' :: pattern) (c :: text)
  | escaped {pattern text : List Char} (c : Char) : LikeChars pattern text →
      LikeChars ('\\' :: c :: pattern) (c :: text)
  | literal {pattern text : List Char} {c : Char} (h : isSpecial c = false) : LikeChars pattern text →
      LikeChars (c :: pattern) (c :: text)

def Like (pattern text : String) : Prop := LikeChars pattern.toList text.toList

def Plain (cs : List Char) : Prop := ∀ c ∈ cs, isSpecial c = false

namespace LikeChars

variable {p q s t : List Char}

theorem append (hp : LikeChars p s) (hq : LikeChars q t) : LikeChars (p ++ q) (s ++ t) := by
  induction hp with
  | nil => exact hq
  | run skipped _ ih => simpa using run skipped ih
  | one c _ ih => exact one c ih
  | escaped c _ ih => exact escaped c ih
  | literal h _ ih => exact literal h ih

theorem run_iff : LikeChars ('%' :: q) t ↔ ∃ rest, rest <:+ t ∧ LikeChars q rest := by
  constructor
  · intro h
    cases h with
    | run skipped h => exact ⟨_, List.suffix_append _ _, h⟩
    | literal h _ => cases h
  · rintro ⟨rest, ⟨skipped, rfl⟩, h⟩
    exact run skipped h

theorem run_end (t : List Char) : LikeChars ['%'] t := run_iff.2 ⟨[], List.nil_suffix, nil⟩

theorem plain_append_iff (hp : Plain p) : LikeChars (p ++ q) t ↔ ∃ rest, t = p ++ rest ∧ LikeChars q rest := by
  induction p generalizing t with
  | nil => simp
  | cons c p ih =>
    obtain ⟨hc, hp⟩ := List.forall_mem_cons.1 hp
    rw [List.cons_append]
    constructor
    · intro h
      generalize hr : p ++ q = r at h
      cases h with
      | literal _ h =>
        obtain ⟨rest, rfl, hrest⟩ := (ih hp).1 (hr ▸ h)
        exact ⟨rest, rfl, hrest⟩
      | _ => cases hc
    · rintro ⟨rest, rfl, hrest⟩
      exact literal hc ((ih hp).2 ⟨rest, rfl, hrest⟩)

theorem begins_iff (hp : Plain p) : LikeChars (p ++ ['%']) t ↔ p <+: t := by
  rw [plain_append_iff hp]
  exact ⟨fun ⟨rest, h, _⟩ => ⟨rest, h.symm⟩, fun ⟨rest, h⟩ => ⟨rest, h.symm, run_end rest⟩⟩

theorem contains_iff (hp : Plain p) : LikeChars ('%' :: (p ++ ['%'])) t ↔ p <:+: t := by
  simp only [run_iff, begins_iff hp, List.infix_iff_prefix_suffix]
  exact exists_congr fun _ => and_comm

end LikeChars

def isOpen : List Char → Bool
  | [] => false
  | ['\\'] => true
  | '\\' :: _ :: rest => isOpen rest
  | _ :: rest => isOpen rest

/-- A text that is like the pattern, with no more special characters than must be. -/
def sample : List Char → List Char
  | [] => []
  | ['\\'] => []
  | '\\' :: c :: rest => c :: sample rest
  | '%' :: rest => sample rest
  | '_' :: rest => 'x' :: sample rest
  | c :: rest => c :: sample rest

/-- How special a character is. A backslash counts twice, since what it escapes may be special too. -/
def charWeight (c : Char) : ℕ := if c = '\\' then 2 else if isSpecial c then 1 else 0

def weight (cs : List Char) : ℕ := (cs.map charWeight).sum

section Sample

variable {p q t : List Char} {c : Char}

/-- A pattern goes on with what a backslash escapes, or with a character that is no backslash. -/
theorem patternInduction {P : List Char → Prop} (nil : P []) (unfinished : P ['\\'])
    (escaped : ∀ c rest, P rest → P ('\\' :: c :: rest)) (other : ∀ c rest, c ≠ '\\' → P rest → P (c :: rest))
    (p : List Char) : P p := by
  induction p using isOpen.induct with
  | case1 => exact nil
  | case2 => exact unfinished
  | case3 c rest ih => exact escaped c rest ih
  | case4 c rest hnil hcons ih =>
    refine other c rest ?_ ih
    rintro rfl
    cases rest with
    | nil => exact hnil rfl rfl
    | cons d rest => exact hcons d rest rfl rfl

theorem isOpen_cons (h : c ≠ '\\') (rest : List Char) : isOpen (c :: rest) = isOpen rest := by simp [isOpen, h]

theorem sample_cons (h : isSpecial c = false) (rest : List Char) : sample (c :: rest) = c :: sample rest := by
  simp only [isSpecial, Bool.or_eq_false_iff, decide_eq_false_iff_not] at h
  simp [sample, h]

theorem weight_cons (c : Char) (rest : List Char) : weight (c :: rest) = charWeight c + weight rest := by simp [weight]

theorem weight_append (p q : List Char) : weight (p ++ q) = weight p + weight q := by simp [weight]

theorem weight_le_of_infix (h : p <:+: t) : weight p ≤ weight t := by
  obtain ⟨before, after, rfl⟩ := h
  simp only [weight_append]
  omega

theorem charWeight_of_plain (h : isSpecial c = false) : charWeight c = 0 := by
  have hne : c ≠ '\\' := by
    rintro rfl
    cases h
  simp [charWeight, hne, h]

theorem weight_of_plain (h : Plain p) : weight p = 0 := by
  rw [weight, List.sum_eq_zero_iff]
  intro w hw
  obtain ⟨c, hc, rfl⟩ := List.mem_map.1 hw
  exact charWeight_of_plain (h c hc)

theorem isOpen_append_run (p : List Char) : isOpen (p ++ ['%']) = false := by
  induction p using patternInduction with
  | nil | unfinished => rfl
  | escaped c rest ih => exact ih
  | other c rest hc ih => rw [List.cons_append, isOpen_cons hc, ih]

theorem wildcard_of_special (h : isSpecial c = true) (hc : c ≠ '\\') : c = '%' ∨ c = '_' := by
  simpa [isSpecial, hc] using h

theorem sample_append_run (h : isOpen p = false) : sample (p ++ ['%']) = sample p := by
  induction p using patternInduction with
  | nil => rfl
  | unfinished => cases h
  | escaped c rest ih => exact congrArg (c :: ·) (ih h)
  | other c rest hc ih =>
    rw [isOpen_cons hc] at h
    cases hs : isSpecial c with
    | false => rw [List.cons_append, sample_cons hs, sample_cons hs, ih h]
    | true =>
      rcases wildcard_of_special hs hc with rfl | rfl
      · exact ih h
      · exact congrArg ('x' :: ·) (ih h)

theorem like_sample (h : isOpen p = false) : LikeChars p (sample p) := by
  induction p using patternInduction with
  | nil => exact .nil
  | unfinished => cases h
  | escaped c rest ih => exact .escaped c (ih h)
  | other c rest hc ih =>
    rw [isOpen_cons hc] at h
    cases hs : isSpecial c with
    | false =>
      rw [sample_cons hs]
      exact .literal hs (ih h)
    | true =>
      rcases wildcard_of_special hs hc with rfl | rfl
      · exact .run [] (ih h)
      · exact .one 'x' (ih h)

/-- Samples of what a percent sign ends are less special than what stands before it, which else is plain. -/
theorem weight_sample (p : List Char) :
    weight (sample (p ++ ['%'])) < weight p ∨ Plain p ∧ weight (sample (p ++ ['%'])) = 0 := by
  induction p using patternInduction with
  | nil => exact Or.inr ⟨fun _ hc => absurd hc List.not_mem_nil, rfl⟩
  | unfinished => exact Or.inl (by decide)
  | escaped c rest ih =>
    have hsample : weight (sample ('\\' :: c :: rest ++ ['%'])) = charWeight c + weight (sample (rest ++ ['%'])) :=
      weight_cons _ _
    have hweight : weight ('\\' :: c :: rest) = 2 + (charWeight c + weight rest) := rfl
    omega
  | other c rest hc ih =>
    cases hs : isSpecial c with
    | false =>
      rw [List.cons_append, sample_cons hs, weight_cons, weight_cons, charWeight_of_plain hs]
      exact ih.imp (by simp) fun h => ⟨List.forall_mem_cons.2 ⟨hs, h.1⟩, by simp [h.2]⟩
    | true =>
      have hweight : weight (c :: rest) = 1 + weight rest := by simp [weight_cons, charWeight, hc, hs]
      have hsample : weight (sample (c :: rest ++ ['%'])) = weight (sample (rest ++ ['%'])) := by
        rcases wildcard_of_special hs hc with rfl | rfl
        · rfl
        · exact (weight_cons _ _).trans (Nat.zero_add _)
      omega

theorem LikeChars.last_of_isOpen (hp : isOpen p = true) (h : LikeChars (p ++ ['%']) t) : ∃ front, t = front ++ ['%'] := by
  induction p using patternInduction generalizing t with
  | nil => cases hp
  | unfinished =>
    cases h with
    | escaped _ h =>
      cases h
      exact ⟨[], rfl⟩
    | literal h _ => cases h
  | escaped c rest ih =>
    rw [List.cons_append, List.cons_append] at h
    cases h with
    | escaped _ h =>
      obtain ⟨front, rfl⟩ := ih hp h
      exact ⟨c :: front, rfl⟩
    | literal h _ => cases h
  | other c rest hc ih =>
    rw [isOpen_cons hc] at hp
    rw [List.cons_append] at h
    generalize hr : rest ++ ['%'] = r at h
    cases h with
    | run skipped h =>
      obtain ⟨front, rfl⟩ := ih hp (hr ▸ h)
      exact ⟨skipped ++ front, (List.append_assoc _ _ _).symm⟩
    | one d h | literal _ h =>
      obtain ⟨front, rfl⟩ := ih hp (hr ▸ h)
      exact ⟨_ :: front, rfl⟩
    | escaped _ _ => exact absurd rfl hc

/-- The patterns of a start and of a part find the texts that have both, and no others. -/
def PatternsFind (p q : List Char) : Prop :=
  ∀ t, LikeChars (p ++ ['%']) t ∧ LikeChars ('%' :: (q ++ ['%'])) t ↔ p <+: t ∧ q <:+: t

theorem like_sample_contains (q before : List Char) :
    LikeChars ('%' :: (q ++ ['%'])) (before ++ sample (q ++ ['%'])) :=
  LikeChars.run_iff.2 ⟨_, List.suffix_append _ _, like_sample (isOpen_append_run q)⟩

/-- A start that ends in an open backslash escapes the percent sign, so that texts which do not end in it are missed. -/
theorem PatternsFind.not_isOpen (h : PatternsFind p q) : isOpen p = false := by
  rw [Bool.eq_false_iff]
  intro hopen
  have hfound : p <+: p ++ (q ++ ['x']) ∧ q <:+: p ++ (q ++ ['x']) :=
    ⟨List.prefix_append _ _, (List.prefix_append _ _).isInfix.trans (List.suffix_append _ _).isInfix⟩
  obtain ⟨front, hlast⟩ := ((h _).2 hfound).1.last_of_isOpen hopen
  rw [← List.append_assoc] at hlast
  cases (List.append_inj' hlast rfl).2

/-- Among the texts that are found is a sample of the start, filled up with plain characters. If that has the start in
front, the start is no more special than its sample. -/
theorem PatternsFind.plain_start (h : PatternsFind p q) : Plain p := by
  refine ((weight_sample p).resolve_left fun hless => ?_).1
  rw [sample_append_run h.not_isOpen] at hless
  have hlike : LikeChars (p ++ ['%']) (sample p ++ List.replicate p.length 'x' ++ sample (q ++ ['%'])) := by
    rw [List.append_assoc]
    exact (like_sample h.not_isOpen).append (LikeChars.run_end _)
  have hfound := (h _).1 ⟨hlike, like_sample_contains q _⟩
  have hstart : p <+: sample p ++ List.replicate p.length 'x' :=
    List.prefix_of_prefix_length_le hfound.1 (List.prefix_append _ _) (by simp)
  have hfill : weight (List.replicate p.length 'x') = 0 := weight_of_plain fun c hc => by
    rw [List.eq_of_mem_replicate hc]
    rfl
  have hle := weight_le_of_infix hstart.isInfix
  rw [weight_append, hfill] at hle
  omega

theorem PatternsFind.plain_part (h : PatternsFind p q) : Plain q := by
  refine ((weight_sample q).resolve_left fun hless => ?_).1
  have hfound := (h _).1 ⟨(LikeChars.begins_iff h.plain_start).2 (List.prefix_append _ _), like_sample_contains q p⟩
  have hle := weight_le_of_infix hfound.2
  rw [weight_append, weight_of_plain h.plain_start] at hle
  omega

/-- The patterns find what they should exactly where both texts are plain. -/
theorem patternsFind_iff : PatternsFind p q ↔ Plain p ∧ Plain q := by
  refine ⟨fun h => ⟨h.plain_start, h.plain_part⟩, ?_⟩
  rintro ⟨hp, hq⟩ t
  rw [LikeChars.begins_iff hp, LikeChars.contains_iff hq]

end Sample

end LeadTime.Sql

import LeadTime.Proofs.Sql.Legible
import LeadTime.Proofs.Sql.Text
import Mathlib

/-! Terms that AND joins. A text is a conjunct where its parentheses balance and no OR stands outside of them, so that the
terms on either side of it stay apart. Being a conjunct is not kept when texts are put together, for a word may come to be
at a seam; being sealed is, where no word that starts outside of parentheses starts with a capital O. -/
namespace LeadTime.Sql

/-- How many parentheses are open after a text, given how many are before it; nothing where one is closed that is not
open. -/
def depth? : Nat → List Char → Option Nat
  | d, [] => some d
  | d, c :: rest =>
    if c = '(' then depth? (d + 1) rest
    else if c = ')' then if d = 0 then none else depth? (d - 1) rest
    else depth? d rest

/-- Every parenthesis that is opened is closed, and none is closed that was not opened. -/
def Balanced (cs : List Char) : Prop := depth? 0 cs = some 0

/-- Parentheses balance, and no OR stands outside of them. -/
structure Conjunct (s : String) : Prop where
  balanced : Balanced s.toList
  enclosed : ∀ before after, s.toList = before ++ " OR ".toList ++ after → ¬ Balanced before

/-- Parentheses balance, and outside of them no capital O stands after a blank or first. -/
structure Sealed (cs : List Char) : Prop where
  balanced : Balanced cs
  apart : ∀ before after, ' ' :: cs = before ++ ' ' :: 'O' :: after → ¬ Balanced before

instance (cs : List Char) : Decidable (Balanced cs) := inferInstanceAs (Decidable (_ = _))

section Depth

variable {a b cs : List Char} {d e : Nat}

theorem depth?_append (d : Nat) (a b : List Char) : depth? d (a ++ b) = (depth? d a).bind (depth? · b) := by
  induction a generalizing d with
  | nil => rfl
  | cons c rest ih =>
    simp only [List.cons_append, depth?, ih]
    split_ifs <;> rfl

theorem depth?_add (n : Nat) (h : depth? d cs = some e) : depth? (d + n) cs = some (e + n) := by
  induction cs generalizing d with
  | nil =>
    cases h
    rfl
  | cons c rest ih =>
    simp only [depth?] at h ⊢
    split_ifs at h ⊢
    · rw [Nat.add_right_comm]
      exact ih h
    · omega
    · rw [show d + n - 1 = d - 1 + n by omega]
      exact ih h
    · exact ih h

theorem Balanced.depth? (h : Balanced cs) (d : Nat) : Sql.depth? d cs = some d := by
  have hadd := depth?_add d h
  rwa [Nat.zero_add] at hadd

theorem Balanced.append_iff (ha : Balanced a) : Balanced (a ++ b) ↔ Balanced b := by
  rw [Balanced, depth?_append, ha, Option.bind_some, Balanced]

theorem Balanced.append (ha : Balanced a) (hb : Balanced b) : Balanced (a ++ b) := ha.append_iff.2 hb

theorem Balanced.group (h : Balanced cs) : Balanced ('(' :: (cs ++ [')'])) := by
  have hinner : Sql.depth? 1 cs = some 1 := h.depth? 1
  simp [Balanced, Sql.depth?, depth?_append, hinner]

theorem Balanced.not_balanced_open (h : Balanced (a ++ b)) : ¬ Balanced ('(' :: a) := by
  intro hopen
  rw [Balanced, depth?_append, Option.bind_eq_some_iff] at h
  obtain ⟨n, hn, -⟩ := h
  have hone : Sql.depth? 1 a = some (n + 1) := by simpa [Nat.add_comm] using depth?_add 1 hn
  simp [Balanced, Sql.depth?, hone] at hopen

theorem balanced_of_notMem (ho : '(' ∉ cs) (hc : ')' ∉ cs) : Balanced cs := by
  induction cs with
  | nil => rfl
  | cons c rest ih =>
    rw [List.mem_cons, not_or] at ho hc
    have hrest : Balanced rest := ih ho.2 hc.2
    simpa [Balanced, Sql.depth?, Ne.symm ho.1, Ne.symm hc.1] using hrest

theorem balanced_blank : Balanced (' ' :: cs) ↔ Balanced cs := by simp [Balanced, Sql.depth?]

end Depth

section Sealed

variable {a b cs : List Char}

theorem Sealed.append (ha : Sealed a) (hb : Sealed b) : Sealed (a ++ b) := by
  refine ⟨ha.balanced.append hb.balanced, fun before after heq hbefore => ?_⟩
  rw [← List.cons_append, List.append_eq_append_iff] at heq
  rcases heq with ⟨m, rfl, hm⟩ | ⟨m, hm, heq⟩
  · have hblank : Balanced m := by rwa [(balanced_blank.2 ha.balanced).append_iff] at hbefore
    exact hb.apart (' ' :: m) after (by rw [hm]; rfl) (balanced_blank.2 hblank)
  · match m, hm, heq with
    | [], hm, heq =>
      exact hb.apart [' '] after (congrArg (List.cons ' ') heq.symm) (by decide)
    | [_], hm, heq =>
      simp only [List.cons_append, List.nil_append, List.cons.injEq] at heq
      obtain ⟨rfl, rfl⟩ := heq
      exact hb.apart [] after rfl rfl
    | _ :: _ :: m, hm, heq =>
      simp only [List.cons_append, List.cons.injEq] at heq
      obtain ⟨rfl, rfl, -⟩ := heq
      exact ha.apart before m hm hbefore

theorem Balanced.sealed_group (h : Balanced cs) : Sealed ('(' :: (cs ++ [')'])) := by
  refine ⟨h.group, fun before after heq hbefore => ?_⟩
  match before, heq with
  | [], heq => simp at heq
  | [_], heq => simp at heq
  | _ :: _ :: before, heq =>
    simp only [List.cons_append, List.cons.injEq] at heq
    obtain ⟨rfl, rfl, heq⟩ := heq
    rw [balanced_blank] at hbefore
    rcases List.append_eq_append_iff.1 heq with ⟨m, -, hm⟩ | ⟨m, rfl, -⟩
    · have hlength := congrArg List.length hm
      simp at hlength
      omega
    · exact h.not_balanced_open hbefore

theorem sealed_of_notMem (ho : '(' ∉ cs) (hc : ')' ∉ cs)
    (hwords : (' ' :: cs).IsChain fun c d => ¬ (c = ' ' ∧ d = 'O')) : Sealed cs := by
  refine ⟨balanced_of_notMem ho hc, fun before after heq _ => ?_⟩
  rw [heq, List.isChain_append] at hwords
  exact (List.isChain_cons_cons.1 hwords.2.1).1 ⟨rfl, rfl⟩

theorem Sealed.conjunct {s : String} (h : Sealed s.toList) : Conjunct s where
  balanced := h.balanced
  enclosed before after heq hbefore := by
    refine h.apart (' ' :: before) ('R' :: ' ' :: after) ?_ (balanced_blank.2 hbefore)
    rw [heq]
    simp

end Sealed

/-- The text stays a conjunct between blanks, where a word that it starts or ends with may make an OR. -/
def Standing (s : String) : Prop := Conjunct (" " ++ s ++ " ")

theorem Sealed.standing {s : String} (h : Sealed s.toList) : Standing s := by
  have hblank : Sealed " ".toList := sealed_of_notMem (by decide) (by decide) (by decide)
  refine Sealed.conjunct ?_
  simpa using (hblank.append h).append hblank

theorem Standing.balanced {s : String} (h : Standing s) : Balanced s.toList := by
  have hspaced := Conjunct.balanced h
  rw [String.toList_append, String.toList_append, List.append_assoc] at hspaced
  have htail : Balanced (s.toList ++ [' ']) := balanced_blank.1 hspaced
  rw [Balanced, depth?_append, Option.bind_eq_some_iff] at htail
  obtain ⟨d, hd, hlast⟩ := htail
  cases (show some d = some 0 from hlast)
  exact hd

theorem Standing.and {a b : String} (ha : Standing a) (hb : Standing b) : Standing (a ++ " AND " ++ b) := by
  have hjoined : (" " ++ (a ++ " AND " ++ b) ++ " ").toList =
      (" " ++ a ++ " ").toList ++ ('A' :: 'N' :: 'D' :: (" " ++ b ++ " ").toList) := by simp
  have hword {cs : List Char} : Balanced ('A' :: 'N' :: 'D' :: cs) ↔ Balanced cs :=
    Balanced.append_iff (a := ['A', 'N', 'D']) (by decide)
  refine ⟨?_, fun before after heq hbefore => ?_⟩
  · rw [hjoined]
    exact (Conjunct.balanced ha).append (hword.2 (Conjunct.balanced hb))
  · rw [hjoined, List.append_assoc, List.append_eq_append_iff] at heq
    rcases heq with ⟨m, rfl, hm⟩ | ⟨m, hm, heq⟩
    · rw [(Conjunct.balanced ha).append_iff] at hbefore
      match m, hm with
      | [], hm | [_], hm | [_, _], hm => simp at hm
      | _ :: _ :: _ :: m, hm =>
        simp only [List.cons_append, List.cons.injEq] at hm
        obtain ⟨rfl, rfl, rfl, hm⟩ := hm
        exact hb.enclosed m after (by simpa using hm) (hword.1 hbefore)
    · match m, heq with
      | [], heq | [_], heq | [_, _], heq | [_, _, _], heq => simp at heq
      | _ :: _ :: _ :: _ :: m, heq =>
        simp only [String.reduceToList, List.cons_append, List.nil_append, List.cons.injEq] at heq
        obtain ⟨rfl, rfl, rfl, rfl, -⟩ := heq
        exact ha.enclosed before m (by simpa using hm) hbefore

theorem standing_intercalate {terms : List String} (hne : terms ≠ []) (h : ∀ t ∈ terms, Standing t) :
    Standing (" AND ".intercalate terms) := by
  induction terms with
  | nil => exact absurd rfl hne
  | cons t rest ih =>
    rw [List.forall_mem_cons] at h
    cases rest with
    | nil => simpa using h.1
    | cons next rest =>
      rw [String.intercalate_cons_cons]
      exact h.1.and (ih (by simp) h.2)

def isSolid (c : Char) : Bool := !(c = ' ' || c = '(' || c = ')')

def Solid (s : String) : Prop := ∀ c ∈ s.toList, isSolid c = true

instance (s : String) : Decidable (Solid s) := decidable_of_iff (s.toList.all isSolid = true) List.all_eq_true

/-- A text without blanks and parentheses that starts, and not with a capital O. -/
structure Word (s : String) : Prop where
  solid : Solid s
  nonempty : s ≠ ""
  lead : s.toList.head? ≠ some 'O'

instance (s : String) : Decidable (Word s) :=
  decidable_of_iff (Solid s ∧ s ≠ "" ∧ s.toList.head? ≠ some 'O')
    ⟨fun h => ⟨h.1, h.2.1, h.2.2⟩, fun h => ⟨h.solid, h.nonempty, h.lead⟩⟩

section Words

variable {s t : String}

theorem isSolid_iff {c : Char} : isSolid c = true ↔ c ≠ ' ' ∧ c ≠ '(' ∧ c ≠ ')' := by simp [isSolid, and_assoc]

@[simp] theorem solid_append : Solid (s ++ t) ↔ Solid s ∧ Solid t := by
  simp only [Solid, String.toList_append, List.mem_append, or_imp, forall_and]

theorem NameChars.solid (h : NameChars s) : Solid s := by
  intro c hc
  rw [isSolid_iff]
  refine ⟨?_, ?_, ?_⟩ <;>
  · rintro rfl
    exact absurd (h _ hc) (by decide)

theorem Word.append (hs : Word s) (ht : Solid t) : Word (s ++ t) := by
  refine ⟨solid_append.2 ⟨hs.solid, ht⟩, by simp [hs.nonempty], ?_⟩
  have hsome : s.toList ≠ [] := by simpa [String.toList_eq_nil_iff] using hs.nonempty
  rw [String.toList_append, List.head?_append_of_ne_nil _ hsome]
  exact hs.lead

theorem Word.sealed (h : Word s) : Sealed s.toList := by
  have hsolid : ∀ c ∈ s.toList, c ≠ ' ' ∧ c ≠ '(' ∧ c ≠ ')' := fun c hc => isSolid_iff.1 (h.solid c hc)
  refine sealed_of_notMem (fun hc => (hsolid _ hc).2.1 rfl) (fun hc => (hsolid _ hc).2.2 rfl)
    (List.isChain_cons.2 ⟨fun c hc hO => ?_, ?_⟩)
  · rw [hO.2] at hc
    exact h.lead hc
  · refine (List.pairwise_of_forall_mem_list fun c hc d _ hO => ?_).isChain
    exact (hsolid c hc).1 hO.1

end Words

theorem Operator.balanced_text (op : Operator) : Balanced op.text.toList := by cases op <;> decide

theorem Operator.sealed_text {op : Operator} (h : op ≠ .or) : Sealed op.text.toList := by
  cases op
  case or => exact absurd rfl h
  all_goals exact sealed_of_notMem (by decide) (by decide) (by decide)

namespace Expr

/-- Names in the tree are words, and text that was handed in is balanced; said of trees that terms are made of. -/
@[simp] def Worded : Expr → Prop
  | .verbatim s => Sql.Balanced s.toList
  | .column t s => Word t ∧ Solid s
  | .name s => Word s
  | .placeholder s => NameChars s
  | .quoted s => Solid s
  | .call f a => Word f ∧ a.Worded
  | .cast e type => e.Worded ∧ Solid type
  | .group e | .isNull e | .epoch e => e.Worded
  | .binary _ l r => l.Worded ∧ r.Worded
  | _ => False

/-- Outside of parentheses no OR joins operands, and nothing was handed in. -/
@[simp] def Apart : Expr → Prop
  | .verbatim _ => False
  | .binary op l r => op ≠ .or ∧ l.Apart ∧ r.Apart
  | .isNull e | .cast e _ => e.Apart
  | _ => True

@[simp] def Sealed (e : Expr) : Prop := e.Worded ∧ e.Apart

section Text

variable {e l r : Expr} {s t : String}

theorem word_column (ht : Word t) (hs : Solid s) : Word (column t s).text := by
  have htext : (column t s).text = t ++ ("." ++ s) := by simp [text, tokens, Token.text, String.append_assoc]
  rw [htext]
  exact ht.append (by simp [hs]; decide)

theorem word_placeholder (hs : NameChars s) : Word (placeholder s).text := by
  have htext : (placeholder s).text = ":" ++ s := by simp [text, tokens, Token.text]
  rw [htext]
  exact Word.append (by decide) hs.solid

theorem word_quoted (hs : Solid s) : Word (quoted s).text := by
  have htext : (quoted s).text = "'" ++ (s ++ "'") := by simp [text, tokens, Token.text, String.append_assoc]
  rw [htext]
  exact Word.append (by decide) (by simp [hs]; decide)

theorem word_name (hs : Word s) : Word (name s).text := by
  have htext : (name s).text = s := by simp [text, tokens, Token.text]
  rwa [htext]

theorem sealed_group (h : Sql.Balanced e.text.toList) : Sql.Sealed (group e).text.toList := by
  rw [text_group]
  simpa using h.sealed_group

theorem sealed_isNull (h : Sql.Sealed e.text.toList) : Sql.Sealed (isNull e).text.toList := by
  rw [text_isNull, String.toList_append]
  exact h.append (sealed_of_notMem (by decide) (by decide) (by decide))

theorem sealed_call (hs : Word s) (h : Sql.Balanced e.text.toList) : Sql.Sealed (call s e).text.toList := by
  rw [text_call, String.toList_append]
  exact hs.sealed.append (sealed_group h)

theorem sealed_epoch (h : Sql.Balanced e.text.toList) : Sql.Sealed (epoch e).text.toList := by
  have hinner : Sql.Balanced ("EPOCH FROM " ++ (group e).text).toList := by
    rw [String.toList_append]
    exact Balanced.append (by decide) (sealed_group h).balanced
  rw [text_epoch, String.toList_append]
  refine (Word.sealed (by decide)).append ?_
  simpa using hinner.sealed_group

end Text

theorem Worded.balanced {e : Expr} (h : e.Worded) : Sql.Balanced e.text.toList := by
  induction e with
  | verbatim s => simpa [text, tokens, Token.text] using h
  | column t s => exact (word_column h.1 h.2).sealed.balanced
  | name s => exact (word_name h).sealed.balanced
  | placeholder s => exact (word_placeholder h).sealed.balanced
  | quoted s => exact (word_quoted h).sealed.balanced
  | group e ih => exact (sealed_group (ih h)).balanced
  | call f a ih => exact (sealed_call h.1 (ih h.2)).balanced
  | epoch e ih => exact (sealed_epoch (ih h)).balanced
  | cast e type ih =>
    rw [text_cast, String.toList_append]
    exact (ih h.1).append (Word.append (by decide) h.2).sealed.balanced
  | isNull e ih =>
    rw [text_isNull, String.toList_append]
    exact (ih h).append (by decide)
  | binary op l r ihl ihr =>
    rw [text_binary, String.toList_append, String.toList_append]
    exact ((ihl h.1).append op.balanced_text).append (ihr h.2)
  | _ => cases h

theorem Sealed.text {e : Expr} (h : e.Sealed) : Sql.Sealed e.text.toList := by
  obtain ⟨hw, ha⟩ := h
  induction e with
  | verbatim s => cases ha
  | column t s => exact (word_column hw.1 hw.2).sealed
  | name s => exact (word_name hw).sealed
  | placeholder s => exact (word_placeholder hw).sealed
  | quoted s => exact (word_quoted hw).sealed
  | group e => exact sealed_group (Worded.balanced (e := e) hw)
  | call f a => exact sealed_call hw.1 hw.2.balanced
  | epoch e => exact sealed_epoch (Worded.balanced (e := e) hw)
  | cast e type ih =>
    rw [text_cast, String.toList_append]
    exact (ih hw.1 ha).append (Word.append (by decide) hw.2).sealed
  | isNull e ih => exact sealed_isNull (ih hw ha)
  | binary op l r ihl ihr =>
    rw [text_binary, String.toList_append, String.toList_append]
    exact ((ihl hw.1 ha.2.1).append (Operator.sealed_text ha.1)).append (ihr hw.2 ha.2.2)
  | _ => cases hw

@[simp] theorem worded_chain (op : Operator) (es : List Expr) : (chain op es).Worded ↔ ∀ e ∈ es, e.Worded := by
  induction es with
  | nil => simpa [chain] using by decide
  | cons e rest ih =>
    cases rest with
    | nil => simp [chain]
    | cons next rest =>
      rw [List.forall_mem_cons, ← ih]
      rfl

theorem sealed_anyOf {es : List Expr} (h : ∀ e ∈ es, e.Worded) : (anyOf es).Sealed :=
  ⟨(worded_chain .or es).2 h, trivial⟩

end Expr

end LeadTime.Sql

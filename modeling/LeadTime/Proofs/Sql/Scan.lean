import LeadTime.Sql.Select
import Mathlib

/-! Placeholders as they stand in the text of a query. A colon that stands alone and a name after it make a
placeholder; two colons in a row make none. `placeholdersIn` reads a text in this way, and `placeholdersIn_text`
says that it finds the placeholders of the tokens that were written, where the tokens are legible: no part of
the text holds a colon of its own, and nothing right after a placeholder could be taken for more of its name. -/
namespace LeadTime.Sql

def isNameChar (c : Char) : Bool := c.isAlphanum || c = '_'

/-- The names that follow a colon standing alone; `paired` says that a colon stands just before the text.
No name starts with a colon, so that the first of two colons has no name after it. -/
def scan : (paired : Bool) → List Char → List String
  | _, [] => []
  | paired, c :: rest =>
    if c = ':' then
      let name := rest.takeWhile isNameChar
      if paired || name.isEmpty then scan true rest else String.ofList name :: scan true rest
    else scan false rest

/-- The names of the placeholders in a text, in order. -/
def placeholdersIn (text : String) : List String := scan false text.toList

def NameChars (s : String) : Prop := ∀ c ∈ s.toList, isNameChar c = true

instance (s : String) : Decidable (NameChars s) :=
  decidable_of_iff (s.toList.all isNameChar = true) List.all_eq_true

def IsName (s : String) : Prop := s ≠ "" ∧ NameChars s

instance (s : String) : Decidable (IsName s) := inferInstanceAs (Decidable (_ ∧ _))

def NoColon (s : String) : Prop := ':' ∉ s.toList

instance (s : String) : Decidable (NoColon s) := inferInstanceAs (Decidable (¬ _))

/-- The characters do not go on with a name that stands before them. -/
def Ends (cs : List Char) : Prop := ∀ c ∈ cs.head?, isNameChar c = false

theorem ne_colon_of_isNameChar {c : Char} (h : isNameChar c = true) : c ≠ ':' := by
  rintro rfl
  exact absurd h (by decide)

theorem scan_append {cs : List Char} (h : ':' ∉ cs) (rest : List Char) :
    scan false (cs ++ rest) = scan false rest := by
  induction cs with
  | nil => rfl
  | cons c cs ih =>
    simp only [List.mem_cons, not_or] at h
    simp [scan, Ne.symm h.1, ih h.2]

theorem scan_append_of_ne_nil {cs : List Char} (hne : cs ≠ []) (h : ':' ∉ cs) (paired : Bool)
    (rest : List Char) : scan paired (cs ++ rest) = scan false rest := by
  cases cs with
  | nil => exact absurd rfl hne
  | cons c cs =>
    simp only [List.mem_cons, not_or] at h
    simpa [scan, Ne.symm h.1] using scan_append h.2 rest

theorem takeWhile_append_of_ends {name rest : List Char} (h : ∀ c ∈ name, isNameChar c = true)
    (hr : Ends rest) : (name ++ rest).takeWhile isNameChar = name := by
  rw [List.takeWhile_append_of_pos h]
  cases rest with
  | nil => simp
  | cons c rest => simp [hr c rfl]

theorem scan_placeholder {name : String} (h : IsName name) {rest : List Char} (hr : Ends rest) :
    scan false (':' :: (name.toList ++ rest)) = name :: scan false rest := by
  have hne : name.toList ≠ [] := by simpa [String.toList_eq_nil_iff] using h.1
  have hc : ':' ∉ name.toList := fun hm => ne_colon_of_isNameChar (h.2 _ hm) rfl
  simp [scan, takeWhile_append_of_ends h.2 hr, hne, scan_append_of_ne_nil hne hc]

theorem scan_cast {type : String} (hne : type ≠ "") (h : NoColon type) (rest : List Char) :
    scan false (':' :: ':' :: (type.toList ++ rest)) = scan false rest := by
  have hne : type.toList ≠ [] := by simpa [String.toList_eq_nil_iff] using hne
  have hc : isNameChar ':' = false := by decide
  simp [scan, hc, scan_append_of_ne_nil hne h]

/-- The token's text holds no colon but that of a placeholder or the two of a cast. -/
def Token.Legible : Token → Prop
  | .placeholder p => IsName p
  | .fixed s => NoColon s ∨ ∃ type, type ≠ "" ∧ NoColon type ∧ s = "::" ++ type
  | t => NoColon t.text

def Token.stops (t : Token) : Bool := t.text.toList.head?.any fun c => !isNameChar c

def Token.Apart (a b : Token) : Prop := a.placeholder? = none ∨ b.stops = true

/-- Tokens whose placeholders can be told from the rest of their text. -/
structure Legible (tokens : List Token) : Prop where
  each : ∀ t ∈ tokens, t.Legible
  apart : tokens.IsChain Token.Apart

theorem Token.Legible.scan_eq {t : Token} (h : t.Legible) (ht : t.placeholder? = none) (rest : List Char) :
    scan false (t.text.toList ++ rest) = scan false rest := by
  cases t with
  | placeholder => cases ht
  | fixed s =>
    rcases h with h | ⟨type, hne, hc, rfl⟩
    · exact scan_append h rest
    · simpa [Token.text] using scan_cast hne hc rest
  | _ => exact scan_append h rest

theorem ends_text {tokens : List Token} (h : ∀ t ∈ tokens.head?, t.stops = true) :
    Ends (text tokens).toList := by
  cases tokens with
  | nil => simp [Ends]
  | cons t rest =>
    have ht := h t rfl
    intro c hc
    cases hs : t.text.toList with
    | nil => simp [Token.stops, hs] at ht
    | cons d ds =>
      simp only [text_cons, String.toList_append, hs, List.cons_append, List.head?_cons,
        Option.mem_some_iff] at hc
      subst hc
      simpa [Token.stops, hs] using ht

/-- The text of legible tokens holds their placeholders, and no others. -/
theorem placeholdersIn_text {tokens : List Token} (h : Legible tokens) :
    placeholdersIn (text tokens) = placeholders tokens := by
  obtain ⟨each, apart⟩ := h
  unfold placeholdersIn
  induction tokens with
  | nil => rfl
  | cons t rest ih =>
    rw [List.isChain_cons] at apart
    have ih := ih (fun u hu => each u (List.mem_cons_of_mem _ hu)) apart.2
    have ht := each t List.mem_cons_self
    cases hp : t.placeholder? with
    | none =>
      have hrest : placeholders (t :: rest) = placeholders rest := List.filterMap_cons_none hp
      rw [text_cons, String.toList_append, ht.scan_eq hp, ih, hrest]
    | some name =>
      cases t with
      | placeholder =>
        cases hp
        have hends : Ends (text rest).toList := ends_text fun u hu =>
          (apart.1 u hu).resolve_left (by simp [Token.placeholder?])
        have hfirst : placeholders (.placeholder name :: rest) = name :: placeholders rest := rfl
        rw [hfirst]
        simp [Token.text, scan_placeholder ht hends, ih]
      | _ => cases hp

end LeadTime.Sql

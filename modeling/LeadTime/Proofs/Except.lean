import Mathlib

/-! Computations that may fail: what is known once one succeeded, how two of them agree, and with which errors one
fails. -/
namespace LeadTime

theorem Except.bind_eq_ok {ε α β : Type} {x : Except ε α} {f : α → Except ε β} {b : β} :
    (x >>= f) = .ok b ↔ ∃ a, x = .ok a ∧ f a = .ok b := by
  cases x with
  | error e => simp [bind, Except.bind]
  | ok a => simp [bind, Except.bind]

theorem Except.map_bind {ε α β γ : Type} (x : Except ε α) (g : α → β) (f : β → Except ε γ) :
    (x.map g >>= f) = x >>= fun a => f (g a) := by
  cases x <;> rfl

theorem Except.map_eq_ok {ε α β : Type} {x : Except ε α} {f : α → β} {b : β} :
    x.map f = .ok b ↔ ∃ a, x = .ok a ∧ f a = b := by
  cases x <;> simp [Except.map]

theorem mem_of_mapM_eq_ok {ε α β : Type} {f : α → Except ε β} {items : List α} {results : List β}
    (h : items.mapM f = .ok results) : ∀ b ∈ results, ∃ a ∈ items, f a = .ok b := by
  induction items generalizing results with
  | nil =>
    cases h
    simp
  | cons a rest ih =>
    simp only [List.mapM_cons, Except.bind_eq_ok] at h
    obtain ⟨b, hb, bs, hbs, h⟩ := h
    cases h
    rw [List.forall_mem_cons]
    exact ⟨⟨a, List.mem_cons_self, hb⟩, fun b hm =>
      (ih hbs b hm).imp fun a h => ⟨List.mem_cons_of_mem _ h.1, h.2⟩⟩

theorem eq_ok_of_forM_eq_ok {ε α : Type} {f : α → Except ε Unit} {items : List α} (h : items.forM f = .ok ()) :
    ∀ a ∈ items, f a = .ok () := by
  induction items with
  | nil => simp
  | cons a rest ih =>
    simp only [List.forM_eq_forM, List.forM_cons, Except.bind_eq_ok] at h
    obtain ⟨_, ha, hrest⟩ := h
    exact List.forall_mem_cons.2 ⟨ha, ih hrest⟩

/-- What holds before a fold and is kept by each step that succeeds holds at its end; `n` counts the steps. -/
theorem foldlM_induction {ε α β : Type} {f : β → α → Except ε β} {P : Nat → β → Prop} {items : List α}
    {n : Nat} {b t : β} (h : items.foldlM f b = .ok t) (start : P n b)
    (step : ∀ i a s s', items[i]? = some a → f s a = .ok s' → P (n + i) s → P (n + i + 1) s') :
    P (n + items.length) t := by
  induction items generalizing n b with
  | nil =>
    cases h
    exact start
  | cons a rest ih =>
    rw [List.foldlM_cons, Except.bind_eq_ok] at h
    obtain ⟨s, hs, hrest⟩ := h
    have hnext := ih (n := n + 1) hrest (step 0 a b s rfl hs start) fun i a s s' hi hf hp => by
      rw [show n + 1 + i = n + (i + 1) by omega] at hp ⊢
      exact step (i + 1) a s s' (by simpa using hi) hf hp
    rwa [List.length_cons, show n + (rest.length + 1) = n + 1 + rest.length by omega]

/-- Two computations agree: both fail, or both yield and what they yield is related. -/
inductive Agree {ε ε' α β : Type} (rel : α → β → Prop) : Except ε α → Except ε' β → Prop
  | error {e : ε} {e' : ε'} : Agree rel (.error e) (.error e')
  | ok {a : α} {b : β} (h : rel a b) : Agree rel (.ok a) (.ok b)

namespace Agree

variable {ε ε' α α' β β' : Type} {rel : α → α' → Prop} {rel' : β → β' → Prop}

theorem bind {x : Except ε α} {y : Except ε' α'} {f : α → Except ε β} {g : α' → Except ε' β'} (h : Agree rel x y)
    (hf : ∀ a a', rel a a' → Agree rel' (f a) (g a')) : Agree rel' (x >>= f) (y >>= g) := by
  cases h with
  | error => exact .error
  | ok h => exact hf _ _ h

theorem map {x : Except ε α} {y : Except ε' α'} {f : α → β} {g : α' → β'} (h : Agree rel x y)
    (hf : ∀ a a', rel a a' → rel' (f a) (g a')) : Agree rel' (x.map f) (y.map g) := by
  cases h with
  | error => exact .error
  | ok h => exact .ok (hf _ _ h)

theorem exists_left {x : Except ε α} {a' : α'} (h : Agree rel x (.ok a' : Except ε' α')) :
    ∃ a, x = .ok a ∧ rel a a' := by
  cases h with
  | ok h => exact ⟨_, rfl, h⟩

theorem refl {rel : α → α → Prop} (h : ∀ a, rel a a) (x : Except ε α) : Agree rel x x := by
  cases x with
  | error => exact .error
  | ok a => exact .ok (h a)

theorem of_eq_map {x : Except ε α} {y : Except ε α'} {change : α → α'} (h : y = x.map change) :
    Agree (fun a a' => a' = change a) x y := by
  rw [h]
  cases x with
  | error => exact .error
  | ok => exact .ok rfl

theorem foldlM {γ γ' : Type} {f : α → γ → Except ε α} {g : α' → γ' → Except ε' α'} {change : γ → γ'}
    (step : ∀ c a a', rel a a' → Agree rel (f a c) (g a' (change c))) {items : List γ} {a : α} {a' : α'}
    (h : rel a a') : Agree rel (items.foldlM f a) ((items.map change).foldlM g a') := by
  induction items generalizing a a' with
  | nil => exact .ok h
  | cons c rest ih =>
    rw [List.map_cons, List.foldlM_cons, List.foldlM_cons]
    exact (step c a a' h).bind fun _ _ h => ih h

theorem mapM {γ γ' : Type} {f : γ → Except ε β} {g : γ' → Except ε' β'} {change : γ → γ'} {change' : β → β'}
    (step : ∀ c, Agree (fun b b' => b' = change' b) (f c) (g (change c))) (items : List γ) :
    Agree (fun bs bs' => bs' = bs.map change') (items.mapM f) ((items.map change).mapM g) := by
  induction items with
  | nil => exact .ok rfl
  | cons c rest ih =>
    rw [List.map_cons, List.mapM_cons, List.mapM_cons]
    refine (step c).bind fun b b' hb => ih.bind fun bs bs' hbs => .ok ?_
    rw [hb, hbs, List.map_cons]

end Agree

/-- The computation fails with the first of these errors, and yields where there are none. -/
inductive Raises {ε α : Type} : Except ε α → List ε → Prop
  | ok (a : α) : Raises (.ok a) []
  | error (e : ε) (rest : List ε) : Raises (.error e) (e :: rest)

def errorUnless {ε : Type} (condition : Prop) [Decidable condition] (e : ε) : List ε :=
  if condition then [] else [e]

theorem errorUnless_congr {ε : Type} {p q : Prop} [Decidable p] [Decidable q] (h : p ↔ q) (e : ε) :
    errorUnless p e = errorUnless q e := by
  unfold errorUnless
  rw [if_congr h rfl rfl]

theorem errorUnless_eq_nil_iff {ε : Type} {p : Prop} [Decidable p] {e : ε} : errorUnless p e = [] ↔ p := by
  unfold errorUnless
  split <;> simp_all

theorem head?_errorUnless {ε : Type} {p : Prop} [Decidable p] {e e' : ε} :
    (errorUnless p e).head? = some e' ↔ e' = e ∧ ¬ p := by
  unfold errorUnless
  split <;> simp_all [eq_comm]

def thrown {ε α : Type} : Except ε α → List ε
  | .error e => [e]
  | .ok _ => []

namespace Raises

variable {ε α β : Type} {x : Except ε α} {es more : List ε}

theorem ok_iff (h : Raises x es) : (∃ a, x = .ok a) ↔ es = [] := by cases h <;> simp

theorem error_iff (h : Raises x es) (e : ε) : x = .error e ↔ es.head? = some e := by cases h <;> simp

/-- What is known of all that a computation may yield, and of one value alone, tells the value. -/
theorem eq_ok_iff (h : Raises x es) {P : α → Prop}
    (yields : ∀ a, x = .ok a → P a) (unique : ∀ a b, P a → P b → a = b) {a : α} : x = .ok a ↔ es = [] ∧ P a := by
  rw [← h.ok_iff]
  refine ⟨fun ha => ⟨⟨a, ha⟩, yields a ha⟩, ?_⟩
  rintro ⟨⟨b, hb⟩, ha⟩
  rwa [unique a b ha (yields b hb)]

/-- What comes after a computation fails only where that has not. -/
theorem bind {f : α → Except ε β} (h : Raises x es) (hf : ∀ a, x = .ok a → Raises (f a) more) :
    Raises (x >>= f) (es ++ more) := by
  cases h with
  | ok a => exact hf a rfl
  | error e rest => exact .error e (rest ++ more)

theorem map {f : α → β} (h : Raises x es) : Raises (x.map f) es := by
  cases h with
  | ok a => exact .ok (f a)
  | error e rest => exact .error e rest

theorem yield {f : α → β} (h : Raises x es) : Raises (x >>= fun a => pure (f a)) es := by
  cases h with
  | ok a => exact .ok (f a)
  | error e rest => exact .error e rest

section Checks

variable {condition holds : Prop} [Decidable condition] [Decidable holds] {e : ε}

theorem check (hc : condition ↔ holds) (h : holds → Raises x es) :
    Raises (if condition then x else .error e) (errorUnless holds e ++ es) := by
  unfold errorUnless
  by_cases hh : holds
  · rw [if_pos (hc.2 hh), if_pos hh]
    exact h hh
  · rw [if_neg (fun hp => hh (hc.1 hp)), if_neg hh]
    exact .error e es

theorem check_ok (hc : condition ↔ holds) (a : α) :
    Raises (if condition then .ok a else .error e) (errorUnless holds e) := by
  rw [← List.append_nil (errorUnless _ _)]
  exact check hc fun _ => .ok a

theorem refuse (hc : condition ↔ ¬ holds) (h : holds → Raises x es) :
    Raises (if condition then .error e else x) (errorUnless holds e ++ es) := by
  rw [← ite_not]
  exact check (not_iff_comm.1 hc.symm) h

theorem refuse_ok (hc : condition ↔ ¬ holds) (a : α) :
    Raises (if condition then .error e else .ok a) (errorUnless holds e) := by
  rw [← List.append_nil (errorUnless _ _)]
  exact refuse hc fun _ => .ok a

end Checks

/-- A fold fails with the first error of a step; `P` is what holds before the step of each number. -/
theorem foldlM {f : β → α → Except ε β} {errors : α → List ε} {P : Nat → β → Prop} {items : List α} {n : Nat} {b : β}
    (start : P n b) (step : ∀ i a s, items[i]? = some a → P (n + i) s →
      Raises (f s a) (errors a) ∧ ∀ s', f s a = .ok s' → P (n + i + 1) s') :
    Raises (items.foldlM f b) (items.flatMap errors) := by
  induction items generalizing n b with
  | nil => exact .ok b
  | cons a rest ih =>
    obtain ⟨hraises, hnext⟩ := step 0 a b rfl start
    rw [List.foldlM_cons, List.flatMap_cons]
    refine hraises.bind fun s hs => ih (hnext s hs) fun i a s hi hp => ?_
    rw [show n + 1 + i = n + (i + 1) by omega] at hp ⊢
    exact step (i + 1) a s (by simpa using hi) hp

theorem foldlM_each {f : β → α → Except ε β} {errors : α → List ε} (step : ∀ s a, Raises (f s a) (errors a))
    (items : List α) (b : β) : Raises (items.foldlM f b) (items.flatMap errors) :=
  foldlM (P := fun _ _ => True) (n := 0) trivial fun _ a s _ _ => ⟨step s a, fun _ _ => trivial⟩

theorem mapM {f : α → Except ε β} {errors : α → List ε} {items : List α}
    (step : ∀ a ∈ items, Raises (f a) (errors a)) : Raises (items.mapM f) (items.flatMap errors) := by
  induction items with
  | nil => exact .ok []
  | cons a rest ih =>
    rw [List.forall_mem_cons] at step
    rw [List.mapM_cons, List.flatMap_cons]
    exact step.1.bind fun b _ => (ih step.2).yield

theorem forM {f : α → Except ε Unit} {errors : α → List ε} {items : List α}
    (step : ∀ a ∈ items, Raises (f a) (errors a)) : Raises (items.forM f) (items.flatMap errors) := by
  induction items with
  | nil => exact .ok ()
  | cons a rest ih =>
    rw [List.forall_mem_cons] at step
    exact step.1.bind fun _ _ => ih step.2

end Raises

end LeadTime

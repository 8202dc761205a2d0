import Skattr.Lib.Fallible

/-!
# Transactions over a faulty store

A transaction runs its statements on a working copy of the store. Any statement, and the commit
itself, may hit a storage fault; every error rolls the whole transaction back. `Does` is what a
transaction body does when none of its statements fails, and `run_ok` says that a committed
transaction did exactly that.

A read may also replace a fault by a default (`selectOr`). The body then runs on with a value that
the store does not hold; `Honest` says that it still cannot commit, and `Computes` compares a body
that meets no fault with a pure function of the store.
-/

namespace Skattr.Lib

/-- An open transaction: the working copy, and the number of statements that still succeed before
the storage fails (`none` when it never does). -/
structure OpenTx (σ : Type) where
  data : σ
  budget : Option Nat

/-- The body of a transaction over the store `σ`. -/
abbrev Tx (ε σ : Type) := Fallible ε (OpenTx σ)

namespace Tx

open Fallible

variable {ε σ α β : Type}

/-- One statement: it fails when the storage does, or with its own error. -/
def statement (fault : ε) (f : σ → Except ε (α × σ)) : Tx ε σ α :=
  ExceptT.mk fun tx =>
    if tx.budget = some 0 then (.error fault, tx)
    else
      match f tx.data with
      | .ok (a, data) => (.ok a, ⟨data, tx.budget.map Nat.pred⟩)
      | .error e => (.error e, tx)

def select (fault : ε) (f : σ → α) : Tx ε σ α := statement fault fun s => .ok (f s, s)

def update (fault : ε) (f : σ → σ) : Tx ε σ Unit := statement fault fun s => .ok ((), f s)

def selectOr (default : α) (f : σ → α) : Tx ε σ α :=
  ExceptT.mk fun tx =>
    if tx.budget = some 0 then (.ok default, tx)
    else (.ok (f tx.data), ⟨tx.data, tx.budget.map Nat.pred⟩)

/-- Run a transaction: commit when its body succeeds, roll back otherwise. -/
def run (fault : ε) (budget : Option Nat) (body : Tx ε σ α) (s : σ) : Except ε α × σ :=
  match exec body ⟨s, budget⟩ with
  | (.ok a, tx) => if tx.budget = some 0 then (.error fault, s) else (.ok a, tx.data)
  | (.error e, _) => (.error e, s)

/-- The body succeeds on `s`, returns `a` and leaves `t`. -/
def Does (body : Tx ε σ α) (s : σ) (a : α) (t : σ) : Prop :=
  ∃ budget rest, exec body ⟨s, budget⟩ = (.ok a, ⟨t, rest⟩)

variable {s t : σ} {a : α} {x body : Tx ε σ α} {f : α → Tx ε σ β} {e fault : ε}
  {budget : Option Nat} {result : Except ε (α × σ)} {p : Prop}

theorem does_pure {b : α} (h : Does (pure a : Tx ε σ α) s b t) : a = b ∧ s = t := by
  obtain ⟨budget, rest, hexec⟩ := h
  cases hexec
  exact ⟨rfl, rfl⟩

theorem does_bind {u : σ} {b : β} (h : Does (x >>= f) s b u) :
    ∃ a t, Does x s a t ∧ Does (f a) t b u := by
  obtain ⟨budget, rest, hexec⟩ := h
  rcases exec_bind_cases hexec with ⟨e, -, herror⟩ | ⟨a, ⟨t, middle⟩, hfirst, hsecond⟩
  · cases herror
  · exact ⟨a, t, ⟨budget, middle, hfirst⟩, ⟨middle, rest, hsecond⟩⟩

theorem does_ensure [Decidable p] {u : Unit} (h : Does (ensure p e) s u t) : p ∧ s = t := by
  obtain ⟨budget, rest, hexec⟩ := h
  rw [exec_ensure] at hexec
  split at hexec
  · next hp =>
    cases hexec
    exact ⟨hp, rfl⟩
  · cases hexec

theorem does_attempt {result : Except ε α} (h : Does (attempt result : Tx ε σ α) s a t) :
    result = .ok a ∧ s = t := by
  obtain ⟨budget, rest, hexec⟩ := h
  rw [exec_attempt] at hexec
  cases hexec
  exact ⟨rfl, rfl⟩

theorem does_statement {f : σ → Except ε (α × σ)} (h : Does (statement fault f) s a t) :
    f s = .ok (a, t) := by
  obtain ⟨budget, rest, hexec⟩ := h
  change (if budget = some 0 then _ else _) = _ at hexec
  split at hexec
  · cases hexec
  · cases hf : f s with
    | ok result =>
      simp only [hf] at hexec
      cases hexec
      rfl
    | error e =>
      simp only [hf] at hexec
      cases hexec

theorem does_select {f : σ → α} (h : Does (select fault f) s a t) : f s = a ∧ s = t := by
  cases does_statement h
  exact ⟨rfl, rfl⟩

theorem does_update {f : σ → σ} {u : Unit} (h : Does (update fault f) s u t) : f s = t := by
  cases does_statement h
  rfl

theorem exec_statement_ok {f : σ → Except ε (α × σ)} (hbudget : budget ≠ some 0)
    (hf : f s = .ok (a, t)) :
    exec (statement fault f) ⟨s, budget⟩ = (.ok a, ⟨t, budget.map Nat.pred⟩) := by
  change (if budget = some 0 then _ else _) = _
  rw [if_neg hbudget]
  simp only [hf]

theorem run_error (h : run fault budget body s = (.error e, t)) : t = s := by
  unfold run at h
  split at h
  · split at h
    · cases h
      rfl
    · cases h
  · cases h
    rfl

theorem run_ok (h : run fault budget body s = (.ok a, t)) : Does body s a t := by
  unfold run at h
  split at h
  · next tx hexec =>
    split at h
    · cases h
    · cases h
      exact ⟨budget, tx.budget, hexec⟩
  · cases h

/-! ### Reads with a default -/

/-- When the body succeeds and the storage still works at its end, then the body met no fault. -/
def Honest (body : Tx ε σ α) : Prop :=
  ∀ ⦃s : σ⦄ ⦃budget : Option Nat⦄ ⦃a : α⦄ ⦃t : σ⦄ ⦃rest : Option Nat⦄,
    exec body ⟨s, budget⟩ = (.ok a, ⟨t, rest⟩) → rest ≠ some 0 →
      budget ≠ some 0 ∧ exec body ⟨s, none⟩ = (.ok a, ⟨t, none⟩)

theorem honest_pure (a : α) : Honest (pure a : Tx ε σ α) := by
  intro s budget b t rest h hrest
  cases h
  exact ⟨hrest, rfl⟩

theorem honest_bind (hx : Honest x) (hf : ∀ a, Honest (f a)) : Honest (x >>= f) := by
  intro s budget b u rest h hrest
  obtain ⟨a, ⟨t, middle⟩, hfirst, hsecond⟩ := exec_bind_ok h
  obtain ⟨hmiddle, hsecond⟩ := hf a hsecond hrest
  obtain ⟨hbudget, hfirst⟩ := hx hfirst hmiddle
  refine ⟨hbudget, ?_⟩
  rw [exec_bind, hfirst]
  exact hsecond

theorem honest_ensure (p : Prop) [Decidable p] (e : ε) : Honest (ensure p e : Tx ε σ Unit) := by
  intro s budget a t rest h hrest
  rw [exec_ensure] at h
  split at h
  · next hp =>
    cases h
    refine ⟨hrest, ?_⟩
    rw [exec_ensure, if_pos hp]
  · cases h

theorem honest_ite [Decidable p] {y : Tx ε σ α} (hx : Honest x) (hy : Honest y) :
    Honest (if p then x else y) := by
  split
  · exact hx
  · exact hy

theorem honest_statement (fault : ε) (f : σ → Except ε (α × σ)) : Honest (statement fault f) := by
  intro s budget a t rest h hrest
  change (if budget = some 0 then _ else _) = _ at h
  split at h
  · cases h
  · next hbudget =>
    cases hf : f s with
    | ok result =>
      simp only [hf] at h
      cases h
      refine ⟨hbudget, ?_⟩
      show (match f s with
        | .ok (a, data) => (Except.ok a, (⟨data, none⟩ : OpenTx σ))
        | .error e => (.error e, ⟨s, none⟩)) = _
      rw [hf]
    | error e =>
      simp only [hf] at h
      cases h

theorem honest_selectOr (default : α) (f : σ → α) :
    Honest (selectOr default f : Tx ε σ α) := by
  intro s budget a t rest h hrest
  change (if budget = some 0 then _ else _) = _ at h
  split at h
  · next hbudget =>
    -- the default is returned with the budget still used up
    cases h
    exact absurd hbudget hrest
  · next hbudget =>
    cases h
    exact ⟨hbudget, rfl⟩

/-- Without a fault, the body succeeds with this value and store, or raises this error. -/
def Computes (body : Tx ε σ α) (s : σ) (result : Except ε (α × σ)) : Prop :=
  match result with
  | .ok (a, t) => exec body ⟨s, none⟩ = (.ok a, ⟨t, none⟩)
  | .error e => ∃ u, exec body ⟨s, none⟩ = (.error e, u)

theorem computes_pure (a : α) (s : σ) : Computes (pure a : Tx ε σ α) s (.ok (a, s)) := rfl

theorem computes_bind {result : Except ε (β × σ)} (hx : Computes x s (.ok (a, t)))
    (hf : Computes (f a) t result) : Computes (x >>= f) s result := by
  have hexec : exec (x >>= f) ⟨s, none⟩ = exec (f a) ⟨t, none⟩ := by
    rw [exec_bind, show exec x ⟨s, none⟩ = (.ok a, ⟨t, none⟩) from hx]
  unfold Computes
  rw [hexec]
  exact hf

theorem computes_bind_error (hx : Computes x s (.error e)) : Computes (x >>= f) s (.error e) := by
  obtain ⟨u, hu⟩ := hx
  refine ⟨u, ?_⟩
  rw [exec_bind, hu]

/-- The body has no value; the pure function says which store it leaves. -/
def Effects (body : Tx ε σ Unit) (s : σ) (result : Except ε σ) : Prop :=
  Computes body s (result.map fun t => ((), t))

theorem effects_bind {x y : Tx ε σ Unit} {first : Except ε σ} {next : σ → Except ε σ}
    (hx : Effects x s first) (hy : ∀ t, first = .ok t → Effects y t (next t)) :
    Effects (x >>= fun _ => y) s (first >>= next) := by
  cases first with
  | error e => exact computes_bind_error hx
  | ok t => exact computes_bind hx (hy t rfl)

theorem effects_ensure [Decidable p] :
    Effects (ensure p e : Tx ε σ Unit) s (if p then .ok s else .error e) := by
  by_cases hp : p
  · rw [if_pos hp]
    show exec (ensure p e : Tx ε σ Unit) ⟨s, none⟩ = _
    rw [exec_ensure, if_pos hp]
  · rw [if_neg hp]
    refine ⟨⟨s, none⟩, ?_⟩
    rw [exec_ensure, if_neg hp]

theorem computes_statement (fault : ε) (f : σ → Except ε (α × σ)) (s : σ) :
    Computes (statement fault f) s (f s) := by
  have hexec : exec (statement fault f) ⟨s, none⟩ = match f s with
      | .ok (a, data) => (.ok a, ⟨data, none⟩)
      | .error e => (.error e, ⟨s, none⟩) := rfl
  cases hf : f s with
  | ok result =>
    rw [hf] at hexec
    exact hexec
  | error e =>
    rw [hf] at hexec
    exact ⟨_, hexec⟩

theorem computes_selectOr (default : α) (f : σ → α) (s : σ) :
    Computes (selectOr default f : Tx ε σ α) s (.ok (f s, s)) := rfl

/-- What a run does: it commits the computed store, or it leaves the store as it was. -/
theorem run_cases (hhonest : Honest body) (hcomputes : Computes body s result) :
    (∃ a t, result = .ok (a, t) ∧ run fault budget body s = (.ok a, t)) ∨
      ∃ e, run fault budget body s = (.error e, s) := by
  unfold run
  rcases hexec : exec body ⟨s, budget⟩ with ⟨outcome, ⟨t, rest⟩⟩
  cases outcome with
  | error e => exact .inr ⟨e, rfl⟩
  | ok a =>
    by_cases hrest : rest = some 0
    · exact .inr ⟨fault, by simp [hrest]⟩
    · obtain ⟨-, hnone⟩ := hhonest hexec hrest
      refine .inl ⟨a, t, ?_, by simp [hrest]⟩
      cases result with
      | error e =>
        obtain ⟨u, hu⟩ := hcomputes
        rw [hnone] at hu
        cases hu
      | ok pair =>
        obtain ⟨b, u⟩ := pair
        have heq := hnone.symm.trans hcomputes
        cases heq
        rfl

/-- The outcome of a transaction that meets no fault and computes this result on `s`. -/
def settle (s : σ) : Except ε (α × σ) → Except ε α × σ
  | .ok (a, t) => (.ok a, t)
  | .error e => (.error e, s)

theorem run_none (hcomputes : Computes body s result) :
    run fault none body s = settle s result := by
  unfold run
  cases result with
  | error e =>
    obtain ⟨u, hu⟩ := hcomputes
    rw [hu]
    rfl
  | ok pair =>
    obtain ⟨a, t⟩ := pair
    rw [show exec body ⟨s, none⟩ = (.ok a, ⟨t, none⟩) from hcomputes]
    rfl

end Tx

end Skattr.Lib

import Mathlib.Order.Defs.Unbundled

/-!
# Fallible computations over a state

A `Fallible` computation may raise an error, and what it did to the state before the error stays
done. `exec_bind_cases` takes a sequence apart, and `Keeps` is the rule for two-state facts: a
reflexive and transitive relation between the state before and the state after holds for a
sequence when it holds for its parts.
-/

namespace Skattr.Lib

/-- A computation over the state `σ` that may raise an error of type `ε`. -/
abbrev Fallible (ε σ : Type) := ExceptT ε (StateM σ)

section Result

variable {ε ε' α β : Type} {x : Except ε α}

/-- Continue only when a condition holds. -/
def check (p : Prop) [Decidable p] (error : ε) : Except ε Unit :=
  if p then .ok () else .error error

theorem bind_eq_ok {f : α → Except ε β} {b : β} :
    (x >>= f) = .ok b ↔ ∃ a, x = .ok a ∧ f a = .ok b := by
  cases x with
  | error e => exact ⟨fun h => (by cases h), fun ⟨a, h, _⟩ => (by cases h)⟩
  | ok a => exact ⟨fun h => ⟨a, rfl, h⟩, fun ⟨a', h, hf⟩ => (by cases h; exact hf)⟩

theorem check_eq_ok {p : Prop} [Decidable p] {error : ε} {u : Unit} :
    check p error = .ok u ↔ p := by
  unfold check
  split <;> simp [*]

theorem mapError_eq_ok {f : ε → ε'} {a : α} : x.mapError f = .ok a ↔ x = .ok a := by
  cases x with
  | error e => exact ⟨nofun, nofun⟩
  | ok b =>
    constructor <;> intro h <;> cases h <;> rfl

end Result

namespace Fallible

variable {ε σ τ α β : Type}

/-- The result of a computation and the state that it leaves. -/
def exec (x : Fallible ε σ α) (s : σ) : Except ε α × σ := x.run.run s

/-- Continue only when a condition holds. -/
def ensure (p : Prop) [Decidable p] (error : ε) : Fallible ε σ Unit :=
  if p then pure () else throw error

def attempt (result : Except ε α) : Fallible ε σ α := ExceptT.mk (pure result)

def onPart (part : σ → τ) (update : τ → σ → σ) (f : τ → Except ε α × τ) : Fallible ε σ α :=
  ExceptT.mk fun s => ((f (part s)).1, update (f (part s)).2 s)

def ignoreError (x : Fallible ε σ α) : Fallible ε σ Unit :=
  ExceptT.mk fun s => (.ok (), (exec x s).2)

@[simp] theorem exec_pure (a : α) (s : σ) : exec (pure a : Fallible ε σ α) s = (.ok a, s) := rfl

@[simp] theorem exec_get (s : σ) : exec (get : Fallible ε σ σ) s = (.ok s, s) := rfl

@[simp] theorem exec_modify (f : σ → σ) (s : σ) :
    exec (modify f : Fallible ε σ Unit) s = (.ok (), f s) := rfl

@[simp] theorem exec_attempt (result : Except ε α) (s : σ) :
    exec (attempt result) s = (result, s) := rfl

@[simp] theorem exec_onPart (part : σ → τ) (update : τ → σ → σ) (f : τ → Except ε α × τ) (s : σ) :
    exec (onPart part update f) s = ((f (part s)).1, update (f (part s)).2 s) := rfl

@[simp] theorem exec_ignoreError (x : Fallible ε σ α) (s : σ) :
    exec (ignoreError x) s = (.ok (), (exec x s).2) := rfl

theorem exec_ensure (p : Prop) [Decidable p] (error : ε) (s : σ) :
    exec (ensure p error) s = (if p then .ok () else .error error, s) := by
  unfold ensure
  split <;> rfl

theorem exec_bind (x : Fallible ε σ α) (f : α → Fallible ε σ β) (s : σ) :
    exec (x >>= f) s =
      match exec x s with
      | (.ok a, t) => exec (f a) t
      | (.error e, t) => (.error e, t) := by
  simp only [exec, ExceptT.run_bind, StateT.run_bind]
  rcases x.run.run s with ⟨result, t⟩
  cases result <;> rfl

variable {f : α → Fallible ε σ β} {s u : σ} {result : Except ε β} {x : Fallible ε σ α}
  {first : Except ε α}

theorem exec_bind_cases (h : exec (x >>= f) s = (result, u)) :
    (∃ e, exec x s = (.error e, u) ∧ result = .error e) ∨
      ∃ a t, exec x s = (.ok a, t) ∧ exec (f a) t = (result, u) := by
  rw [exec_bind] at h
  rcases hx : exec x s with ⟨first, t⟩
  rw [hx] at h
  cases first with
  | error e =>
    cases h
    exact .inl ⟨e, rfl, rfl⟩
  | ok a => exact .inr ⟨a, t, rfl, h⟩

theorem exec_bind_ok {b : β} (h : exec (x >>= f) s = (.ok b, u)) :
    ∃ a t, exec x s = (.ok a, t) ∧ exec (f a) t = (.ok b, u) := by
  rcases exec_bind_cases h with ⟨e, -, herror⟩ | hparts
  · cases herror
  · exact hparts

theorem attempt_bind_cases (h : exec (attempt first >>= f) s = (result, u)) :
    (∃ e, first = .error e ∧ result = .error e ∧ u = s) ∨
      ∃ a, first = .ok a ∧ exec (f a) s = (result, u) := by
  rw [exec_bind, exec_attempt] at h
  cases first with
  | error e =>
    cases h
    exact .inl ⟨e, rfl, rfl, rfl⟩
  | ok a => exact .inr ⟨a, rfl, h⟩

theorem attempt_bind_ok {b : β} (h : exec (attempt first >>= f) s = (.ok b, u)) :
    ∃ a, first = .ok a ∧ exec (f a) s = (.ok b, u) := by
  rcases attempt_bind_cases h with ⟨e, -, herror, -⟩ | hparts
  · cases herror
  · exact hparts

theorem onPart_cases {part : σ → τ} {update : τ → σ → σ} {f : τ → Except ε α × τ} {t : σ}
    {result : Except ε α} (h : exec (onPart part update f) s = (result, t)) :
    ∃ u, f (part s) = (result, u) ∧ t = update u s := by
  rw [exec_onPart] at h
  cases h
  exact ⟨_, rfl, rfl⟩

theorem ensure_bind_cases {p : Prop} [Decidable p] {error : ε} {f : Unit → Fallible ε σ β}
    (h : exec (ensure p error >>= f) s = (result, u)) :
    (¬p ∧ result = .error error ∧ u = s) ∨ (p ∧ exec (f ()) s = (result, u)) := by
  rw [exec_bind, exec_ensure] at h
  by_cases hp : p
  · rw [if_pos hp] at h
    exact .inr ⟨hp, h⟩
  · rw [if_neg hp] at h
    cases h
    exact .inl ⟨hp, rfl, rfl⟩

/-- The state before and the state after a computation are always related. -/
def Keeps (R : σ → σ → Prop) (x : Fallible ε σ α) : Prop := ∀ s, R s (exec x s).2

section Keeps

variable {R : σ → σ → Prop}

theorem Keeps.pure [Std.Refl R] (a : α) : Keeps R (Pure.pure a : Fallible ε σ α) :=
  fun s => refl_of R s

theorem Keeps.get [Std.Refl R] : Keeps R (MonadState.get : Fallible ε σ σ) :=
  fun s => refl_of R s

theorem Keeps.attempt [Std.Refl R] (result : Except ε α) :
    Keeps R (Fallible.attempt result : Fallible ε σ α) :=
  fun s => refl_of R s

theorem Keeps.ensure [Std.Refl R] (p : Prop) [Decidable p] (error : ε) :
    Keeps R (Fallible.ensure p error : Fallible ε σ Unit) := by
  intro s
  rw [exec_ensure]
  exact refl_of R s

theorem Keeps.bind [IsTrans σ R] (hx : Keeps R x) (hf : ∀ a, Keeps R (f a)) :
    Keeps R (x >>= f) := by
  intro s
  rcases h : exec (x >>= f) s with ⟨result, u⟩
  rcases exec_bind_cases h with ⟨e, hfail, -⟩ | ⟨a, t, hok, hrest⟩
  · simpa [hfail] using hx s
  · have hfirst : R s t := by simpa [hok] using hx s
    have hsecond : R t u := by simpa [hrest] using hf a t
    exact trans_of R hfirst hsecond

theorem Keeps.bind_cases (hx : Keeps R x) {s u : σ} (h : exec (x >>= f) s = (result, u)) :
    (∃ e, result = .error e ∧ R s u) ∨
      ∃ a t, exec x s = (.ok a, t) ∧ R s t ∧ exec (f a) t = (result, u) := by
  have hkeep := hx s
  rcases exec_bind_cases h with ⟨e, hfail, herror⟩ | ⟨a, t, hok, hrest⟩
  · rw [hfail] at hkeep
    exact .inl ⟨e, herror, hkeep⟩
  · rw [hok] at hkeep
    exact .inr ⟨a, t, hok, hkeep, hrest⟩

end Keeps

end Fallible

end Skattr.Lib

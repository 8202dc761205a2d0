import Mathlib.Logic.Basic

/-!
# Progress of infinite runs

An infinite run follows a schedule, which picks the label of every step. `LeadsTo` says that a
state with one property is always followed by a state with another. The rules derive it from what
single steps do: a property that lasts until the turn of a label leads to what the turn brings,
provided that the turn comes, and properties of decreasing rank lead to the goal in the end.
-/

namespace Skattr.Lib

variable {σ α : Type}

def trace (step : σ → α → σ) (init : σ) (schedule : Nat → α) : Nat → σ
  | 0 => init
  | t + 1 => step (trace step init schedule t) (schedule t)

theorem trace_invariant {step : σ → α → σ} {init : σ} {schedule : Nat → α} {Inv : σ → Prop}
    {G : σ → α → Prop} (hinit : Inv init) (hstep : ∀ s a, Inv s → G s a → Inv (step s a))
    (hguard : ∀ t, G (trace step init schedule t) (schedule t)) (t : Nat) :
    Inv (trace step init schedule t) := by
  induction t with
  | zero => exact hinit
  | succ t ih => exact hstep _ _ ih (hguard t)

/-- Every state with the first property is followed by one with the second. -/
def LeadsTo (states : Nat → σ) (P Q : σ → Prop) : Prop :=
  ∀ t, P (states t) → ∃ u, t ≤ u ∧ Q (states u)

variable {states : Nat → σ} {P Q R : σ → Prop}

theorem LeadsTo.trans (hpq : LeadsTo states P Q) (hqr : LeadsTo states Q R) :
    LeadsTo states P R := by
  intro t hp
  obtain ⟨u, htu, hq⟩ := hpq t hp
  obtain ⟨v, huv, hr⟩ := hqr u hq
  exact ⟨v, Nat.le_trans htu huv, hr⟩

/-- A property that lasts until the turn of a label leads to what the turn brings. -/
theorem leadsTo_of_turn (schedule : Nat → α) (mine : α → Prop)
    (hkeep : ∀ t, P (states t) → ¬mine (schedule t) → P (states (t + 1)) ∨ Q (states (t + 1)))
    (hturn : ∀ t, P (states t) → mine (schedule t) → Q (states (t + 1)))
    (hfair : ∀ t, P (states t) → ∃ u, t ≤ u ∧ mine (schedule u)) : LeadsTo states P Q := by
  intro t hp
  obtain ⟨u, htu, hmine⟩ := hfair t hp
  -- the induction is on the time that is left until the turn
  induction hgap : u - t generalizing t with
  | zero =>
    obtain rfl : t = u := by omega
    exact ⟨t + 1, by omega, hturn t hp hmine⟩
  | succ gap ih =>
    by_cases hnow : mine (schedule t)
    · exact ⟨t + 1, by omega, hturn t hp hnow⟩
    rcases hkeep t hp hnow with hp' | hq
    · obtain ⟨v, hv, hq⟩ := ih (t + 1) hp' (by omega) (by omega)
      exact ⟨v, by omega, hq⟩
    · exact ⟨t + 1, by omega, hq⟩

theorem leadsTo_of_rank {P : Nat → σ → Prop}
    (h : ∀ n, LeadsTo states (P n) fun s => Q s ∨ ∃ m, m < n ∧ P m s) (n : Nat) :
    LeadsTo states (P n) Q := by
  induction n using Nat.strongRecOn with
  | ind n ih =>
    intro t hp
    obtain ⟨u, htu, hq | ⟨m, hm, hrank⟩⟩ := h n t hp
    · exact ⟨u, htu, hq⟩
    · obtain ⟨v, huv, hq⟩ := ih m hm u hrank
      exact ⟨v, Nat.le_trans htu huv, hq⟩

end Skattr.Lib

import Mathlib.Logic.Function.Basic
import Mathlib.Logic.Relation

/-!
# Runs of a transition system

A run applies a step function to a list of labels. `Along` says that a property holds in every
state of a run, and `Meets` that every step of the run meets a guard on its label and the state
before it. An invariant that every step keeps holds at the end of every run; one that exactly the
guarded steps keep holds along a run exactly when the run meets the guard.
-/

namespace Skattr.Lib

variable {σ α : Type} {step : σ → α → σ}

variable {s : σ} {P Inv : σ → Prop} {labels : List α} {G H : σ → α → Prop}

theorem foldl_invariant (hstep : ∀ s a, Inv s → Inv (step s a)) (labels : List α) (hs : Inv s) :
    Inv (labels.foldl step s) := by
  induction labels generalizing s with
  | nil => exact hs
  | cons a labels ih => exact ih (hstep s a hs)

/-- The property holds in the first state of the run and in every later one. -/
def Along (step : σ → α → σ) (P : σ → Prop) : σ → List α → Prop
  | s, [] => P s
  | s, a :: labels => P s ∧ Along step P (step s a) labels

/-- Every step of the run meets the guard. -/
def Meets (step : σ → α → σ) (G : σ → α → Prop) : σ → List α → Prop
  | _, [] => True
  | s, a :: labels => G s a ∧ Meets step G (step s a) labels

/-- A decidable guard makes meeting it decidable. -/
instance decidableMeets {G : σ → α → Prop} [∀ s a, Decidable (G s a)] :
    ∀ (s : σ) (labels : List α), Decidable (Meets step G s labels)
  | _, [] => isTrue trivial
  | s, a :: labels => @instDecidableAnd _ _ _ (decidableMeets (step s a) labels)

theorem Along.head (h : Along step P s labels) : P s := by
  cases labels with
  | nil => exact h
  | cons a labels => exact h.1

theorem Along.last (h : Along step P s labels) : P (labels.foldl step s) := by
  induction labels generalizing s with
  | nil => exact h
  | cons a labels ih => exact ih h.2

theorem Along.imp {Q : σ → Prop} (himp : ∀ s, P s → Q s) (h : Along step P s labels) :
    Along step Q s labels := by
  induction labels generalizing s with
  | nil => exact himp s h
  | cons a labels ih => exact ⟨himp s h.1, ih h.2⟩

/-- A property that every step keeps holds along every run. -/
theorem along_of_step (hstep : ∀ s a, P s → P (step s a)) (hs : P s) (labels : List α) :
    Along step P s labels := by
  induction labels generalizing s with
  | nil => exact hs
  | cons a labels ih => exact ⟨hs, ih (hstep s a hs)⟩

/-- A property that the guarded steps keep holds along every run that meets the guard. -/
theorem along_of_meets (hstep : ∀ s a, P s → G s a → P (step s a)) (hs : P s)
    (h : Meets step G s labels) : Along step P s labels := by
  induction labels generalizing s with
  | nil => exact hs
  | cons a labels ih => exact ⟨hs, ih (hstep s a hs h.1) h.2⟩

/-- A property that no unguarded step keeps holds only along runs that meet the guard. The
invariant `Inv` may be used at every state. -/
theorem meets_of_along (hstep : ∀ s a, Inv s → P s → P (step s a) → G s a)
    (hinv : Along step Inv s labels) (h : Along step P s labels) : Meets step G s labels := by
  induction labels generalizing s with
  | nil => trivial
  | cons a labels ih => exact ⟨hstep s a hinv.1 h.1 h.2.head, ih hinv.2 h.2⟩

theorem meets_of_meets (hstep : ∀ s a, Inv s → G s a → Inv (step s a))
    (hmeets : ∀ s a, Inv s → G s a → H s a) (hs : Inv s) (h : Meets step G s labels) :
    Meets step H s labels := by
  induction labels generalizing s with
  | nil => trivial
  | cons a labels ih => exact ⟨hmeets s a hs h.1, ih (hstep s a hs h.1) h.2⟩

theorem meets_of_forall (h : ∀ a ∈ labels, ∀ s, G s a) (s : σ) : Meets step G s labels := by
  induction labels generalizing s with
  | nil => trivial
  | cons a labels ih =>
    exact ⟨h a List.mem_cons_self s, ih (fun b hb => h b (List.mem_cons_of_mem _ hb)) _⟩

theorem meets_append {later : List α} :
    Meets step G s (labels ++ later) ↔
      Meets step G s labels ∧ Meets step G (labels.foldl step s) later := by
  induction labels generalizing s with
  | nil => exact (and_iff_right trivial).symm
  | cons a labels ih => exact (and_congr_right fun _ => ih).trans and_assoc.symm

theorem Meets.and (hG : Meets step G s labels) (hH : Meets step H s labels) :
    Meets step (fun s a => G s a ∧ H s a) s labels := by
  induction labels generalizing s with
  | nil => trivial
  | cons a labels ih => exact ⟨⟨hG.1, hH.1⟩, ih hG.2 hH.2⟩

theorem concat_eq_append_cons {log earlier later : List α} {note new : α}
    (h : log ++ [new] = earlier ++ note :: later) :
    (earlier = log ∧ note = new ∧ later = []) ∨
      ∃ rest, later = rest ++ [new] ∧ log = earlier ++ note :: rest := by
  rcases List.eq_nil_or_concat later with rfl | ⟨rest, last, rfl⟩
  · obtain ⟨hlog, hnote⟩ := List.append_inj' h rfl
    exact .inl ⟨hlog.symm, (List.cons.inj hnote).1.symm, rfl⟩
  · rw [List.concat_eq_append, ← List.cons_append, ← List.append_assoc] at h
    obtain ⟨hlog, hlast⟩ := List.append_inj' h rfl
    rw [List.concat_eq_append, (List.cons.inj hlast).1]
    exact .inr ⟨rest, rfl, hlog⟩

theorem update_eq_some_cases {κ ν : Type} [DecidableEq κ] {f : κ → Option ν} {k key : κ}
    {entry : Option ν} {v : ν} (h : Function.update f k entry key = some v) :
    (key = k ∧ entry = some v) ∨ (key ≠ k ∧ f key = some v) := by
  by_cases hkey : key = k
  · subst hkey
    rw [Function.update_self] at h
    exact .inl ⟨rfl, h⟩
  · rw [Function.update_of_ne hkey] at h
    exact .inr ⟨hkey, h⟩

theorem of_update_none {κ ν : Type} [DecidableEq κ] {f : κ → Option ν} {k key : κ} {v : ν}
    (h : Function.update f k none key = some v) : key ≠ k ∧ f key = some v := by
  rcases update_eq_some_cases h with ⟨-, hnone⟩ | hother
  · cases hnone
  · exact hother

end Skattr.Lib

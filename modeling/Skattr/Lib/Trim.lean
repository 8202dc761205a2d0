import Mathlib.Data.List.DropRight

/-!
# Trimming a list at both ends

`strip` removes the elements that satisfy a predicate from both ends of a list. A list can be read
in one way only as elements of the predicate around a core that has none of them at its ends, and
`strip` finds this core (`stripped_iff`).
-/

namespace Skattr.Lib

variable {α : Type} {p : α → Bool} {l core : List α}

def strip (p : α → Bool) (l : List α) : List α := (l.dropWhile p).rdropWhile p

/-- No end of the list satisfies the predicate. -/
structure Bare (p : α → Bool) (l : List α) : Prop where
  head : ∀ x ∈ l.head?, p x = false
  last : ∀ x ∈ l.getLast?, p x = false

/-- The list is a bare core between elements that satisfy the predicate. -/
def Stripped (p : α → Bool) (l core : List α) : Prop :=
  ∃ before after, l = before ++ core ++ after ∧ (∀ x ∈ before, p x) ∧ (∀ x ∈ after, p x) ∧
    Bare p core

theorem bare_of_forall (h : ∀ x ∈ l, p x = false) : Bare p l :=
  ⟨fun x hx => h x (List.mem_of_mem_head? hx), fun x hx => h x (List.mem_of_mem_getLast? hx)⟩

theorem dropWhile_append_of_forall {before : List α} (h : ∀ x ∈ before, p x) (l : List α) :
    (before ++ l).dropWhile p = l.dropWhile p := by
  rw [List.dropWhile_append, List.dropWhile_eq_nil_iff.mpr h, List.isEmpty_nil, if_pos rfl]

theorem rdropWhile_append_of_forall {after : List α} (h : ∀ x ∈ after, p x) (l : List α) :
    (l ++ after).rdropWhile p = l.rdropWhile p := by
  rw [List.rdropWhile, List.reverse_append,
    dropWhile_append_of_forall fun x hx => h x (List.mem_reverse.mp hx), List.rdropWhile]

theorem dropWhile_of_head (h : ∀ x ∈ l.head?, p x = false) : l.dropWhile p = l := by
  cases l with
  | nil => rfl
  | cons x l => rw [List.dropWhile_cons, h x rfl, if_neg Bool.false_ne_true]

theorem rdropWhile_of_last (h : ∀ x ∈ l.getLast?, p x = false) : l.rdropWhile p = l := by
  rw [List.rdropWhile, dropWhile_of_head, List.reverse_reverse]
  rwa [List.head?_reverse]

theorem head_dropWhile (l : List α) : ∀ x ∈ (l.dropWhile p).head?, p x = false := by
  intro x hx
  have hne : l.dropWhile p ≠ [] := by
    rintro hnil
    rw [hnil] at hx
    cases hx
  rw [List.head?_eq_some_head hne, Option.mem_some_iff] at hx
  rw [← hx]
  exact List.head_dropWhile_not p hne

theorem last_rdropWhile (l : List α) : ∀ x ∈ (l.rdropWhile p).getLast?, p x = false := by
  intro x hx
  rw [List.rdropWhile, List.getLast?_reverse] at hx
  exact head_dropWhile _ x hx

theorem bare_strip (p : α → Bool) (l : List α) : Bare p (strip p l) := by
  refine ⟨fun x hx => ?_, last_rdropWhile _⟩
  -- a front that is left is the front that the first pass left
  obtain ⟨tail, htail⟩ := List.rdropWhile_prefix p (l.dropWhile p)
  refine head_dropWhile l x ?_
  have hfront : ((l.dropWhile p).rdropWhile p).head? = some x := hx
  rw [← htail, List.head?_append, hfront]
  rfl

theorem strip_eq_self (h : Bare p l) : strip p l = l := by
  rw [strip, dropWhile_of_head h.head, rdropWhile_of_last h.last]

theorem stripped_iff : Stripped p l core ↔ strip p l = core := by
  constructor
  · rintro ⟨before, after, rfl, hbefore, hafter, hcore⟩
    rw [strip, List.append_assoc, dropWhile_append_of_forall hbefore]
    by_cases hnil : core = []
    · subst hnil
      rw [List.nil_append, List.dropWhile_eq_nil_iff.mpr hafter, List.rdropWhile_nil]
    · have hhead : ∀ x ∈ (core ++ after).head?, p x = false := by
        intro x hx
        rw [List.head?_append_of_ne_nil _ hnil] at hx
        exact hcore.head x hx
      rw [dropWhile_of_head hhead, rdropWhile_append_of_forall hafter,
        rdropWhile_of_last hcore.last]
  · rintro rfl
    refine ⟨l.takeWhile p, (l.dropWhile p).rtakeWhile p, ?_,
      fun x hx => List.mem_takeWhile_imp hx, fun x hx => List.mem_rtakeWhile_imp hx,
      bare_strip p l⟩
    rw [strip, List.append_assoc, List.rdropWhile_append_rtakeWhile,
      List.takeWhile_append_dropWhile]

theorem bare_of_strip_eq (h : strip p l = l) : Bare p l := h ▸ bare_strip p l

theorem length_strip_le (p : α → Bool) (l : List α) : (strip p l).length ≤ l.length :=
  (List.rdropWhile_prefix p _).length_le.trans (List.dropWhile_suffix p).length_le

theorem mem_of_mem_strip {x : α} (h : x ∈ strip p l) : x ∈ l :=
  (List.dropWhile_suffix p).subset ((List.rdropWhile_prefix p _).subset h)

theorem bare_of_length_le (h : l.length ≤ (strip p l).length) : Bare p l := by
  obtain ⟨before, after, hl, -, -, hcore⟩ := stripped_iff.mpr (rfl : strip p l = strip p l)
  have hlength := congrArg List.length hl
  rw [List.length_append, List.length_append] at hlength
  have hbefore : before = [] := List.eq_nil_of_length_eq_zero (by omega)
  have hafter : after = [] := List.eq_nil_of_length_eq_zero (by omega)
  rw [hbefore, hafter, List.nil_append, List.append_nil] at hl
  rw [hl]
  exact hcore

end Skattr.Lib

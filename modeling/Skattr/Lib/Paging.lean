import Mathlib.Data.List.Induction
import Mathlib.Order.RelClasses

/-!
# Following the cursors of a paged query

A client asks for pages and follows the cursor of each page to the next one, until a page has no
cursor. `Paged` relates the pages to the rows that are left at a cursor: a page shows those of its
rows that can be shown, and whether it has a cursor depends on the page alone. `Paged.follow_spec`
says that the client comes to an end, and that it has seen everything exactly when no page without
a cursor is followed by a row that can be shown.
-/

namespace Skattr.Lib.Paging

variable {κ ρ β : Type}

/-- The items of all pages from a cursor on, if the last page is reached within `fuel` requests. -/
def follow (fetch : Option κ → Option (List β × Option κ)) : Nat → Option κ → Option (List β)
  | 0, _ => none
  | fuel + 1, cursor =>
    (fetch cursor).bind fun page =>
      page.2.elim (some page.1) fun next =>
        (follow fetch fuel (some next)).map (page.1 ++ ·)

/-- Pages of at most `size` rows are cut from the rows that `remaining` says are left at a cursor;
a page has a cursor when it `goesOn`, and the cursor leads to the rows after the page. -/
structure Paged (fetch : Option κ → Option (List β × Option κ)) (remaining : Option κ → List ρ)
    (shown : ρ → Option β) (size : Nat) (goesOn : List ρ → Prop) : Prop where
  last : ∀ cursor, ¬goesOn ((remaining cursor).take size) →
    fetch cursor = some (((remaining cursor).take size).filterMap shown, none)
  more : ∀ cursor, goesOn ((remaining cursor).take size) → ∃ next,
    fetch cursor = some (((remaining cursor).take size).filterMap shown, some next) ∧
      remaining cursor ≠ [] ∧ remaining (some next) = (remaining cursor).drop size

/-- No page at which the client stops is followed by a row that can be shown. -/
def Complete (shown : ρ → Option β) (size : Nat) (goesOn : List ρ → Prop) (rows : List ρ) : Prop :=
  ∀ k, ¬goesOn ((rows.drop (k * size)).take size) →
    (rows.drop ((k + 1) * size)).filterMap shown = []

variable {fetch : Option κ → Option (List β × Option κ)} {remaining : Option κ → List ρ}
  {shown : ρ → Option β} {size : Nat} {goesOn : List ρ → Prop} {rows : List ρ}

theorem pages_succ (k size : Nat) : (k + 1) * size = size + k * size := by
  rw [Nat.succ_mul, Nat.add_comm]

theorem complete_iff : Complete shown size goesOn rows ↔
    (¬goesOn (rows.take size) → (rows.drop size).filterMap shown = []) ∧
      Complete shown size goesOn (rows.drop size) := by
  constructor
  · intro h
    refine ⟨fun hstop => ?_, fun k hstop => ?_⟩
    · simpa using h 0 (by simpa using hstop)
    · have hnext := h (k + 1)
      rw [List.drop_drop] at hstop ⊢
      rw [pages_succ, pages_succ (k + 1)] at hnext
      exact hnext hstop
  · rintro ⟨hfirst, hrest⟩ k hstop
    cases k with
    | zero => simpa using hfirst (by simpa using hstop)
    | succ k =>
      have hnext := hrest k
      rw [List.drop_drop, List.drop_drop] at hnext
      rw [pages_succ] at hstop ⊢
      exact hnext hstop

theorem complete_of_filterMap_eq_nil (h : rows.filterMap shown = []) :
    Complete shown size goesOn rows := by
  intro k _
  rw [List.filterMap_eq_nil_iff] at h ⊢
  exact fun row hrow => h row (List.mem_of_mem_drop hrow)

theorem complete_of_full : Complete shown size (fun page => page.length = size) rows := by
  intro k hshort
  have hend : rows.drop ((k + 1) * size) = [] := by
    rw [List.drop_eq_nil_iff, pages_succ]
    simp only [List.length_take, List.length_drop] at hshort
    omega
  rw [hend, List.filterMap_nil]

/-- The client comes to an end, and has then seen every row that can be shown, once and in order,
exactly when no page at which it stops is followed by one. -/
theorem Paged.follow_spec (h : Paged fetch remaining shown size goesOn) (hsize : 0 < size)
    (cursor : Option κ) :
    ∃ fuel items, follow fetch fuel cursor = some items ∧
      (items = (remaining cursor).filterMap shown ↔
        Complete shown size goesOn (remaining cursor)) := by
  induction hlength : (remaining cursor).length using Nat.strongRecOn
    generalizing cursor with
  | _ length ih =>
  have hsplit : (remaining cursor).filterMap shown =
      ((remaining cursor).take size).filterMap shown ++
        ((remaining cursor).drop size).filterMap shown := by
    rw [← List.filterMap_append, List.take_append_drop]
  rw [complete_iff, hsplit]
  by_cases hgo : goesOn ((remaining cursor).take size)
  · obtain ⟨next, hfetch, hne, hnext⟩ := h.more cursor hgo
    have hshorter : (remaining (some next)).length < length := by
      have hpos := List.length_pos_iff.mpr hne
      rw [hnext, List.length_drop]
      omega
    obtain ⟨fuel, items, hfollow, hitems⟩ := ih _ hshorter (some next) rfl
    rw [hnext] at hitems
    refine ⟨fuel + 1, ((remaining cursor).take size).filterMap shown ++ items, ?_, ?_⟩
    · simp [follow, hfetch, hfollow]
    · rw [List.append_cancel_left_eq, hitems]
      exact ⟨fun hrest => ⟨fun hstop => absurd hgo hstop, hrest⟩, fun hboth => hboth.2⟩
  · refine ⟨1, ((remaining cursor).take size).filterMap shown, ?_, ?_⟩
    · simp [follow, h.last cursor hgo]
    rw [List.self_eq_append_right]
    exact ⟨fun hnil => ⟨fun _ => hnil, complete_of_filterMap_eq_nil hnil⟩,
      fun hboth => hboth.1 hgo⟩

theorem filter_after_last {r : ρ → ρ → Prop} [DecidableRel r] [Std.Asymm r]
    (hrows : rows.Pairwise r) {row : ρ} (hlast : (rows.take size).getLast? = some row) :
    rows.filter (fun other => r row other) = rows.drop size := by
  obtain ⟨init, hinit⟩ := List.getLast?_eq_some_iff.mp hlast
  have hpage : (rows.take size).filter (fun other => r row other) = [] := by
    rw [List.filter_eq_nil_iff]
    intro other hother
    have hpairs : (init ++ [row]).Pairwise r := by
      rw [← hinit]
      exact hrows.sublist (List.take_sublist _ _)
    rw [hinit] at hother
    rcases List.mem_append.mp hother with hbefore | hsame
    · have hr : r other row := (List.pairwise_append.mp hpairs).2.2 other hbefore row (by simp)
      simpa using Std.Asymm.asymm _ _ hr
    · rw [List.mem_singleton] at hsame
      subst hsame
      have hirrefl : ¬r other other := fun hr => Std.Asymm.asymm _ _ hr hr
      simpa using hirrefl
  have hrest : (rows.drop size).filter (fun other => r row other) = rows.drop size := by
    rw [List.filter_eq_self]
    intro other hother
    have hpairs := hrows
    rw [← List.take_append_drop size rows] at hpairs
    have hrow : row ∈ rows.take size := List.mem_of_getLast? hlast
    simpa using (List.pairwise_append.mp hpairs).2.2 row hrow other hother
  calc rows.filter (fun other => r row other)
      = (rows.take size ++ rows.drop size).filter (fun other => r row other) := by
        rw [List.take_append_drop]
    _ = rows.drop size := by rw [List.filter_append, hpage, hrest, List.nil_append]

theorem getLast?_filterMap (h : (rows.filterMap shown).length = rows.length) :
    (rows.filterMap shown).getLast? = rows.getLast?.bind shown := by
  induction rows using List.reverseRecOn with
  | nil => rfl
  | append_singleton init row =>
    rw [List.getLast?_concat, Option.bind_some]
    cases hrow : shown row with
    | none =>
      have hle := List.length_filterMap_le shown init
      simp [List.filterMap_append, hrow] at h
      omega
    | some item => simp [List.filterMap_append, hrow]

end Skattr.Lib.Paging

import Mathlib.Data.List.Nodup

/-!
# Keyed tables in row order

A `Table` is a finite list of rows with pairwise distinct keys, in the order in which the rows
were inserted. Its operations are those of a relational table with a primary key: a conflicting
insert fails, is ignored or overwrites, an update keeps the row's position, and a delete closes
the gap. Every operation is specified by what `get` returns afterwards.
-/

namespace Skattr.Lib

/-- Rows in insertion order, no two of them with the same key. -/
structure Table (κ ν : Type) where
  rows : List (κ × ν)
  nodup : (rows.map Prod.fst).Nodup
  deriving DecidableEq

namespace Table

variable {κ ν : Type} [DecidableEq κ]

def empty : Table κ ν := ⟨[], List.nodup_nil⟩

def get (t : Table κ ν) (k : κ) : Option ν := t.rows.lookup k

def keys (t : Table κ ν) : List κ := t.rows.map Prod.fst

def deleteWhere (t : Table κ ν) (p : κ → ν → Bool) : Table κ ν where
  rows := t.rows.filter fun row => !p row.1 row.2
  nodup := t.nodup.sublist ((List.filter_sublist).map Prod.fst)

def delete (t : Table κ ν) (k : κ) : Table κ ν :=
  t.deleteWhere fun key _ => key = k

def modify (t : Table κ ν) (k : κ) (f : ν → ν) : Table κ ν where
  rows := t.rows.map fun row => if row.1 = k then (row.1, f row.2) else row
  nodup := by
    have hkeys : (t.rows.map fun row => if row.1 = k then (row.1, f row.2) else row).map Prod.fst
        = t.rows.map Prod.fst := by
      rw [List.map_map]
      refine List.map_congr_left fun row _ => ?_
      by_cases hk : row.1 = k <;> simp [hk]
    rw [hkeys]
    exact t.nodup

variable {k key : κ} {v w : ν} {p : κ → ν → Bool} {row : κ × ν} {u t : Table κ ν} {q : κ × ν → Bool}

theorem get_eq_none_iff : t.get k = none ↔ k ∉ t.keys := by
  unfold get keys
  induction t.rows with
  | nil => simp
  | cons row rows ih =>
    obtain ⟨key, value⟩ := row
    by_cases hk : k = key
    · simp [hk]
    · simp [List.lookup_cons, hk, beq_false_of_ne hk, ih]

def push (t : Table κ ν) (k : κ) (v : ν) (h : t.get k = none) : Table κ ν where
  rows := t.rows ++ [(k, v)]
  nodup := by
    rw [List.map_append]
    refine List.nodup_append.mpr ⟨t.nodup, by simp, ?_⟩
    intro a ha b hb
    simp only [List.map_cons, List.map_nil, List.mem_singleton] at hb
    subst hb
    exact fun hab => get_eq_none_iff.mp h (hab ▸ ha)

def insert (t : Table κ ν) (k : κ) (v : ν) : Option (Table κ ν) :=
  if h : t.get k = none then some (t.push k v h) else none

def insertOrIgnore (t : Table κ ν) (k : κ) (v : ν) : Table κ ν :=
  if h : t.get k = none then t.push k v h else t

def put (t : Table κ ν) (k : κ) (v : ν) : Table κ ν :=
  if h : t.get k = none then t.push k v h else t.modify k fun _ => v

theorem get_eq_some_iff : t.get k = some v ↔ (k, v) ∈ t.rows := by
  obtain ⟨rows, hnodup⟩ := t
  change rows.lookup k = some v ↔ (k, v) ∈ rows
  induction rows with
  | nil => simp
  | cons row rows ih =>
    obtain ⟨key, value⟩ := row
    simp only [List.map_cons, List.nodup_cons] at hnodup
    by_cases hk : k = key
    · subst hk
      have hrest : (k, v) ∉ rows := fun hmem => hnodup.1 (List.mem_map.mpr ⟨_, hmem, rfl⟩)
      simp [hrest, eq_comm]
    · simp [List.lookup_cons, beq_false_of_ne hk, hk, ih hnodup.2]

omit [DecidableEq κ] in
theorem mem_deleteWhere : row ∈ (t.deleteWhere p).rows ↔ row ∈ t.rows ∧ p row.1 row.2 = false := by
  simp [deleteWhere, List.mem_filter]

theorem mem_delete : row ∈ (t.delete k).rows ↔ row ∈ t.rows ∧ row.1 ≠ k := by
  simp [delete, mem_deleteWhere]

omit [DecidableEq κ] in
theorem filter_deleteWhere_eq_nil :
    (t.deleteWhere p).rows.filter q = [] ↔ ∀ row ∈ t.rows, p row.1 row.2 = false → ¬q row := by
  rw [List.filter_eq_nil_iff]
  constructor
  · intro h row hrow hkept
    exact h row (mem_deleteWhere.mpr ⟨hrow, hkept⟩)
  · intro h row hrow
    obtain ⟨hmem, hkept⟩ := mem_deleteWhere.mp hrow
    exact h row hmem hkept

omit [DecidableEq κ] in
theorem filter_deleteWhere_eq :
    (t.deleteWhere p).rows.filter q = t.rows.filter q ↔
      ∀ row ∈ t.rows, q row → p row.1 row.2 = false := by
  unfold deleteWhere
  rw [List.filter_comm, List.filter_eq_self]
  simp only [List.mem_filter, Bool.not_eq_true', and_imp]

theorem row_unique {other : κ × ν} (hrow : row ∈ t.rows) (hother : other ∈ t.rows)
    (hkey : row.1 = other.1) : row = other := by
  have hrow' := get_eq_some_iff.mpr hrow
  have hother' := get_eq_some_iff.mpr hother
  rw [hkey, hother'] at hrow'
  exact Prod.ext hkey (Option.some.inj hrow').symm

theorem get_deleteWhere (t : Table κ ν) (p : κ → ν → Bool) (k : κ) :
    (t.deleteWhere p).get k = (t.get k).filter fun v => !p k v := by
  cases hget : t.get k with
  | none =>
    rw [Option.filter_none]
    rw [get_eq_none_iff] at hget ⊢
    intro hmem
    obtain ⟨row, hrow, rfl⟩ := List.mem_map.mp hmem
    exact hget (List.mem_map.mpr ⟨row, (List.mem_filter.mp hrow).1, rfl⟩)
  | some v =>
    cases hp : p k v with
    | false =>
      simp only [Option.filter, hp, Bool.not_false, if_true]
      exact get_eq_some_iff.mpr
        (List.mem_filter.mpr ⟨get_eq_some_iff.mp hget, by simp [hp]⟩)
    | true =>
      simp only [Option.filter, hp, Bool.not_true, Bool.false_eq_true, if_false]
      by_contra hne
      obtain ⟨w, hw⟩ := Option.ne_none_iff_exists'.mp hne
      have hmem := List.mem_filter.mp (get_eq_some_iff.mp hw)
      have hvw : v = w := Option.some.inj (hget.symm.trans (get_eq_some_iff.mpr hmem.1))
      simp [← hvw, hp] at hmem

@[simp] theorem get_delete_self (t : Table κ ν) (k : κ) : (t.delete k).get k = none := by
  rw [delete, get_deleteWhere]
  cases t.get k <;> simp [Option.filter]

theorem get_delete_ne (t : Table κ ν) (h : key ≠ k) : (t.delete k).get key = t.get key := by
  rw [delete, get_deleteWhere]
  cases t.get key <;> simp [Option.filter, h]

theorem get_delete_eq_some : (t.delete k).get key = some v ↔ key ≠ k ∧ t.get key = some v := by
  by_cases h : key = k
  · simp [h]
  · simp [get_delete_ne t h, h]

theorem get_modify (t : Table κ ν) (k key : κ) (f : ν → ν) :
    (t.modify k f).get key = if key = k then (t.get key).map f else t.get key := by
  obtain ⟨rows, hnodup⟩ := t
  change (rows.map _).lookup key = if key = k then (rows.lookup key).map f else rows.lookup key
  clear hnodup
  induction rows with
  | nil => simp
  | cons row rows ih =>
    obtain ⟨rowKey, value⟩ := row
    by_cases hrow : rowKey = k
    · by_cases hkey : key = rowKey
      · subst hkey
        simp [hrow]
      · simp [List.lookup_cons, hrow, beq_false_of_ne (hrow ▸ hkey), ih]
    · by_cases hkey : key = rowKey
      · subst hkey
        simp [hrow]
      · simp [List.lookup_cons, hrow, beq_false_of_ne hkey, ih]

@[simp] theorem get_modify_self (t : Table κ ν) (k : κ) (f : ν → ν) :
    (t.modify k f).get k = (t.get k).map f := by
  simp [get_modify]

theorem get_modify_ne (t : Table κ ν) (f : ν → ν) (h : key ≠ k) :
    (t.modify k f).get key = t.get key := by
  simp [get_modify, h]

theorem get_push (t : Table κ ν) (k key : κ) (v : ν) (h : t.get k = none) :
    (t.push k v h).get key = if key = k then some v else t.get key := by
  change (t.rows ++ [(k, v)]).lookup key = _
  rw [List.lookup_append]
  by_cases hkey : key = k
  · subst hkey
    have hnone : t.rows.lookup key = none := h
    simp [hnone]
  · simp [hkey, List.lookup_cons, beq_false_of_ne hkey, get]

@[simp] theorem get_put_self (t : Table κ ν) (k : κ) (v : ν) : (t.put k v).get k = some v := by
  unfold put
  split
  · simp [get_push]
  · next h =>
    obtain ⟨w, hw⟩ := Option.ne_none_iff_exists'.mp h
    simp [hw]

theorem get_put_ne (t : Table κ ν) (v : ν) (h : key ≠ k) : (t.put k v).get key = t.get key := by
  unfold put
  split
  · simp [get_push, h]
  · exact get_modify_ne _ _ h

theorem insert_eq_some (h : t.insert k v = some u) :
    t.get k = none ∧ u.rows = t.rows ++ [(k, v)] := by
  unfold insert at h
  split at h
  · next hnone =>
    cases h
    exact ⟨hnone, rfl⟩
  · cases h

theorem get_insert (h : t.insert k v = some u) (key : κ) :
    u.get key = if key = k then some v else t.get key := by
  unfold insert at h
  split at h
  · cases h
    exact get_push _ _ _ _ _
  · cases h

theorem get_insert_of_some (h : t.insert k v = some u) (hkey : t.get key = some w) :
    u.get key = some w := by
  rw [get_insert h, if_neg, hkey]
  rintro rfl
  rw [(insert_eq_some h).1] at hkey
  cases hkey

theorem get_insertOrIgnore (t : Table κ ν) (k key : κ) (v : ν) :
    (t.insertOrIgnore k v).get key =
      if key = k then some ((t.get k).getD v) else t.get key := by
  unfold insertOrIgnore
  split
  · next h =>
    rw [get_push, h]
    rfl
  · next h =>
    obtain ⟨w, hw⟩ := Option.ne_none_iff_exists'.mp h
    by_cases hkey : key = k
    · simp [hkey, hw]
    · simp [hkey]

theorem get_foldl_insertOrIgnore {ks : List κ} :
    (ks.foldl (fun t k => t.insertOrIgnore k v) t).get key = some w ↔
      t.get key = some w ∨ (t.get key = none ∧ key ∈ ks ∧ w = v) := by
  induction ks generalizing t with
  | nil => simp
  | cons k ks ih =>
    rw [List.foldl_cons, ih, get_insertOrIgnore]
    by_cases hkey : key = k
    · subst hkey
      cases t.get key <;> simp [eq_comm]
    · simp [hkey]

/-! ### Keys -/

@[simp] theorem keys_modify (t : Table κ ν) (k : κ) (f : ν → ν) : (t.modify k f).keys = t.keys := by
  unfold keys modify
  rw [List.map_map]
  refine List.map_congr_left fun row _ => ?_
  by_cases hk : row.1 = k <;> simp [hk]

theorem keys_put (h : k ∉ t.keys) (v : ν) : (t.put k v).keys = t.keys ++ [k] := by
  rw [put, dif_pos (get_eq_none_iff.mpr h)]
  exact List.map_append

theorem keys_put_of_mem (h : k ∈ t.keys) (v : ν) : (t.put k v).keys = t.keys := by
  rw [put, dif_neg fun hnone => get_eq_none_iff.mp hnone h, keys_modify]

theorem mem_keys_put : key ∈ (t.put k v).keys ↔ key = k ∨ key ∈ t.keys := by
  by_cases hmem : k ∈ t.keys
  · rw [keys_put_of_mem hmem]
    refine ⟨.inr, fun h => h.elim (fun heq => heq ▸ hmem) id⟩
  · rw [keys_put hmem, List.mem_append, List.mem_singleton, or_comm]

theorem keys_perm_delete (h : k ∈ t.keys) : (k :: (t.delete k).keys).Perm t.keys := by
  have hkeys : (t.delete k).keys = t.keys.erase k := by
    rw [show t.keys.erase k = t.keys.filter (· != k) from t.nodup.erase_eq_filter k]
    show (t.rows.filter _).map Prod.fst = (t.rows.map Prod.fst).filter _
    rw [List.filter_map]
    congr 1
  rw [hkeys]
  exact (List.perm_cons_erase h).symm

/-! ### Row ids and unique indexes -/

theorem exists_of_get_modify {f : ν → ν} (h : (t.modify k f).get key = some w) :
    ∃ v, t.get key = some v ∧ (w = v ∨ w = f v) := by
  rw [get_modify] at h
  split at h
  · obtain ⟨v, hv, rfl⟩ := Option.map_eq_some_iff.mp h
    exact ⟨v, hv, .inr rfl⟩
  · exact ⟨w, h, .inl rfl⟩

section Index

variable {ι : Type} {index : ν → ι} {t : Table κ ν} {other : κ}

theorem unique_push
    (hunique : ∀ {key other v w}, t.get key = some v → t.get other = some w → index v = index w →
      key = other) {new : ν} {hfree : t.get k = none} (hv : (t.push k new hfree).get key = some v)
    (hw : (t.push k new hfree).get other = some w) (hsame : index v = index w)
    (hnew : ∀ key v, t.get key = some v → index v ≠ index new) : key = other := by
  rw [get_push] at hv hw
  split at hv <;> split at hw
  · next hkey hother => rw [hkey, hother]
  · cases hv
    exact absurd hsame.symm (hnew other w hw)
  · cases hw
    exact absurd hsame (hnew key v hv)
  · exact hunique hv hw hsame

theorem unique_modify
    (hunique : ∀ {key other v w}, t.get key = some v → t.get other = some w → index v = index w →
      key = other) {f : ν → ν} (hv : (t.modify k f).get key = some v)
    (hw : (t.modify k f).get other = some w) (hsame : index v = index w)
    (hindex : ∀ v, index (f v) = index v) : key = other := by
  have hkept {key : κ} {v : ν} (h : (t.modify k f).get key = some v) :
      ∃ old, t.get key = some old ∧ index v = index old := by
    obtain ⟨old, hold, rfl | rfl⟩ := exists_of_get_modify h
    · exact ⟨v, hold, rfl⟩
    · exact ⟨old, hold, hindex old⟩
  obtain ⟨old, hold, hindex₁⟩ := hkept hv
  obtain ⟨old', hold', hindex₂⟩ := hkept hw
  exact hunique hold hold' (by rw [← hindex₁, ← hindex₂, hsame])

end Index

section Ids

variable {t : Table Nat ν} {next : Nat}
  (hissued : ∀ {id v}, t.get id = some v → id < next)

include hissued

theorem get_next : t.get next = none :=
  Option.eq_none_iff_forall_ne_some.mpr fun _ hv => Nat.lt_irrefl _ (hissued hv)

theorem issued_push {new : ν} {hfree : t.get next = none} {id : Nat}
    (h : (t.push next new hfree).get id = some v) : id < next + 1 := by
  rw [get_push] at h
  split at h
  · omega
  · exact Nat.lt_succ_of_lt (hissued h)

theorem issued_modify {k : Nat} {f : ν → ν} {id : Nat} (h : (t.modify k f).get id = some v) :
    id < next := by
  obtain ⟨old, hold, -⟩ := exists_of_get_modify h
  exact hissued hold

end Ids

end Table

end Skattr.Lib

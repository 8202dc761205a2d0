import Mathlib.Data.List.Basic
import Skattr.Lib.Cbor

/-!
# Files made of parts

A format whose files are lists of parts: `parse` reads the parts in order and `emit` writes them.
When the format is `Faithful`, a file can be written again without some of its parts and the others
are read back, and two files become equal exactly when the parts that stay are equal
(`emit_eq_iff`).
-/

namespace Skattr.Lib

variable {Part : Type}

structure Container (Part : Type) where
  parse : Bytes → Except String (List Part)
  emit : List Part → Bytes

namespace Container

/-- What is left of a file after some parts are taken out is written so that it reads the same. -/
def Faithful (format : Container Part) : Prop :=
  ∀ bytes parts kept, format.parse bytes = .ok parts → kept.Sublist parts →
    format.parse (format.emit kept) = .ok kept

variable {format : Container Part} {drop : Part → Bool} {bytes bytes' : Bytes}
  {parts parts' : List Part}

theorem emit_eq_iff (hformat : format.Faithful) (h : format.parse bytes = .ok parts)
    (h' : format.parse bytes' = .ok parts') {kept kept' : List Part} (hsub : kept.Sublist parts)
    (hsub' : kept'.Sublist parts') : format.emit kept = format.emit kept' ↔ kept = kept' := by
  constructor
  · intro heq
    have hread := hformat _ _ _ h hsub
    rw [heq, hformat _ _ _ h' hsub'] at hread
    exact (Except.ok.inj hread).symm
  · exact congrArg format.emit

theorem filter_hidden_filter_drop {hidden : Part → Bool} (h : ∀ part, drop part → hidden part)
    (parts : List Part) :
    ((parts.filter fun part => !drop part).filter fun part => !hidden part) =
      parts.filter fun part => !hidden part := by
  rw [List.filter_filter]
  refine List.filter_congr fun part _ => ?_
  cases hhidden : hidden part with
  | true => rfl
  | false =>
    have hdrop : drop part = false := by
      rw [← Bool.not_eq_true]
      exact fun hd => by simp [h part hd] at hhidden
    simp [hdrop]

/-! ### A format over a fixed set of parts -/

def indexed [DecidableEq Part] (magic : Bytes) (table : List Part) : Container Part where
  parse bytes :=
    if magic.isPrefixOf bytes then
      match (bytes.drop magic.length).mapM fun place => table[place.toNat]? with
      | some parts => .ok parts
      | none => .error "unknown part"
    else .error "wrong signature"
  emit parts := magic ++ parts.map fun part => UInt8.ofNat (table.idxOf part)

variable {magic : Bytes} {table : List Part}

theorem mem_table_of_mapM {places : Bytes}
    (h : (places.mapM fun place => table[place.toNat]?) = some parts) :
    ∀ part ∈ parts, part ∈ table := by
  induction places generalizing parts with
  | nil =>
    cases h
    exact fun part hmem => absurd hmem List.not_mem_nil
  | cons place places ih =>
    simp only [List.mapM_cons, Option.bind_eq_bind, Option.bind_eq_some_iff, Option.pure_def,
      Option.some.injEq] at h
    obtain ⟨first, hfirst, rest, hrest, rfl⟩ := h
    intro part hmem
    cases List.mem_cons.mp hmem with
    | inl heq => exact heq ▸ List.mem_of_getElem? hfirst
    | inr hmem => exact ih hrest part hmem

variable [DecidableEq Part]

theorem mapM_idxOf (htable : table.length ≤ 256) (h : ∀ part ∈ parts, part ∈ table) :
    ((parts.map fun part => UInt8.ofNat (table.idxOf part)).mapM fun place =>
      table[place.toNat]?) = some parts := by
  induction parts with
  | nil => rfl
  | cons part parts ih =>
    have hplace : table.idxOf part < table.length :=
      List.idxOf_lt_length_of_mem (h part List.mem_cons_self)
    have hbyte : (UInt8.ofNat (table.idxOf part)).toNat = table.idxOf part := by
      rw [UInt8.toNat_ofNat']
      exact Nat.mod_eq_of_lt (by omega)
    have hread : table[table.idxOf part]? = some part := by
      rw [List.getElem?_eq_getElem hplace, List.getElem_idxOf hplace]
    rw [List.map_cons, List.mapM_cons, hbyte, hread,
      ih fun other hmem => h other (List.mem_cons_of_mem _ hmem)]
    rfl

theorem indexed_faithful (htable : table.length ≤ 256) : (indexed magic table).Faithful := by
  intro bytes parts kept hparse hsub
  have hmem : ∀ part ∈ parts, part ∈ table := by
    simp only [indexed] at hparse
    split at hparse
    · split at hparse
      · rename_i read hread
        cases hparse
        exact mem_table_of_mapM hread
      · cases hparse
    · cases hparse
  have hplaces := mapM_idxOf htable fun part hpart => hmem part (hsub.subset hpart)
  simp only [indexed, List.isPrefixOf_iff_prefix, List.prefix_append, if_true, List.drop_left,
    hplaces]

end Container

end Skattr.Lib

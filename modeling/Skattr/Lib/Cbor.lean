import Mathlib.Algebra.BigOperators.Group.List.Basic
import Mathlib.Algebra.GroupWithZero.Nat
import Mathlib.Data.List.Induction

/-!
# Byte strings and CBOR encodings

Big-endian integers, byte arrays of a fixed length, and the definite-length CBOR encodings of
integers, texts, arrays and maps, as encoders into byte lists. Each encoder comes with its exact
length. A sequence of bytes that is encoded as an array of integers takes one or two bytes per
element (`length_byteSeq`), which is what decides whether a frame built from it fits a size limit.
Encodings tell where they end (`SelfDelimiting`), so a tuple of them determines its fields.
-/

namespace Skattr.Lib

/-- A byte string. -/
abbrev Bytes := List UInt8

/-- A byte string of length `n`. -/
structure ByteArr (n : Nat) where
  bytes : Bytes
  length_eq : bytes.length = n
  deriving DecidableEq

def ByteArr.fill (n : Nat) (b : UInt8) : ByteArr n := ⟨List.replicate n b, List.length_replicate⟩

def ByteArr.ofBytes? (n : Nat) (bs : Bytes) : Option (ByteArr n) :=
  if h : bs.length = n then some ⟨bs, h⟩ else none

theorem ofBytes?_bytes {n : Nat} (bs : ByteArr n) : ByteArr.ofBytes? n bs.bytes = some bs := by
  simp [ByteArr.ofBytes?, bs.length_eq]

/-- The `width` low-order bytes of a number, the most significant one first. -/
def beBytes : Nat → Nat → Bytes
  | 0, _ => []
  | width + 1, n => beBytes width (n / 256) ++ [UInt8.ofNat n]

def ofBe (bs : Bytes) : Nat := bs.foldl (fun acc b => acc * 256 + b.toNat) 0

@[simp] theorem length_beBytes (width n : Nat) : (beBytes width n).length = width := by
  induction width generalizing n with
  | zero => rfl
  | succ width ih => simp [beBytes, ih]

theorem ofBe_beBytes {width n : Nat} (h : n < 256 ^ width) : ofBe (beBytes width n) = n := by
  induction width generalizing n with
  | zero =>
    have hn : n = 0 := by simpa using h
    simp [hn, beBytes, ofBe]
  | succ width ih =>
    have hdiv : n / 256 < 256 ^ width := by
      rw [Nat.div_lt_iff_lt_mul (by decide)]
      simpa [Nat.pow_succ] using h
    have hrec := ih hdiv
    simp only [ofBe] at hrec ⊢
    simp only [beBytes, List.foldl_append, hrec, List.foldl_cons, List.foldl_nil]
    simp only [UInt8.toNat_ofNat']
    omega

theorem beBytes_ofBe (bs : Bytes) : beBytes bs.length (ofBe bs) = bs := by
  induction bs using List.reverseRecOn with
  | nil => rfl
  | append_singleton bs b ih =>
    have hb := b.toNat_lt
    have hstep : ofBe (bs ++ [b]) = ofBe bs * 256 + b.toNat := by simp [ofBe]
    have hdiv : (ofBe bs * 256 + b.toNat) / 256 = ofBe bs := by omega
    have hlast : UInt8.ofNat (ofBe bs * 256 + b.toNat) = b := by
      apply UInt8.toNat_inj.mp
      rw [UInt8.toNat_ofNat']
      omega
    rw [List.length_append, List.length_singleton, hstep, beBytes, hdiv, ih, hlast]

namespace Cbor

def headSize (n : Nat) : Nat :=
  if n < 24 then 1 else if n < 2 ^ 8 then 2 else if n < 2 ^ 16 then 3
  else if n < 2 ^ 32 then 5 else 9

def head (major n : Nat) : Bytes :=
  if n < 24 then [UInt8.ofNat (major * 32 + n)]
  else if n < 2 ^ 8 then UInt8.ofNat (major * 32 + 24) :: beBytes 1 n
  else if n < 2 ^ 16 then UInt8.ofNat (major * 32 + 25) :: beBytes 2 n
  else if n < 2 ^ 32 then UInt8.ofNat (major * 32 + 26) :: beBytes 4 n
  else UInt8.ofNat (major * 32 + 27) :: beBytes 8 n

def uint (n : Nat) : Bytes := head 0 n

def int (n : Int) : Bytes := if 0 ≤ n then head 0 n.toNat else head 1 (-1 - n).toNat

def text (s : String) : Bytes := head 3 s.utf8ByteSize ++ s.toUTF8.data.toList

def array (items : List Bytes) : Bytes := head 4 items.length ++ items.flatten

def map (fields : List (String × Bytes)) : Bytes :=
  head 5 fields.length ++ (fields.map fun field => text field.1 ++ field.2).flatten

def byteSeq (bs : Bytes) : Bytes := array (bs.map fun b => uint b.toNat)

def intSize (n : Int) : Nat := if 0 ≤ n then headSize n.toNat else headSize (-1 - n).toNat

def byteCost (b : UInt8) : Nat := headSize b.toNat

/-- The number of bytes that a byte sequence takes as an array of integers. -/
def byteSeqSize (bs : Bytes) : Nat := headSize bs.length + (bs.map byteCost).sum

@[simp] theorem length_head (major n : Nat) : (head major n).length = headSize n := by
  unfold head headSize
  split_ifs <;> simp

@[simp] theorem length_uint (n : Nat) : (uint n).length = headSize n := length_head 0 n

@[simp] theorem length_int (n : Int) : (int n).length = intSize n := by
  unfold int intSize
  split_ifs <;> simp

@[simp] theorem length_text (s : String) :
    (text s).length = headSize s.utf8ByteSize + s.utf8ByteSize := by
  simp [text]

@[simp] theorem length_array (items : List Bytes) :
    (array items).length = headSize items.length + (items.map List.length).sum := by
  simp [array, List.length_flatten]

theorem length_map (fields : List (String × Bytes)) :
    (map fields).length = headSize fields.length +
      (fields.map fun field => (text field.1).length + field.2.length).sum := by
  simp [map, List.length_flatten, List.map_map, Function.comp_def]

@[simp] theorem length_byteSeq (bs : Bytes) : (byteSeq bs).length = byteSeqSize bs := by
  simp only [byteSeq, byteSeqSize, length_array, List.length_map, List.map_map]
  congr 2
  exact List.map_congr_left fun b _ => length_uint b.toNat

theorem one_le_headSize (n : Nat) : 1 ≤ headSize n := by
  unfold headSize
  split_ifs <;> omega

theorem headSize_le (n : Nat) : headSize n ≤ 9 := by
  unfold headSize
  split_ifs <;> omega

variable (bs : Bytes)

theorem add_length_le_byteSeqSize : headSize bs.length + bs.length ≤ byteSeqSize bs := by
  have hsum : bs.length ≤ (bs.map byteCost).sum := by
    induction bs with
    | nil => simp
    | cons b bs ih =>
      have hb : 1 ≤ byteCost b := one_le_headSize _
      simp only [List.length_cons, List.map_cons, List.sum_cons]
      omega
  unfold byteSeqSize
  omega

theorem length_le_byteSeqSize : bs.length ≤ byteSeqSize bs := by
  have h := add_length_le_byteSeqSize bs
  omega

theorem byteSeqSize_le : byteSeqSize bs ≤ 9 + 9 * bs.length := by
  have hsum : (bs.map byteCost).sum ≤ 9 * bs.length := by
    induction bs with
    | nil => simp
    | cons b bs ih =>
      have hb : byteCost b ≤ 9 := headSize_le _
      simp only [List.length_cons, List.map_cons, List.sum_cons]
      omega
  have hhead := headSize_le bs.length
  unfold byteSeqSize
  omega

theorem byteSeqSize_arr_le {n : Nat} (arr : ByteArr n) : byteSeqSize arr.bytes ≤ 9 + 9 * n := by
  have hsize := byteSeqSize_le arr.bytes
  rwa [arr.length_eq] at hsize

theorem intSize_le (n : Int) : intSize n ≤ 9 := by
  unfold intSize
  split_ifs <;> exact headSize_le _

/-! ### Encodings determine what they encode -/

def headCode (n : Nat) : Nat :=
  if n < 24 then n else if n < 2 ^ 8 then 24 else if n < 2 ^ 16 then 25
  else if n < 2 ^ 32 then 26 else 27

theorem head_eq (major n : Nat) :
    head major n = UInt8.ofNat (major * 32 + headCode n) :: beBytes (headSize n - 1) n := by
  unfold head headCode headSize
  split_ifs <;> rfl

theorem headCode_lt (n : Nat) : headCode n < 32 := by
  unfold headCode
  split_ifs <;> omega

theorem headSize_eq_of_headCode_eq {n m : Nat} (h : headCode n = headCode m) :
    headSize n = headSize m := by
  unfold headCode at h
  unfold headSize
  split_ifs at h ⊢ <;> omega

theorem lt_of_headSize {n : Nat} (hn : 24 ≤ n) (h : n < 2 ^ 64) : n < 256 ^ (headSize n - 1) := by
  unfold headSize
  split_ifs with h₁ h₂ h₃ h₄ <;> simp only [Nat.reduceSub, Nat.reducePow] at * <;> omega

theorem head_append_inj {major n m : Nat} {x y : Bytes}
    (h : head major n ++ x = head major m ++ y) :
    x = y ∧ (n < 2 ^ 64 → m < 2 ^ 64 → n = m) := by
  rw [head_eq, head_eq, List.cons_append, List.cons_append, List.cons.injEq] at h
  obtain ⟨hfirst, hrest⟩ := h
  have hcode : headCode n = headCode m := by
    have hbyte := congrArg UInt8.toNat hfirst
    rw [UInt8.toNat_ofNat', UInt8.toNat_ofNat'] at hbyte
    have hn := headCode_lt n
    have hm := headCode_lt m
    omega
  have hsize := headSize_eq_of_headCode_eq hcode
  obtain ⟨hbytes, htail⟩ := List.append_inj hrest (by simp [hsize])
  refine ⟨htail, fun hn hm => ?_⟩
  by_cases hsmall : n < 24
  · -- a small argument is the code itself
    unfold headCode at hcode
    split_ifs at hcode <;> omega
  · have hlarge : 24 ≤ m := by
      unfold headCode at hcode
      split_ifs at hcode <;> omega
    have hread := ofBe_beBytes (lt_of_headSize (by omega) hn)
    rw [hbytes, ofBe_beBytes (lt_of_headSize hlarge hm)] at hread
    exact hread.symm

/-- The encodings of a type tell where they end and what they encode. -/
def SelfDelimiting {α : Type} (encode : α → Bytes) : Prop :=
  ∀ ⦃a b : α⦄ ⦃x y : Bytes⦄, encode a ++ x = encode b ++ y → a = b ∧ x = y

theorem SelfDelimiting.flatten_append_inj {α : Type} {encode : α → Bytes}
    (h : SelfDelimiting encode) {as bs : List α} {x y : Bytes} (hlength : as.length = bs.length)
    (heq : (as.map encode).flatten ++ x = (bs.map encode).flatten ++ y) : as = bs ∧ x = y := by
  induction as generalizing bs with
  | nil =>
    cases bs with
    | nil => exact ⟨rfl, heq⟩
    | cons b bs => cases hlength
  | cons a as ih =>
    cases bs with
    | nil => cases hlength
    | cons b bs =>
      simp only [List.map_cons, List.flatten_cons, List.append_assoc] at heq
      obtain ⟨rfl, hrest⟩ := h heq
      obtain ⟨rfl, hxy⟩ := ih (by simpa using hlength) hrest
      exact ⟨rfl, hxy⟩

theorem SelfDelimiting.flatten_inj {α : Type} {encode : α → Bytes} (h : SelfDelimiting encode)
    (hne : ∀ a, encode a ≠ []) {as bs : List α}
    (heq : (as.map encode).flatten = (bs.map encode).flatten) : as = bs := by
  induction as generalizing bs with
  | nil =>
    cases bs with
    | nil => rfl
    | cons b bs =>
      simp only [List.map_nil, List.flatten_nil, List.map_cons, List.flatten_cons] at heq
      exact absurd (List.append_eq_nil_iff.mp heq.symm).1 (hne b)
  | cons a as ih =>
    cases bs with
    | nil =>
      simp only [List.map_nil, List.flatten_nil, List.map_cons, List.flatten_cons] at heq
      exact absurd (List.append_eq_nil_iff.mp heq).1 (hne a)
    | cons b bs =>
      simp only [List.map_cons, List.flatten_cons] at heq
      obtain ⟨rfl, hrest⟩ := h heq
      rw [ih hrest]

theorem selfDelimiting_byte : SelfDelimiting fun b : UInt8 => uint b.toNat := by
  intro a b x y h
  have ha := a.toNat_lt
  have hb := b.toNat_lt
  obtain ⟨hxy, harg⟩ := head_append_inj h
  exact ⟨UInt8.toNat_inj.mp (harg (by omega) (by omega)), hxy⟩

theorem selfDelimiting_uint16 : SelfDelimiting fun n : UInt16 => uint n.toNat := by
  intro a b x y h
  have ha := a.toNat_lt
  have hb := b.toNat_lt
  obtain ⟨hxy, harg⟩ := head_append_inj h
  exact ⟨UInt16.toNat_inj.mp (harg (by omega) (by omega)), hxy⟩

theorem selfDelimiting_byteArr (n : Nat) :
    SelfDelimiting fun bs : ByteArr n => byteSeq bs.bytes := by
  intro as bs x y h
  simp only [byteSeq, array, List.append_assoc] at h
  obtain ⟨hrest, -⟩ := head_append_inj h
  obtain ⟨hbytes, hxy⟩ := selfDelimiting_byte.flatten_append_inj
    (as.length_eq.trans bs.length_eq.symm) hrest
  refine ⟨?_, hxy⟩
  cases as
  cases bs
  cases hbytes
  rfl

theorem byteSeq_ne_nil : byteSeq bs ≠ [] := by
  intro hnil
  have hlength := congrArg List.length hnil
  have hone := one_le_headSize bs.length
  rw [length_byteSeq, byteSeqSize, List.length_nil] at hlength
  omega

end Cbor

end Skattr.Lib

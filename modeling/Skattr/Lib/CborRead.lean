import Skattr.Lib.Cbor

/-!
# Reading CBOR items back

Readers for the encodings of `Skattr.Lib.Cbor`. A reader takes one item off the front of a byte
string and returns what follows it. `Reads` says that it reads back what an encoder writes, whatever
comes after. A structure is read field by field, each after its name (`readField_append`). `Codec`
puts a writer and its reader together, so that a structure is described once for both.
-/

namespace Skattr.Lib.Cbor

/-- Take one value off the front of a byte string. -/
abbrev Reader (α : Type) := Bytes → Option (α × Bytes)

/-- The reader returns what the encoder wrote, and leaves what follows. -/
def Reads {α : Type} (read : Reader α) (encode : α → Bytes) : Prop :=
  ∀ a rest, read (encode a ++ rest) = some (a, rest)

def byteString (bs : Bytes) : Bytes := head 2 bs.length ++ bs

@[simp] theorem length_byteString (bs : Bytes) :
    (byteString bs).length = headSize bs.length + bs.length := by
  simp [byteString]

def readBytes (n : Nat) : Reader Bytes := fun input =>
  if n ≤ input.length then some (input.take n, input.drop n) else none

theorem readBytes_append (bs rest : Bytes) :
    readBytes bs.length (bs ++ rest) = some (bs, rest) := by
  simp [readBytes]

/-- The width of the argument that follows a head with these low five bits. -/
def argWidth : Nat → Option Nat
  | 24 => some 1
  | 25 => some 2
  | 26 => some 4
  | 27 => some 8
  | _ => none

def readHead (major : Nat) : Reader Nat
  | [] => none
  | first :: input =>
    if first.toNat / 32 ≠ major then none
    else if first.toNat % 32 < 24 then some (first.toNat % 32, input)
    else do
      let width ← argWidth (first.toNat % 32)
      let (arg, rest) ← readBytes width input
      pure (ofBe arg, rest)

theorem headCode_cases (n : Nat) :
    (n < 24 ∧ headCode n = n ∧ headSize n = 1) ∨
      24 ≤ n ∧ 24 ≤ headCode n ∧ argWidth (headCode n) = some (headSize n - 1) := by
  unfold headCode headSize
  split_ifs with h₁ h₂ h₃ h₄
  · exact .inl ⟨h₁, rfl, rfl⟩
  all_goals exact .inr ⟨by omega, by omega, rfl⟩

theorem readHead_head {major n : Nat} (hmajor : major < 8) (hn : n < 2 ^ 64) (rest : Bytes) :
    readHead major (head major n ++ rest) = some (n, rest) := by
  have hcode := headCode_lt n
  have hfirst : (UInt8.ofNat (major * 32 + headCode n)).toNat = major * 32 + headCode n := by
    rw [UInt8.toNat_ofNat']
    omega
  have hdiv : (major * 32 + headCode n) / 32 = major := by omega
  have hmod : (major * 32 + headCode n) % 32 = headCode n := by omega
  rw [head_eq, List.cons_append, readHead, hfirst, hdiv, hmod, if_neg (not_not_intro rfl)]
  rcases headCode_cases n with ⟨hsmall, hcode, hsize⟩ | ⟨hlarge, hcode, hwidth⟩
  · rw [if_pos (by omega), hcode, hsize]
    rfl
  · have hread : readBytes (headSize n - 1) (beBytes (headSize n - 1) n ++ rest) =
        some (beBytes (headSize n - 1) n, rest) := by
      have happend := readBytes_append (beBytes (headSize n - 1) n) rest
      rwa [length_beBytes] at happend
    rw [if_neg (by omega), hwidth]
    show (readBytes (headSize n - 1) _ >>= _) = _
    rw [hread]
    show some (ofBe _, rest) = _
    rw [ofBe_beBytes (lt_of_headSize hlarge hn)]

/-! ### Items -/

def readUInt8 : Reader UInt8 := fun input => do
  let (n, rest) ← readHead 0 input
  if n < 2 ^ 8 then pure (UInt8.ofNat n, rest) else none

def readUInt16 : Reader UInt16 := fun input => do
  let (n, rest) ← readHead 0 input
  if n < 2 ^ 16 then pure (UInt16.ofNat n, rest) else none

def readUInt32 : Reader UInt32 := fun input => do
  let (n, rest) ← readHead 0 input
  if n < 2 ^ 32 then pure (UInt32.ofNat n, rest) else none

theorem reads_uint8 : Reads readUInt8 fun n => uint n.toNat := by
  intro n rest
  have hn := n.toNat_lt
  show readUInt8 (head 0 n.toNat ++ rest) = _
  rw [readUInt8, readHead_head (by omega) (by omega)]
  simp [hn]

theorem reads_uint16 : Reads readUInt16 fun n => uint n.toNat := by
  intro n rest
  have hn := n.toNat_lt
  show readUInt16 (head 0 n.toNat ++ rest) = _
  rw [readUInt16, readHead_head (by omega) (by omega)]
  simp [hn]

theorem reads_uint32 : Reads readUInt32 fun n => uint n.toNat := by
  intro n rest
  have hn := n.toNat_lt
  show readUInt32 (head 0 n.toNat ++ rest) = _
  rw [readUInt32, readHead_head (by omega) (by omega)]
  simp [hn]

def readByteString : Reader Bytes := fun input => do
  let (n, rest) ← readHead 2 input
  readBytes n rest

theorem readByteString_append {bs : Bytes} (hlength : bs.length < 2 ^ 64) (rest : Bytes) :
    readByteString (byteString bs ++ rest) = some (bs, rest) := by
  rw [readByteString, byteString, List.append_assoc, readHead_head (by omega) hlength]
  exact readBytes_append bs rest

def readText : Reader String := fun input => do
  let (n, rest) ← readHead 3 input
  let (bytes, rest) ← readBytes n rest
  let s ← String.fromUTF8? ⟨bytes.toArray⟩
  pure (s, rest)

theorem readText_append {s : String} (hlength : s.utf8ByteSize < 2 ^ 64) (rest : Bytes) :
    readText (text s ++ rest) = some (s, rest) := by
  have hbytes : s.toUTF8.data.toList.length = s.utf8ByteSize := by simp
  rw [readText, text, List.append_assoc, readHead_head (by omega) hlength]
  show (readBytes s.utf8ByteSize _ >>= _) = _
  rw [← hbytes, readBytes_append]
  show (String.fromUTF8? ⟨s.toUTF8.data.toList.toArray⟩ >>= _) = _
  have hvalid : (⟨s.toUTF8.data⟩ : ByteArray).IsValidUTF8 := s.isValidUTF8
  rw [Array.toArray_toList, String.fromUTF8?, dif_pos hvalid]
  rfl

def readItems {α : Type} (read : Reader α) : Nat → Reader (List α)
  | 0, input => some ([], input)
  | count + 1, input => do
      let (a, rest) ← read input
      let (as, rest) ← readItems read count rest
      pure (a :: as, rest)

theorem readItems_append {α : Type} {read : Reader α} {encode : α → Bytes} {as : List α}
    (h : ∀ a ∈ as, ∀ rest, read (encode a ++ rest) = some (a, rest)) (rest : Bytes) :
    readItems read as.length ((as.map encode).flatten ++ rest) = some (as, rest) := by
  induction as with
  | nil => rfl
  | cons a as ih =>
    rw [List.map_cons, List.flatten_cons, List.append_assoc, List.length_cons, readItems,
      h a List.mem_cons_self]
    show (readItems read as.length _ >>= _) = _
    rw [ih fun b hb => h b (List.mem_cons_of_mem a hb)]
    rfl

def readByteArr (n : Nat) : Reader (ByteArr n) := fun input => do
  let (count, rest) ← readHead 4 input
  let (bytes, rest) ← readItems readUInt8 count rest
  let array ← ByteArr.ofBytes? n bytes
  pure (array, rest)

theorem reads_byteArr {n : Nat} (hn : n < 2 ^ 64) :
    Reads (readByteArr n) fun bs => byteSeq bs.bytes := by
  intro bs rest
  have hlength := bs.length_eq
  show readByteArr n (array (bs.bytes.map fun b => uint b.toNat) ++ rest) = _
  rw [readByteArr, array, List.append_assoc, List.length_map,
    readHead_head (by omega) (by omega)]
  show (readItems readUInt8 bs.bytes.length _ >>= _) = _
  rw [readItems_append fun b _ => reads_uint8 b]
  show (ByteArr.ofBytes? n bs.bytes >>= _) = _
  rw [ofBytes?_bytes]
  rfl

/-! ### Structures -/

def readField {α : Type} (name : String) (read : Reader α) : Reader α := fun input => do
  let (key, rest) ← readText input
  if key = name then read rest else none

theorem readField_append {α : Type} {name : String} {read : Reader α} {input rest : Bytes} {a : α}
    (hname : name.utf8ByteSize < 2 ^ 64) (h : read input = some (a, rest)) :
    readField name read (text name ++ input) = some (a, rest) := by
  rw [readField, readText_append hname]
  simp [h]

def readMapHead (count : Nat) : Reader Unit := fun input => do
  let (n, rest) ← readHead 5 input
  if n = count then pure ((), rest) else none

theorem map_eq (fields : List (String × Bytes)) :
    map fields = head 5 fields.length ++
      fields.foldr (fun field tail => text field.1 ++ (field.2 ++ tail)) [] := by
  rw [map]
  congr 1
  induction fields with
  | nil => rfl
  | cons field fields ih =>
    rw [List.map_cons, List.flatten_cons, ih, List.append_assoc]
    rfl

theorem readMapHead_append {count : Nat} (hcount : count < 2 ^ 64) (rest : Bytes) :
    readMapHead count (head 5 count ++ rest) = some ((), rest) := by
  rw [readMapHead, readHead_head (by omega) hcount]
  simp

/-! ### Codecs -/

/-- A writer with a reader that returns what was written, of the values the writer is for. -/
structure Codec (α : Type) where
  Valid : α → Prop
  write : α → Bytes
  read : Reader α
  reads : ∀ a, Valid a → ∀ rest, read (write a ++ rest) = some (a, rest)

namespace Codec

variable {α β : Type}

def ofReads {read : Reader α} {encode : α → Bytes} (h : Reads read encode) : Codec α :=
  ⟨fun _ => True, encode, read, fun a _ => h a⟩

def via (c : Codec α) (fwd : β → α) (back : α → Option β) (h : ∀ b, back (fwd b) = some b) :
    Codec β where
  Valid b := c.Valid (fwd b)
  write b := c.write (fwd b)
  read input := do
    let (a, rest) ← c.read input
    let b ← back a
    pure (b, rest)
  reads b hb rest := by simp [c.reads _ hb, h]

def below (bound : Nat) (hbound : bound ≤ 2 ^ 64) : Codec Nat where
  Valid n := n < bound
  write := uint
  read := readHead 0
  reads n hn rest := readHead_head (by omega) (by omega) rest

def int64 : Codec Int where
  Valid n := -2 ^ 63 ≤ n ∧ n < 2 ^ 63
  write := int
  read input :=
    match readHead 0 input with
    | some (n, rest) => some (n, rest)
    | none => (readHead 1 input).map fun (n, rest) => (-1 - n, rest)
  reads n hn rest := by
    unfold int
    split_ifs with hpos
    · rw [readHead_head (by omega) (by omega)]
      show some ((n.toNat : Int), rest) = _
      rw [Int.toNat_of_nonneg hpos]
    · have hother : readHead 0 (head 1 (-1 - n).toNat ++ rest) = none := by
        have hcode := headCode_lt (-1 - n).toNat
        rw [head_eq, List.cons_append, readHead, UInt8.toNat_ofNat', if_pos (by omega)]
      rw [hother, readHead_head (by omega) (by omega)]
      simp only [Option.map_some, Option.some.injEq, Prod.mk.injEq, and_true]
      omega

def string : Codec String where
  Valid s := s.utf8ByteSize < 2 ^ 64
  write := text
  read := readText
  reads _ hs := readText_append hs

def list (c : Codec α) : Codec (List α) where
  Valid as := as.length < 2 ^ 64 ∧ ∀ a ∈ as, c.Valid a
  write as := array (as.map c.write)
  read input := do
    let (count, rest) ← readHead 4 input
    readItems c.read count rest
  reads as has rest := by
    rw [array, List.append_assoc, List.length_map, readHead_head (by decide) has.1]
    exact readItems_append (fun a ha => c.reads a (has.2 a ha)) rest

def done : Codec Unit :=
  ⟨fun _ => True, fun _ => [], fun input => some ((), input), fun _ _ _ => rfl⟩

def field (name : String) (hname : name.utf8ByteSize < 2 ^ 64) (c : Codec α) (d : Codec β) :
    Codec (α × β) where
  Valid p := c.Valid p.1 ∧ d.Valid p.2
  write p := text name ++ c.write p.1 ++ d.write p.2
  read input := do
    let (a, rest) ← readField name c.read input
    let (b, rest) ← d.read rest
    pure ((a, b), rest)
  reads p hp rest := by
    have hfirst := readField_append hname (c.reads _ hp.1 (d.write p.2 ++ rest))
    simp only [List.append_assoc, hfirst, Option.bind_eq_bind, Option.bind_some,
      d.reads _ hp.2 rest]
    rfl

def fields (count : Nat) (hcount : count < 2 ^ 64) (c : Codec α) : Codec α where
  Valid := c.Valid
  write a := head 5 count ++ c.write a
  read input := do
    let (_, rest) ← readMapHead count input
    c.read rest
  reads a ha rest := by
    rw [List.append_assoc, readMapHead_append hcount]
    exact c.reads a ha rest

end Codec

end Skattr.Lib.Cbor

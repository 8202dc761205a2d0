import Skattr.Core.Attachment.Chunker
import Skattr.Lib.Table

/-!
# Receiving chunks on the direct lane

`ChunkRx` is what the actor of a peer remembers of the attachment that it fetches: the chunks that
it has not asked for, the requests that are in flight and the number of chunks that have arrived. It
is read from the bitmap once, when the fetch starts. `ChunkRx.Counted` is what its operations keep:
of a manifest with distinct indices each chunk has arrived or is outstanding, and no chunk is both.
-/

namespace Skattr.Core.Delivery

open Lib

def CHUNK_WINDOW : Nat := 8

def CHUNK_RETRY_BUDGET : Nat := 3

def CHUNK_REQUEST_TIMEOUT : Nat := 30000

/-- Reduce the file name of a manifest to what is shown with the received file. -/
def sanitizeFilename (name : String) : String :=
  let base := name.toList.rtakeWhile (!isSeparator ·)
  let cleaned := String.ofList
    (base.filter fun c => !isControl c && !isBidiOrFormatControl c && !isSeparator c)
  let trimmed := ((trim cleaned).toList.dropWhile (· = '.')).rdropWhile (· = '.')
  String.ofList ((if trimmed.isEmpty then "file".toList else trimmed).take 200)

/-- What the actor does after a bad chunk or a timeout. -/
inductive ChunkAction where
  | request (indices : List UInt32)
  | fail
  deriving DecidableEq

structure InFlight where
  attempts : Nat
  sentAt : Nat
  deriving DecidableEq

structure ChunkRx where
  manifest : AttachmentManifest
  needed : List UInt32
  inflight : Table UInt32 InFlight
  received : Nat
  deriving DecidableEq

namespace ChunkRx

def attachmentId (rx : ChunkRx) : AttachmentId := rx.manifest.attachmentId

def total (rx : ChunkRx) : Nat := rx.manifest.chunks.length

def new (manifest : AttachmentManifest) (alreadyReceived : List UInt32) : ChunkRx :=
  let needed := (manifest.chunks.map ChunkRef.index).filter fun i => !alreadyReceived.contains i
  ⟨manifest, needed, .empty, manifest.chunks.length - needed.length⟩

/-- Move needed chunks into the window until it is full; the first component is what was moved. -/
def fillWindow (now : Nat) : List UInt32 → Table UInt32 InFlight →
    List UInt32 × List UInt32 × Table UInt32 InFlight
  | [], inflight => ([], [], inflight)
  | index :: needed, inflight =>
    if inflight.keys.length < CHUNK_WINDOW then
      let (out, rest, inflight) := fillWindow now needed (inflight.put index ⟨1, now⟩)
      (index :: out, rest, inflight)
    else ([], index :: needed, inflight)

def nextRequests (now : Nat) (rx : ChunkRx) : List UInt32 × ChunkRx :=
  let (out, needed, inflight) := fillWindow now rx.needed rx.inflight
  (out, { rx with needed := needed, inflight := inflight })

def verify (crypto : ChunkCrypto) (rx : ChunkRx) (index : UInt32) (ciphertext : Bytes) : Bool :=
  match rx.manifest.chunks.find? fun chunk => chunk.index = index with
  | none => false
  | some chunk => crypto.sha256 ciphertext = chunk.ciphertextHash

def onReceived (rx : ChunkRx) (index : UInt32) : ChunkRx :=
  if index ∈ rx.inflight.keys then
    { rx with inflight := rx.inflight.delete index, received := rx.received + 1 }
  else rx

def onBad (now : Nat) (rx : ChunkRx) (index : UInt32) : ChunkAction × ChunkRx :=
  match rx.inflight.get index with
  | some request =>
    if request.attempts < CHUNK_RETRY_BUDGET then
      (.request [index], { rx with
        inflight := rx.inflight.modify index fun request => ⟨request.attempts + 1, now⟩ })
    else (.fail, rx)
  | none => (.request [], rx)

/-- Ask again for the chunks that are overdue, unless the budget of one of them is spent. -/
def timedOut (now : Nat) (rx : ChunkRx) : ChunkAction × ChunkRx :=
  let late := rx.inflight.rows.filter fun row => CHUNK_REQUEST_TIMEOUT ≤ now - row.2.sentAt
  if late.any fun row => CHUNK_RETRY_BUDGET ≤ row.2.attempts then (.fail, rx)
  else
    let indices := late.map Prod.fst
    (.request indices, { rx with
      inflight := indices.foldl (fun inflight index =>
        inflight.modify index fun request => ⟨request.attempts + 1, now⟩) rx.inflight })

def reissue (rx : ChunkRx) : List UInt32 := rx.inflight.keys

def unsentOne (rx : ChunkRx) (index : UInt32) : ChunkRx :=
  if index ∈ rx.inflight.keys then
    { rx with inflight := rx.inflight.delete index, needed := index :: rx.needed }
  else rx

def unsent (rx : ChunkRx) (indices : List UInt32) : ChunkRx := indices.reverse.foldl unsentOne rx

def isComplete (rx : ChunkRx) : Bool := rx.total ≤ rx.received

/-! ### What the operations keep -/

def outstanding (rx : ChunkRx) : List UInt32 := rx.needed ++ rx.inflight.keys

/-- No chunk is outstanding twice, and every chunk has arrived or is outstanding. -/
structure Counted (rx : ChunkRx) : Prop where
  nodup : rx.outstanding.Nodup
  count : rx.received + rx.outstanding.length = rx.total

variable {rx other : ChunkRx} {manifest : AttachmentManifest} {index : UInt32} (now : Nat)

theorem new_count (manifest : AttachmentManifest) (alreadyReceived : List UInt32) :
    (ChunkRx.new manifest alreadyReceived).received +
      (ChunkRx.new manifest alreadyReceived).outstanding.length = manifest.chunks.length := by
  show manifest.chunks.length - (List.filter _ _).length + (List.filter _ _ ++ []).length =
    manifest.chunks.length
  rw [List.append_nil]
  have hle := List.length_filter_le (fun i => !alreadyReceived.contains i)
    (manifest.chunks.map ChunkRef.index)
  rw [List.length_map] at hle
  omega

theorem Counted.of_missing {alreadyReceived : List UInt32}
    (hdistinct : (ChunkRx.new manifest alreadyReceived).needed.Nodup) :
    (ChunkRx.new manifest alreadyReceived).Counted := by
  refine ⟨?_, new_count manifest alreadyReceived⟩
  show (_ ++ []).Nodup
  rw [List.append_nil]
  exact hdistinct

theorem Counted.new (alreadyReceived : List UInt32)
    (hdistinct : (manifest.chunks.map ChunkRef.index).Nodup) :
    (ChunkRx.new manifest alreadyReceived).Counted :=
  .of_missing (hdistinct.filter _)

theorem Counted.isComplete (h : rx.Counted) (hneeded : rx.needed = [])
    (hinflight : rx.inflight.keys = [index]) : (rx.onReceived index).isComplete = true := by
  have hmem : index ∈ rx.inflight.keys := by
    rw [hinflight]
    exact List.mem_cons_self
  have hcount := h.count
  rw [outstanding, hneeded, hinflight] at hcount
  rw [ChunkRx.onReceived, if_pos hmem]
  exact decide_eq_true (Nat.le_of_eq hcount.symm)

/-- The same fetch at a later time. -/
structure Continues (rx other : ChunkRx) : Prop where
  manifest : other.manifest = rx.manifest
  counted : rx.Counted → other.Counted

theorem Continues.refl (rx : ChunkRx) : rx.Continues rx := ⟨rfl, fun h => h⟩

theorem Continues.trans {last : ChunkRx} (h : rx.Continues other) (hlast : other.Continues last) :
    rx.Continues last :=
  ⟨hlast.manifest.trans h.manifest, fun hcounted => hlast.counted (h.counted hcounted)⟩

theorem Continues.of_perm (hmanifest : other.manifest = rx.manifest)
    (hreceived : other.received = rx.received)
    (hperm : rx.outstanding.Nodup → other.outstanding.Perm rx.outstanding) :
    rx.Continues other := by
  refine ⟨hmanifest, fun h => ⟨(hperm h.nodup).nodup_iff.mpr h.nodup, ?_⟩⟩
  rw [hreceived, (hperm h.nodup).length_eq, total, hmanifest]
  exact h.count

theorem fillWindow_perm {needed : List UInt32} {inflight : Table UInt32 InFlight}
    (h : (needed ++ inflight.keys).Nodup) :
    ((fillWindow now needed inflight).2.1 ++ (fillWindow now needed inflight).2.2.keys).Perm
      (needed ++ inflight.keys) := by
  induction needed generalizing inflight with
  | nil => exact .refl _
  | cons index needed ih =>
    rw [fillWindow]
    split
    · have hfresh : index ∉ inflight.keys := fun hmem =>
        (List.nodup_cons.mp h).1 (List.mem_append_right _ hmem)
      have hmoved : (needed ++ (inflight.put index ⟨1, now⟩).keys).Perm
          (index :: needed ++ inflight.keys) := by
        rw [Table.keys_put hfresh, ← List.append_assoc]
        exact List.perm_append_singleton _ _
      exact (ih (hmoved.nodup_iff.mpr h)).trans hmoved
    · exact .refl _

theorem nextRequests_continues (rx : ChunkRx) : rx.Continues (rx.nextRequests now).2 :=
  .of_perm rfl rfl fun h => fillWindow_perm now h

theorem onReceived_outstanding (h : index ∈ rx.inflight.keys) :
    (index :: (rx.onReceived index).outstanding).Perm rx.outstanding := by
  rw [onReceived, if_pos h]
  exact List.perm_middle.symm.trans ((Table.keys_perm_delete h).append_left rx.needed)

theorem onReceived_continues (rx : ChunkRx) (index : UInt32) :
    rx.Continues (rx.onReceived index) := by
  by_cases hmem : index ∈ rx.inflight.keys
  · have hperm := onReceived_outstanding hmem
    refine ⟨by rw [onReceived, if_pos hmem], fun h =>
      ⟨(List.nodup_cons.mp (hperm.nodup_iff.mpr h.nodup)).2, ?_⟩⟩
    have hreceived : (rx.onReceived index).received = rx.received + 1 := by
      rw [onReceived, if_pos hmem]
    have htotal : (rx.onReceived index).total = rx.total := by
      rw [onReceived, if_pos hmem]
      rfl
    have hlength := hperm.length_eq
    have hcount := h.count
    rw [List.length_cons] at hlength
    omega
  · rw [onReceived, if_neg hmem]
    exact .refl rx

theorem onBad_continues (rx : ChunkRx) (index : UInt32) : rx.Continues (rx.onBad now index).2 := by
  unfold onBad
  split
  · split
    · refine .of_perm rfl rfl fun _ => ?_
      show (rx.needed ++ (rx.inflight.modify index _).keys).Perm (rx.needed ++ rx.inflight.keys)
      rw [Table.keys_modify]
    · exact .refl rx
  · exact .refl rx

theorem keys_raise (indices : List UInt32) (inflight : Table UInt32 InFlight) :
    (indices.foldl (fun inflight index => inflight.modify index fun request =>
      ⟨request.attempts + 1, now⟩) inflight).keys = inflight.keys := by
  induction indices generalizing inflight with
  | nil => rfl
  | cons index indices ih => rw [List.foldl_cons, ih, Table.keys_modify]

theorem timedOut_continues (rx : ChunkRx) : rx.Continues (rx.timedOut now).2 := by
  unfold timedOut
  dsimp only
  split
  · exact .refl rx
  · refine .of_perm rfl rfl fun _ => ?_
    show (rx.needed ++ (List.foldl _ rx.inflight _).keys).Perm (rx.needed ++ rx.inflight.keys)
    rw [keys_raise]

theorem unsent_perm (rx : ChunkRx) (indices : List UInt32) :
    (rx.unsent indices).manifest = rx.manifest ∧ (rx.unsent indices).received = rx.received ∧
      (rx.unsent indices).outstanding.Perm rx.outstanding := by
  unfold unsent
  generalize indices.reverse = indices
  induction indices generalizing rx with
  | nil => exact ⟨rfl, rfl, .refl _⟩
  | cons index indices ih =>
    obtain ⟨hmanifest, hreceived, hperm⟩ := ih (rx.unsentOne index)
    rw [List.foldl_cons]
    by_cases hmem : index ∈ rx.inflight.keys
    · have hone : rx.unsentOne index = { rx with
          inflight := rx.inflight.delete index, needed := index :: rx.needed } := if_pos hmem
      rw [hone] at hmanifest hreceived hperm ⊢
      refine ⟨hmanifest, hreceived, hperm.trans ?_⟩
      exact List.perm_middle.symm.trans ((Table.keys_perm_delete hmem).append_left rx.needed)
    · have hone : rx.unsentOne index = rx := if_neg hmem
      rw [hone] at hmanifest hreceived hperm ⊢
      exact ⟨hmanifest, hreceived, hperm⟩

theorem unsent_continues (rx : ChunkRx) (indices : List UInt32) :
    rx.Continues (rx.unsent indices) := by
  obtain ⟨hmanifest, hreceived, hperm⟩ := rx.unsent_perm indices
  exact .of_perm hmanifest hreceived fun _ => hperm

end ChunkRx

end Skattr.Core.Delivery

import Skattr.Core.Delivery.ChunkTransfer
import Skattr.Lib.Run
import Mathlib.Data.List.Count

/-!
# The request window of a fetch

A `Pull` is a fetch together with a record of the requests that it made and the chunks that it
took, in their order. Its events are what the actor of the peer does with `ChunkRx` on one
connection: fill the window, take a `Chunk` frame and look for overdue requests. The law behind the
discipline of the window is that the outstanding chunks and the chunks at hand are together a
permutation of the indices of the manifest. The budget is carried by `ChunkRx.spent`, the attempts
that a chunk has used up, which every request of the chunk raises.
-/

namespace Skattr.Core

def AttachmentManifest.indices (manifest : AttachmentManifest) : List UInt32 :=
  manifest.chunks.map ChunkRef.index

namespace Delivery

open Lib

/-- A request that was made or a chunk that was taken. -/
inductive PullNote where
  | requested (index : UInt32)
  | received (index : UInt32) (ciphertext : Bytes)
  deriving DecidableEq

def PullNote.chunk : PullNote → Option UInt32
  | .received index _ => some index
  | .requested _ => none

structure Pull where
  rx : ChunkRx
  failed : Bool
  log : List PullNote
  deriving DecidableEq

inductive PullEvent where
  | nextRequests (now : Nat)
  | chunk (now : Nat) (index : UInt32) (ciphertext : Bytes)
  | timedOut (now : Nat)
  deriving DecidableEq

namespace Pull

def start (manifest : AttachmentManifest) (alreadyReceived : List UInt32) : Pull :=
  ⟨.new manifest alreadyReceived, false, []⟩

def request (pull : Pull) (indices : List UInt32) (rx : ChunkRx) : Pull :=
  { pull with rx := rx, log := pull.log ++ indices.map .requested }

def act (pull : Pull) : ChunkAction × ChunkRx → Pull
  | (.request indices, rx) => pull.request indices rx
  | (.fail, _) => { pull with failed := true }

/-- Take a chunk with the right hash; one that is not in flight is ignored. -/
def accept (pull : Pull) (index : UInt32) (ciphertext : Bytes) : Pull :=
  if index ∈ pull.rx.inflight.keys then
    { pull with
      rx := pull.rx.onReceived index
      log := pull.log ++ [.received index ciphertext] }
  else pull

/-- One event. A failed fetch is gone, and nothing happens to it any more. -/
def step (crypto : ChunkCrypto) (pull : Pull) (event : PullEvent) : Pull :=
  if pull.failed then pull
  else
    match event with
    | .nextRequests now => pull.request (pull.rx.nextRequests now).1 (pull.rx.nextRequests now).2
    | .chunk now index ciphertext =>
      if pull.rx.verify crypto index ciphertext then pull.accept index ciphertext
      else pull.act (pull.rx.onBad now index)
    | .timedOut now => pull.act (pull.rx.timedOut now)

def run (crypto : ChunkCrypto) (manifest : AttachmentManifest) (alreadyReceived : List UInt32)
    (events : List PullEvent) : Pull :=
  events.foldl (step crypto) (start manifest alreadyReceived)

def taken (pull : Pull) : List UInt32 := pull.log.filterMap PullNote.chunk

def atHand (alreadyReceived : List UInt32) (pull : Pull) : List UInt32 :=
  pull.rx.manifest.indices.filter alreadyReceived.contains ++ pull.taken

def requests (pull : Pull) (index : UInt32) : Nat := pull.log.count (.requested index)

end Pull

/-! ### What the operations of a fetch do to its requests -/

namespace ChunkRx

/-- The attempts of a chunk that are used up: those of its request in flight, none for a chunk that
was not asked for, and all of them for a chunk that is at hand. -/
def spent (rx : ChunkRx) (index : UInt32) : Nat :=
  match rx.inflight.get index with
  | some request => request.attempts
  | none => if index ∈ rx.needed then 0 else CHUNK_RETRY_BUDGET

variable {index : UInt32} {inflight : Table UInt32 InFlight}

theorem spent_of_get {rx : ChunkRx} {request : InFlight} (h : rx.inflight.get index = some request)
    :
    rx.spent index = request.attempts := by
  rw [spent, h]

theorem spent_of_none {rx : ChunkRx} (h : rx.inflight.get index = none) :
    rx.spent index = if index ∈ rx.needed then 0 else CHUNK_RETRY_BUDGET := by
  rw [spent, h]

def Within (rx : ChunkRx) : Prop := ∀ index, rx.spent index ≤ CHUNK_RETRY_BUDGET

/-- An operation that asks for outstanding chunks whose budget is not used up, and charges each
request to its chunk. -/
structure Asks (rx next : ChunkRx) (asked : List UInt32) : Prop where
  manifest : next.manifest = rx.manifest
  received : next.received = rx.received
  outstanding : next.outstanding.Perm rx.outstanding
  window : rx.inflight.keys.length ≤ CHUNK_WINDOW → next.inflight.keys.length ≤ CHUNK_WINDOW
  nodup : asked.Nodup
  affordable : ∀ index ∈ asked, index ∈ rx.outstanding ∧ rx.spent index < CHUNK_RETRY_BUDGET
  charged : ∀ index, next.spent index = rx.spent index + asked.count index

variable {rx next : ChunkRx} {asked : List UInt32} (now : Nat)

theorem Asks.within (h : Asks rx next asked) (hwithin : rx.Within) : next.Within := by
  intro index
  rw [h.charged]
  by_cases hmem : index ∈ asked
  · rw [List.count_eq_one_of_mem h.nodup hmem]
    exact (h.affordable index hmem).2
  · rw [List.count_eq_zero_of_not_mem hmem]
    exact hwithin index

theorem Asks.refl (rx : ChunkRx) : Asks rx rx [] :=
  ⟨rfl, rfl, .refl _, fun h => h, List.nodup_nil, fun _ h => absurd h List.not_mem_nil,
    fun _ => rfl⟩

theorem Asks.again (hkeys : inflight.keys = rx.inflight.keys) (hnodup : asked.Nodup)
    (haffordable : ∀ index ∈ asked, ∃ request, rx.inflight.get index = some request ∧
      request.attempts < CHUNK_RETRY_BUDGET)
    (hattempts : ∀ index, (inflight.get index).map InFlight.attempts = (rx.inflight.get index).map
      fun request => request.attempts + asked.count index) :
    Asks rx { rx with inflight := inflight } asked := by
  refine ⟨rfl, rfl, ?_, ?_, hnodup, fun index hmem => ?_, fun index => ?_⟩
  · show (rx.needed ++ inflight.keys).Perm (rx.needed ++ rx.inflight.keys)
    rw [hkeys]
  · show rx.inflight.keys.length ≤ CHUNK_WINDOW → inflight.keys.length ≤ CHUNK_WINDOW
    rw [hkeys]
    exact id
  · obtain ⟨request, hget, hlt⟩ := haffordable index hmem
    refine ⟨List.mem_append_right _ ?_, spent_of_get hget ▸ hlt⟩
    by_contra hnot
    rw [Table.get_eq_none_iff.mpr hnot] at hget
    cases hget
  · have hsame := hattempts index
    cases hget : rx.inflight.get index with
    | none =>
      rw [hget, Option.map_none, Option.map_eq_none_iff] at hsame
      have hnot : index ∉ asked := fun hmem => by
        obtain ⟨request, hsome, -⟩ := haffordable index hmem
        rw [hget] at hsome
        cases hsome
      rw [spent_of_none hget, List.count_eq_zero_of_not_mem hnot]
      exact spent_of_none hsame
    | some request =>
      rw [hget, Option.map_some, Option.map_eq_some_iff] at hsame
      obtain ⟨raised, hraised, hattempts⟩ := hsame
      rw [spent_of_get hget, ← hattempts]
      exact spent_of_get hraised

/-- What filling the window moves. -/
structure Filled (now : Nat) (needed : List UInt32) (inflight : Table UInt32 InFlight)
    (filled : List UInt32 × List UInt32 × Table UInt32 InFlight) : Prop where
  needed : needed = filled.1 ++ filled.2.1
  get : ∀ index, filled.2.2.get index =
    if index ∈ filled.1 then some ⟨1, now⟩ else inflight.get index
  window : inflight.keys.length ≤ CHUNK_WINDOW → filled.2.2.keys.length ≤ CHUNK_WINDOW

theorem fillWindow_filled {needed : List UInt32} (h : (needed ++ inflight.keys).Nodup) :
    Filled now needed inflight (fillWindow now needed inflight) := by
  induction needed generalizing inflight with
  | nil => exact ⟨rfl, fun _ => rfl, id⟩
  | cons index needed ih =>
    obtain ⟨hfresh, hrest⟩ := List.nodup_cons.mp h
    have hnew : index ∉ inflight.keys := fun hmem => hfresh (List.mem_append_right _ hmem)
    have hkeys := Table.keys_put hnew (⟨1, now⟩ : InFlight)
    rw [fillWindow]
    split
    · next hroom =>
      have hmoved : (needed ++ (inflight.put index ⟨1, now⟩).keys).Perm
          (index :: needed ++ inflight.keys) := by
        rw [hkeys, ← List.append_assoc]
        exact List.perm_append_singleton _ _
      have hfilled := ih (hmoved.nodup_iff.mpr h)
      refine ⟨congrArg (index :: ·) hfilled.needed, fun other => ?_, fun _ => ?_⟩
      · rw [hfilled.get other]
        by_cases hother : other = index
        · subst hother
          rw [Table.get_put_self, ite_self, if_pos List.mem_cons_self]
        · rw [Table.get_put_ne _ _ hother]
          simp only [List.mem_cons, hother, false_or]
      · refine hfilled.window ?_
        rw [hkeys, List.length_append]
        exact hroom
    · exact ⟨rfl, fun _ => (if_neg List.not_mem_nil).symm, id⟩

theorem nextRequests_asks (h : rx.outstanding.Nodup) :
    Asks rx (rx.nextRequests now).2 (rx.nextRequests now).1 := by
  have hfilled := fillWindow_filled now h
  set filled := fillWindow now rx.needed rx.inflight with hdef
  have hneeded : (filled.1 ++ filled.2.1).Nodup := hfilled.needed ▸ (List.nodup_append.mp h).1
  have hfree (index : UInt32) (hmem : index ∈ rx.needed) : rx.inflight.get index = none :=
    Table.get_eq_none_iff.mpr fun hkey => (List.nodup_append.mp h).2.2 index hmem index hkey rfl
  have hasked (index : UInt32) (hmem : index ∈ filled.1) : index ∈ rx.needed :=
    hfilled.needed ▸ List.mem_append_left _ hmem
  refine ⟨rfl, rfl, fillWindow_perm now h, hfilled.window, (List.nodup_append.mp hneeded).1,
    fun index hmem => ?_, fun index => ?_⟩
  · refine ⟨List.mem_append_left _ (hasked index hmem), ?_⟩
    rw [spent_of_none (hfree index (hasked index hmem)), if_pos (hasked index hmem)]
    decide
  · show spent { rx with needed := filled.2.1, inflight := filled.2.2 } index =
      rx.spent index + filled.1.count index
    have hget := hfilled.get index
    by_cases hmem : index ∈ filled.1
    · rw [if_pos hmem] at hget
      rw [spent_of_none (hfree index (hasked index hmem)), if_pos (hasked index hmem),
        List.count_eq_one_of_mem (List.nodup_append.mp hneeded).1 hmem, spent, hget]
    · rw [if_neg hmem] at hget
      have hsame : index ∈ filled.2.1 ↔ index ∈ rx.needed := by
        rw [hfilled.needed, List.mem_append]
        exact (or_iff_right hmem).symm
      rw [List.count_eq_zero_of_not_mem hmem, Nat.add_zero, spent, spent, hget]
      simp only [hsame]

theorem onBad_asks (rx : ChunkRx) (index : UInt32) :
    rx.onBad now index = (.fail, rx) ∨
      ∃ asked next, rx.onBad now index = (.request asked, next) ∧ Asks rx next asked := by
  rw [onBad]
  cases hget : rx.inflight.get index with
  | none => exact .inr ⟨[], rx, rfl, .refl rx⟩
  | some request =>
    dsimp only
    split
    · next hlt =>
      refine .inr ⟨[index], _, rfl, .again (Table.keys_modify _ _ _) (List.nodup_singleton _)
        (fun other hmem => ?_) fun other => ?_⟩
      · rw [List.mem_singleton.mp hmem]
        exact ⟨request, hget, hlt⟩
      · by_cases hother : other = index
        · subst hother
          rw [Table.get_modify_self, hget, List.count_singleton_self]
          rfl
        · rw [Table.get_modify_ne _ _ hother,
            List.count_eq_zero_of_not_mem fun hmem => hother (List.mem_singleton.mp hmem)]
          rfl
    · exact .inl rfl

theorem attempts_raise (indices : List UInt32) (inflight : Table UInt32 InFlight) (index : UInt32) :
    ((indices.foldl (fun inflight index => inflight.modify index fun request =>
        ⟨request.attempts + 1, now⟩) inflight).get index).map InFlight.attempts =
      (inflight.get index).map fun request => request.attempts + indices.count index := by
  induction indices generalizing inflight with
  | nil => rfl
  | cons first indices ih =>
    rw [List.foldl_cons, ih, Table.get_modify]
    by_cases hfirst : index = first
    · subst hfirst
      rw [if_pos rfl, Option.map_map, List.count_cons_self]
      refine congrArg (Option.map · _) (funext fun request => ?_)
      show request.attempts + 1 + _ = request.attempts + (_ + 1)
      omega
    · rw [if_neg hfirst, List.count_cons_of_ne (Ne.symm hfirst)]

theorem timedOut_asks (rx : ChunkRx) :
    rx.timedOut now = (.fail, rx) ∨
      ∃ asked next, rx.timedOut now = (.request asked, next) ∧ Asks rx next asked := by
  set late := rx.inflight.rows.filter fun row => CHUNK_REQUEST_TIMEOUT ≤ now - row.2.sentAt
    with hlate
  by_cases hspent : late.any fun row => CHUNK_RETRY_BUDGET ≤ row.2.attempts
  · refine .inl ?_
    rw [timedOut, if_pos hspent]
  · refine .inr ⟨late.map Prod.fst, _, by rw [timedOut, if_neg hspent], ?_⟩
    refine .again (keys_raise now _ _) ?_ (fun index hmem => ?_)
      (attempts_raise now _ rx.inflight)
    · exact (List.filter_sublist.map Prod.fst).nodup rx.inflight.nodup
    · obtain ⟨row, hrow, rfl⟩ := List.mem_map.mp hmem
      refine ⟨row.2, Table.get_eq_some_iff.mpr (List.mem_filter.mp hrow).1, ?_⟩
      by_contra hnot
      refine hspent (List.any_eq_true.mpr ⟨row, hrow, ?_⟩)
      exact decide_eq_true (Nat.le_of_not_lt hnot)

theorem onReceived_window (h : rx.inflight.keys.length ≤ CHUNK_WINDOW) :
    (rx.onReceived index).inflight.keys.length ≤ CHUNK_WINDOW := by
  rw [onReceived]
  split
  · exact (List.filter_sublist.map Prod.fst).length_le.trans h
  · exact h

theorem onReceived_spent (h : index ∈ rx.inflight.keys) (hnodup : rx.outstanding.Nodup)
    (other : UInt32) :
    (rx.onReceived index).spent other =
      if other = index then CHUNK_RETRY_BUDGET else rx.spent other := by
  rw [onReceived, if_pos h]
  by_cases hsame : other = index
  · subst hsame
    have hneeded : other ∉ rx.needed := fun hneeded =>
      (List.nodup_append.mp hnodup).2.2 other hneeded other h rfl
    rw [spent, Table.get_delete_self, if_pos rfl]
    exact if_neg hneeded
  · rw [spent, Table.get_delete_ne _ hsame, if_neg hsame, spent]

end ChunkRx

/-! ### What a fetch keeps -/

namespace Pull

variable {crypto : ChunkCrypto} {manifest : AttachmentManifest} {alreadyReceived : List UInt32}
variable {pull next : Pull} {asked : List UInt32}

/-- The earlier note allows the later one: a chunk that was taken is not requested. -/
def Allows : PullNote → PullNote → Prop
  | .received index _, .requested other => index ≠ other
  | _, _ => True

/-- What holds after every event. -/
structure Tracked (crypto : ChunkCrypto) (manifest : AttachmentManifest)
    (alreadyReceived : List UInt32) (pull : Pull) : Prop where
  partition : (pull.rx.outstanding ++ pull.atHand alreadyReceived).Perm manifest.indices
  counted : pull.rx.Counted
  window : pull.rx.inflight.keys.length ≤ CHUNK_WINDOW
  bitmap : ∀ index ∈ alreadyReceived, .requested index ∉ pull.log
  ordered : pull.log.Pairwise Allows
  within : pull.rx.Within
  budget : ∀ index, pull.requests index ≤ pull.rx.spent index
  matching : ∀ chunk ∈ manifest.chunks, ∀ ciphertext,
    .received chunk.index ciphertext ∈ pull.log → crypto.sha256 ciphertext = chunk.ciphertextHash
  fetched : pull.rx.manifest = manifest

/-- A step that takes no chunk: it asks for outstanding chunks, within their means. -/
structure Moves (pull next : Pull) (asked : List UInt32) : Prop where
  log : next.log = pull.log ++ asked.map .requested
  asks : ChunkRx.Asks pull.rx next.rx asked

/-- A step that takes a chunk in flight whose hash is right. -/
structure Takes (crypto : ChunkCrypto) (pull next : Pull) (index : UInt32) (ciphertext : Bytes) :
    Prop where
  inflight : index ∈ pull.rx.inflight.keys
  verified : pull.rx.verify crypto index ciphertext = true
  next : next = { pull with
    rx := pull.rx.onReceived index, log := pull.log ++ [.received index ciphertext] }

theorem Moves.same (hrx : next.rx = pull.rx) (hlog : next.log = pull.log) : Moves pull next [] :=
  ⟨by simp [hlog], hrx ▸ .refl _⟩

theorem act_moves {action : ChunkAction × ChunkRx}
    (haction : action = (.fail, pull.rx) ∨
      ∃ asked next, action = (.request asked, next) ∧ ChunkRx.Asks pull.rx next asked) :
    ∃ asked, Moves pull (pull.act action) asked := by
  rcases haction with rfl | ⟨asked, rx, rfl, hasks⟩
  · exact ⟨[], .same rfl rfl⟩
  · exact ⟨asked, rfl, hasks⟩

theorem step_cases (h : pull.rx.Counted) (event : PullEvent) :
    (∃ asked, Moves pull (pull.step crypto event) asked) ∨
      ∃ index ciphertext, Takes crypto pull (pull.step crypto event) index ciphertext := by
  unfold step
  split
  · exact .inl ⟨[], .same rfl rfl⟩
  · cases event with
    | nextRequests now => exact .inl ⟨_, rfl, ChunkRx.nextRequests_asks now h.nodup⟩
    | chunk now index ciphertext =>
      dsimp only
      split
      · next hverified =>
        rw [accept]
        split
        · next hmem => exact .inr ⟨index, ciphertext, hmem, hverified, rfl⟩
        · exact .inl ⟨[], .same rfl rfl⟩
      · exact .inl (act_moves (pull.rx.onBad_asks now index))
    | timedOut now => exact .inl (act_moves (pull.rx.timedOut_asks now))

theorem Tracked.start (crypto : ChunkCrypto) (alreadyReceived : List UInt32)
    (hdistinct : manifest.indices.Nodup) :
    (start manifest alreadyReceived).Tracked crypto manifest alreadyReceived := by
  refine ⟨?_, .new alreadyReceived hdistinct, Nat.zero_le _, fun _ _ => List.not_mem_nil, .nil,
    fun index => ?_, fun _ => Nat.zero_le _, fun _ _ _ hmem => absurd hmem List.not_mem_nil, rfl⟩
  · show (manifest.indices.filter (fun index => !alreadyReceived.contains index) ++ [] ++
      (manifest.indices.filter alreadyReceived.contains ++ [])).Perm manifest.indices
    rw [List.append_nil, List.append_nil]
    exact List.perm_append_comm.trans (List.filter_append_perm _ _)
  · rw [ChunkRx.spent_of_none rfl]
    split
    · exact Nat.zero_le _
    · exact Nat.le_refl _

theorem Moves.taken (h : Moves pull next asked) : next.taken = pull.taken := by
  have hnone : (asked.map PullNote.requested).filterMap PullNote.chunk = [] := by
    rw [List.filterMap_map]
    exact List.filterMap_eq_nil_iff.mpr fun _ _ => rfl
  rw [Pull.taken, h.log, List.filterMap_append, hnone, List.append_nil]
  rfl

variable {index : UInt32} {ciphertext : Bytes} {chunk : ChunkRef}

theorem mem_taken : index ∈ pull.taken ↔ ∃ ciphertext, .received index ciphertext ∈ pull.log := by
  rw [taken, List.mem_filterMap]
  constructor
  · rintro ⟨note, hnote, hchunk⟩
    cases note with
    | requested other => cases hchunk
    | received other ciphertext =>
      cases hchunk
      exact ⟨ciphertext, hnote⟩
  · rintro ⟨ciphertext, hnote⟩
    exact ⟨_, hnote, rfl⟩

theorem Tracked.disjoint (h : pull.Tracked crypto manifest alreadyReceived)
    (hdistinct : manifest.indices.Nodup) (hmem : index ∈ pull.rx.outstanding) :
    index ∉ alreadyReceived ∧ index ∉ pull.taken := by
  have hindex : index ∈ manifest.indices :=
    h.partition.mem_iff.mp (List.mem_append_left _ hmem)
  have hnot : index ∉ pull.atHand alreadyReceived := fun hat =>
    (List.nodup_append.mp (h.partition.nodup_iff.mpr hdistinct)).2.2 index hmem index hat rfl
  refine ⟨fun hbitmap => hnot (List.mem_append_left _ ?_), fun htaken =>
    hnot (List.mem_append_right _ htaken)⟩
  rw [h.fetched]
  exact List.mem_filter.mpr ⟨hindex, List.contains_iff_mem.mpr hbitmap⟩

theorem Tracked.moves (h : pull.Tracked crypto manifest alreadyReceived)
    (hdistinct : manifest.indices.Nodup) (hmoves : Moves pull next asked) :
    next.Tracked crypto manifest alreadyReceived := by
  have hasks := hmoves.asks
  have hatHand : next.atHand alreadyReceived = pull.atHand alreadyReceived := by
    rw [atHand, atHand, hmoves.taken, hasks.manifest]
  have hcontinues : pull.rx.Continues next.rx :=
    .of_perm hasks.manifest hasks.received fun _ => hasks.outstanding
  refine ⟨?_, hcontinues.counted h.counted, hasks.window h.window, fun index hbitmap => ?_, ?_,
    hasks.within h.within, fun index => ?_, fun chunk hchunk ciphertext hnote => ?_,
    hasks.manifest.trans h.fetched⟩
  · rw [hatHand]
    exact (hasks.outstanding.append_right _).trans h.partition
  · rw [hmoves.log, List.mem_append]
    rintro (hold | hnew)
    · exact h.bitmap index hbitmap hold
    · obtain ⟨other, hasked, hsame⟩ := List.mem_map.mp hnew
      cases hsame
      exact (h.disjoint hdistinct (hasks.affordable index hasked).1).1 hbitmap
  · rw [hmoves.log, List.pairwise_append]
    refine ⟨h.ordered, ?_, fun earlier hearlier later hlater => ?_⟩
    · rw [List.pairwise_map]
      exact List.pairwise_of_forall fun _ _ => trivial
    · obtain ⟨index, hasked, rfl⟩ := List.mem_map.mp hlater
      cases earlier with
      | requested other => trivial
      | received other ciphertext =>
        rintro rfl
        exact (h.disjoint hdistinct (hasks.affordable other hasked).1).2
          (mem_taken.mpr ⟨_, hearlier⟩)
  · have hcount : (asked.map PullNote.requested).count (.requested index) = asked.count index :=
      List.count_map_of_injective asked _ (fun _ _ hsame => PullNote.requested.inj hsame) index
    rw [requests, hmoves.log, List.count_append, hcount, hasks.charged]
    exact Nat.add_le_add_right (h.budget index) _
  · rw [hmoves.log, List.mem_append] at hnote
    rcases hnote with hold | hnew
    · exact h.matching chunk hchunk ciphertext hold
    · obtain ⟨other, -, hsame⟩ := List.mem_map.mp hnew
      cases hsame

theorem sha256_of_verify {rx : ChunkRx} (hdistinct : rx.manifest.indices.Nodup)
    (hchunk : chunk ∈ rx.manifest.chunks) (h : rx.verify crypto chunk.index ciphertext = true) :
    crypto.sha256 ciphertext = chunk.ciphertextHash := by
  rw [ChunkRx.verify] at h
  split at h
  · cases h
  · next found hfound =>
    have hindex := List.find?_some hfound
    have hsame : found = chunk := List.inj_on_of_nodup_map hdistinct
      (List.mem_of_find?_eq_some hfound) hchunk (of_decide_eq_true hindex)
    rw [← hsame]
    exact of_decide_eq_true h

theorem Tracked.takes (h : pull.Tracked crypto manifest alreadyReceived)
    (hdistinct : manifest.indices.Nodup) (htakes : Takes crypto pull next index ciphertext) :
    next.Tracked crypto manifest alreadyReceived := by
  obtain ⟨hmem, hverified, rfl⟩ := htakes
  have htaken : (pull.log ++ [PullNote.received index ciphertext]).filterMap PullNote.chunk =
      pull.taken ++ [index] := by
    rw [List.filterMap_append]
    rfl
  have hspent (other : UInt32) : pull.rx.spent other ≤ (pull.rx.onReceived index).spent other ∧
      (pull.rx.onReceived index).spent other ≤ CHUNK_RETRY_BUDGET := by
    have hother := h.within other
    rw [ChunkRx.onReceived_spent hmem h.counted.nodup]
    split
    · exact ⟨hother, Nat.le_refl _⟩
    · exact ⟨Nat.le_refl _, hother⟩
  refine ⟨?_, (pull.rx.onReceived_continues index).counted h.counted,
    ChunkRx.onReceived_window h.window, fun other hbitmap => ?_, ?_,
    fun other => (hspent other).2, fun other => ?_, fun chunk hchunk other hnote => ?_,
    ((pull.rx.onReceived_continues index).manifest).trans h.fetched⟩
  · -- the chunk moves from the outstanding ones to those at hand
    show ((pull.rx.onReceived index).outstanding ++
      ((pull.rx.onReceived index).manifest.indices.filter alreadyReceived.contains ++
        (pull.log ++ [PullNote.received index ciphertext]).filterMap PullNote.chunk)).Perm
      manifest.indices
    rw [htaken, (pull.rx.onReceived_continues index).manifest, ← List.append_assoc,
      ← List.append_assoc]
    refine (List.perm_append_singleton _ _).trans (List.Perm.trans ?_ h.partition)
    rw [atHand, ← List.append_assoc, ← List.cons_append, ← List.cons_append]
    exact ((ChunkRx.onReceived_outstanding hmem).append_right _).append_right _
  · rw [List.mem_append, List.mem_singleton]
    rintro (hold | hnew)
    · exact h.bitmap other hbitmap hold
    · cases hnew
  · refine List.pairwise_append.mpr ⟨h.ordered, List.pairwise_singleton _ _, ?_⟩
    intro earlier _ later hlater
    rw [List.mem_singleton.mp hlater]
    cases earlier <;> trivial
  · have hcount : [PullNote.received index ciphertext].count (.requested other) = 0 :=
      List.count_eq_zero_of_not_mem (by simp)
    rw [requests, List.count_append, hcount]
    exact (h.budget other).trans (hspent other).1
  · rw [List.mem_append, List.mem_singleton] at hnote
    rcases hnote with hold | hnew
    · exact h.matching chunk hchunk other hold
    · cases hnew
      rw [← h.fetched] at hdistinct hchunk
      exact sha256_of_verify hdistinct hchunk hverified

theorem Tracked.run (crypto : ChunkCrypto) (alreadyReceived : List UInt32)
    (hdistinct : manifest.indices.Nodup) (events : List PullEvent) :
    (run crypto manifest alreadyReceived events).Tracked crypto manifest alreadyReceived := by
  refine foldl_invariant (fun pull event h => ?_) events
    (Tracked.start crypto alreadyReceived hdistinct)
  rcases step_cases h.counted event with ⟨asked, hmoves⟩ | ⟨index, ciphertext, htakes⟩
  · exact h.moves hdistinct hmoves
  · exact h.takes hdistinct htakes

theorem Tracked.complete_iff (h : pull.Tracked crypto manifest alreadyReceived) :
    pull.rx.isComplete = true ↔ pull.rx.outstanding = [] := by
  have hcount := h.counted.count
  rw [ChunkRx.isComplete, decide_eq_true_iff, ← List.length_eq_zero_iff]
  omega

theorem Tracked.atHand_iff (h : pull.Tracked crypto manifest alreadyReceived)
    (hchunk : chunk ∈ manifest.chunks) :
    chunk.index ∈ pull.atHand alreadyReceived ↔ chunk.index ∈ alreadyReceived ∨
      ∃ ciphertext, .received chunk.index ciphertext ∈ pull.log ∧
        crypto.sha256 ciphertext = chunk.ciphertextHash := by
  have hindex : chunk.index ∈ manifest.indices := List.mem_map_of_mem hchunk
  have hbitmap : chunk.index ∈ manifest.indices.filter alreadyReceived.contains ↔
      chunk.index ∈ alreadyReceived := by
    rw [List.mem_filter, List.contains_iff_mem]
    exact and_iff_right hindex
  rw [atHand, h.fetched, List.mem_append, hbitmap, mem_taken]
  refine or_congr_right (exists_congr fun ciphertext => ?_)
  exact (and_iff_left_of_imp (h.matching chunk hchunk ciphertext)).symm

/-- The discipline of the window, in every state of a fetch. -/
structure Disciplined (crypto : ChunkCrypto) (manifest : AttachmentManifest)
    (alreadyReceived : List UInt32) (pull : Pull) : Prop where
  partition : (pull.rx.needed ++ pull.rx.inflight.keys ++ pull.atHand alreadyReceived).Perm
    manifest.indices
  window : pull.rx.inflight.keys.length ≤ CHUNK_WINDOW
  neverAgain : ∀ earlier index later, pull.log = earlier ++ .requested index :: later →
    index ∉ alreadyReceived ∧ ∀ ciphertext, .received index ciphertext ∉ earlier
  budget : ∀ index, pull.requests index ≤ CHUNK_RETRY_BUDGET
  complete : pull.rx.isComplete = true ↔ ∀ chunk ∈ manifest.chunks,
    chunk.index ∈ alreadyReceived ∨ ∃ ciphertext,
      .received chunk.index ciphertext ∈ pull.log ∧
        crypto.sha256 ciphertext = chunk.ciphertextHash

theorem Tracked.disciplined (h : pull.Tracked crypto manifest alreadyReceived)
    (hdistinct : manifest.indices.Nodup) : pull.Disciplined crypto manifest alreadyReceived := by
  refine ⟨h.partition, h.window, fun earlier index later hlog => ?_,
    fun index => (h.budget index).trans (h.within index), ?_⟩
  · have hnote : .requested index ∈ pull.log := by
      rw [hlog]
      exact List.mem_append_right _ List.mem_cons_self
    refine ⟨fun hbitmap => h.bitmap index hbitmap hnote, fun ciphertext hreceived => ?_⟩
    have hordered := h.ordered
    rw [hlog, List.pairwise_append] at hordered
    exact hordered.2.2 _ hreceived _ List.mem_cons_self rfl
  · rw [h.complete_iff]
    constructor
    · intro hnone chunk hchunk
      refine (h.atHand_iff hchunk).mp ?_
      have hpartition := h.partition
      rw [hnone, List.nil_append] at hpartition
      exact hpartition.mem_iff.mpr (List.mem_map_of_mem hchunk)
    · intro hall
      refine List.eq_nil_iff_forall_not_mem.mpr fun index hmem => ?_
      have hindex : index ∈ manifest.indices := h.partition.mem_iff.mp (List.mem_append_left _ hmem)
      obtain ⟨chunk, hchunk, rfl⟩ := List.mem_map.mp hindex
      obtain ⟨hbitmap, htaken⟩ := h.disjoint hdistinct hmem
      rcases hall chunk hchunk with hin | ⟨ciphertext, hnote, -⟩
      · exact hbitmap hin
      · exact htaken (mem_taken.mpr ⟨ciphertext, hnote⟩)

end Pull

/-- A fetch of a manifest with distinct indices keeps the discipline of its window, whatever
arrives and whenever. -/
theorem fetch_disciplined (crypto : ChunkCrypto) (manifest : AttachmentManifest)
    (alreadyReceived : List UInt32) (hdistinct : manifest.indices.Nodup)
    (events : List PullEvent) :
    (Pull.run crypto manifest alreadyReceived events).Disciplined crypto manifest
      alreadyReceived :=
  (Pull.Tracked.run crypto alreadyReceived hdistinct events).disciplined hdistinct

def threeChunkManifest : AttachmentManifest :=
  ⟨1, .fill 16 3, "note.txt", "text/plain", 3, CHUNK_SIZE, .fill 32 4,
    [⟨0, taggedCrypto.sha256 [1], 1⟩, ⟨1, taggedCrypto.sha256 [2], 1⟩,
      ⟨2, taggedCrypto.sha256 [3], 1⟩]⟩

/-- A corrupt chunk, a late one, a duplicate and one that was not requested. -/
def unevenEvents : List PullEvent :=
  [.nextRequests 0, .chunk 1 0 [9], .chunk 2 2 [3], .timedOut 30000, .chunk 30001 0 [1],
    .chunk 30002 0 [1], .chunk 30003 1 [2]]

theorem uneven_fetch_disciplined :
    threeChunkManifest.indices.Nodup ∧
      (Pull.run taggedCrypto threeChunkManifest [2] unevenEvents).Disciplined taggedCrypto
        threeChunkManifest [2] ∧
      (Pull.run taggedCrypto threeChunkManifest [2] unevenEvents).requests 0 = 2 ∧
      (Pull.run taggedCrypto threeChunkManifest [2] unevenEvents).rx.isComplete = true :=
  ⟨by decide, fetch_disciplined taggedCrypto threeChunkManifest [2] (by decide) unevenEvents,
    by decide +kernel, by decide +kernel⟩

end Delivery

end Skattr.Core

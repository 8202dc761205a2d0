import Skattr.Core.Delivery.AttachmentLanes
import Skattr.Core.Delivery.ChunkWindow
import Skattr.Lib.Progress
import Mathlib.Order.OrderIsoNat

/-!
# No fetch is stuck

A fetch that is neither complete nor failed, but waits for no chunk, is dead: no frame and no
timeout moves it, and the fetches behind it in the queue of the actor never start. The window is a
map, so a chunk that the manifest lists twice is requested twice and counted once, and
`repeated_chunk_dead` is a fetch that dies of it. When the missing chunks are listed once, each of
them is outstanding or counted. A fetch of a peer that answers every request is then completed, and
the actor turns to its queue.
-/

namespace Skattr.Core.Delivery

open Lib

/-- The indices of the chunks that are not in the bitmap, as often as the manifest lists them. -/
def missing (manifest : AttachmentManifest) (alreadyReceived : List UInt32) : List UInt32 :=
  manifest.indices.filter fun index => !alreadyReceived.contains index

namespace ChunkRx

variable {rx next : ChunkRx} (now : Nat)

/-! ### Filling the window when chunks are listed twice -/

theorem fillWindow_length_le (needed : List UInt32) (inflight : Table UInt32 InFlight) :
    ((fillWindow now needed inflight).2.1 ++ (fillWindow now needed inflight).2.2.keys).length ≤
      (needed ++ inflight.keys).length := by
  induction needed generalizing inflight with
  | nil => exact Nat.le_refl _
  | cons first needed ih =>
    rw [fillWindow]
    split
    · refine (ih (inflight.put first ⟨1, now⟩)).trans ?_
      rw [List.length_append, List.length_append, List.length_cons]
      by_cases hmem : first ∈ inflight.keys
      · rw [Table.keys_put_of_mem hmem]
        omega
      · rw [Table.keys_put hmem, List.length_append, List.length_singleton]
        omega
    · exact Nat.le_refl _

variable {inflight : Table UInt32 InFlight}

theorem fillWindow_keys {needed : List UInt32} {index : UInt32} (h : index ∈ inflight.keys) :
    index ∈ (fillWindow now needed inflight).2.2.keys := by
  induction needed generalizing inflight with
  | nil => exact h
  | cons first needed ih =>
    rw [fillWindow]
    split
    · exact ih (Table.mem_keys_put.mpr (.inr h))
    · exact h

theorem nextRequests_keys (hwaits : rx.outstanding ≠ []) :
    (rx.nextRequests now).2.inflight.keys ≠ [] := by
  by_cases hkeys : rx.inflight.keys = []
  · cases hneeded : rx.needed with
    | nil => exact absurd (by rw [outstanding, hneeded, hkeys]; rfl) hwaits
    | cons first needed =>
      have hroom : rx.inflight.keys.length < CHUNK_WINDOW := by
        rw [hkeys]
        decide
      show (fillWindow now rx.needed rx.inflight).2.2.keys ≠ []
      rw [hneeded, fillWindow, if_pos hroom]
      exact List.ne_nil_of_mem (fillWindow_keys now (Table.mem_keys_put.mpr (.inl rfl)))
  · obtain ⟨index, hmem⟩ := List.exists_mem_of_ne_nil _ hkeys
    exact List.ne_nil_of_mem (fillWindow_keys now hmem)

/-! ### Fetches that go on -/

/-- The fetch goes on: it waits for fewer chunks, or the same requests are in flight and perhaps
more. -/
structure Advances (rx next : ChunkRx) : Prop where
  le : next.outstanding.length ≤ rx.outstanding.length
  kept : next.outstanding.length = rx.outstanding.length →
    ∀ index ∈ rx.inflight.keys, index ∈ next.inflight.keys

theorem Advances.of_keys (hneeded : next.needed = rx.needed)
    (hkeys : next.inflight.keys = rx.inflight.keys) : rx.Advances next := by
  have hsame : next.outstanding = rx.outstanding := by
    rw [outstanding, hneeded, hkeys, outstanding]
  exact ⟨(congrArg List.length hsame).le, fun _ index hmem => hkeys ▸ hmem⟩

theorem onBad_advances (rx : ChunkRx) (index : UInt32) : rx.Advances (rx.onBad now index).2 := by
  unfold onBad
  split
  · split
    · exact .of_keys rfl (Table.keys_modify _ _ _)
    · exact .of_keys rfl rfl
  · exact .of_keys rfl rfl

theorem timedOut_advances (rx : ChunkRx) : rx.Advances (rx.timedOut now).2 := by
  unfold timedOut
  dsimp only
  split
  · exact .of_keys rfl rfl
  · exact .of_keys rfl (keys_raise now _ _)

end ChunkRx

/-! ### Dead fetches -/

namespace Pull

variable {crypto : ChunkCrypto} {manifest : AttachmentManifest} {alreadyReceived : List UInt32}
variable {pull : Pull} {action : ChunkAction × ChunkRx}

def Dead (pull : Pull) : Prop :=
  pull.failed = false ∧ pull.rx.isComplete = false ∧ pull.rx.needed = [] ∧
    pull.rx.inflight.keys = []

instance (pull : Pull) : Decidable pull.Dead := inferInstanceAs (Decidable (_ ∧ _))

theorem act_continues (h : pull.rx.Continues action.2) :
    pull.rx.Continues (pull.act action).rx := by
  obtain ⟨action, rx⟩ := action
  cases action with
  | request indices => exact h
  | fail => exact .refl _

theorem step_continues (crypto : ChunkCrypto) (pull : Pull) (event : PullEvent) :
    pull.rx.Continues (pull.step crypto event).rx := by
  unfold step
  split
  · exact .refl _
  · cases event with
    | nextRequests now => exact pull.rx.nextRequests_continues now
    | chunk now index ciphertext =>
      dsimp only
      split
      · rw [accept]
        split
        · exact pull.rx.onReceived_continues index
        · exact .refl _
      · exact act_continues (pull.rx.onBad_continues now index)
    | timedOut now => exact act_continues (pull.rx.timedOut_continues now)

theorem run_continues (crypto : ChunkCrypto) (manifest : AttachmentManifest)
    (alreadyReceived : List UInt32) (events : List PullEvent) :
    (ChunkRx.new manifest alreadyReceived).Continues
      (run crypto manifest alreadyReceived events).rx := by
  have hstep (pull : Pull) (event : PullEvent)
      (h : (ChunkRx.new manifest alreadyReceived).Continues pull.rx) :
      (ChunkRx.new manifest alreadyReceived).Continues (pull.step crypto event).rx :=
    h.trans (step_continues crypto pull event)
  exact foldl_invariant hstep events (.refl _)

theorem not_dead_of_counted (h : pull.rx.Counted) : ¬pull.Dead := by
  rintro ⟨-, hcomplete, hneeded, hkeys⟩
  have hcount := h.count
  rw [ChunkRx.outstanding, hneeded, hkeys] at hcount
  rw [ChunkRx.isComplete, decide_eq_false_iff_not] at hcomplete
  exact hcomplete (Nat.le_of_eq hcount.symm)

theorem step_of_alive (h : pull.failed = false) (event : PullEvent) :
    pull.step crypto event = match event with
      | .nextRequests now => pull.request (pull.rx.nextRequests now).1 (pull.rx.nextRequests now).2
      | .chunk now index ciphertext =>
        if pull.rx.verify crypto index ciphertext then pull.accept index ciphertext
        else pull.act (pull.rx.onBad now index)
      | .timedOut now => pull.act (pull.rx.timedOut now) :=
  if_neg (by rw [h]; exact Bool.false_ne_true)

theorem Dead.step (h : pull.Dead) (event : PullEvent) : (pull.step crypto event).Dead := by
  obtain ⟨hfailed, hcomplete, hneeded, hkeys⟩ := h
  have hrows : pull.rx.inflight.rows = [] := List.map_eq_nil_iff.mp hkeys
  have hdead {next : Pull} (hnext : next.failed = pull.failed) (hrx : next.rx = pull.rx) :
      next.Dead := by
    rw [Dead, hnext, hrx]
    exact ⟨hfailed, hcomplete, hneeded, hkeys⟩
  rw [step_of_alive hfailed]
  cases event with
  | nextRequests now =>
    refine hdead rfl ?_
    show (pull.rx.nextRequests now).2 = pull.rx
    rw [ChunkRx.nextRequests, hneeded, ChunkRx.fillWindow, ← hneeded]
  | chunk now index ciphertext =>
    have hnot : index ∉ pull.rx.inflight.keys := by
      rw [hkeys]
      exact List.not_mem_nil
    dsimp only
    split
    · rw [accept, if_neg hnot]
      exact hdead rfl rfl
    · rw [ChunkRx.onBad, Table.get_eq_none_iff.mpr hnot]
      exact hdead rfl rfl
  | timedOut now =>
    dsimp only
    rw [ChunkRx.timedOut, hrows]
    exact hdead rfl rfl

/-! ### A peer that answers -/

theorem act_advances (h : pull.rx.Advances action.2) : pull.rx.Advances (pull.act action).rx := by
  obtain ⟨action, rx⟩ := action
  cases action with
  | request indices => exact h
  | fail => exact .of_keys rfl rfl

variable {index : UInt32}

theorem accept_of_mem (h : index ∈ pull.rx.inflight.keys) (ciphertext : Bytes) :
    (pull.accept index ciphertext).rx.outstanding.length + 1 = pull.rx.outstanding.length := by
  have hlength := (ChunkRx.onReceived_outstanding h).length_eq
  rw [List.length_cons] at hlength
  rw [accept, if_pos h]
  exact hlength

theorem step_advances (crypto : ChunkCrypto) (pull : Pull) (event : PullEvent) :
    pull.rx.Advances (pull.step crypto event).rx := by
  unfold step
  split
  · exact .of_keys rfl rfl
  · cases event with
    | nextRequests now =>
      exact ⟨ChunkRx.fillWindow_length_le now pull.rx.needed pull.rx.inflight,
        fun _ index hmem => ChunkRx.fillWindow_keys now hmem⟩
    | chunk now index ciphertext =>
      dsimp only
      split
      · by_cases hmem : index ∈ pull.rx.inflight.keys
        · have hless := accept_of_mem hmem ciphertext
          exact ⟨by omega, fun hsame => by omega⟩
        · rw [accept, if_neg hmem]
          exact .of_keys rfl rfl
      · exact act_advances (pull.rx.onBad_advances now index)
    | timedOut now => exact act_advances (pull.rx.timedOut_advances now)

/-- The fetch does not fail, its window is filled again and again, and the peer answers every
request in flight. -/
structure Served (crypto : ChunkCrypto) (init : Pull) (schedule : Nat → PullEvent) : Prop where
  alive : ∀ t, (trace (step crypto) init schedule t).failed = false
  fills : ∀ t, ∃ u, t ≤ u ∧ ∃ now, schedule u = .nextRequests now
  answers : ∀ t, ∀ index ∈ (trace (step crypto) init schedule t).rx.inflight.keys,
    ∃ u, t ≤ u ∧ ∃ now ciphertext, schedule u = .chunk now index ciphertext ∧
      (trace (step crypto) init schedule u).rx.verify crypto index ciphertext = true

theorem Served.completes {init : Pull} {schedule : Nat → PullEvent} (hcounted : init.rx.Counted)
    (h : Served crypto init schedule) :
    ∃ t, (trace (step crypto) init schedule t).rx.isComplete = true := by
  obtain ⟨halive, hfills, hanswers⟩ := h
  set states := trace (step crypto) init schedule with hstates
  have hstep (t : Nat) : states (t + 1) = (states t).step crypto (schedule t) := rfl
  have hadvances (t : Nat) : (states t).rx.Advances (states (t + 1)).rx :=
    step_advances crypto (states t) (schedule t)
  have hwell (t : Nat) : (states t).rx.Counted := by
    induction t with
    | zero => exact hcounted
    | succ t ih => exact (step_continues crypto (states t) (schedule t)).counted ih
  -- from some time on the number of outstanding chunks stays the same
  have hfalls : Antitone fun t => (states t).rx.outstanding.length :=
    antitone_nat_of_succ_le fun t => (hadvances t).le
  obtain ⟨level, hlevel⟩ := WellFoundedLT.antitone_chain_condition hfalls
  have hsame {t : Nat} (ht : level ≤ t) :
      (states (t + 1)).rx.outstanding.length = (states t).rx.outstanding.length :=
    (hlevel (t + 1) (Nat.le_succ_of_le ht)).symm.trans (hlevel t ht)
  obtain ⟨u, hu, now, hfill⟩ := hfills level
  refine ⟨u, ?_⟩
  by_contra hincomplete
  have hwaits : (states u).rx.outstanding ≠ [] := by
    intro hnone
    have hcount := (hwell u).count
    rw [hnone] at hcount
    exact hincomplete (decide_eq_true (Nat.le_of_eq hcount.symm))
  have hkeys : (states (u + 1)).rx.inflight.keys ≠ [] := by
    rw [hstep, hfill, step_of_alive (halive u)]
    exact ChunkRx.nextRequests_keys now hwaits
  obtain ⟨index, hmem⟩ := List.exists_mem_of_ne_nil _ hkeys
  obtain ⟨v, hv, now, ciphertext, hanswer, hverify⟩ := hanswers (u + 1) index hmem
  -- the request is still in flight when it is answered
  have hkept : index ∈ (states v).rx.inflight.keys := by
    clear hanswer hverify
    induction v, hv using Nat.le_induction with
    | base => exact hmem
    | succ v hv ih => exact (hadvances v).kept (hsame (by omega)) index ih
  have hless := accept_of_mem hkept ciphertext
  have hnext := hsame (t := v) (by omega)
  rw [hstep, hanswer, step_of_alive (halive v)] at hnext
  dsimp only at hnext
  rw [if_pos hverify] at hnext
  omega

end Pull

/-! ### The next fetch -/

namespace Intake

variable {world : Intake} {peer : PublicKey} {index : UInt32}

theorem received_maybeStartNextRx (env : StartEnv) (peer : PublicKey)
    (queue : List AttachmentManifest) (world : Intake) (id : AttachmentId) (index : UInt32) :
    (maybeStartNextRx env peer queue world).received id index = world.received id index := by
  induction queue generalizing world with
  | nil => rfl
  | cons manifest queue ih =>
    rw [maybeStartNextRx]
    dsimp only
    split
    · rw [ih]
      rcases claim_cases (env.claimFault queue.length) manifest.attachmentId _ world with
        hsame | hclaimed
      · exact congrArg (fun world : Intake => world.received id index) hsame
      · exact hclaimed.received id index
    · rfl

theorem maybeStartNextRx_head {env : StartEnv} {manifest : AttachmentManifest}
    {queue : List AttachmentManifest} (hindex : index ∈ manifest.indices)
    (hlacks : (maybeStartNextRx env peer (manifest :: queue) world).received manifest.attachmentId
      index = false) :
    ∃ rx, (maybeStartNextRx env peer (manifest :: queue) world).actors peer = ⟨some rx, queue⟩ ∧
      rx.manifest = manifest := by
  rw [received_maybeStartNextRx] at hlacks
  have hunread (fault : Bool) : index ∉ world.readIndices fault manifest.attachmentId := by
    rw [readIndices]
    split
    · exact List.not_mem_nil
    · rw [AttachmentRepo.mem_receivedIndices]
      intro hsome
      rw [received, hsome] at hlacks
      cases hlacks
  have hincomplete (alreadyReceived : List UInt32) (hnot : index ∉ alreadyReceived) :
      ¬(ChunkRx.new manifest alreadyReceived).isComplete = true := by
    have hcount := ChunkRx.new_count manifest alreadyReceived
    have hmem : index ∈ (ChunkRx.new manifest alreadyReceived).outstanding := by
      refine List.mem_append_left _ (List.mem_filter.mpr ⟨hindex, ?_⟩)
      rw [Bool.not_eq_true', Bool.eq_false_iff]
      exact fun hcontains => hnot (List.contains_iff_mem.mp hcontains)
    have hpos := List.length_pos_of_mem hmem
    rw [ChunkRx.isComplete, decide_eq_true_iff]
    show ¬manifest.chunks.length ≤ _
    omega
  rw [maybeStartNextRx]
  dsimp only
  rw [if_neg (hincomplete _ (hunread _))]
  refine ⟨_, Function.update_self _ _ _, ?_⟩
  split
  · rfl
  · exact (ChunkRx.unsent_continues _ _).manifest

theorem takeChunk_head {env : RxEnv} {rx : ChunkRx} {ciphertext : Bytes} {next : AttachmentManifest}
    {waiting : List AttachmentManifest} (hput : env.putFault = false)
    (hlast : (rx.onReceived index).isComplete = true)
    (hqueue : (world.actors peer).queue = next :: waiting)
    (hlacks : ∃ other ∈ next.indices, (takeChunk env peer rx index ciphertext world).received
      next.attachmentId other = false) :
    ∃ rx', (takeChunk env peer rx index ciphertext world).actors peer = ⟨some rx', waiting⟩ ∧
      rx'.manifest = next := by
  obtain ⟨other, hother, hlacks⟩ := hlacks
  have htake : takeChunk env peer rx index ciphertext world =
      maybeStartNextRx env.next peer (next :: waiting) (finalizeRx env.claimFault peer
        (rx.onReceived index) (countChunk env.markFault rx index ciphertext world)) := by
    rw [takeChunk, hput, ← hqueue]
    exact if_pos hlast
  rw [htake] at hlacks ⊢
  exact maybeStartNextRx_head hother hlacks

end Intake

/-- A fetch whose missing chunks are listed once cannot die. It is completed whenever the peer
answers its requests, and with its last chunk the actor starts the next fetch of its queue. -/
theorem fetch_progress (crypto : ChunkCrypto) (manifest : AttachmentManifest)
    (alreadyReceived : List UInt32) (hdistinct : (missing manifest alreadyReceived).Nodup)
    (events : List PullEvent) :
    ¬(Pull.run crypto manifest alreadyReceived events).Dead ∧
      (∀ schedule, Pull.Served crypto (Pull.run crypto manifest alreadyReceived events) schedule →
        ∃ t, (trace (Pull.step crypto) (Pull.run crypto manifest alreadyReceived events) schedule
          t).rx.isComplete = true) ∧
      ∀ (env : RxEnv) (peer : PublicKey) (rx : ChunkRx) (index : UInt32) (ciphertext : Bytes)
        (world : Intake) (next : AttachmentManifest) (waiting : List AttachmentManifest),
        env.putFault = false → (rx.onReceived index).isComplete = true →
        (world.actors peer).queue = next :: waiting →
        (∃ other ∈ next.indices, (takeChunk env peer rx index ciphertext world).received
          next.attachmentId other = false) →
        ∃ rx', (takeChunk env peer rx index ciphertext world).actors peer = ⟨some rx', waiting⟩ ∧
          rx'.manifest = next := by
  have hcounted : (Pull.run crypto manifest alreadyReceived events).rx.Counted :=
    (Pull.run_continues crypto manifest alreadyReceived events).counted (.of_missing hdistinct)
  refine ⟨Pull.not_dead_of_counted hcounted, fun schedule hserved => hserved.completes hcounted, ?_⟩
  intro env peer rx index ciphertext world next waiting hput hlast hqueue hlacks
  exact Intake.takeChunk_head hput hlast hqueue hlacks

def repeatedManifest : AttachmentManifest :=
  ⟨1, .fill 16 8, "note.txt", "text/plain", 1, CHUNK_SIZE, .fill 32 4,
    [⟨0, taggedCrypto.sha256 [1], 1⟩, ⟨0, taggedCrypto.sha256 [1], 1⟩]⟩

/-- The manifest is admitted, and its fetch dies when the peer has served its chunk. Whatever else
happens, the fetch stays dead. -/
theorem repeated_chunk_dead :
    AttachmentManifest.fromCbor (fun _ => .ok repeatedManifest) [] = .ok repeatedManifest ∧
      repeatedManifest.totalSize ≤ MAX_ATTACHMENT_BYTES ∧ repeatedManifest.chunks ≠ [] ∧
      ∀ events, (Pull.run taggedCrypto repeatedManifest []
        ([.nextRequests 0, .chunk 0 0 [1]] ++ events)).Dead := by
  refine ⟨by decide, by decide, by decide, fun events => ?_⟩
  rw [Pull.run, List.foldl_append]
  exact foldl_invariant (fun _ event h => h.step event) events (by decide +kernel)

/-- The peer sends both chunks of the file, then there is nothing left to ask for. -/
def answers : Nat → PullEvent
  | 0 => .chunk 0 0 [1]
  | 1 => .chunk 0 1 [2]
  | _ => .nextRequests 0

theorem two_chunk_fetch_completed :
    (missing twoChunkManifest []).Nodup ∧
      ¬(Pull.run taggedCrypto twoChunkManifest [] [.nextRequests 0]).Dead ∧
      ∃ t, (trace (Pull.step taggedCrypto) (Pull.run taggedCrypto twoChunkManifest []
        [.nextRequests 0]) answers t).rx.isComplete = true := by
  have hdistinct : (missing twoChunkManifest []).Nodup := by decide +kernel
  obtain ⟨halive, hcompletes, -⟩ :=
    fetch_progress taggedCrypto twoChunkManifest [] hdistinct [.nextRequests 0]
  refine ⟨hdistinct, halive, hcompletes answers ?_⟩
  set states := trace (Pull.step taggedCrypto) (Pull.run taggedCrypto twoChunkManifest []
    [.nextRequests 0]) answers with hstates
  have hrest (t : Nat) : states (t + 2) = states 2 := by
    induction t with
    | zero => rfl
    | succ t ih =>
      show (states (t + 2)).step taggedCrypto (.nextRequests 0) = states 2
      rw [ih]
      decide +kernel
  refine ⟨fun t => ?_, fun t => ⟨t + 2, Nat.le_add_right t 2, 0, rfl⟩, fun t index hmem => ?_⟩
  · match t with
    | 0 => decide +kernel
    | 1 => decide +kernel
    | t + 2 => exact (congrArg Pull.failed (hrest t)).trans (by decide +kernel)
  · match t with
    | 0 =>
      have hkeys : (states 0).rx.inflight.keys = [0, 1] := by decide +kernel
      rw [hkeys, List.mem_pair] at hmem
      rcases hmem with rfl | rfl
      · exact ⟨0, Nat.le_refl 0, 0, [1], rfl, by decide +kernel⟩
      · exact ⟨1, Nat.zero_le 1, 0, [2], rfl, by decide +kernel⟩
    | 1 =>
      have hkeys : (states 1).rx.inflight.keys = [1] := by decide +kernel
      rw [hkeys, List.mem_singleton] at hmem
      subst hmem
      exact ⟨1, Nat.le_refl 1, 0, [2], rfl, by decide +kernel⟩
    | t + 2 =>
      have hkeys : (states (t + 2)).rx.inflight.keys = [] := by
        rw [hrest]
        decide +kernel
      exact absurd (hkeys ▸ hmem) List.not_mem_nil

end Skattr.Core.Delivery

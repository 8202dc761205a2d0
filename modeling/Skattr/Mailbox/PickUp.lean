import Mathlib.Algebra.Group.Action.Defs
import Mathlib.Algebra.Order.BigOperators.Group.List
import Mathlib.Data.List.Dedup
import Skattr.Mailbox.Server

/-!
# Picking up a mailbox

A recipient picks up its mailbox with one fetch, whose reply has to carry every unexpired deposit
in a single frame. `fetch_picks_up_iff` says exactly when that works in a state that the server
can reach: when the CBOR size of the recipient's live rows, one or two bytes for each ciphertext
byte, is within the frame limit. The store's own cap is sixteen times that limit, and
`full_mailbox_closes` is a mailbox, filled within every recommended cap, whose owner's correctly
signed fetch ends in a closed connection.
-/

namespace Skattr.Mailbox

open Lib Fallible

def Store.liveRows (store : Store) (recipient : RecipientHash) (now : Int) :
    List (DepositId × DepositRow) :=
  store.rows.filter fun row => row.2.recipientHash = recipient ∧ now < row.2.expiresAt

def rowSize (row : DepositId × DepositRow) : Nat :=
  35 + Cbor.byteSeqSize row.1.bytes + Cbor.byteSeqSize row.2.ciphertext +
    Cbor.intSize row.2.depositedAt

def Store.pickUpSize (store : Store) (recipient : RecipientHash) (now : Int) : Nat :=
  11 + Cbor.headSize (store.liveRows recipient now).length +
    ((store.liveRows recipient now).map rowSize).sum

/-- The reply is an encoded `FetchResponse` that carries every owed and unexpired deposit of the
sender. -/
def PickedUp (crypto : Crypto) (owed : List Acked) (body : Fetch) (now : Int) (reply : Reply) :
    Prop :=
  ∃ response bytes, reply = .sent (.fetchResponse response) bytes ∧
    bytes.length ≤ 4 + MAX_FRAME_SIZE ∧
    ∀ d ∈ owed, d.row.recipientHash = crypto.sha256 body.identityPubkey.bytes →
      now < d.row.expiresAt →
      ⟨d.depositId, d.row.ciphertext, d.row.depositedAt⟩ ∈ response.deposits

theorem fetchResponseSize_fetch (store : Store) (recipient : RecipientHash) (now : Int) :
    fetchResponseSize (store.fetch recipient now) = store.pickUpSize recipient now := by
  have hrows : (store.rowsFor recipient).filter (fun row => row.2.expiresAt > now) =
      store.liveRows recipient now := by
    simp only [Store.rowsFor, Store.liveRows, List.filter_filter]
    refine List.filter_congr fun row _ => ?_
    simp [and_comm]
  -- the query sorts the rows; their number and their sum do not see the order
  have hperm := List.perm_insertionSort
    (fun a b : DepositId × DepositRow => a.2.depositedAt ≤ b.2.depositedAt)
    (store.liveRows recipient now)
  simp only [fetchResponseSize, Store.fetch, Store.orderByDepositedAt, hrows, List.length_map,
    List.map_map, Store.pickUpSize, hperm.length_eq]
  have hsum : (List.insertionSort (fun a b : DepositId × DepositRow =>
      a.2.depositedAt ≤ b.2.depositedAt) (store.liveRows recipient now)).map
        (PendingDeposit.wireSize ∘ fun row => ⟨row.1, row.2.ciphertext, row.2.depositedAt⟩) =
      (List.insertionSort (fun a b : DepositId × DepositRow =>
        a.2.depositedAt ≤ b.2.depositedAt) (store.liveRows recipient now)).map rowSize :=
    List.map_congr_left fun row _ => rfl
  rw [hsum, (hperm.map rowSize).sum_eq]

variable {policy : Policy} {crypto : Crypto}

theorem receive_fetch_reply {server : Server} {conn : ConnId} {connRl : ConnRateLimiter}
    {body : Fetch} {now : Int} {nowSecs : ℚ} (fresh : Fresh)
    (hconn : server.conns.get conn = some connRl)
    (hsigned : CorrectlySigned crypto body now nowSecs (server.ctx connRl)) :
    (server.step policy crypto (.receive conn (.frame (.fetch body)) now nowSecs fresh)).2 =
      send (.fetchResponse
        ⟨server.store.fetch (crypto.sha256 body.identityPubkey.bytes) now⟩) := by
  have hreply := handleFetch_of_signed hsigned
  simp only [Server.step, Server.receive, hconn, dispatch, hreply, replyFrame]
  rfl

/-- In every reachable state a correctly signed fetch picks up the mailbox exactly when the
recipient's live rows fit one frame. -/
theorem fetch_picks_up_iff (startSecs : ℚ) (actions : List Action) (conn : ConnId)
    (connRl : ConnRateLimiter) (body : Fetch) (now : Int) (nowSecs : ℚ) (fresh : Fresh)
    (world : World) (hrun : world = (World.init policy startSecs).run policy crypto actions)
    (hconn : world.server.conns.get conn = some connRl)
    (hsigned : CorrectlySigned crypto body now nowSecs (world.server.ctx connRl)) :
    PickedUp crypto world.owed body now (world.server.step policy crypto
      (.receive conn (.frame (.fetch body)) now nowSecs fresh)).2 ↔
    world.server.store.pickUpSize (crypto.sha256 body.identityPubkey.bytes) now ≤
      MAX_FRAME_SIZE := by
  have howes : Owes world := by
    rw [hrun]
    exact run_owes actions fun d hd => absurd hd List.not_mem_nil
  rw [receive_fetch_reply fresh hconn hsigned, ← fetchResponseSize_fetch, ← length_fetchResponse,
    ← encode_eq_ok_iff]
  constructor
  · rintro ⟨response, bytes, hsent, -, -⟩
    unfold send at hsent
    split at hsent
    · next encoded hencode => exact ⟨encoded, hencode⟩
    · cases hsent
  · rintro ⟨bytes, hencode⟩
    have hfit := encode_eq_ok_iff.mp ⟨bytes, hencode⟩
    have hlength := length_of_encode hencode
    refine ⟨_, bytes, by rw [send, hencode], by omega, ?_⟩
    intro d hd hrecipient hlive
    exact Store.mem_fetch (howes d hd) hrecipient hlive

/-! ### A mailbox that cannot be picked up -/

/-- Stand-ins for the hash and the signature scheme: one hash value, every signature valid. -/
def trustingCrypto : Crypto where
  sha256 := fun _ => ByteArr.fill 32 0
  verify := fun _ _ _ => true

def nthId (n : Nat) : DepositId :=
  ⟨List.replicate 15 0 ++ [UInt8.ofNat n], by simp⟩

variable {n : Nat} {ciphertext : Bytes} {world : World}

theorem nthId_injective {m : Nat} (hm : m < 256) (hn : n < 256) (h : nthId m = nthId n) :
    m = n := by
  have hbytes := congrArg ByteArr.bytes h
  simp only [nthId, List.append_cancel_left_eq, List.cons.injEq, and_true] at hbytes
  have hnat := congrArg UInt8.toNat hbytes
  simp only [UInt8.toNat_ofNat'] at hnat
  omega

section Filling

-- The ciphertext of every deposit has the largest accepted size; its bytes do not matter.
variable {ciphertext : Bytes} (hlength : ciphertext.length = 1048576)

def bigDeposit (ciphertext : Bytes) : Deposit := ⟨1, ByteArr.fill 32 0, ciphertext, 0⟩

def bigRow (ciphertext : Bytes) : DepositRow := ⟨ByteArr.fill 32 0, ciphertext, 0, 604800⟩

def bigAction (ciphertext : Bytes) (n : Nat) : Action :=
  .receive 0 (.frame (.deposit (bigDeposit ciphertext))) 0 0 ⟨nthId n, ByteArr.fill 32 0⟩

def connAfter (n : Nat) : ConnRateLimiter := ⟨⟨30, 30 / 60, 30 - n, 0⟩, TokenBucket.new 6 0⟩

variable {n : Nat} {world : World}

theorem tryAcquire_counted {capacity fill : ℚ} (hone : (n : ℚ) + 1 ≤ capacity) :
    TokenBucket.tryAcquire ⟨capacity, fill, capacity - n, 0⟩ 0 =
      (.ok (), ⟨capacity, fill, capacity - (n + 1 : Nat), 0⟩) := by
  have hacquire : TokenBucket.tryAcquire ⟨capacity, fill, capacity - n, 0⟩ 0 = _ :=
    TokenBucket.tryAcquire_same_time (by simp only; linarith) (by simp)
  rw [hacquire]
  simp only [Nat.cast_add, Nat.cast_one, sub_sub]

/-- The world after `n` big deposits at time zero. -/
structure Filled (ciphertext : Bytes) (world : World) (n : Nat) : Prop where
  rows : world.server.store.rows = (List.range n).map fun i => (nthId i, bigRow ciphertext)
  conn : world.server.conns.get 0 = some (connAfter n)
  global : world.server.globalRl = ⟨1000, 1000 / 60, 1000 - n, 0⟩
  owed : world.owed.length = n
  live : ∀ d ∈ world.owed, 0 ≤ d.row.expiresAt

theorem Filled.eq_bigRow (h : Filled ciphertext world n) :
    ∀ row ∈ world.server.store.rows, row.2 = bigRow ciphertext := by
  intro row hrow
  rw [h.rows] at hrow
  obtain ⟨i, -, rfl⟩ := List.mem_map.mp hrow
  rfl

theorem Filled.unexpired (h : Filled ciphertext world n) :
    Mailbox.unexpired 0 world.owed = world.owed := by
  refine List.filter_eq_self.mpr fun d hd => ?_
  simpa using h.live d hd

theorem Filled.fresh (h : Filled ciphertext world n) (hn : n < 30) :
    world.server.store.get (nthId n) = none := by
  rw [Table.get_eq_none_iff, Table.keys, h.rows, List.map_map]
  intro hmem
  obtain ⟨i, hi, heq⟩ := List.mem_map.mp hmem
  have hin := List.mem_range.mp hi
  have := nthId_injective (by omega) (by omega) heq
  omega

include hlength

theorem bytesOf_bigRows (rows : List (DepositId × DepositRow))
    (h : ∀ row ∈ rows, row.2 = bigRow ciphertext) :
    Store.bytesOf rows = rows.length * 1048576 := by
  unfold Store.bytesOf
  induction rows with
  | nil => rfl
  | cons row rows ih =>
    have hrow : row.2.ciphertext.length = 1048576 := by
      rw [h row List.mem_cons_self]
      exact hlength
    rw [List.map_cons, List.sum_cons, ih fun r hr => h r (List.mem_cons_of_mem _ hr), hrow,
      List.length_cons]
    omega

theorem Filled.insert (h : Filled ciphertext world n) (hn : n < 30) :
    world.server.store.insert (nthId n) (bigRow ciphertext) Policy.recommended.recipientCapBytes
      Policy.recommended.globalStorageCapBytes Policy.recommended.maxRecipients 0 =
      .ok (world.server.store.push (nthId n) (bigRow ciphertext) (h.fresh hn)) := by
  have hcount : world.server.store.rows.length = n := by simp [h.rows]
  have hlen : (bigRow ciphertext).ciphertext.length = 1048576 := hlength
  have hrowsFor : (world.server.store.rowsFor (bigRow ciphertext).recipientHash).length ≤ n :=
    hcount ▸ List.length_filter_le _ _
  have hbytesFor := bytesOf_bigRows hlength
    (world.server.store.rowsFor (bigRow ciphertext).recipientHash)
    fun row hrow => h.eq_bigRow row (List.mem_filter.mp hrow).1
  -- at most thirty rows of one MiB are far below the recommended caps
  refine Store.insert_of_room ?_ ?_ ?_ (h.fresh hn)
  · rw [hbytesFor, hlen]
    change _ ≤ 268435456
    omega
  · have hdedup := (List.dedup_sublist
      (world.server.store.rows.map fun row => row.2.recipientHash)).length_le
    rw [List.length_map, hcount] at hdedup
    change List.length _ < 100000
    omega
  · rw [bytesOf_bigRows hlength _ h.eq_bigRow, hcount, hlen]
    change _ ≤ 4 * 1024 * 1024 * 1024
    omega

theorem Filled.accepts (h : Filled ciphertext world n) (hn : n < 30) :
    exec (handleDeposit Policy.recommended (bigDeposit ciphertext) 0 0 (nthId n))
      (world.server.ctx (connAfter n)) =
      (.ok (.depositOk ⟨nthId n, 604800⟩),
        ⟨world.server.store.push (nthId n) (bigRow ciphertext) (h.fresh hn),
          world.server.challenges, connAfter (n + 1),
          ⟨1000, 1000 / 60, 1000 - (n + 1 : Nat), 0⟩⟩) := by
  have hle : (n : ℚ) + 1 ≤ 30 := by exact_mod_cast hn
  have hconn : (world.server.ctx (connAfter n)).connRl.deposits.tryAcquire 0 =
      (.ok (), (connAfter (n + 1)).deposits) :=
    tryAcquire_counted (by linarith)
  have hglobal : (world.server.ctx (connAfter n)).globalRl.tryAcquire 0 =
      (.ok (), ⟨1000, 1000 / 60, 1000 - (n + 1 : Nat), 0⟩) := by
    rw [show (world.server.ctx (connAfter n)).globalRl = _ from h.global]
    exact tryAcquire_counted (by linarith)
  have hexpires : min ((0 : Int) + (604800 : Nat)) i64Max = 604800 := by
    simp [i64Max]
  have httl : Policy.recommended.resolveTtl (bigDeposit ciphertext).ttlRequest = .ok 604800 := rfl
  have hsize : (bigDeposit ciphertext).ciphertext.length ≤ Policy.recommended.maxDepositSize :=
    hlength.le
  have hinsert : (world.server.ctx (connAfter n)).store.insert (nthId n)
      ⟨(bigDeposit ciphertext).recipientHash, (bigDeposit ciphertext).ciphertext, 0,
        min ((0 : Int) + (604800 : Nat)) i64Max⟩ Policy.recommended.recipientCapBytes
      Policy.recommended.globalStorageCapBytes Policy.recommended.maxRecipients 0 =
      .ok (world.server.store.push (nthId n) (bigRow ciphertext) (h.fresh hn)) := by
    rw [hexpires]
    exact h.insert hlength hn
  rw [handleDeposit_of_accepted rfl hsize hconn hglobal httl hinsert, hexpires]
  rfl

theorem Filled.step (h : Filled ciphertext world n) (hn : n < 30) :
    Filled ciphertext (world.step Policy.recommended trustingCrypto (bigAction ciphertext n))
      (n + 1) := by
  obtain ⟨bytes, hsent⟩ := send_depositOk ⟨nthId n, 604800⟩
  simp only [World.step, Server.step, bigAction, Server.receive, h.conn, dispatch,
    h.accepts hlength hn, replyFrame, hsent, observe, observeReply, h.unexpired]
  constructor
  · simp only [Server.afterHandler, Table.push, h.rows, List.range_succ, List.map_append,
      List.map_cons, List.map_nil]
  · simp only [Server.afterHandler, reduceCtorEq, if_false, Table.get_put_self]
  · simp only [Server.afterHandler]
  · rw [List.length_cons, h.owed]
  · intro d hd
    rcases List.mem_cons.mp hd with rfl | hold
    · change (0 : Int) ≤ 604800
      decide
    · exact h.live d hold

theorem filled_run (hn : n ≤ 30) :
    Filled ciphertext ((World.init Policy.recommended 0).run Policy.recommended trustingCrypto
      (.connect 0 0 :: (List.range n).map (bigAction ciphertext))) n := by
  induction n with
  | zero =>
    have hconn : ConnRateLimiter.fromPolicy Policy.recommended 0 = connAfter 0 := by
      simp [ConnRateLimiter.fromPolicy, Policy.recommended, connAfter, TokenBucket.new]
    have hglobal : TokenBucket.new Policy.recommended.globalDepositsPerMin 0 =
        ⟨1000, 1000 / 60, 1000 - (0 : Nat), 0⟩ := by
      simp [Policy.recommended, TokenBucket.new]
    exact ⟨rfl, congrArg some hconn, hglobal, rfl, fun d hd => absurd hd List.not_mem_nil⟩
  | succ n ih =>
    have hlast := (ih (by omega)).step hlength (by omega)
    rw [World.run, List.foldl_cons, List.range_succ, List.map_append, List.foldl_append]
    exact hlast

end Filling

/-- The nonce, the key and the signature of the fetch are immaterial to `trustingCrypto`. -/
def zeroFetch : Fetch := ⟨1, ByteArr.fill 32 0, ByteArr.fill 32 0, ByteArr.fill 64 0⟩

def zeroChallenge : Action :=
  .receive 0 (.frame (.challenge ⟨1, ByteArr.fill 32 0⟩)) 0 0 ⟨nthId 0, ByteArr.fill 32 0⟩

def fillActions (ciphertext : Bytes) (n : Nat) : List Action :=
  .connect 0 0 :: (List.range n).map (bigAction ciphertext) ++ [zeroChallenge]

/-- After the deposits and the challenge the owner's fetch is correctly signed. -/
structure ReadyToFetch (ciphertext : Bytes) (world : World) (n : Nat) : Prop where
  conn : world.server.conns.get 0 = some (connAfter n)
  signed : CorrectlySigned trustingCrypto zeroFetch 0 0 (world.server.ctx (connAfter n))
  rows : world.server.store.rows = (List.range n).map fun i => (nthId i, bigRow ciphertext)
  owed : world.owed.length = n

theorem Filled.challenge (h : Filled ciphertext world n) :
    ReadyToFetch ciphertext (world.step Policy.recommended trustingCrypto zeroChallenge) n := by
  have hexec : exec (handleChallenge ⟨1, ByteArr.fill 32 0⟩ 0 (ByteArr.fill 32 0))
      (world.server.ctx (connAfter n)) =
      (.ok (.challengeNonce ⟨ByteArr.fill 32 0, 0⟩), { world.server.ctx (connAfter n) with
        challenges := world.server.challenges.issue (ByteArr.fill 32 0) (ByteArr.fill 32 0) 0 }) :=
    rfl
  obtain ⟨bytes, hsent⟩ := send_challengeNonce ⟨ByteArr.fill 32 0, 0⟩
  simp only [World.step, Server.step, zeroChallenge, Server.receive, h.conn, dispatch, hexec,
    replyFrame, hsent, observe, observeReply, h.unexpired]
  refine ⟨?_, ⟨rfl, ?_, ⟨0, ?_, by decide⟩, rfl⟩, ?_, h.owed⟩
  · simp only [Server.afterHandler, reduceCtorEq, if_false, Table.get_put_self]
    rfl
  · simp only [Server.ctx, connAfter, TokenBucket.refill, TokenBucket.new]
    norm_num
  · exact Table.get_put_self _ _ _
  · exact h.rows

theorem fillActions_ready (hlength : ciphertext.length = 1048576) (hn : n ≤ 30) :
    ReadyToFetch ciphertext ((World.init Policy.recommended 0).run
      Policy.recommended trustingCrypto (fillActions ciphertext n)) n := by
  rw [World.run, fillActions, List.foldl_append]
  exact (filled_run hlength hn).challenge

theorem rowSize_bigRow (hlength : ciphertext.length = 1048576) (i : Nat) :
    1048576 ≤ rowSize (nthId i, bigRow ciphertext) ∧
      rowSize (nthId i, bigRow ciphertext) ≤ 9438000 := by
  have hid := Cbor.byteSeqSize_arr_le (nthId i)
  have hlower := Cbor.length_le_byteSeqSize ciphertext
  have hupper := Cbor.byteSeqSize_le ciphertext
  rw [hlength] at hlower hupper
  have htime := Cbor.intSize_le 0
  change 1048576 ≤ 35 + Cbor.byteSeqSize (nthId i).bytes + Cbor.byteSeqSize ciphertext +
      Cbor.intSize 0 ∧
    35 + Cbor.byteSeqSize (nthId i).bytes + Cbor.byteSeqSize ciphertext + Cbor.intSize 0 ≤ 9438000
  omega

theorem ReadyToFetch.pickUpSize_bounds (hlength : ciphertext.length = 1048576)
    (h : ReadyToFetch ciphertext world n) :
    n * 1048576 ≤ world.server.store.pickUpSize (ByteArr.fill 32 0) 0 ∧
      world.server.store.pickUpSize (ByteArr.fill 32 0) 0 ≤ 20 + n * 9438000 := by
  have hlive : world.server.store.liveRows (ByteArr.fill 32 0) 0 = world.server.store.rows := by
    refine List.filter_eq_self.mpr fun row hrow => ?_
    rw [h.rows] at hrow
    obtain ⟨i, -, rfl⟩ := List.mem_map.mp hrow
    simp [bigRow]
  have hsizes : ∀ size ∈ world.server.store.rows.map rowSize,
      1048576 ≤ size ∧ size ≤ 9438000 := by
    intro size hmem
    obtain ⟨row, hrow, rfl⟩ := List.mem_map.mp hmem
    rw [h.rows] at hrow
    obtain ⟨i, -, rfl⟩ := List.mem_map.mp hrow
    exact rowSize_bigRow hlength i
  have hcount : world.server.store.rows.length = n := by simp [h.rows]
  have hlower := List.card_nsmul_le_sum _ _ fun size hmem => (hsizes size hmem).1
  have hupper := List.sum_le_card_nsmul _ _ fun size hmem => (hsizes size hmem).2
  rw [List.length_map, hcount, smul_eq_mul] at hlower hupper
  have hhead := Cbor.headSize_le world.server.store.rows.length
  unfold Store.pickUpSize
  rw [hlive]
  omega

/-- Seventeen accepted deposits within every recommended cap: the owner's correctly signed fetch
ends in a closed connection. -/
theorem full_mailbox_closes :
    ∃ (actions : List Action) (world : World) (connRl : ConnRateLimiter),
      world = (World.init Policy.recommended 0).run Policy.recommended trustingCrypto actions ∧
      world.owed.length = 17 ∧
      world.server.conns.get 0 = some connRl ∧
      CorrectlySigned trustingCrypto zeroFetch 0 0 (world.server.ctx connRl) ∧
      (world.server.step Policy.recommended trustingCrypto (.receive 0 (.frame (.fetch zeroFetch))
        0 0 ⟨nthId 0, ByteArr.fill 32 0⟩)).2 = .closed ∧
      ¬PickedUp trustingCrypto world.owed zeroFetch 0 (world.server.step Policy.recommended
        trustingCrypto (.receive 0 (.frame (.fetch zeroFetch)) 0 0
          ⟨nthId 0, ByteArr.fill 32 0⟩)).2 := by
  obtain ⟨ciphertext, hlength⟩ : ∃ bytes : Bytes, bytes.length = 1048576 :=
    ⟨List.replicate 1048576 0, List.length_replicate⟩
  have hready := fillActions_ready hlength (show 17 ≤ 30 by decide)
  refine ⟨fillActions ciphertext 17, _, connAfter 17, rfl, hready.owed, hready.conn,
    hready.signed, ?_⟩
  suffices hclosed : send (.fetchResponse ⟨((World.init Policy.recommended 0).run Policy.recommended
      trustingCrypto (fillActions ciphertext 17)).server.store.fetch
        (trustingCrypto.sha256 zeroFetch.identityPubkey.bytes) 0⟩) = .closed by
    rw [receive_fetch_reply _ hready.conn hready.signed]
    refine ⟨hclosed, ?_⟩
    rintro ⟨response, bytes, hsent, -⟩
    cases hclosed.symm.trans hsent
  -- each ciphertext byte takes a byte at least, and seventeen MiB exceed the frame limit
  have hsize := (hready.pickUpSize_bounds hlength).1
  have hfull := fetchResponseSize_fetch ((World.init Policy.recommended 0).run
      Policy.recommended trustingCrypto (fillActions ciphertext 17)).server.store
      (ByteArr.fill 32 0) 0
  rw [← length_fetchResponse] at hfull
  unfold send
  split
  · next bytes hencode =>
    have hfit := encode_eq_ok_iff.mp ⟨bytes, hencode⟩
    rw [show trustingCrypto.sha256 zeroFetch.identityPubkey.bytes = ByteArr.fill 32 0 from rfl,
      hfull, MAX_FRAME_SIZE] at hfit
    omega
  · rfl

/-- One big deposit is picked up. -/
theorem single_deposit_picked_up :
    ∃ (actions : List Action) (world : World) (connRl : ConnRateLimiter),
      world = (World.init Policy.recommended 0).run Policy.recommended trustingCrypto actions ∧
      world.owed.length = 1 ∧
      world.server.conns.get 0 = some connRl ∧
      CorrectlySigned trustingCrypto zeroFetch 0 0 (world.server.ctx connRl) ∧
      PickedUp trustingCrypto world.owed zeroFetch 0 (world.server.step Policy.recommended
        trustingCrypto (.receive 0 (.frame (.fetch zeroFetch)) 0 0
          ⟨nthId 0, ByteArr.fill 32 0⟩)).2 := by
  obtain ⟨ciphertext, hlength⟩ : ∃ bytes : Bytes, bytes.length = 1048576 :=
    ⟨List.replicate 1048576 0, List.length_replicate⟩
  have hready := fillActions_ready hlength (show 1 ≤ 30 by decide)
  have hsize := (hready.pickUpSize_bounds hlength).2
  refine ⟨fillActions ciphertext 1, _, connAfter 1, rfl, hready.owed, hready.conn,
    hready.signed, ?_⟩
  refine (fetch_picks_up_iff 0 _ 0 _ zeroFetch 0 0 _ _ rfl hready.conn hready.signed).mpr ?_
  change _ ≤ 16 * 1024 * 1024
  exact hsize.trans (by decide)

end Skattr.Mailbox

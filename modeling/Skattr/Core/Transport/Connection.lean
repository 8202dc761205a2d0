import Skattr.Core.Delivery.Peer
import Skattr.Core.Transport.Frame

/-!
# The authenticated connection

After the handshake every frame travels as one Noise message, in an outer `MlsApp` frame. Both ends
count the messages, and the count is the nonce of the cipher. `channel_integrity` says that what
`recv` returns is an initial part of what was sent, whatever bytes arrive, if nobody else seals; and
that all of it is received if the bytes arrive as they were written.
-/

namespace Skattr.Core.Transport

open Lib Lib.Framing
open Delivery (NOISE_MAX_OUTER)

def NONCE_END : Nat := 2 ^ 64 - 1

/-- The cipher of one direction of a session. -/
structure Cipher where
  encrypt : Nat → Bytes → Bytes
  decrypt : Nat → Bytes → Option Bytes

structure Cipher.Lawful (cipher : Cipher) : Prop where
  decrypt_encrypt : ∀ {n inner}, n < NONCE_END → inner.length ≤ NOISE_MAX_OUTER →
    cipher.decrypt n (cipher.encrypt n inner) = some inner
  length_encrypt : ∀ n inner, (cipher.encrypt n inner).length = inner.length + 16

/-- The sending end: the count, what was written, and the frames that were encrypted. -/
structure Outbound where
  counter : Nat
  wire : Bytes
  sent : List Frame

def Outbound.init : Outbound := ⟨0, [], []⟩

def send (cipher : Cipher) (conn : Outbound) (item : Frame) (writeOk : Bool) :
    Except CoreError Unit × Outbound :=
  match encode item with
  | .error e => (.error e, conn)
  | .ok inner =>
    let size := inner.length
    if size > NOISE_MAX_OUTER then
      (.error (.transport
        s!"send: inner frame too large for single Noise message: {size} bytes"), conn)
    else if conn.counter ≥ NONCE_END then (.error (.transport "send"), conn)
    else
      let outer := encode (.mlsApp (cipher.encrypt conn.counter inner))
      let conn := { conn with counter := conn.counter + 1, sent := conn.sent ++ [item] }
      match outer, writeOk with
      | .ok bytes, true => (.ok (), { conn with wire := conn.wire ++ bytes })
      | _, _ => (.error (.transport "send"), conn)

/-- The result of `recv` on the next outer frame of the stream, and the new count. -/
def recv (cipher : Cipher) (reader : PayloadReader) (counter : Nat) :
    Frame → Except CoreError Frame × Nat
  | .mlsApp ciphertext =>
    match if counter ≥ NONCE_END then none else cipher.decrypt counter ciphertext with
    | none => (.error (.transport "recv: authentication failed"), counter)
    | some clear =>
      match decode reader clear with
      | (.error e, _) => (.error e, counter + 1)
      | (.ok none, _) => (.error (.transport "recv: inner frame was incomplete"), counter + 1)
      | (.ok (some inner), rest) =>
        (if rest = [] then .ok inner
          else .error (.transport "recv: inner frame left trailing bytes"), counter + 1)
  | other =>
    (.error (.transport ("recv: expected MlsApp, got type 0x" ++ hexByte other.parts.1)), counter)

def recvAll (cipher : Cipher) (reader : PayloadReader) :
    Nat → List Frame → List (Except CoreError Frame)
  | _, [] => []
  | counter, outer :: rest =>
    let (result, counter) := recv cipher reader counter outer
    result :: recvAll cipher reader counter rest

/-- Nobody else seals: what opens at a count is the frame that was sent with it. -/
def Unforged (cipher : Cipher) (sent outer : List Frame) : Prop :=
  ∀ ciphertext, .mlsApp ciphertext ∈ outer → ∀ n < NONCE_END, ∀ clear,
    cipher.decrypt n ciphertext = some clear →
      ∃ item, sent[n]? = some item ∧ encode item = .ok clear

/-! ### The sending end -/

variable {cipher : Cipher} {reader : PayloadReader} {items outer : List Frame} {item : Frame}
  {counter : Nat} {conn : Outbound} {writeOk : Bool}

def Frame.FitsNoise (item : Frame) : Prop := (frame item.body).length ≤ NOISE_MAX_OUTER

instance (item : Frame) : Decidable item.FitsNoise := inferInstanceAs (Decidable (_ ≤ _))

def sealAll (cipher : Cipher) : Nat → List Frame → List Frame
  | _, [] => []
  | counter, item :: items =>
    .mlsApp (cipher.encrypt counter (frame item.body)) :: sealAll cipher (counter + 1) items

theorem sealAll_concat (counter : Nat) (items : List Frame) (item : Frame) :
    sealAll cipher counter (items ++ [item]) = sealAll cipher counter items ++
      [.mlsApp (cipher.encrypt (counter + items.length) (frame item.body))] := by
  induction items generalizing counter with
  | nil => rfl
  | cons first items ih =>
    rw [List.cons_append, sealAll, ih, List.length_cons, Nat.add_assoc, Nat.add_comm 1]
    rfl

theorem encode_of_sendable (h : Sendable MAX_FRAME_SIZE item.body) :
    encode item = .ok (frame item.body) := by
  have hlength := h.2
  rw [Frame.body, List.length_cons] at hlength
  obtain ⟨encoded, hencoded⟩ := (encode_ok_iff item).mpr (by omega)
  rw [hencoded, (encode_ok hencoded).1]

theorem Frame.FitsNoise.sendable (h : item.FitsNoise) : Sendable MAX_FRAME_SIZE item.body := by
  unfold Frame.FitsNoise NOISE_MAX_OUTER at h
  rw [length_frame] at h
  exact ⟨Nat.succ_pos _, by rw [MAX_FRAME_SIZE]; omega⟩

theorem fitsOuter (hcipher : cipher.Lawful) (h : item.FitsNoise) (counter : Nat) :
    Sendable MAX_FRAME_SIZE (Frame.mlsApp (cipher.encrypt counter (frame item.body))).body := by
  have hlength := hcipher.length_encrypt counter (frame item.body)
  unfold Frame.FitsNoise NOISE_MAX_OUTER at h
  rw [Sendable, Frame.body, List.length_cons, MAX_FRAME_SIZE]
  dsimp only [Frame.parts]
  omega

theorem send_cases (hcipher : cipher.Lawful) (conn : Outbound) (item : Frame) (writeOk : Bool) :
    (send cipher conn item writeOk).2 = conn ∧ (item.FitsNoise → NONCE_END ≤ conn.counter) ∨
      item.FitsNoise ∧ conn.counter < NONCE_END ∧ (send cipher conn item writeOk).2 =
        ⟨conn.counter + 1, conn.wire ++ if writeOk then
          frame (Frame.mlsApp (cipher.encrypt conn.counter (frame item.body))).body else [],
          conn.sent ++ [item]⟩ := by
  unfold send
  by_cases hfits : item.FitsNoise
  · have hencode := encode_of_sendable hfits.sendable
    have houter := encode_of_sendable (fitsOuter hcipher hfits conn.counter)
    rw [hencode]
    dsimp only
    rw [if_neg (Nat.not_lt.mpr hfits)]
    split
    · next hend => exact .inl ⟨rfl, fun _ => hend⟩
    · next hend =>
      refine .inr ⟨hfits, Nat.lt_of_not_le hend, ?_⟩
      rw [houter]
      cases writeOk <;> simp
  · refine .inl ⟨?_, fun h => absurd h hfits⟩
    cases hencode : encode item with
    | error e => rfl
    | ok inner =>
      obtain ⟨rfl, -⟩ := encode_ok hencode
      dsimp only
      rw [if_pos (Nat.lt_of_not_le hfits)]

/-! ### The receiving end -/

theorem recv_of_decrypt (hreader : reader.Lawful) (hfits : Sendable MAX_FRAME_SIZE item.body)
    (hcount : counter < NONCE_END) {ciphertext : Bytes}
    (h : cipher.decrypt counter ciphertext = some (frame item.body)) :
    recv cipher reader counter (.mlsApp ciphertext) = (.ok item, counter + 1) := by
  have hdecode : decode reader (frame item.body) = (.ok (some item), []) := by
    rw [← List.append_nil (frame item.body), Frame.body, decode_frame hfits,
      parse_parts hreader hfits]
    rfl
  simp only [recv, if_neg (Nat.not_le.mpr hcount), h, hdecode, if_true]

theorem recv_unforged (hreader : reader.Lawful) {sent : List Frame}
    (h : Unforged cipher sent [item]) (counter : Nat) :
    (∃ e, recv cipher reader counter item = (.error e, counter)) ∨
      ∃ inner, sent[counter]? = some inner ∧
        recv cipher reader counter item = (.ok inner, counter + 1) := by
  cases item with
  | mlsApp ciphertext =>
    by_cases hend : counter ≥ NONCE_END
    · exact .inl ⟨_, by rw [recv, if_pos hend]⟩
    cases hclear : cipher.decrypt counter ciphertext with
    | none => exact .inl ⟨_, by rw [recv, if_neg hend, hclear]⟩
    | some clear =>
      have hcount := Nat.lt_of_not_le hend
      obtain ⟨inner, hinner, hencode⟩ := h ciphertext List.mem_cons_self counter hcount clear hclear
      obtain ⟨rfl, hfits⟩ := encode_ok hencode
      exact .inr ⟨inner, hinner, recv_of_decrypt hreader hfits hcount hclear⟩
  | _ => exact .inl ⟨_, rfl⟩

theorem received_prefix (hreader : reader.Lawful) {sent : List Frame}
    (h : Unforged cipher sent outer) (counter : Nat) :
    (recvAll cipher reader counter outer).filterMap Except.toOption <+: sent.drop counter := by
  induction outer generalizing counter with
  | nil => exact List.nil_prefix
  | cons first outer ih =>
    have hrest : Unforged cipher sent outer :=
      fun ciphertext hmem => h ciphertext (List.mem_cons_of_mem _ hmem)
    have hfirst : Unforged cipher sent [first] :=
      fun ciphertext hmem => h ciphertext (List.mem_singleton.mp hmem ▸ List.mem_cons_self)
    rcases recv_unforged hreader hfirst counter with ⟨e, hrecv⟩ | ⟨inner, hinner, hrecv⟩
    · rw [recvAll, hrecv]
      exact ih hrest counter
    · obtain ⟨hlt, rfl⟩ := List.getElem?_eq_some_iff.mp hinner
      rw [recvAll, hrecv, List.drop_eq_getElem_cons hlt]
      exact (List.prefix_cons_inj _).mpr (ih hrest (counter + 1))

theorem recvAll_sealAll (hcipher : cipher.Lawful) (hreader : reader.Lawful)
    (hfits : ∀ item ∈ items, item.FitsNoise) (hcount : counter + items.length ≤ NONCE_END) :
    recvAll cipher reader counter (sealAll cipher counter items) = items.map .ok := by
  induction items generalizing counter with
  | nil => rfl
  | cons item items ih =>
    rw [List.length_cons] at hcount
    have hitem := hfits item List.mem_cons_self
    have hlt : counter < NONCE_END := by omega
    have hrecv := recv_of_decrypt hreader hitem.sendable hlt (hcipher.decrypt_encrypt hlt hitem)
    rw [sealAll, recvAll, hrecv, List.map_cons]
    exact congrArg _ (ih (fun other hother => hfits other (List.mem_cons_of_mem _ hother))
      (by omega))

/-! ### Both ends -/

/-- The sending end after some frames: the stream takes those that are marked. -/
def sendAll (cipher : Cipher) (sends : List (Frame × Bool)) : Outbound :=
  sends.foldl (fun conn (item, writeOk) => (send cipher conn item writeOk).2) .init

theorem sendAll_sealed (hcipher : cipher.Lawful) {sends : List (Frame × Bool)}
    (hlength : sends.length ≤ NONCE_END) :
    (sendAll cipher sends).counter = (sendAll cipher sends).sent.length ∧
      (sendAll cipher sends).sent = (sends.map Prod.fst).filter (·.FitsNoise) ∧
      ((∀ s ∈ sends, s.2 = true) → (sendAll cipher sends).wire =
        frames ((sealAll cipher 0 (sendAll cipher sends).sent).map Frame.body)) := by
  induction sends using List.reverseRecOn with
  | nil => exact ⟨rfl, rfl, fun _ => rfl⟩
  | append_singleton sends last ih =>
    obtain ⟨item, writeOk⟩ := last
    rw [List.length_append, List.length_singleton] at hlength
    obtain ⟨hcounter, hsent, hwire⟩ := ih (by omega)
    have hle : (sendAll cipher sends).sent.length ≤ sends.length := by
      rw [hsent]
      exact (List.length_filter_le _ _).trans (by rw [List.length_map])
    have hstep : sendAll cipher (sends ++ [(item, writeOk)]) =
        (send cipher (sendAll cipher sends) item writeOk).2 := by
      rw [sendAll, List.foldl_append]
      rfl
    rw [hstep, List.map_append, List.filter_append, ← hsent]
    rcases send_cases hcipher (sendAll cipher sends) item writeOk with
      ⟨hsame, hrefused⟩ | ⟨hfits, -, hnext⟩
    · have hbig : ¬item.FitsNoise := fun hfits => by
        have hend := hrefused hfits
        omega
      rw [hsame]
      refine ⟨hcounter, by simp [hbig], fun hall => hwire fun s hs => ?_⟩
      exact hall s (List.mem_append_left _ hs)
    · rw [hnext]
      refine ⟨by simp [hcounter], by simp [hfits], fun hall => ?_⟩
      have hok : writeOk = true := hall _ (List.mem_append_right _ List.mem_cons_self)
      dsimp only
      rw [hwire fun s hs => hall s (List.mem_append_left _ hs), hok, if_pos rfl, sealAll_concat,
        List.map_append, frames_append, hcounter, Nat.zero_add]
      simp [frames]

theorem sendable_sealAll (hcipher : cipher.Lawful) (hfits : ∀ item ∈ items, item.FitsNoise)
    (counter : Nat) :
    ∀ outer ∈ sealAll cipher counter items, Sendable MAX_FRAME_SIZE outer.body := by
  induction items generalizing counter with
  | nil => exact fun _ hnone => nomatch hnone
  | cons item items ih =>
    refine List.forall_mem_cons.mpr ⟨fitsOuter hcipher (hfits item List.mem_cons_self) counter, ?_⟩
    exact ih (fun other hother => hfits other (List.mem_cons_of_mem _ hother)) (counter + 1)

def stream (reader : PayloadReader) (reads : List Bytes) : Framed :=
  reads.foldl (feed reader) .init

theorem stream_frames (hreader : reader.Lawful) {reads : List Bytes}
    (hfits : ∀ item ∈ outer, Sendable MAX_FRAME_SIZE item.body)
    (h : reads.flatten = frames (outer.map Frame.body)) :
    stream reader reads = ⟨[], outer, none⟩ := by
  have hshort : Short Framed.init.buffer outer := by
    cases outer with
    | nil => rfl
    | cons item outer =>
      show 0 < (frame item.body).length
      rw [length_frame]
      omega
  exact foldl_feed hreader hfits rfl hshort h

/-- What `recv` returns is an initial part of what was sent, in order and once each, whatever bytes
arrive and however they are cut, if nobody else seals; and all that was sent, if the bytes arrive
as they were written. A frame is sent exactly if it fits one Noise message. -/
theorem channel_integrity (cipher : Cipher) (reader : PayloadReader) (hcipher : cipher.Lawful)
    (hreader : reader.Lawful) (sends : List (Frame × Bool)) (hlength : sends.length ≤ NONCE_END)
    (reads : List Bytes) :
    (sendAll cipher sends).sent = (sends.map Prod.fst).filter (·.FitsNoise) ∧
      (Unforged cipher (sendAll cipher sends).sent (stream reader reads).yielded →
        (recvAll cipher reader 0 (stream reader reads).yielded).filterMap Except.toOption <+:
          (sendAll cipher sends).sent) ∧
      ((∀ s ∈ sends, s.2 = true) → reads.flatten = (sendAll cipher sends).wire →
        recvAll cipher reader 0 (stream reader reads).yielded =
            (sendAll cipher sends).sent.map .ok ∧
          (stream reader reads).buffer = [] ∧ (stream reader reads).failed = none) := by
  obtain ⟨-, hsent, hwire⟩ := sendAll_sealed hcipher hlength
  refine ⟨hsent, fun hunforged => received_prefix hreader hunforged 0, fun hall hreads => ?_⟩
  have hfits : ∀ item ∈ (sendAll cipher sends).sent, item.FitsNoise := by
    intro item hitem
    rw [hsent] at hitem
    exact of_decide_eq_true (List.mem_filter.mp hitem).2
  have hcount : 0 + (sendAll cipher sends).sent.length ≤ NONCE_END := by
    have hle := List.length_filter_le (fun item : Frame => item.FitsNoise) (sends.map Prod.fst)
    rw [List.length_map] at hle
    rw [hsent]
    omega
  rw [hwire hall] at hreads
  rw [stream_frames hreader (sendable_sealAll hcipher hfits 0) hreads]
  exact ⟨recvAll_sealAll hcipher hreader hfits hcount, rfl, rfl⟩

/-! ### A session with a replayed message -/

def countingCipher : Cipher where
  encrypt n inner := inner ++ beBytes 16 n
  decrypt n ciphertext :=
    if ciphertext.drop (ciphertext.length - 16) = beBytes 16 n then
      some (ciphertext.take (ciphertext.length - 16))
    else none

theorem countingCipher_lawful : countingCipher.Lawful where
  decrypt_encrypt := by
    intro n inner _ _
    simp [countingCipher]
  length_encrypt := by simp [countingCipher]

theorem countingCipher_opens {n k : Nat} {inner clear : Bytes} (hn : n < NONCE_END)
    (hk : k < NONCE_END)
    (h : countingCipher.decrypt n (countingCipher.encrypt k inner) = some clear) :
    n = k ∧ clear = inner := by
  simp only [countingCipher, List.length_append, length_beBytes, Nat.add_sub_cancel,
    List.drop_left', List.take_left'] at h
  split at h
  · next htag =>
    have hsame := congrArg ofBe htag
    have hwide : NONCE_END < 256 ^ 16 := by decide
    rw [ofBe_beBytes (by omega), ofBe_beBytes (by omega)] at hsame
    cases h
    exact ⟨hsame.symm, rfl⟩
  · cases h

def replayed : List Frame :=
  sealAll countingCipher 0 [.ping] ++ sealAll countingCipher 0 [.ping, .bye]

theorem replay_rejected :
    (stream orderedReader [frames (replayed.map Frame.body)]).yielded = replayed ∧
      Unforged countingCipher [.ping, .bye] replayed ∧
      (recvAll countingCipher orderedReader 0 replayed).filterMap Except.toOption <+:
        [.ping, .bye] := by
  have hstream : stream orderedReader [frames (replayed.map Frame.body)] = ⟨[], replayed, none⟩ :=
    stream_frames orderedReader_lawful (by decide) (List.append_nil _)
  have hunforged : Unforged countingCipher [.ping, .bye] replayed := by
    intro ciphertext hmem n hn clear hclear
    have hsealed : ciphertext = countingCipher.encrypt 0 (frame Frame.ping.body) ∨
        ciphertext = countingCipher.encrypt 1 (frame Frame.bye.body) := by
      simpa [replayed, sealAll] using hmem
    rcases hsealed with rfl | rfl
    · obtain ⟨rfl, rfl⟩ := countingCipher_opens hn (by decide) hclear
      exact ⟨.ping, rfl, rfl⟩
    · obtain ⟨rfl, rfl⟩ := countingCipher_opens hn (by decide) hclear
      exact ⟨.bye, rfl, rfl⟩
  have hsent : (sendAll countingCipher [(.ping, true), (.bye, true)]).sent = [.ping, .bye] := by
    decide +kernel
  have hreceived := (channel_integrity countingCipher orderedReader countingCipher_lawful
    orderedReader_lawful [(.ping, true), (.bye, true)] (by decide)
    [frames (replayed.map Frame.body)]).2.1
  rw [hstream, hsent] at hreceived
  exact ⟨congrArg Framed.yielded hstream, hunforged, hreceived hunforged⟩

end Skattr.Core.Transport

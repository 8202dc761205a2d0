import Skattr.Core.Basic
import Mathlib.Logic.Relation
import Mathlib.Data.Prod.Lex

/-!
# The group wrapper over OpenMLS

`Group` is the daemon's wrapper of an OpenMLS group: its state decides whether it may send and
receive, encrypting and decrypting advance the ratchet in memory, and only a save makes the
advance durable. OpenMLS is a parameter; what the development assumes of it is stated in
`OpenMls.Lawful`, `OpenMls.SingleUse` and `OpenMls.Ratchets`.
-/

namespace Skattr.Core.Mls

open Lib

variable {G : Type}

/-- The body of a deserialized MLS message, as far as the wrapper tells them apart. -/
inductive MessageBody where
  | privateMessage
  | publicMessage
  | other
  deriving DecidableEq

/-- The content of a processed message. A staged commit comes with the result of merging it. -/
inductive Content (G : Type) where
  | application (plaintext : Bytes)
  | stagedCommit (merged : Except String G)
  | proposal
  | externalJoinProposal

/-- The operations of OpenMLS on a group that lives in its storage provider. `load` rebuilds the
provider from a snapshot and looks the group up in it; `createMessage` includes the lookup of the
signer. -/
structure OpenMls (G : Type) where
  load : GroupId → Bytes → Except String (Option G)
  snapshot : G → Bytes
  groupId : G → GroupId
  epoch : G → Nat
  deserialize : Bytes → Except String MessageBody
  createMessage : G → Bytes → Except String (Bytes × G)
  processMessage : G → Bytes → Except String (Content G × G)

/-- The CBOR codec of envelopes. -/
structure EnvelopeCodec where
  encode : Envelope → Except String Bytes
  decode : Bytes → Except String Envelope

inductive GroupState where
  | active (epoch : Nat)
  | pendingJoin
  | corrupt (reason : String)
  deriving DecidableEq

def GroupState.canSend : GroupState → Bool
  | .active _ => true
  | _ => false

def GroupState.canReceive : GroupState → Bool
  | .active _ => true
  | _ => false

structure Group (G : Type) where
  id : GroupId
  state : GroupState
  inner : G

/-- Restore a group from its persisted state. The lifecycle state is not part of the snapshot: a
loaded group is always active. -/
def Group.load (mls : OpenMls G) (id : GroupId) : Option Bytes → Except CoreError (Option (Group G))
  | none => .ok none
  | some blob =>
    match mls.load id blob with
    | .error e => .error (.mls ("mls: load: " ++ e))
    | .ok none => .error .groupCorrupt
    | .ok (some inner) => .ok (some ⟨id, .active (mls.epoch inner), inner⟩)

def Group.encrypt (mls : OpenMls G) (codec : EnvelopeCodec) (group : Group G)
    (envelope : Envelope) : Except CoreError (Bytes × Group G) :=
  if group.state.canSend then
    match codec.encode envelope with
    | .error e => .error (.cborEncode e)
    | .ok plaintext =>
      match mls.createMessage group.inner plaintext with
      | .error e => .error (.mls ("mls: encrypt: " ++ e))
      | .ok (ciphertext, inner) => .ok (ciphertext, { group with inner := inner })
  else .error (.mls "mls: encrypt: invalid state")

/-- Decrypt an inbound message. A commit is merged in place and carries no envelope. -/
def Group.decrypt (mls : OpenMls G) (codec : EnvelopeCodec) (group : Group G)
    (ciphertext : Bytes) : Except CoreError (Option Envelope × Group G) :=
  if group.state.canReceive then
    match mls.deserialize ciphertext with
    | .error e => .error (.mls ("mls: decrypt: deserialize: " ++ e))
    | .ok .other => .error (.mls "mls: decrypt: unsupported message type")
    | .ok _ =>
      match mls.processMessage group.inner ciphertext with
      | .error e => .error (.mls ("mls: authentication failed: " ++ e))
      | .ok (.application plaintext, inner) =>
        match codec.decode plaintext with
        | .error e => .error (.cborDecode e)
        | .ok envelope => .ok (some envelope, { group with inner := inner })
      | .ok (.stagedCommit (.error e), _) => .error (.mls ("mls: merge_staged_commit: " ++ e))
      | .ok (.stagedCommit (.ok inner), _) =>
        .ok (none, { group with state := .active (mls.epoch inner), inner := inner })
      | .ok (.proposal, _) => .error (.mls "mls: decrypt: received Proposal")
      | .ok (.externalJoinProposal, _) =>
        .error (.mls "mls: decrypt: received ExternalJoinProposal")
  else .error (.mls "mls: decrypt: invalid state")

/-! ### What is assumed of OpenMLS -/

/-- One operation turns a group into another. -/
inductive OpenMls.Advances (mls : OpenMls G) : G → G → Prop where
  | created {g g' : G} {plaintext ciphertext : Bytes}
      (h : mls.createMessage g plaintext = .ok (ciphertext, g')) : Advances mls g g'
  | processed {g g' : G} {ciphertext : Bytes} {content : Content G}
      (h : mls.processMessage g ciphertext = .ok (content, g')) : Advances mls g g'
  | merged {g g' merged : G} {ciphertext : Bytes}
      (h : mls.processMessage g ciphertext = .ok (.stagedCommit (.ok merged), g')) :
      Advances mls g merged

def OpenMls.Later (mls : OpenMls G) : G → G → Prop := Relation.ReflTransGen mls.Advances

/-- Snapshots restore the group they were taken of, operations keep the group's id, and a message
names the group that may process it. -/
structure OpenMls.Lawful (mls : OpenMls G) (addressee : Bytes → Option GroupId) : Prop where
  load_snapshot : ∀ g, mls.load (mls.groupId g) (mls.snapshot g) = .ok (some g)
  load_groupId : ∀ {id blob g}, mls.load id blob = .ok (some g) → mls.groupId g = id
  advances_groupId : ∀ {g g'}, mls.Advances g g' → mls.groupId g' = mls.groupId g
  addressed : ∀ {g ciphertext result}, mls.processMessage g ciphertext = .ok result →
    addressee ciphertext = some (mls.groupId g)

/-- The key of a generation decrypts once: no later state of the group processes an application
message that it has processed. -/
def OpenMls.SingleUse (mls : OpenMls G) : Prop :=
  ∀ {g g' g'' : G} {ciphertext plaintext : Bytes},
    mls.processMessage g ciphertext = .ok (.application plaintext, g') → mls.Later g' g'' →
    ∀ result, mls.processMessage g'' ciphertext ≠ .ok result

/-- The sender's place in the key schedule: the epoch, and the generation within it. Encrypting
moves it forward, and nothing moves it back. -/
structure OpenMls.Ratchets (mls : OpenMls G) (generation : G → Nat) : Prop where
  created : ∀ {g g' plaintext ciphertext},
    mls.createMessage g plaintext = .ok (ciphertext, g') →
      mls.epoch g' = mls.epoch g ∧ generation g' = generation g + 1
  processed : ∀ {g g' ciphertext content},
    mls.processMessage g ciphertext = .ok (content, g') →
      mls.epoch g' = mls.epoch g ∧ generation g' = generation g
  merged : ∀ {g g' merged ciphertext},
    mls.processMessage g ciphertext = .ok (.stagedCommit (.ok merged), g') →
      mls.epoch g < mls.epoch merged

/-! ### What an operation of the wrapper did -/

variable {mls : OpenMls G} {addressee : Bytes → Option GroupId} {ciphertext : Bytes}
  {group next : Group G} {codec : EnvelopeCodec} {content : Option Envelope} {envelope : Envelope}

theorem OpenMls.Later.groupId (hmls : mls.Lawful addressee) {g g' : G} (h : mls.Later g g') :
    mls.groupId g' = mls.groupId g := by
  induction h with
  | refl => rfl
  | tail _ hstep ih => rw [hmls.advances_groupId hstep, ih]

theorem OpenMls.Lawful.groupId_eq (hmls : mls.Lawful addressee) {g g' : G}
    {result result' : Content G × G} (h : mls.processMessage g ciphertext = .ok result)
    (h' : mls.processMessage g' ciphertext = .ok result') : mls.groupId g = mls.groupId g' :=
  Option.some.inj ((hmls.addressed h).symm.trans (hmls.addressed h'))

theorem Group.load_ok {id : GroupId} {blob : Option Bytes}
    (h : Group.load mls id blob = .ok (some group)) :
    ∃ stored, blob = some stored ∧ mls.load id stored = .ok (some group.inner) ∧ group.id = id ∧
      group.state = .active (mls.epoch group.inner) := by
  cases blob with
  | none => cases h
  | some stored =>
    simp only [Group.load] at h
    split at h
    · cases h
    · cases h
    · next inner hload =>
      cases h
      exact ⟨stored, rfl, hload, rfl, rfl⟩

theorem Group.encrypt_ok (h : group.encrypt mls codec envelope = .ok (ciphertext, next)) :
    ∃ plaintext, codec.encode envelope = .ok plaintext ∧
      mls.createMessage group.inner plaintext = .ok (ciphertext, next.inner) ∧
      next.id = group.id := by
  unfold Group.encrypt at h
  split at h
  · split at h
    · cases h
    · next plaintext hencode =>
      split at h
      · cases h
      · next hcreate =>
        cases h
        exact ⟨plaintext, hencode, hcreate, rfl⟩
  · cases h

theorem Group.decrypt_ok (h : group.decrypt mls codec ciphertext = .ok (content, next)) :
    next.id = group.id ∧
      ((∃ plaintext envelope, content = some envelope ∧ codec.decode plaintext = .ok envelope ∧
        mls.processMessage group.inner ciphertext = .ok (.application plaintext, next.inner)) ∨
      ∃ g, content = none ∧
        mls.processMessage group.inner ciphertext = .ok (.stagedCommit (.ok next.inner), g)) := by
  unfold Group.decrypt at h
  split at h
  · split at h
    · cases h
    · cases h
    · split at h
      · cases h
      · next plaintext inner hprocess =>
        split at h
        · cases h
        · next envelope hdecode =>
          cases h
          exact ⟨rfl, .inl ⟨plaintext, envelope, rfl, hdecode, hprocess⟩⟩
      · cases h
      · next inner g hprocess =>
        cases h
        exact ⟨rfl, .inr ⟨g, rfl, hprocess⟩⟩
      · cases h
      · cases h
  · cases h

theorem Group.encrypt_later (h : group.encrypt mls codec envelope = .ok (ciphertext, next)) :
    mls.Later group.inner next.inner := by
  obtain ⟨plaintext, -, hcreate, -⟩ := Group.encrypt_ok h
  exact .single (.created hcreate)

theorem Group.decrypt_later (h : group.decrypt mls codec ciphertext = .ok (content, next)) :
    mls.Later group.inner next.inner := by
  rcases (Group.decrypt_ok h).2 with ⟨plaintext, envelope, -, -, hprocess⟩ | ⟨g, -, hprocess⟩
  · exact .single (.processed hprocess)
  · exact .single (.merged hprocess)

theorem Group.decrypt_of_inner {other opened : Group G}
    (h : group.decrypt mls codec ciphertext = .ok (content, opened))
    (hinner : other.inner = group.inner) (hreceive : other.state.canReceive = true) :
    ∃ reopened, other.decrypt mls codec ciphertext = .ok (content, reopened) ∧
      reopened.inner = opened.inner := by
  unfold Group.decrypt at h ⊢
  rw [hinner, if_pos hreceive]
  split at h
  · split at h
    · cases h
    · cases h
    · split at h
      · cases h
      · split at h
        · cases h
        · cases h
          exact ⟨_, rfl, rfl⟩
      · cases h
      · cases h
        exact ⟨_, rfl, rfl⟩
      · cases h
      · cases h
  · cases h

/-! ### A small instance of the assumptions -/

/-- A group that counts the messages it has sent and received. -/
structure Counter where
  id : GroupId
  sent : Nat
  received : Nat
  deriving DecidableEq

/-- The snapshot of a counter: the two counts in unary, with a one between them. -/
def Counter.snapshot (g : Counter) : Bytes :=
  List.replicate g.sent 0 ++ 1 :: List.replicate g.received 0

def Counter.load (id : GroupId) (blob : Bytes) : Counter :=
  ⟨id, (blob.takeWhile (· = 0)).length, (blob.dropWhile (· = 0)).length - 1⟩

/-- An in-order ratchet without secrecy: the first 32 bytes of a message name its group, and the
number of bytes after them is its generation. -/
def counterMls : OpenMls Counter where
  load id blob := .ok (some (.load id blob))
  snapshot := Counter.snapshot
  groupId := Counter.id
  epoch _ := 0
  deserialize _ := .ok .privateMessage
  createMessage g plaintext := .ok (g.id ++ plaintext, { g with sent := g.sent + 1 })
  processMessage g ciphertext :=
    if ciphertext.take 32 = g.id ∧ ciphertext.length = 32 + g.received then
      .ok (.application [], { g with received := g.received + 1 })
    else .error "SecretReuseError"

theorem Counter.load_snapshot (g : Counter) : Counter.load g.id g.snapshot = g := by
  obtain ⟨id, sent, received⟩ := g
  have htake : ((Counter.snapshot ⟨id, sent, received⟩).takeWhile (· = 0)).length = sent := by
    simp [Counter.snapshot, List.takeWhile_append_of_pos]
  have hdrop : ((Counter.snapshot ⟨id, sent, received⟩).dropWhile (· = 0)).length =
      received + 1 := by
    simp [Counter.snapshot, List.dropWhile_append_of_pos]
  simp only [Counter.load, htake, hdrop, Nat.add_sub_cancel]

variable {g g' : Counter}

theorem counterMls_advances (h : counterMls.Advances g g') :
    g' = { g with sent := g.sent + 1 } ∨ g' = { g with received := g.received + 1 } := by
  cases h with
  | created h =>
    cases h
    exact .inl rfl
  | processed h =>
    simp only [counterMls] at h
    split at h
    · cases h
      exact .inr rfl
    · cases h
  | merged h =>
    simp only [counterMls] at h
    split at h <;> cases h

theorem counterMls_processed {result : Content Counter × Counter}
    (h : counterMls.processMessage g ciphertext = .ok result) :
    ciphertext.take 32 = g.id ∧ ciphertext.length = 32 + g.received ∧
      result = (.application [], { g with received := g.received + 1 }) := by
  simp only [counterMls] at h
  split at h
  · next hopen =>
    cases h
    exact ⟨hopen.1, hopen.2, rfl⟩
  · cases h

theorem counterMls_lawful : counterMls.Lawful fun ciphertext => some (ciphertext.take 32) where
  load_snapshot g := by
    show Except.ok (some (Counter.load g.id g.snapshot)) = _
    rw [Counter.load_snapshot]
  load_groupId h := by
    cases h
    rfl
  advances_groupId h := by
    rcases counterMls_advances h with rfl | rfl <;> rfl
  addressed h := by
    rw [(counterMls_processed h).1]
    rfl

theorem counterMls_received_mono (h : counterMls.Later g g') : g.received ≤ g'.received := by
  induction h with
  | refl => exact Nat.le_refl _
  | tail _ hstep ih =>
    rcases counterMls_advances hstep with rfl | rfl
    · exact ih
    · exact Nat.le_succ_of_le ih

theorem counterMls_singleUse : counterMls.SingleUse := by
  intro g g' g'' ciphertext plaintext hfirst hlater result hagain
  have hcount := counterMls_received_mono hlater
  obtain ⟨-, hlength, hresult⟩ := counterMls_processed hfirst
  obtain ⟨-, hlength', -⟩ := counterMls_processed hagain
  cases hresult
  simp only at hcount
  omega

theorem counterMls_ratchets : counterMls.Ratchets Counter.sent where
  created h := by
    cases h
    exact ⟨rfl, rfl⟩
  processed h := by
    cases (counterMls_processed h).2.2
    exact ⟨rfl, rfl⟩
  merged h := by
    cases (counterMls_processed h).2.2

end Skattr.Core.Mls

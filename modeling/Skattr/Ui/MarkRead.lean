import Skattr.Core.Basic
import Skattr.Lib.Run
import Mathlib.Order.Bounds.Defs

/-!
# Marking messages as read from the scroll position

The list reports the last row that is in view, and half a second after the last report the largest
row is marked. What is pending is kept in variables of the module, which outlive the conversation,
and the cursor is written after the reply without another look at the conversation.

`marks_own_rows` says that each request carries the largest row that was reported since the
conversation was opened and that a cursor is raised by requests of its conversation only, in every
run that changes the conversation when nothing is pending and in which no report goes back.
`marked_for_another` shows a switch with a timer, and one with a request, on its way.
-/

namespace Skattr.Ui

open Skattr.Core Lib

/-- A contact of the interface: a key in an array, that `===` compares by its identity. -/
structure ContactRef where
  key : PublicKey
  object : Nat
  deriving DecidableEq

/-- A request of the scroll path, with the rows that were reported since the conversation was
opened. -/
structure MarkRequest where
  contact : ContactRef
  target : Nat
  reported : List Nat

/-- The conversation and the variables of `markReadIfAtBottom`. The last three record the reports
since the conversation was opened, the requests, and which conversation's cursor was raised by a
request for which contact. -/
structure Reader where
  contact : Option ContactRef
  readCursor : Nat
  pendingHighestRowId : Nat
  pendingContact : Option ContactRef
  timer : Bool
  awaiting : List (ContactRef × Nat)
  reported : List Nat
  requests : List MarkRequest
  raised : List (ContactRef × Option ContactRef)

/-- What happens. A reply comes to any of the requests on their way. -/
inductive ReaderEvent where
  | openConversation (contact : ContactRef) (anchor : Option Nat)
  | closeConversation
  | report (rowId : Nat)
  | timeout
  | reply (index : Nat) (ok : Bool)

namespace Reader

def markReadIfAtBottom (rowId : Nat) (reader : Reader) : Reader :=
  match reader.contact with
  | none => reader
  | some contact =>
    let reader := { reader with reported := reader.reported ++ [rowId] }
    if rowId ≤ reader.readCursor then reader
    else
      { reader with
        pendingContact := some contact
        pendingHighestRowId := max reader.pendingHighestRowId rowId
        timer := true }

def timeout (reader : Reader) : Reader :=
  let idle := { reader with pendingHighestRowId := 0, pendingContact := none, timer := false }
  match reader.contact with
  | none => idle
  | some contact =>
    if some contact ≠ reader.pendingContact ∨ reader.pendingHighestRowId ≤ reader.readCursor then
      idle
    else
      { idle with
        awaiting := reader.awaiting ++ [(contact, reader.pendingHighestRowId)]
        requests := reader.requests ++
          [⟨contact, reader.pendingHighestRowId, reader.reported⟩] }

def step (reader : Reader) : ReaderEvent → Reader
  | .openConversation contact anchor =>
    { reader with contact := some contact, readCursor := anchor.getD 0, reported := [] }
  | .closeConversation => { reader with contact := none, readCursor := 0, reported := [] }
  | .report rowId => reader.markReadIfAtBottom rowId
  | .timeout => if reader.timer then reader.timeout else reader
  | .reply index ok =>
    match reader.awaiting[index]? with
    | none => reader
    | some (contact, target) =>
      let answered := { reader with awaiting := reader.awaiting.eraseIdx index }
      if ok then
        { answered with
          readCursor := target
          raised := if reader.readCursor < target then
            reader.raised ++ [(contact, reader.contact)] else reader.raised }
      else answered

/-- Each request carries the largest row that was reported since its conversation was opened, and
cursors are raised by requests of their own conversations. -/
structure Proper (reader : Reader) : Prop where
  requests : ∀ request ∈ reader.requests,
    IsGreatest {rowId | rowId ∈ request.reported} request.target
  raised : ∀ write ∈ reader.raised, write.2.map ContactRef.key = some write.1.key

/-- The conversation changes when nothing is pending, and no report goes back. -/
def Settled (reader : Reader) : ReaderEvent → Prop
  | .openConversation _ _ | .closeConversation => reader.timer = false ∧ reader.awaiting = []
  | .report rowId => ∀ earlier ∈ reader.reported, earlier ≤ rowId
  | .timeout | .reply _ _ => True

/-- What is pending is the largest report of the open conversation. -/
structure Inv (reader : Reader) : Prop where
  proper : reader.Proper
  idle : reader.timer = false → reader.pendingHighestRowId = 0
  pending : reader.timer = true → reader.readCursor ≤ reader.pendingHighestRowId ∧
    IsGreatest {rowId | rowId ∈ reader.reported} reader.pendingHighestRowId
  awaiting : ∀ request ∈ reader.awaiting,
    reader.contact = some request.1 ∧ request.2 ∈ reader.reported

variable {reader : Reader}

theorem Inv.report (h : reader.Inv) {rowId : Nat} (hlast : ∀ earlier ∈ reader.reported,
    earlier ≤ rowId) : (reader.markReadIfAtBottom rowId).Inv := by
  unfold markReadIfAtBottom
  split
  · exact h
  dsimp only
  have hgreatest : IsGreatest {id | id ∈ reader.reported ++ [rowId]} rowId := by
    refine ⟨List.mem_append_right _ List.mem_cons_self, fun id hid => ?_⟩
    rcases List.mem_append.mp hid with hearlier | hid
    · exact hlast id hearlier
    · exact (List.mem_singleton.mp hid).le
  have hawaiting : ∀ request ∈ reader.awaiting, reader.contact = some request.1 ∧
      request.2 ∈ reader.reported ++ [rowId] := fun request hrequest =>
    ⟨(h.awaiting request hrequest).1, List.mem_append_left _ (h.awaiting request hrequest).2⟩
  split
  · next hread =>
    refine ⟨⟨h.proper.requests, h.proper.raised⟩, h.idle, fun htimer => ?_, hawaiting⟩
    obtain ⟨hcursor, hmem, -⟩ := h.pending htimer
    have hsame : rowId = reader.pendingHighestRowId :=
      le_antisymm (hread.trans hcursor) (hlast _ hmem)
    exact ⟨hcursor, hsame ▸ hgreatest⟩
  · next hnew =>
    refine ⟨⟨h.proper.requests, h.proper.raised⟩, nofun, fun _ => ?_, hawaiting⟩
    have hmax : max reader.pendingHighestRowId rowId = rowId := by
      refine max_eq_right ?_
      cases htimer : reader.timer with
      | false =>
        rw [h.idle htimer]
        exact Nat.zero_le _
      | true => exact hlast _ (h.pending htimer).2.1
    dsimp only
    rw [hmax]
    exact ⟨(Nat.lt_of_not_le hnew).le, hgreatest⟩

theorem Inv.timeout (h : reader.Inv) (htimer : reader.timer = true) : reader.timeout.Inv := by
  unfold Reader.timeout
  split
  · exact ⟨⟨h.proper.requests, h.proper.raised⟩, fun _ => rfl, nofun, h.awaiting⟩
  · next contact hcontact =>
    split
    · exact ⟨⟨h.proper.requests, h.proper.raised⟩, fun _ => rfl, nofun, h.awaiting⟩
    · obtain ⟨-, hgreatest⟩ := h.pending htimer
      refine ⟨⟨fun request hrequest => ?_, h.proper.raised⟩, fun _ => rfl, nofun,
        fun request hrequest => ?_⟩
      · rcases List.mem_append.mp hrequest with hold | hnew
        · exact h.proper.requests request hold
        · rw [List.mem_singleton.mp hnew]
          exact hgreatest
      · rcases List.mem_append.mp hrequest with hold | hnew
        · exact h.awaiting request hold
        · rw [List.mem_singleton.mp hnew]
          exact ⟨hcontact, hgreatest.1⟩

theorem Inv.reply (h : reader.Inv) (index : Nat) (ok : Bool) :
    (reader.step (.reply index ok)).Inv := by
  unfold Reader.step
  dsimp only
  split
  · exact h
  · next contact target hrequest =>
    obtain ⟨hcontact, htarget⟩ := h.awaiting _ (List.mem_of_getElem? hrequest)
    have hawaiting := fun request (hmem : request ∈ reader.awaiting.eraseIdx index) =>
      h.awaiting request ((List.eraseIdx_sublist ..).mem hmem)
    split
    · refine ⟨⟨h.proper.requests, fun write hwrite => ?_⟩, h.idle, fun htimer => ?_, hawaiting⟩
      · dsimp only at hwrite
        split at hwrite
        · rcases List.mem_append.mp hwrite with hold | hnew
          · exact h.proper.raised write hold
          · rw [List.mem_singleton.mp hnew, hcontact]
            rfl
        · exact h.proper.raised write hwrite
      · obtain ⟨-, hgreatest⟩ := h.pending htimer
        exact ⟨hgreatest.2 htarget, hgreatest⟩
    · exact ⟨⟨h.proper.requests, h.proper.raised⟩, h.idle, h.pending, hawaiting⟩

theorem Inv.step (h : reader.Inv) {event : ReaderEvent} (hsettled : reader.Settled event) :
    (reader.step event).Inv := by
  cases event with
  | openConversation | closeConversation =>
    obtain ⟨htimer, hawaiting⟩ := hsettled
    refine ⟨⟨h.proper.requests, h.proper.raised⟩, h.idle, fun hpending => ?_,
      fun request hrequest => ?_⟩
    · exact absurd (htimer.symm.trans hpending) Bool.false_ne_true
    · exact absurd (hawaiting ▸ hrequest : request ∈ []) List.not_mem_nil
  | report rowId => exact h.report hsettled
  | timeout =>
    unfold Reader.step
    dsimp only
    split
    · next htimer => exact h.timeout htimer
    · exact h
  | reply index ok => exact h.reply index ok

end Reader

def newReader : Reader := ⟨none, 0, 0, none, false, [], [], [], []⟩

theorem newReader_inv : newReader.Inv := by
  refine ⟨⟨?_, ?_⟩, fun _ => rfl, fun htimer => absurd htimer Bool.false_ne_true, ?_⟩
  all_goals exact fun _ hmem => absurd hmem List.not_mem_nil

/-- In every run that changes the conversation when nothing is pending, and in which no report goes
back, each request and each raised cursor belongs to its own conversation. -/
theorem marks_own_rows (events : List ReaderEvent)
    (hmeets : Meets Reader.step Reader.Settled newReader events) :
    Along Reader.step Reader.Proper newReader events :=
  (along_of_meets (P := Reader.Inv) (fun _ _ h hsettled => h.step hsettled) newReader_inv
    hmeets).imp fun _ h => h.proper

/-- Two conversations that are read one after the other. -/
theorem two_conversations_marked :
    let alice : ContactRef := ⟨.fill 32 1, 0⟩
    let bob : ContactRef := ⟨.fill 32 2, 1⟩
    Along Reader.step Reader.Proper newReader [.openConversation alice none, .report 9, .timeout,
      .reply 0 true, .openConversation bob none, .report 3, .report 4, .timeout] := by
  intro alice bob
  refine marks_own_rows _ ⟨⟨rfl, rfl⟩, ?_, trivial, trivial, ⟨rfl, rfl⟩, ?_, ?_, trivial, trivial⟩
  all_goals
    unfold Reader.Settled
    decide

/-- A row of alice is marked for bob, when bob is opened before the timer fires, and the cursor of
bob is raised, when bob is opened before the reply comes. -/
theorem marked_for_another :
    let alice : ContactRef := ⟨.fill 32 1, 0⟩
    let bob : ContactRef := ⟨.fill 32 2, 1⟩
    ¬([.openConversation alice none, .report 9, .openConversation bob none, .report 3,
      .timeout].foldl Reader.step newReader).Proper ∧
    ¬([.openConversation alice none, .report 9, .timeout, .openConversation bob none,
      .reply 0 true].foldl Reader.step newReader).Proper := by
  intro alice bob
  constructor
  · intro h
    have hmem := (h.requests ⟨bob, 9, [3]⟩ List.mem_cons_self).1
    cases List.mem_singleton.mp hmem
  · intro h
    have hsame := h.raised (alice, some bob) List.mem_cons_self
    revert hsame
    decide

end Skattr.Ui

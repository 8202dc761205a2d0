import Skattr.Core.Ipc
import Skattr.Lib.Progress

/-!
# Wiping all data

`WipeAllData` only sets a one-shot signal. Whichever connection finishes a command next takes the
signal, and that connection tears the daemon down once it has written its own reply and left its
loop. `wipe_carried_out_when_flushed` says that an accepted wipe is carried out in every fair run
in which the connection with the signal gets its reply out, and that a failed reply loses the wipe;
`hang_up_loses_wipe` is a client that sends the request and hangs up.
-/

namespace Skattr.Core.Wipe

open Lib Ipc

/-- The commands, as far as the wipe is concerned. -/
inductive Command (Cmd : Type) where
  | wipeAllData
  | other (cmd : Cmd)
  deriving DecidableEq

variable {Cmd Res Err Path : Type}

/-! ### The daemon -/

/-- Where a connection handler stands: in its select loop, in the executor, before it takes the
wipe signal, before it writes the reply, behind the loop, and in the teardown. -/
inductive Phase (Cmd Res Err Path : Type) where
  | reading
  | executing (cmd : Command Cmd)
  | executed (cmd : Command Cmd) (result : Except Err Res)
  | replying (cmd : Command Cmd) (result : Except Err Res) (wipeTarget : Option Path)
  | leaving (pendingWipe : Option Path)
  | removing (dataDir : Path)
  | exiting
  | finished

structure Handler (Cmd Res Err Path : Type) where
  conn : Conn (Command Cmd) Res Err
  phase : Phase Cmd Res Err Path

/-- The daemon process. `accepted` counts the wipes that were executed with result `Ok`. -/
structure World (Cmd Res Err Path : Type) where
  handlers : Nat → Option (Handler Cmd Res Err Path)
  wipeTarget : Option Path
  dirs : Path → Bool
  exited : Bool
  accepted : Nat

def World.init : World Cmd Res Err Path := ⟨fun _ => none, none, fun _ => true, false, 0⟩

/-- What can happen next: a client connects, a connection reads from its client or from the event
bus, the executor is done with a command, or a handler takes its next step behind the executor;
`ok` tells whether the write or the removal in that step succeeds. -/
inductive Action (Cmd Res Err : Type) where
  | accept (i : Nat)
  | receive (i : Nat) (action : Ipc.Action (Command Cmd) Res Err)
  | execute (i : Nat) (result : Except Err Res)
  | proceed (i : Nat) (ok : Bool)

def Action.handler : Action Cmd Res Err → Nat
  | .accept i => i
  | .receive i _ => i
  | .execute i _ => i
  | .proceed i _ => i

section Step

variable (decode : Bytes → Except String (IpcRequest (Command Cmd))) (okResult : Res)
  (dataDir : Path)

/-- The command of an `Execute` request that a poll of the frame reader completes. -/
def execute? (conn : Conn (Command Cmd) Res Err) (count : Nat) :
    Option (Conn (Command Cmd) Res Err × Command Cmd) :=
  let taken := min count (wanted conn.got)
  let conn := { conn with
    got := conn.got ++ conn.unread.take taken
    unread := conn.unread.drop taken }
  match readFrame conn.got with
  | .ready body =>
    match decode body with
    | .ok (.execute cmd) => some ({ conn with got := [], handled := conn.handled ++ [body] }, cmd)
    | _ => none
  | _ => none

def Handler.loop (conn : Conn (Command Cmd) Res Err) (pendingWipe : Option Path) :
    Handler Cmd Res Err Path :=
  if conn.isOpen then ⟨conn, .reading⟩ else ⟨conn, .leaving pendingWipe⟩

def Handler.receive (conn : Conn (Command Cmd) Res Err)
    (action : Ipc.Action (Command Cmd) Res Err) : Handler Cmd Res Err Path :=
  match action with
  | .poll count _ =>
    match execute? decode conn count with
    | some (conn, cmd) => ⟨conn, .executing cmd⟩
    | none => .loop (conn.step decode action) none
  | _ => .loop (conn.step decode action) none

/-- Write the reply. The signal is kept for the teardown only if the write succeeds. -/
def Handler.reply (conn : Conn (Command Cmd) Res Err) (cmd : Command Cmd)
    (result : Except Err Res) (wipeTarget : Option Path) (ok : Bool) : Handler Cmd Res Err Path :=
  .loop (conn.handle (.execute cmd) ⟨fun _ => result, wipeTarget.isSome, false, ok, false⟩)
    (if ok then wipeTarget else none)

def World.put (world : World Cmd Res Err Path) (i : Nat) (handler : Handler Cmd Res Err Path) :
    World Cmd Res Err Path :=
  { world with handlers := Function.update world.handlers i (some handler) }

def World.signalWipe (world : World Cmd Res Err Path) : World Cmd Res Err Path :=
  { world with wipeTarget := some (world.wipeTarget.getD dataDir), accepted := world.accepted + 1 }

def World.execute (world : World Cmd Res Err Path) (i : Nat) (conn : Conn (Command Cmd) Res Err)
    (cmd : Command Cmd) (result : Except Err Res) : World Cmd Res Err Path :=
  match cmd with
  | .wipeAllData => (world.signalWipe dataDir).put i ⟨conn, .executed cmd (.ok okResult)⟩
  | .other _ => world.put i ⟨conn, .executed cmd result⟩

variable [DecidableEq Path]

/-- The next step of a handler behind the executor: take the signal, write the reply, write the
terminal frame and close the pool, remove the data directory, exit. -/
def World.proceed (world : World Cmd Res Err Path) (i : Nat) (ok : Bool) :
    Handler Cmd Res Err Path → World Cmd Res Err Path
  | ⟨conn, .executed cmd result⟩ =>
    { world with wipeTarget := none }.put i ⟨conn, .replying cmd result world.wipeTarget⟩
  | ⟨conn, .replying cmd result target⟩ => world.put i (.reply conn cmd result target ok)
  | ⟨conn, .leaving none⟩ => world.put i ⟨conn, .finished⟩
  | ⟨conn, .leaving (some dir)⟩ => world.put i ⟨conn, .removing dir⟩
  | ⟨conn, .removing dir⟩ =>
    -- a removal that fails is logged, and the process exits anyway
    { world with dirs := if ok then Function.update world.dirs dir false else world.dirs }.put i
      ⟨conn, .exiting⟩
  | ⟨_, .exiting⟩ => { world with exited := true }
  | ⟨_, .reading⟩ | ⟨_, .executing _⟩ | ⟨_, .finished⟩ => world

def World.step (world : World Cmd Res Err Path) (action : Action Cmd Res Err) :
    World Cmd Res Err Path :=
  if world.exited then world
  else
    match action, world.handlers action.handler with
    | .accept i, none => world.put i ⟨.init, .reading⟩
    | .receive i action, some ⟨conn, .reading⟩ => world.put i (.receive decode conn action)
    | .execute i result, some ⟨conn, .executing cmd⟩ =>
      world.execute okResult dataDir i conn cmd result
    | .proceed i ok, some handler => world.proceed i ok handler
    | _, _ => world

def states (schedule : Nat → Action Cmd Res Err) : Nat → World Cmd Res Err Path :=
  trace (World.step decode okResult dataDir) World.init schedule

end Step

variable {world next : World Cmd Res Err Path} {i j n : Nat} {phase : Phase Cmd Res Err Path}
  {action : Action Cmd Res Err} {handler : Handler Cmd Res Err Path}

theorem World.put_cases {found : Handler Cmd Res Err Path}
    (h : (world.put i handler).handlers j = some found) :
    (j = i ∧ handler = found) ∨ (j ≠ i ∧ world.handlers j = some found) := by
  rcases update_eq_some_cases h with ⟨hji, hfound⟩ | hother
  · exact .inl ⟨hji, Option.some.inj hfound⟩
  · exact .inr hother

theorem World.put_self (world : World Cmd Res Err Path) (i : Nat)
    (handler : Handler Cmd Res Err Path) : (world.put i handler).handlers i = some handler :=
  Function.update_self ..

theorem World.put_of_ne (world : World Cmd Res Err Path) (h : j ≠ i)
    (handler : Handler Cmd Res Err Path) : (world.put i handler).handlers j = world.handlers j :=
  Function.update_of_ne h ..

/-! ### What a step changes -/

/-- The steps that a handler with the wipe signal has to take before the process exits. -/
def Phase.remaining : Phase Cmd Res Err Path → Option Nat
  | .replying _ _ (some _) => some 4
  | .leaving (some _) => some 3
  | .removing _ => some 2
  | .exiting => some 1
  | _ => none

def Phase.target : Phase Cmd Res Err Path → Option Path
  | .replying _ _ target => target
  | .leaving target => target
  | .removing dir => some dir
  | _ => none

def Phase.takes : Phase Cmd Res Err Path → Bool
  | .executed _ _ => true
  | _ => false

/-- The handler has nothing to do with the wipe. -/
structure Phase.Idle (phase : Phase Cmd Res Err Path) : Prop where
  remaining : phase.remaining = none
  takes : phase.takes = false

theorem Handler.loop_idle (conn : Conn (Command Cmd) Res Err) :
    (Handler.loop conn none : Handler Cmd Res Err Path).phase.Idle := by
  unfold Handler.loop
  split
  · exact ⟨rfl, rfl⟩
  · exact ⟨rfl, rfl⟩

theorem Handler.receive_idle (decode : Bytes → Except String (IpcRequest (Command Cmd)))
    (conn : Conn (Command Cmd) Res Err) (action : Ipc.Action (Command Cmd) Res Err) :
    (Handler.receive decode conn action : Handler Cmd Res Err Path).phase.Idle := by
  unfold Handler.receive
  split
  · split
    · exact ⟨rfl, rfl⟩
    · exact Handler.loop_idle _
  · exact Handler.loop_idle _

theorem isOpen_handle_wipe (conn : Conn (Command Cmd) Res Err) (cmd : Command Cmd)
    (result : Except Err Res) (ok : Bool) :
    (conn.handle (.execute cmd) ⟨fun _ => result, true, false, ok, false⟩).isOpen = false := by
  cases result with
  | ok | error =>
    simp only [Conn.handle]
    split
    · rfl
    · next h => simpa using h

theorem Handler.reply_some (conn : Conn (Command Cmd) Res Err) (cmd : Command Cmd)
    (result : Except Err Res) (dir : Path) (ok : Bool) :
    (Handler.reply conn cmd result (some dir) ok).phase =
      .leaving (if ok then some dir else none) := by
  unfold Handler.reply Handler.loop
  rw [if_neg]
  rw [Option.isSome_some, isOpen_handle_wipe]
  exact Bool.false_ne_true

theorem Phase.Idle.target (h : phase.Idle) : phase.target = none := by
  have hremaining := h.remaining
  rcases phase with _ | _ | _ | ⟨_, _, _ | _⟩ | ⟨_ | _⟩ | _ | _ | _ <;>
    first | rfl | cases hremaining

theorem Phase.remaining_of_takes (h : phase.takes = true) :
    phase.remaining = none ∧ phase.target = none := by
  cases phase <;> first | exact ⟨rfl, rfl⟩ | cases h

theorem Phase.takes_of_remaining (h : phase.remaining = some n) : phase.takes = false := by
  cases phase <;> first | rfl | cases h

variable {dataDir : Path} [DecidableEq Path] {carrier taker : Handler Cmd Res Err Path}

/-- What a step may change, by its handler's part in the wipe. -/
inductive Change (dataDir : Path) (world : World Cmd Res Err Path) :
    Action Cmd Res Err → World Cmd Res Err Path → Prop
  | stay (action : Action Cmd Res Err)
      (hturn : ∀ i ok handler, action = .proceed i ok → world.handlers i = some handler →
        world.exited = true ∨ handler.phase.Idle) : Change dataDir world action world
  | quiet (action : Action Cmd Res Err) (handler : Handler Cmd Res Err Path)
      (hold : ∀ old, world.handlers action.handler = some old → old.phase.Idle)
      (hnew : handler.phase.Idle) : Change dataDir world action (world.put action.handler handler)
  | execute (action : Action Cmd Res Err) (handler : Handler Cmd Res Err Path)
      (hold : ∀ old, world.handlers action.handler = some old → old.phase.Idle)
      (hnew : handler.phase.takes = true) :
      Change dataDir world action (world.put action.handler handler)
  | signal (action : Action Cmd Res Err) (handler : Handler Cmd Res Err Path)
      (hold : ∀ old, world.handlers action.handler = some old → old.phase.Idle)
      (hnew : handler.phase.takes = true) :
      Change dataDir world action ((world.signalWipe dataDir).put action.handler handler)
  | take (i : Nat) (ok : Bool) (old handler : Handler Cmd Res Err Path)
      (hlookup : world.handlers i = some old) (hold : old.phase.takes = true)
      (hremaining : handler.phase.remaining = world.wipeTarget.map fun _ => 4)
      (htarget : handler.phase.target = world.wipeTarget) (hnew : handler.phase.takes = false) :
      Change dataDir world (.proceed i ok) ({ world with wipeTarget := none }.put i handler)
  | lose (i : Nat) (old handler : Handler Cmd Res Err Path)
      (hlookup : world.handlers i = some old) (hold : old.phase.remaining = some 4)
      (hnew : handler.phase.Idle) :
      Change dataDir world (.proceed i false) (world.put i handler)
  | advance (i : Nat) (ok : Bool) (n : Nat) (old handler : Handler Cmd Res Err Path)
      (hlookup : world.handlers i = some old) (hold : old.phase.remaining = some (n + 3))
      (hremaining : handler.phase.remaining = some (n + 2))
      (htarget : handler.phase.target = old.phase.target) (hok : n = 1 → ok = true) :
      Change dataDir world (.proceed i ok) (world.put i handler)
  | remove (i : Nat) (ok : Bool) (dir : Path) (conn : Conn (Command Cmd) Res Err)
      (hlookup : world.handlers i = some ⟨conn, .removing dir⟩) :
      Change dataDir world (.proceed i ok)
        ({ world with
          dirs := if ok then Function.update world.dirs dir false else world.dirs }.put i
            ⟨conn, .exiting⟩)
  | exit (i : Nat) (ok : Bool) (conn : Conn (Command Cmd) Res Err)
      (hlookup : world.handlers i = some ⟨conn, .exiting⟩) :
      Change dataDir world (.proceed i ok) { world with exited := true }

theorem World.proceed_change (ok : Bool) (hlookup : world.handlers i = some handler) :
    Change dataDir world (.proceed i ok) (world.proceed i ok handler) := by
  have hself (old : Handler Cmd Res Err Path) (h : world.handlers i = some old) :
      old = handler := by
    rw [hlookup] at h
    exact (Option.some.inj h).symm
  rcases handler with ⟨conn, phase⟩
  cases phase with
  | reading | executing | finished =>
    refine .stay _ fun j ok' old haction hold => .inr ?_
    cases haction
    rw [hself old hold]
    exact ⟨rfl, rfl⟩
  | executed cmd result =>
    refine .take i ok _ _ hlookup rfl ?_ rfl rfl
    show (Phase.replying cmd result world.wipeTarget).remaining = _
    cases world.wipeTarget <;> rfl
  | replying cmd result target =>
    cases target with
    | none =>
      refine .quiet (.proceed i ok) _ (fun old hold => ?_) ?_
      · rw [hself old hold]
        exact ⟨rfl, rfl⟩
      · unfold Handler.reply
        rw [ite_self]
        exact Handler.loop_idle _
    | some dir =>
      have hreply := Handler.reply_some conn cmd result dir ok
      cases ok with
      | true =>
        refine .advance i true 1 _ _ hlookup rfl ?_ ?_ fun _ => rfl
        · rw [hreply]
          rfl
        · rw [hreply]
          rfl
      | false =>
        refine .lose i _ _ hlookup rfl ?_
        rw [hreply]
        exact ⟨rfl, rfl⟩
  | leaving pendingWipe =>
    cases pendingWipe with
    | none =>
      refine .quiet (.proceed i ok) _ (fun old hold => ?_) ?_
      · rw [hself old hold]
        exact ⟨rfl, rfl⟩
      · exact ⟨rfl, rfl⟩
    | some dir => exact .advance i ok 0 _ _ hlookup rfl rfl rfl (by omega)
  | removing dir => exact .remove i ok dir conn hlookup
  | exiting => exact .exit i ok conn hlookup

theorem World.step_change (decode : Bytes → Except String (IpcRequest (Command Cmd)))
    (okResult : Res) (world : World Cmd Res Err Path) (action : Action Cmd Res Err) :
    Change dataDir world action (world.step decode okResult dataDir action) := by
  unfold World.step
  split
  · next hexited => exact .stay _ fun _ _ _ _ _ => .inl hexited
  split
  · next i hnone =>
    refine .quiet (.accept i) _ (fun old hold => ?_) ⟨rfl, rfl⟩
    rw [hnone] at hold
    cases hold
  · next i action conn hlookup =>
    refine .quiet (.receive i action) _ (fun old hold => ?_) (Handler.receive_idle decode conn _)
    rw [hlookup] at hold
    cases hold
    exact ⟨rfl, rfl⟩
  · next i result conn cmd hlookup =>
    change world.handlers i = _ at hlookup
    have hidle (old : Handler Cmd Res Err Path) (hold : world.handlers i = some old) :
        old.phase.Idle := by
      rw [hlookup] at hold
      cases hold
      exact ⟨rfl, rfl⟩
    cases cmd with
    | wipeAllData => exact .signal (.execute i result) _ hidle rfl
    | other cmd => exact .execute (.execute i result) _ hidle rfl
  · next i ok handler hlookup => exact World.proceed_change ok hlookup
  · next hother =>
    refine .stay _ fun i ok handler haction hlookup => ?_
    subst haction
    exact absurd hlookup (hother i ok handler rfl)

theorem Change.other_handler (hchange : Change dataDir world action next) (hi : i ≠ action.handler)
    :
    next.handlers i = world.handlers i := by
  cases hchange with
  | stay | exit => rfl
  | quiet | execute | signal | take | lose | advance | remove => exact World.put_of_ne _ hi _

/-! ### The signal is not lost -/

/-- The handler has the signal, and this many steps of the teardown are left. -/
def World.CarriedBy (i n : Nat) (world : World Cmd Res Err Path) : Prop :=
  ∃ handler, world.handlers i = some handler ∧ handler.phase.remaining = some n

def World.Carried (world : World Cmd Res Err Path) : Prop := ∃ i n, world.CarriedBy i n

def World.Wiped (dataDir : Path) (world : World Cmd Res Err Path) : Prop :=
  world.exited = true ∧ world.dirs dataDir = false

/-- What holds as long as the handlers that carry the signal get their replies out. -/
structure Inv (dataDir : Path) (world : World Cmd Res Err Path) : Prop where
  signalled : world.wipeTarget ≠ none →
    ∃ i handler, world.handlers i = some handler ∧ handler.phase.takes = true
  signal : ∀ dir, world.wipeTarget = some dir → dir = dataDir
  target : ∀ i handler dir, world.handlers i = some handler → handler.phase.target = some dir →
    dir = dataDir
  exiting : ∀ i handler, world.handlers i = some handler → handler.phase.remaining = some 1 →
    world.dirs dataDir = false
  exited : world.exited = true → world.dirs dataDir = false
  pending : 0 < world.accepted → world.wipeTarget ≠ none ∨ world.Carried ∨ world.exited = true

/-- The handler that carries the signal writes its reply, and the removal succeeds. -/
def Flushes (world : World Cmd Res Err Path) (action : Action Cmd Res Err) : Prop :=
  ∀ i ok handler n, action = .proceed i ok → world.handlers i = some handler →
    handler.phase.remaining = some n → n = 4 ∨ n = 2 → ok = true

variable {base : World Cmd Res Err Path} {ok : Bool}

omit [DecidableEq Path] in
theorem Inv.put (h : Inv dataDir world) (hhandlers : base.handlers = world.handlers)
    (hexited : base.exited = world.exited)
    (hsignal : ∀ dir, base.wipeTarget = some dir → dir = dataDir)
    (htakes : base.wipeTarget ≠ none → handler.phase.takes = true ∨ world.wipeTarget ≠ none ∧ ∀
      old, world.handlers i = some old → old.phase.takes = false)
    (htarget : ∀ dir, handler.phase.target = some dir → dir = dataDir)
    (hexiting : handler.phase.remaining = some 1 → base.dirs dataDir = false)
    (hdirs : world.dirs dataDir = false → base.dirs dataDir = false)
    (hpending : 0 < base.accepted → base.wipeTarget ≠ none ∨ (∃ n, handler.phase.remaining = some
      n) ∨ 0 < world.accepted ∧ (world.wipeTarget ≠ none → base.wipeTarget ≠ none) ∧ ∀ old,
      world.handlers i = some old → old.phase.remaining = none) :
    Inv dataDir (base.put i handler) where
  signalled := by
    intro hset
    rcases htakes hset with hself | ⟨hworld, hold⟩
    · exact ⟨i, handler, base.put_self i handler, hself⟩
    · obtain ⟨j, taker, hlookup, htaker⟩ := h.signalled hworld
      have hji : j ≠ i := by
        rintro rfl
        rw [hold taker hlookup] at htaker
        cases htaker
      exact ⟨j, taker, by rw [base.put_of_ne hji, hhandlers, hlookup], htaker⟩
  signal := hsignal
  target := by
    intro j found dir hlookup hdir
    rcases World.put_cases hlookup with ⟨-, rfl⟩ | ⟨-, hfound⟩
    · exact htarget dir hdir
    · exact h.target j found dir (hhandlers ▸ hfound) hdir
  exiting := by
    intro j found hlookup hone
    rcases World.put_cases hlookup with ⟨-, rfl⟩ | ⟨-, hfound⟩
    · exact hexiting hone
    · exact hdirs (h.exiting j found (hhandlers ▸ hfound) hone)
  exited := fun hexit => hdirs (h.exited (hexited ▸ hexit))
  pending := by
    intro haccepted
    rcases hpending haccepted with hset | ⟨n, hn⟩ | ⟨hbefore, hsignal, hidle⟩
    · exact .inl hset
    · exact .inr (.inl ⟨i, n, handler, base.put_self i handler, hn⟩)
    · rcases h.pending hbefore with hset | ⟨j, n, carrier, hlookup, hn⟩ | hexit
      · exact .inl (hsignal hset)
      · have hji : j ≠ i := by
          rintro rfl
          rw [hidle carrier hlookup] at hn
          cases hn
        exact .inr (.inl ⟨j, n, carrier, by rw [base.put_of_ne hji, hhandlers, hlookup], hn⟩)
      · exact .inr (.inr (hexited ▸ hexit))

omit [DecidableEq Path] in
theorem Inv.put_blank (h : Inv dataDir world) (htarget : handler.phase.target = none)
    (hremaining : handler.phase.remaining = none) (hhandlers : base.handlers = world.handlers)
    (hexited : base.exited = world.exited) (hdirs : base.dirs = world.dirs)
    (hsignal : ∀ dir, base.wipeTarget = some dir → dir = dataDir)
    (htakes : base.wipeTarget ≠ none → handler.phase.takes = true ∨ world.wipeTarget ≠ none ∧ ∀
      old, world.handlers i = some old → old.phase.takes = false)
    (hpending : 0 < base.accepted → base.wipeTarget ≠ none ∨ 0 < world.accepted ∧ (world.wipeTarget
      ≠ none → base.wipeTarget ≠ none) ∧ ∀ old, world.handlers i = some old → old.phase.remaining =
      none) : Inv dataDir (base.put i handler) := by
  refine h.put hhandlers hexited hsignal htakes ?_ ?_ (fun hgone => hdirs ▸ hgone)
    fun haccepted => (hpending haccepted).imp_right .inr
  · intro dir hdir
    rw [htarget] at hdir
    cases hdir
  · intro hone
    rw [hremaining] at hone
    cases hone

theorem Inv.step (h : Inv dataDir world) (hflush : Flushes world action)
    (hchange : Change dataDir world action next) : Inv dataDir next := by
  cases hchange with
  | stay => exact h
  | quiet _ handler hold hnew =>
    exact h.put_blank hnew.target hnew.remaining rfl rfl rfl h.signal
      (fun hset => .inr ⟨hset, fun old hl => (hold old hl).takes⟩)
      fun haccepted => .inr ⟨haccepted, id, fun old hl => (hold old hl).remaining⟩
  | execute _ handler hold hnew =>
    obtain ⟨hremaining, htarget⟩ := Phase.remaining_of_takes hnew
    exact h.put_blank htarget hremaining rfl rfl rfl h.signal (fun _ => .inl hnew)
      fun haccepted => .inr ⟨haccepted, id, fun old hl => (hold old hl).remaining⟩
  | signal _ handler hold hnew =>
    obtain ⟨hremaining, htarget⟩ := Phase.remaining_of_takes hnew
    have hset : (world.signalWipe dataDir).wipeTarget ≠ none := Option.some_ne_none _
    refine h.put_blank htarget hremaining rfl rfl rfl ?_ (fun _ => .inl hnew) fun _ => .inl hset
    intro dir hdir
    cases htarget : world.wipeTarget with
    | none =>
      simp only [World.signalWipe, htarget, Option.getD_none, Option.some.injEq] at hdir
      exact hdir.symm
    | some old =>
      simp only [World.signalWipe, htarget, Option.getD_some, Option.some.injEq] at hdir
      exact hdir ▸ h.signal old htarget
  | take i ok old handler hlookup hold hremaining htarget hnew =>
    refine h.put rfl rfl (fun dir hdir => by cases hdir) (fun hset => absurd rfl hset) ?_ ?_ id ?_
    · intro dir hdir
      rw [htarget] at hdir
      exact h.signal dir hdir
    · intro hone
      rw [hremaining] at hone
      cases htarget : world.wipeTarget with
      | none => rw [htarget] at hone; cases hone
      | some dir => rw [htarget] at hone; cases hone
    · intro haccepted
      cases htarget : world.wipeTarget with
      | none =>
        refine .inr (.inr ⟨haccepted, fun hset => absurd rfl hset, fun found hfound => ?_⟩)
        rw [hlookup] at hfound
        cases hfound
        exact (Phase.remaining_of_takes hold).1
      | some dir => exact .inr (.inl ⟨4, by rw [hremaining, htarget]; rfl⟩)
  | lose i old handler hlookup hold hnew =>
    cases hflush i false old 4 rfl hlookup hold (.inl rfl)
  | advance i ok n old handler hlookup hold hremaining htarget =>
    have htakes := Phase.takes_of_remaining hold
    refine h.put rfl rfl h.signal ?_ ?_ ?_ id fun _ => .inr (.inl ⟨n + 2, hremaining⟩)
    · intro hset
      refine .inr ⟨hset, fun found hfound => ?_⟩
      rw [hlookup] at hfound
      cases hfound
      exact htakes
    · intro dir hdir
      rw [htarget] at hdir
      exact h.target i old dir hlookup hdir
    · intro hone
      rw [hremaining] at hone
      cases hone
  | remove i ok dir conn hlookup =>
    obtain rfl : ok = true := hflush i ok _ 2 rfl hlookup rfl (.inr rfl)
    obtain rfl : dir = dataDir := h.target i _ dir hlookup rfl
    have hgone : Function.update world.dirs dir false dir = false := Function.update_self ..
    refine h.put rfl rfl h.signal ?_ (fun _ hdir => by cases hdir) (fun _ => hgone)
      (fun _ => hgone) fun _ => .inr (.inl ⟨1, rfl⟩)
    intro hset
    refine .inr ⟨hset, fun found hfound => ?_⟩
    rw [hlookup] at hfound
    cases hfound
    rfl
  | exit i ok conn hlookup =>
    exact ⟨h.signalled, h.signal, h.target, h.exiting, fun _ => h.exiting i _ hlookup rfl,
      fun _ => .inr (.inr rfl)⟩

/-! ### Progress -/

theorem Change.carrier_waits (hchange : Change dataDir world action next)
    (hcarrier : world.handlers j = some carrier) (hn : carrier.phase.remaining = some n)
    (hother : ¬∃ ok, action = .proceed j ok) : next.handlers j = some carrier := by
  have hnotIdle : ¬carrier.phase.Idle := by
    intro hidle
    rw [hidle.remaining] at hn
    cases hn
  cases hchange with
  | stay | exit => exact hcarrier
  | quiet _ handler hold hnew | execute _ handler hold hnew | signal _ handler hold hnew =>
    have hne : j ≠ action.handler := by
      rintro rfl
      exact hnotIdle (hold carrier hcarrier)
    rw [World.put_of_ne _ hne]
    exact hcarrier
  | take i ok | lose i | advance i ok | remove i ok =>
    have hne : j ≠ i := by
      rintro rfl
      exact hother ⟨_, rfl⟩
    rw [World.put_of_ne _ hne]
    exact hcarrier

theorem Change.carrier_turn (hchange : Change dataDir world (.proceed j ok) next)
    (hinv : Inv dataDir world) (hflush : Flushes world (.proceed j ok))
    (hcarrier : world.handlers j = some carrier) (hn : carrier.phase.remaining = some n) :
    next.Wiped dataDir ∨ ∃ m, m < n ∧ next.CarriedBy j m := by
  have hnotIdle : ¬carrier.phase.Idle := by
    intro hidle
    rw [hidle.remaining] at hn
    cases hn
  cases hchange with
  | stay _ hturn =>
    rcases hturn j ok carrier rfl hcarrier with hexited | hidle
    · exact .inl ⟨hexited, hinv.exited hexited⟩
    · exact absurd hidle hnotIdle
  | quiet _ handler hold hnew | execute _ handler hold hnew | signal _ handler hold hnew =>
    exact absurd (hold carrier hcarrier) hnotIdle
  | take _ _ old handler hlookup hold =>
    rw [hcarrier] at hlookup
    cases hlookup
    rw [(Phase.remaining_of_takes hold).1] at hn
    cases hn
  | lose _ old handler hlookup hold =>
    cases hflush j false old 4 rfl hlookup hold (.inl rfl)
  | advance _ _ m old handler hlookup hold hremaining =>
    rw [hcarrier] at hlookup
    cases hlookup
    rw [hold] at hn
    cases hn
    exact .inr ⟨m + 2, by omega, handler, world.put_self j handler, hremaining⟩
  | remove _ _ dir conn hlookup =>
    rw [hcarrier] at hlookup
    cases hlookup
    cases hn
    exact .inr ⟨1, by omega, _, World.put_self _ j _, rfl⟩
  | exit _ _ conn hlookup =>
    exact .inl ⟨rfl, hinv.exiting j _ hlookup rfl⟩

theorem Change.taker_waits (hchange : Change dataDir world action next)
    (hset : world.wipeTarget ≠ none) (htaker : world.handlers j = some taker)
    (htakes : taker.phase.takes = true) (hother : ¬∃ ok, action = .proceed j ok) :
    (next.wipeTarget ≠ none ∧ next.handlers j = some taker) ∨ next.Carried := by
  have hnotIdle : ¬taker.phase.Idle := by
    intro hidle
    rw [hidle.takes] at htakes
    cases htakes
  cases hchange with
  | stay | exit => exact .inl ⟨hset, htaker⟩
  | quiet _ handler hold hnew | execute _ handler hold hnew =>
    have hne : j ≠ action.handler := by
      rintro rfl
      exact hnotIdle (hold taker htaker)
    exact .inl ⟨hset, by rw [World.put_of_ne _ hne, htaker]⟩
  | signal _ handler hold hnew =>
    have hne : j ≠ action.handler := by
      rintro rfl
      exact hnotIdle (hold taker htaker)
    refine .inl ⟨Option.some_ne_none _, ?_⟩
    rw [World.put_of_ne _ hne]
    exact htaker
  | take i ok old handler hlookup hold hremaining =>
    obtain ⟨dir, hdir⟩ := Option.ne_none_iff_exists'.mp hset
    rw [hdir] at hremaining
    exact .inr ⟨i, 4, handler, World.put_self _ i handler, hremaining⟩
  | lose i | advance i ok | remove i ok =>
    have hne : j ≠ i := by
      rintro rfl
      exact hother ⟨_, rfl⟩
    refine .inl ⟨hset, ?_⟩
    rw [World.put_of_ne _ hne]
    exact htaker

theorem Change.taker_turn (hchange : Change dataDir world (.proceed j ok) next)
    (hset : world.wipeTarget ≠ none) (htaker : world.handlers j = some taker)
    (htakes : taker.phase.takes = true) : next.Carried ∨ next.exited = true := by
  have hnotIdle : ¬taker.phase.Idle := by
    intro hidle
    rw [hidle.takes] at htakes
    cases htakes
  have hremaining := (Phase.remaining_of_takes htakes).1
  cases hchange with
  | stay _ hturn =>
    rcases hturn j ok taker rfl htaker with hexited | hidle
    · exact .inr hexited
    · exact absurd hidle hnotIdle
  | quiet _ handler hold hnew | execute _ handler hold hnew | signal _ handler hold hnew =>
    exact absurd (hold taker htaker) hnotIdle
  | take _ _ old handler hlookup hold hfour =>
    obtain ⟨dir, hdir⟩ := Option.ne_none_iff_exists'.mp hset
    rw [hdir] at hfour
    exact .inl ⟨j, 4, handler, World.put_self _ j handler, hfour⟩
  | lose _ old handler hlookup hold | advance _ _ m old handler hlookup hold =>
    rw [htaker] at hlookup
    cases hlookup
    rw [hremaining] at hold
    cases hold
  | remove _ _ dir conn hlookup | exit _ _ conn hlookup =>
    rw [htaker] at hlookup
    cases hlookup
    cases htakes

section Progress

variable (decode : Bytes → Except String (IpcRequest (Command Cmd))) (okResult : Res)
  (dataDir : Path) (schedule : Nat → Action Cmd Res Err)

def Turn (i t : Nat) : Prop := ∃ u ok, t ≤ u ∧ schedule u = .proceed i ok

/-- The daemon's own steps are carried out: a handler that is past the executor takes the signal,
and one in the teardown goes on with it. -/
structure Fair : Prop where
  takes : ∀ t i handler, (states decode okResult dataDir schedule t).handlers i = some handler →
    handler.phase.takes = true → Turn schedule i t
  tearsDown : ∀ t i handler n,
    (states decode okResult dataDir schedule t).handlers i = some handler →
    handler.phase.remaining = some n → n ≤ 2 → Turn schedule i t

/-- The client of the handler that carries the signal keeps up: the writes of the reply and of the
terminal frame return, the reply's with success; and the data directory can be removed. -/
structure Flushed : Prop where
  returns : ∀ t i handler n,
    (states decode okResult dataDir schedule t).handlers i = some handler →
    handler.phase.remaining = some n → 2 < n → Turn schedule i t
  flushes : ∀ t, Flushes (states decode okResult dataDir schedule t) (schedule t)

variable {decode okResult dataDir schedule}

omit [DecidableEq Path] in
theorem init_inv : Inv dataDir (World.init : World Cmd Res Err Path) where
  signalled := fun h => absurd rfl h
  signal := fun _ h => by cases h
  target := fun _ _ _ h => by cases h
  exiting := fun _ _ h => by cases h
  exited := fun h => by cases h
  pending := fun h => absurd h (Nat.lt_irrefl 0)

theorem states_inv (hflushed : Flushed decode okResult dataDir schedule) (t : Nat) :
    Inv dataDir (states decode okResult dataDir schedule t) :=
  trace_invariant init_inv
    (fun world action hinv hflush => hinv.step hflush (world.step_change decode okResult action))
    hflushed.flushes t

theorem states_change (t : Nat) :
    Change dataDir (states decode okResult dataDir schedule t) (schedule t)
      (states decode okResult dataDir schedule (t + 1)) :=
  World.step_change decode okResult _ _

theorem carrier_leadsTo (hfair : Fair decode okResult dataDir schedule)
    (hflushed : Flushed decode okResult dataDir schedule) (j n : Nat) :
    LeadsTo (states decode okResult dataDir schedule)
      (World.CarriedBy j n) (World.Wiped dataDir) := by
  refine leadsTo_of_rank (P := World.CarriedBy j) (fun n => ?_) n
  refine leadsTo_of_turn schedule (fun action => ∃ ok, action = .proceed j ok) ?_ ?_ ?_
  · rintro t ⟨carrier, hcarrier, hn⟩ hother
    exact .inl ⟨carrier, (states_change t).carrier_waits hcarrier hn hother, hn⟩
  · rintro t ⟨carrier, hcarrier, hn⟩ ⟨ok, hmine⟩
    have hchange : Change dataDir (states decode okResult dataDir schedule t) (schedule t) _ :=
      states_change t
    have hflush := hflushed.flushes t
    rw [hmine] at hchange hflush
    exact hchange.carrier_turn (states_inv hflushed t) hflush hcarrier hn
  · rintro t ⟨carrier, hcarrier, hn⟩
    have hturn : Turn schedule j t := by
      by_cases hwrites : 2 < n
      · exact hflushed.returns t j carrier n hcarrier hn hwrites
      · exact hfair.tearsDown t j carrier n hcarrier hn (by omega)
    obtain ⟨u, ok, htu, hmine⟩ := hturn
    exact ⟨u, htu, ok, hmine⟩

theorem signal_leadsTo (hfair : Fair decode okResult dataDir schedule) (j : Nat) :
    LeadsTo (states decode okResult dataDir schedule)
      (fun world => world.wipeTarget ≠ none ∧
        ∃ handler, world.handlers j = some handler ∧ handler.phase.takes = true)
      (fun world => world.Carried ∨ world.exited = true) := by
  refine leadsTo_of_turn schedule (fun action => ∃ ok, action = .proceed j ok) ?_ ?_ ?_
  · rintro t ⟨hset, taker, htaker, htakes⟩ hother
    rcases (states_change t).taker_waits hset htaker htakes hother with ⟨hset', htaker'⟩ | hcarried
    · exact .inl ⟨hset', taker, htaker', htakes⟩
    · exact .inr (.inl hcarried)
  · rintro t ⟨hset, taker, htaker, htakes⟩ ⟨ok, hmine⟩
    have hchange : Change dataDir (states decode okResult dataDir schedule t) (schedule t) _ :=
      states_change t
    rw [hmine] at hchange
    exact hchange.taker_turn hset htaker htakes
  · rintro t ⟨hset, taker, htaker, htakes⟩
    obtain ⟨u, ok, htu, hmine⟩ := hfair.takes t j taker htaker htakes
    exact ⟨u, htu, ok, hmine⟩

theorem accepted_leadsTo (hfair : Fair decode okResult dataDir schedule)
    (hflushed : Flushed decode okResult dataDir schedule) :
    LeadsTo (states decode okResult dataDir schedule) (fun world => 0 < world.accepted)
      (World.Wiped dataDir) := by
  have hlate : LeadsTo (states decode okResult dataDir schedule)
      (fun world => world.Carried ∨ world.exited = true) (World.Wiped dataDir) := by
    rintro t (⟨j, n, hcarried⟩ | hexited)
    · exact carrier_leadsTo hfair hflushed j n t hcarried
    · exact ⟨t, Nat.le_refl t, hexited, (states_inv hflushed t).exited hexited⟩
  intro t haccepted
  have hinv := states_inv hflushed t
  rcases hinv.pending haccepted with hset | hcarried
  · obtain ⟨j, taker, htaker, htakes⟩ := hinv.signalled hset
    exact (signal_leadsTo hfair j).trans hlate t ⟨hset, taker, htaker, htakes⟩
  · exact hlate t hcarried

end Progress

/-! ### A lost signal -/

/-- Nothing in the daemon knows about a wipe. -/
structure Lost (world : World Cmd Res Err Path) : Prop where
  signal : world.wipeTarget = none
  carried : ¬world.Carried
  exited : world.exited = false

theorem Change.accepted_le (hchange : Change dataDir world action next) :
    world.accepted ≤ next.accepted := by
  cases hchange with
  | signal => exact Nat.le_succ _
  | _ => exact Nat.le_refl _

theorem Lost.step (h : Lost world) (hchange : Change dataDir world action next)
    (haccepted : next.accepted = world.accepted) : Lost next ∧ next.dirs = world.dirs := by
  have hput {i : Nat} {handler : Handler Cmd Res Err Path}
      (hnew : handler.phase.remaining = none) : Lost (world.put i handler) := by
    refine ⟨h.signal, ?_, h.exited⟩
    rintro ⟨j, n, found, hfound, hn⟩
    rcases World.put_cases hfound with ⟨-, rfl⟩ | ⟨-, hold⟩
    · rw [hnew] at hn
      cases hn
    · exact h.carried ⟨j, n, found, hold, hn⟩
  cases hchange with
  | stay => exact ⟨h, rfl⟩
  | quiet _ handler hold hnew => exact ⟨hput hnew.remaining, rfl⟩
  | execute _ handler hold hnew => exact ⟨hput (Phase.remaining_of_takes hnew).1, rfl⟩
  | signal =>
    change world.accepted + 1 = world.accepted at haccepted
    omega
  | take i ok old handler hlookup hold hremaining =>
    rw [h.signal] at hremaining
    have hsame : { world with wipeTarget := none } = world := by
      rw [← h.signal]
    rw [hsame]
    exact ⟨hput hremaining, rfl⟩
  | lose i old handler hlookup hold => exact absurd ⟨i, 4, old, hlookup, hold⟩ h.carried
  | advance i ok n old handler hlookup hold => exact absurd ⟨i, _, old, hlookup, hold⟩ h.carried
  | remove i ok dir conn hlookup => exact absurd ⟨i, 2, _, hlookup, rfl⟩ h.carried
  | exit i ok conn hlookup => exact absurd ⟨i, 1, _, hlookup, rfl⟩ h.carried

/-- One handler has the signal and is about to write its reply, and nothing else in the daemon
knows about a wipe. -/
structure OnlyCarrier (i : Nat) (world : World Cmd Res Err Path) : Prop where
  carries : world.CarriedBy i 4
  others : ∀ j n, world.CarriedBy j n → j = i
  signal : world.wipeTarget = none
  exited : world.exited = false

theorem OnlyCarrier.lost (h : OnlyCarrier i world)
    (hchange : Change dataDir world (.proceed i false) next) :
    Lost next ∧ next.dirs = world.dirs ∧ next.accepted = world.accepted := by
  obtain ⟨carrier, hcarrier, hfour⟩ := h.carries
  have hnotIdle : ¬carrier.phase.Idle := by
    intro hidle
    rw [hidle.remaining] at hfour
    cases hfour
  cases hchange with
  | stay _ hturn =>
    rcases hturn i false carrier rfl hcarrier with hexited | hidle
    · rw [h.exited] at hexited
      cases hexited
    · exact absurd hidle hnotIdle
  | quiet _ handler hold hnew | execute _ handler hold hnew | signal _ handler hold hnew =>
    exact absurd (hold carrier hcarrier) hnotIdle
  | take _ _ old handler hlookup hold =>
    rw [hcarrier] at hlookup
    cases hlookup
    rw [(Phase.remaining_of_takes hold).1] at hfour
    cases hfour
  | lose _ old handler hlookup hold hnew =>
    refine ⟨⟨h.signal, ?_, h.exited⟩, rfl, rfl⟩
    rintro ⟨j, n, found, hfound, hn⟩
    rcases World.put_cases hfound with ⟨-, rfl⟩ | ⟨hji, hfound⟩
    · rw [hnew.remaining] at hn
      cases hn
    · exact hji (h.others j n ⟨found, hfound, hn⟩)
  | advance _ _ n old handler hlookup hold hremaining htarget hok =>
    rw [hcarrier] at hlookup
    cases hlookup
    rw [hfour] at hold
    cases hok (by simpa using hold.symm)
  | remove _ _ dir conn hlookup | exit _ _ conn hlookup =>
    rw [hcarrier] at hlookup
    cases hlookup
    cases hfour

section Main

variable (decode : Bytes → Except String (IpcRequest (Command Cmd))) (okResult : Res)
  (dataDir : Path) (schedule : Nat → Action Cmd Res Err)

theorem states_accepted_le {t u : Nat} (h : t ≤ u) :
    (states decode okResult dataDir schedule t).accepted ≤
      (states decode okResult dataDir schedule u).accepted := by
  induction h with
  | refl => exact Nat.le_refl _
  | @step u _ ih => exact Nat.le_trans ih (states_change u).accepted_le

theorem lost_until_accepted {t i : Nat}
    (hcarrier : OnlyCarrier i (states decode okResult dataDir schedule t))
    (hfails : schedule t = .proceed i false) {u : Nat} (htu : t < u)
    (haccepted : (states decode okResult dataDir schedule u).accepted =
      (states decode okResult dataDir schedule t).accepted) :
    Lost (states decode okResult dataDir schedule u) ∧
      (states decode okResult dataDir schedule u).dirs =
        (states decode okResult dataDir schedule t).dirs := by
  induction htu with
  | refl =>
    have hchange : Change dataDir (states decode okResult dataDir schedule t) (schedule t) _ :=
      states_change t
    rw [hfails] at hchange
    obtain ⟨hlost, hdirs, -⟩ := hcarrier.lost hchange
    exact ⟨hlost, hdirs⟩
  | @step u htu ih =>
    rw [Nat.succ_eq_add_one] at haccepted ⊢
    have hbefore := states_accepted_le decode okResult dataDir schedule (Nat.le_of_lt htu)
    have hstep := states_accepted_le decode okResult dataDir schedule (show u ≤ u + 1 by omega)
    obtain ⟨hlost, hdirs⟩ := ih (by omega)
    obtain ⟨hlost', hdirs'⟩ := hlost.step (states_change u) (by omega)
    exact ⟨hlost', hdirs'.trans hdirs⟩

/-- In a fair run, an accepted wipe is carried out when the handler that takes the signal gets its
reply out and the data directory can be removed. When the only handler with the signal fails to
write its reply, the daemon keeps running on its data until another wipe is accepted. -/
theorem wipe_carried_out_when_flushed (hfair : Fair decode okResult dataDir schedule) :
    (Flushed decode okResult dataDir schedule →
      ∀ t, 0 < (states decode okResult dataDir schedule t).accepted →
        ∃ u, t ≤ u ∧ (states decode okResult dataDir schedule u).Wiped dataDir) ∧
    ∀ t i, OnlyCarrier i (states decode okResult dataDir schedule t) →
      schedule t = .proceed i false → ∀ u, t < u →
        (states decode okResult dataDir schedule u).accepted =
          (states decode okResult dataDir schedule t).accepted →
        (states decode okResult dataDir schedule u).exited = false ∧
          (states decode okResult dataDir schedule u).dirs =
            (states decode okResult dataDir schedule t).dirs := by
  constructor
  · intro hflushed
    exact accepted_leadsTo hfair hflushed
  · intro t i hcarrier hfails u htu haccepted
    obtain ⟨hlost, hdirs⟩ := lost_until_accepted decode okResult dataDir schedule hcarrier hfails
      htu haccepted
    exact ⟨hlost.exited, hdirs⟩

end Main

/-! ### One client -/

def wipeOnly : Bytes → Except String (IpcRequest (Command Unit)) := fun _ =>
  .ok (.execute .wipeAllData)

def quietEnv : Env (Command Unit) Unit Unit := ⟨fun _ => .ok (), false, false, true, true⟩

/-- One client sends the wipe request; `ok` tells whether it is still there for the reply. -/
def oneClient (ok : Bool) : Nat → Action Unit Unit Unit
  | 0 => .accept 0
  | 1 => .receive 0 (.arrive [0, 0, 0, 1, 0])
  | 2 => .receive 0 (.poll 4 quietEnv)
  | 3 => .receive 0 (.poll 1 quietEnv)
  | 4 => .execute 0 (.ok ())
  | 5 => .proceed 0 true
  | 6 => .proceed 0 ok
  | _ + 7 => .proceed 0 true

theorem oneClient_handlers (ok : Bool) (t : Nat) (hi : i ≠ 0) :
    (states wipeOnly () () (oneClient ok) t).handlers i = none := by
  induction t with
  | zero => rfl
  | succ t ih =>
    have hchange : Change () (states wipeOnly () () (oneClient ok) t) (oneClient ok t) _ :=
      states_change t
    have hzero : (oneClient ok t).handler = 0 := by
      rcases t with _ | _ | _ | _ | _ | _ | _ | t <;> rfl
    rw [hchange.other_handler (hzero ▸ hi), ih]

theorem oneClient_turn (ok : Bool) {t : Nat} {handler : Handler Unit Unit Unit Unit}
    (hlookup : (states wipeOnly () () (oneClient ok) t).handlers i = some handler) :
    Turn (oneClient ok) i t := by
  have hi : i = 0 := by
    by_contra hi
    rw [oneClient_handlers ok t hi] at hlookup
    cases hlookup
  exact ⟨t + 7, true, by omega, by rw [hi]; rfl⟩

theorem oneClient_fair (ok : Bool) : Fair wipeOnly () () (oneClient ok) where
  takes := fun _ _ _ hlookup _ => oneClient_turn ok hlookup
  tearsDown := fun _ _ _ _ hlookup _ _ => oneClient_turn ok hlookup

/-- The client sends the request and hangs up before the reply: the wipe has been accepted, and the
daemon runs on with all its data. -/
theorem hang_up_loses_wipe :
    Fair wipeOnly () () (oneClient false) ∧
      (states wipeOnly () () (oneClient false) 5).accepted = 1 ∧
      ∀ t, (states wipeOnly () () (oneClient false) t).exited = false ∧
        (states wipeOnly () () (oneClient false) t).dirs () = true := by
  refine ⟨oneClient_fair false, rfl, fun t => ?_⟩
  -- from the eighth step on nothing changes any more
  have hlate (k : Nat) : states wipeOnly () () (oneClient false) (k + 8) =
      states wipeOnly () () (oneClient false) 8 := by
    induction k with
    | zero => rfl
    | succ k ih =>
      show World.step wipeOnly () () (states wipeOnly () () (oneClient false) (k + 8)) _ = _
      rw [ih]
      rfl
  rcases t with _ | _ | _ | _ | _ | _ | _ | _ | t
  all_goals first | exact ⟨rfl, rfl⟩ | (rw [hlate]; exact ⟨rfl, rfl⟩)

/-- A client that waits for the reply has its wipe carried out. -/
theorem patient_client_wipes :
    (states wipeOnly () () (oneClient true) 5).accepted = 1 ∧
      ∃ u, 5 ≤ u ∧ (states wipeOnly () () (oneClient true) u).Wiped () := by
  refine ⟨rfl, ?_⟩
  refine (wipe_carried_out_when_flushed wipeOnly () () (oneClient true)
    (oneClient_fair true)).1 ⟨?_, ?_⟩ 5 (by decide)
  · intro t i handler n hlookup _ _
    exact oneClient_turn true hlookup
  · intro t i ok handler n haction _ _ _
    rcases t with _ | _ | _ | _ | _ | _ | _ | t <;> cases haction <;> rfl

end Skattr.Core.Wipe

import ZephyrVox.Lib.Numeral
import ZephyrVox.Lib.Transition
import ZephyrVox.Realtime.Socket

/-!
# Commands on a control connection

Any number of `set_presence` and `update_access` calls share one connection with the task
that owns its sockets. A call checks the status, inserts a waiter under a fresh request
identifier, takes the outbound sender of the open socket, hands its frame over and waits;
the owner publishes the status, installs and removes the sender, completes waiters from
response frames and drains them when a socket is lost. Each of these is a step of its own,
so any other step may come between two of them.

## Main definitions

* `requestId` — the identifiers of `next_request_id`, distinct for distinct calls.
* `CallPc`, `OwnerPc` — where a call and the owner stand.
* `ConnectionInner` — the shared state.
* `ConnectionInner.step` — one step of one call or of the owner.
* `ConnectionInner.step_moves` — what a step does.
-/

namespace ZephyrVox.Realtime

open Transition Numeral

/-! ## Request identifiers -/

/-- A number in lower-case hexadecimal, with zeros up to a width. -/
def hexPadded (width n : ℕ) : List Char :=
  List.replicate (width - (Nat.toDigits 16 n).length) '0' ++ Nat.toDigits 16 n

/-- The identifier of the command with a sequence number. -/
def requestId (millis sequence : ℕ) : String :=
  String.ofList ("zv-".toList ++ (hexPadded 11 millis ++ '-' :: hexPadded 16 sequence))

theorem ofDigits_replicate_zero (width : ℕ) (ds : List ℕ) :
    ofDigits 16 (List.replicate width 0 ++ ds) = ofDigits 16 ds := by
  induction width with
  | zero => rfl
  | succ width ih =>
      rw [List.replicate_succ, List.cons_append, ← ih]
      simp [ofDigits]

/-- The digits of a padded number denote it. -/
theorem denotes_hexPadded (width n : ℕ) :
    ∃ ds, Denotes 16 (hexPadded width n) ds ∧ ofDigits 16 ds = n := by
  obtain ⟨ds, hds, hval⟩ := denotes_toDigits (by omega : 1 < 16) (by omega) n
  refine ⟨List.replicate (width - (Nat.toDigits 16 n).length) 0 ++ ds, ?_, ?_⟩
  · have hzero : toDigit 16 '0' = some 0 := by decide
    simp only [Denotes, hexPadded, List.map_append, List.map_replicate, hzero]
    rw [show (Nat.toDigits 16 n).map (toDigit 16) = ds.map some from hds]
  · rw [ofDigits_replicate_zero, hval]

/-- Two numbers joined by a dash: the second is told from the text. -/
theorem eq_of_hexPadded_dash {width width' n n' m m' : ℕ}
    (h : hexPadded width n ++ '-' :: hexPadded width' m =
      hexPadded width n' ++ '-' :: hexPadded width' m') : m = m' := by
  obtain ⟨ds, hds, -⟩ := denotes_hexPadded width n
  obtain ⟨ds', hds', -⟩ := denotes_hexPadded width n'
  have hdash (cs : List Char) : NoDigitAhead 16 ('-' :: cs) := by
    intro c hc
    cases hc
    decide
  -- the first run of digits ends at the dash, so the rest is the second number
  have hrest := congrArg (fun cs => (spanDigits 16 cs).2) h
  simp only [spanDigits_append hds (hdash _), spanDigits_append hds' (hdash _), List.cons.injEq,
    true_and] at hrest
  obtain ⟨es, hes, hval⟩ := denotes_hexPadded width' m
  obtain ⟨es', hes', hval'⟩ := denotes_hexPadded width' m'
  have hnone : NoDigitAhead 16 [] := fun c hc => by cases hc
  have hdigits := congrArg (fun cs => (spanDigits 16 (cs ++ [])).1) hrest
  simp only [spanDigits_append hes hnone, spanDigits_append hes' hnone] at hdigits
  rw [← hval, ← hval', hdigits]

/-- **Calls with distinct sequence numbers have distinct identifiers**, whatever the
clock says. -/
theorem sequence_eq_of_requestId_eq {millis millis' sequence sequence' : ℕ}
    (h : requestId millis sequence = requestId millis' sequence') : sequence = sequence' :=
  eq_of_hexPadded_dash (List.append_cancel_left (String.ofList_injective h))

/-! ## Data -/

/-- The commands of a connection. -/
inductive Command
  | presenceSet
  | authUpdate
  deriving DecidableEq, Repr

/-- Whether a command may be sent before the replay is complete. -/
def Command.allowBeforeLive : Command → Bool
  | .presenceSet => false
  | .authUpdate => true

/-- A server frame that answers a command. -/
inductive CommandResponse
  | commandOk (ack : CommandAck)
  | commandError (error : CommandError)

/-- The identifier a response names. -/
def CommandResponse.requestId : CommandResponse → String
  | .commandOk ack => ack.requestId
  | .commandError error => error.requestId

/-- The access lease that a response renews. -/
def CommandResponse.expiresAt : CommandResponse → Option ℤ
  | .commandOk ack => ack.expiresAt
  | .commandError _ => none

/-- What the waiter of a response receives. -/
def CommandResponse.result : CommandResponse → Except RealtimeError CommandAck
  | .commandOk ack => .ok ack
  | .commandError error => .error (.serverCommand error)

/-- Where a call of `send_command` stands. -/
inductive CallPc
  | idle
  /-- The status allowed the command. -/
  | checked
  | encoded (id payload : String)
  -- with its waiter in the map and its guard alive
  /-- It awaits the lock of the outbound sender. -/
  | inserted (id payload : String)
  /-- It awaits room in the channel of a socket. -/
  | sending (id payload : String) (socket : ℕ)
  | waiting (id : String)
  /-- It has a result, and its guard is about to be dropped. -/
  | leaving (id : String) (result : Except RealtimeError CommandAck)
  /-- It returned, with the identifier it took, if it came so far. -/
  | returned (id : Option String) (result : Except RealtimeError CommandAck)
  | dropped (id : String)

/-- The identifier that a call took. -/
def CallPc.requestId : CallPc → Option String
  | .encoded id _ | .inserted id _ | .sending id _ _ | .waiting id | .leaving id _
  | .dropped id => some id
  | .returned id _ => id
  | .idle | .checked => none

/-- The identifier whose waiter the guard of a call removes. -/
def CallPc.guards : CallPc → Option String
  | .inserted id _ | .sending id _ _ | .waiting id | .leaving id _ => some id
  | _ => none

/-- One call. -/
structure Call where
  command : Command
  /-- How it encodes its frame under an identifier. -/
  encodeJson : String → Except String String
  pc : CallPc
  /-- What was sent to its waiter. -/
  reply : Option (Except RealtimeError CommandAck)
  /-- The number of sockets that had been opened when it checked the status. -/
  checkedAt : ℕ

/-- One socket, as the calls see it. -/
structure SocketGeneration where
  /-- The frames in its outbound channel. -/
  queue : List String
  /-- Whether the receiving end of the channel is alive. -/
  receiving : Bool
  /-- Whether the socket has published `Live`. -/
  live : Bool

/-- Where the owner task stands. -/
inductive OwnerPc
  /-- At the top of its loop. -/
  | top
  /-- Loading a token, connecting, or awaiting the first frame. -/
  | dialing
  /-- The sender of a new socket is installed. -/
  | opened
  /-- Sending the first hello. -/
  | greeting
  /-- In the frame loop. -/
  | running
  -- `clear_socket_state`, in the loop or behind it
  | clearing (final : Bool)
  | draining (final : Bool)
  | cleared (final : Bool)
  | retrying
  | closed
  deriving DecidableEq, Repr

/-- The shared state of a connection, with its calls. -/
structure ConnectionInner where
  status : ConnectionStatus
  /-- The socket whose sender is installed. -/
  outbound : Option ℕ
  /-- All sockets so far. -/
  sockets : List SocketGeneration
  /-- The waiters: the call that waits for each identifier. -/
  pending : List (String × ℕ)
  /-- The number of identifiers handed out. The counter is taken without the wrap-around
  of its 64 bits. -/
  sequence : ℕ
  controlId : Option ControlConnectionId
  accessExpiresAt : ℤ
  attempt : ℕ
  owner : OwnerPc
  calls : ℕ → Call
  /-- The frames handed to a socket: the call and the socket. -/
  handed : List (ℕ × ℕ)
  /-- The response frames processed, and the call that each completed. -/
  responses : List (CommandResponse × Option ℕ)

/-- What the owner does next. -/
inductive OwnerAction
  /-- Begin a turn of the loop. -/
  | connect
  /-- No token: wait before the next attempt. -/
  | tokenFailed
  /-- The first frame was `connection.ready`: install the sender. -/
  | ready (ready : ConnectionReady)
  | publishReady
  | helloSent
  | publishLive
  /-- A resynchronization on the same socket begins. -/
  | publishSyncing
  | respond (response : CommandResponse)
  /-- A frame of the outbound channel goes to the transport. -/
  | forward
  /-- The socket, or the attempt to open one, ends. -/
  | lost
  | clearOutbound
  | drainPending
  /-- Wait before the next attempt. -/
  | retry
  /-- Leave the loop. -/
  | leaveLoop
  | publishClosed

/-- What happens next. -/
inductive CommandAction
  | check (call : ℕ) (command : Command) (encodeJson : String → Except String String)
  /-- The call takes an identifier, at a time, and encodes its frame. -/
  | encode (call millis : ℕ)
  | insert (call : ℕ)
  /-- The call clones the outbound sender. -/
  | cloneOutbound (call : ℕ)
  /-- The send of the frame ends. -/
  | send (call : ℕ)
  /-- The waiter of the call is completed, or its sender was dropped. -/
  | receive (call : ℕ)
  | timeout (call : ℕ)
  /-- The guard is dropped, and the call returns. -/
  | leave (call : ℕ)
  /-- The future of the call is dropped. -/
  | drop (call : ℕ)
  | owner (a : OwnerAction)

namespace ConnectionInner

/-! ## Steps of the calls -/

/-- A new connection. -/
def new : ConnectionInner where
  status := .disconnected
  outbound := none
  sockets := []
  pending := []
  sequence := 0
  controlId := none
  accessExpiresAt := 0
  attempt := 0
  owner := .top
  calls _ := ⟨.presenceSet, fun _ => .error "", .idle, none, 0⟩
  handed := []
  responses := []

/-- Change one call. -/
def setCall (c : ConnectionInner) (i : ℕ) (change : Call → Call) : ConnectionInner :=
  { c with calls := Function.update c.calls i (change (c.calls i)) }

/-- Move one call. -/
def goto (c : ConnectionInner) (i : ℕ) (pc : CallPc) : ConnectionInner :=
  c.setCall i fun call => { call with pc := pc }

/-- Remove the waiter of an identifier. -/
def removePending (c : ConnectionInner) (id : String) : ConnectionInner :=
  { c with pending := c.pending.filter fun entry => entry.1 ≠ id }

/-- Whether the status allows a command. -/
def allows (status : ConnectionStatus) (command : Command) : Bool :=
  status = .live || command.allowBeforeLive && (status = .ready || status = .syncing)

/-- The status check of a call. -/
def check (c : ConnectionInner) (i : ℕ) (command : Command)
    (encodeJson : String → Except String String) : ConnectionInner :=
  c.setCall i fun call =>
    { call with
      command := command
      encodeJson := encodeJson
      pc := if allows c.status command then .checked else .returned none (.error .notLive)
      checkedAt := c.sockets.length }

/-- `next_request_id`, and the encoding of the frame. -/
def encode (c : ConnectionInner) (i millis : ℕ) : ConnectionInner :=
  let id := requestId millis (c.sequence + 1)
  { c with sequence := c.sequence + 1 }.goto i
    (match (c.calls i).encodeJson id with
      | .ok payload => .encoded id payload
      | .error detail => .returned (some id) (.error (.json detail)))

/-- Insert the waiter, if there is room. -/
def insert (maximum : ℕ) (c : ConnectionInner) (i : ℕ) (id payload : String) :
    ConnectionInner :=
  if maximum ≤ c.pending.length then
    c.goto i (.returned (some id) (.error (.protocol "pending command capacity is full")))
  else
    { c with pending := (id, i) :: (c.removePending id).pending }.goto i (.inserted id payload)

/-- The sender of the open socket, if there is one. -/
def cloneOutbound (c : ConnectionInner) (i : ℕ) (id payload : String) : ConnectionInner :=
  match c.outbound with
  | some socket => c.goto i (.sending id payload socket)
  | none => c.goto i (.leaving id (.error .notLive))

/-- Change one socket. -/
def setSocket (c : ConnectionInner) (g : ℕ) (change : SocketGeneration → SocketGeneration) :
    ConnectionInner :=
  { c with sockets := c.sockets.modify g change }

/-- The send of a frame ends: it is in the channel, or the channel is closed. -/
def send (maximum : ℕ) (c : ConnectionInner) (i : ℕ) (id payload : String) (g : ℕ) :
    Option ConnectionInner :=
  match c.sockets[g]? with
  | none => none
  | some socket =>
      if socket.receiving then
        if socket.queue.length < maximum + 4 then
          some ({ c with handed := c.handed ++ [(i, g)] }.setSocket g (fun socket =>
            { socket with queue := socket.queue ++ [payload] }) |>.goto i (.waiting id))
        else none
      else some (c.goto i (.leaving id (.error .closed)))

/-- The waiter of the call ends. Its sender is dropped with its entry. -/
def receive (c : ConnectionInner) (i : ℕ) (id : String) : Option ConnectionInner :=
  match (c.calls i).reply with
  | some result => some (c.goto i (.leaving id result))
  | none =>
      if c.pending.any fun entry => entry.2 = i then none
      else some (c.goto i (.leaving id (.error .closed)))

/-! ## Steps of the owner -/

/-- The call that waits for an identifier. -/
def waiter (c : ConnectionInner) (id : String) : Option ℕ :=
  (c.pending.find? fun entry => entry.1 = id).map Prod.snd

/-- Complete one waiter, in any order. -/
def resolvePending (c : ConnectionInner) (id : String) (result : Except RealtimeError CommandAck) :
    ConnectionInner :=
  match c.waiter id with
  | none => c
  | some i => (c.removePending id).setCall i fun call => { call with reply := some result }

/-- Complete all waiters. -/
def drainPending (c : ConnectionInner) : ConnectionInner :=
  { c with
    pending := []
    calls i :=
      if c.pending.any fun entry => entry.2 = i then
        { c.calls i with reply := some (.error .closed) }
      else c.calls i }

/-- Process a response frame. -/
def respond (c : ConnectionInner) (response : CommandResponse) : ConnectionInner :=
  { c with
    accessExpiresAt := response.expiresAt.getD c.accessExpiresAt
    responses := c.responses ++ [(response, c.waiter response.requestId)]
  }.resolvePending response.requestId response.result

/-- Install the sender of a new socket. -/
def install (c : ConnectionInner) (ready : ConnectionReady) : ConnectionInner :=
  { c with
    controlId := some ready.controlConnectionId
    accessExpiresAt := ready.accessExpiresAt
    sockets := c.sockets ++ [⟨[], true, false⟩]
    outbound := some c.sockets.length }

/-- Change the socket that the owner runs. -/
def setRunning (c : ConnectionInner) (change : SocketGeneration → SocketGeneration) :
    ConnectionInner :=
  c.setSocket (c.sockets.length - 1) change

/-- One step of the owner task. -/
def stepOwner (c : ConnectionInner) : OwnerAction → Option ConnectionInner
  | .connect =>
      match c.owner with
      | .top => some { c with
          status := if c.attempt = 0 then .connecting else .reconnecting
          owner := .dialing }
      | _ => none
  | .tokenFailed =>
      match c.owner with
      | .dialing => some { c with status := .reconnecting, owner := .retrying }
      | _ => none
  | .ready ready =>
      match c.owner with
      | .dialing => some { c.install ready with owner := .opened }
      | _ => none
  | .publishReady =>
      match c.owner with
      | .opened => some { c with status := .ready, owner := .greeting }
      | _ => none
  | .helloSent =>
      match c.owner with
      | .greeting => some { c with status := .syncing, owner := .running }
      | _ => none
  | .publishLive =>
      match c.owner with
      | .running => some { c.setRunning fun socket => { socket with live := true } with
          status := .live }
      | _ => none
  | .publishSyncing =>
      match c.owner with
      | .running => some { c with status := .syncing }
      | _ => none
  | .respond response =>
      match c.owner with
      | .running => some (c.respond response)
      | _ => none
  | .forward =>
      match c.owner with
      | .running => some (c.setRunning fun socket => { socket with queue := socket.queue.tail })
      | _ => none
  | .lost =>
      match c.owner with
      | .dialing => some { c with owner := .clearing false }
      | .greeting | .running => some { c.setRunning fun socket =>
          { socket with receiving := false } with owner := .clearing false }
      | _ => none
  | .clearOutbound =>
      match c.owner with
      | .clearing final => some { c with outbound := none, owner := .draining final }
      | _ => none
  | .drainPending =>
      match c.owner with
      | .draining final => some { c.drainPending with
          controlId := none
          accessExpiresAt := 0
          owner := .cleared final }
      | _ => none
  | .retry =>
      match c.owner with
      | .cleared false => some { c with status := .reconnecting, owner := .retrying }
      | .retrying => some { c with attempt := c.attempt + 1, owner := .top }
      | _ => none
  | .leaveLoop =>
      match c.owner with
      | .top | .dialing | .cleared false | .retrying => some { c with owner := .clearing true }
      | _ => none
  | .publishClosed =>
      match c.owner with
      | .cleared true => some { c with status := .closed, owner := .closed }
      | _ => none

/-! ## Steps -/

/-- One step of one call or of the owner, for a configured number of waiters. A call can
be dropped while it awaits the lock, the channel or its waiter. -/
def step (maximum : ℕ) (c : ConnectionInner) : CommandAction → Option ConnectionInner
  | .check i command encodeJson =>
      match (c.calls i).pc with
      | .idle => some (c.check i command encodeJson)
      | _ => none
  | .encode i millis =>
      match (c.calls i).pc with
      | .checked => some (c.encode i millis)
      | _ => none
  | .insert i =>
      match (c.calls i).pc with
      | .encoded id payload => some (c.insert maximum i id payload)
      | _ => none
  | .cloneOutbound i =>
      match (c.calls i).pc with
      | .inserted id payload => some (c.cloneOutbound i id payload)
      | _ => none
  | .send i =>
      match (c.calls i).pc with
      | .sending id payload g => c.send maximum i id payload g
      | _ => none
  | .receive i =>
      match (c.calls i).pc with
      | .waiting id => c.receive i id
      | _ => none
  | .timeout i =>
      match (c.calls i).pc, (c.calls i).reply with
      | .waiting id, none => some (c.goto i (.leaving id (.error .commandTimeout)))
      | _, _ => none
  | .leave i =>
      match (c.calls i).pc with
      | .leaving id result => some ((c.removePending id).goto i (.returned (some id) result))
      | _ => none
  | .drop i =>
      match (c.calls i).pc with
      | .inserted id _ | .sending id _ _ | .waiting id =>
          some ((c.removePending id).goto i (.dropped id))
      | _ => none
  | .owner a => c.stepOwner a

/-! ## The calls -/

variable {c : ConnectionInner} {i j : ℕ} {change : Call → Call}

@[simp] theorem calls_setCall_self : (c.setCall i change).calls i = change (c.calls i) :=
  Function.update_self _ _ _

theorem calls_setCall_of_ne (h : j ≠ i) : (c.setCall i change).calls j = c.calls j :=
  Function.update_of_ne h _ _

/-! ## What a step does -/

/-- The steps of a connection, each with the counter at which it is taken. -/
inductive Moves (maximum : ℕ) (c : ConnectionInner) : CommandAction → ConnectionInner → Prop
  | check {i : ℕ} (command : Command) (encodeJson : String → Except String String)
      (hpc : (c.calls i).pc = .idle) :
      Moves maximum c (.check i command encodeJson) (c.check i command encodeJson)
  | encode {i : ℕ} (millis : ℕ) (hpc : (c.calls i).pc = .checked) :
      Moves maximum c (.encode i millis) (c.encode i millis)
  | insert {i : ℕ} {id payload : String} (hpc : (c.calls i).pc = .encoded id payload) :
      Moves maximum c (.insert i) (c.insert maximum i id payload)
  | cloneOutbound {i : ℕ} {id payload : String} (hpc : (c.calls i).pc = .inserted id payload) :
      Moves maximum c (.cloneOutbound i) (c.cloneOutbound i id payload)
  | send {i : ℕ} {id payload : String} {g : ℕ} {c' : ConnectionInner}
      (hpc : (c.calls i).pc = .sending id payload g)
      (h : c.send maximum i id payload g = some c') : Moves maximum c (.send i) c'
  | receive {i : ℕ} {id : String} {c' : ConnectionInner} (hpc : (c.calls i).pc = .waiting id)
      (h : c.receive i id = some c') : Moves maximum c (.receive i) c'
  | timeout {i : ℕ} {id : String} (hpc : (c.calls i).pc = .waiting id) :
      Moves maximum c (.timeout i) (c.goto i (.leaving id (.error .commandTimeout)))
  | leave {i : ℕ} {id : String} {result : Except RealtimeError CommandAck}
      (hpc : (c.calls i).pc = .leaving id result) :
      Moves maximum c (.leave i) ((c.removePending id).goto i (.returned (some id) result))
  | drop {i : ℕ} {id : String} (hguards : (c.calls i).pc.guards = some id) :
      Moves maximum c (.drop i) ((c.removePending id).goto i (.dropped id))
  | owner {a : OwnerAction} {c' : ConnectionInner} (h : c.stepOwner a = some c') :
      Moves maximum c (.owner a) c'

theorem step_moves {maximum : ℕ} {c' : ConnectionInner} {a : CommandAction}
    (h : c.step maximum a = some c') : c.Moves maximum a c' := by
  cases a with
  | check i command encodeJson =>
      simp only [step] at h
      split at h
      case h_1 hpc => cases h; exact .check command encodeJson hpc
      case h_2 => cases h
  | encode i millis =>
      simp only [step] at h
      split at h
      case h_1 hpc => cases h; exact .encode millis hpc
      case h_2 => cases h
  | insert i =>
      simp only [step] at h
      split at h
      case h_1 hpc => cases h; exact .insert hpc
      case h_2 => cases h
  | cloneOutbound i =>
      simp only [step] at h
      split at h
      case h_1 hpc => cases h; exact .cloneOutbound hpc
      case h_2 => cases h
  | send i =>
      simp only [step] at h
      split at h
      case h_1 hpc => exact .send hpc h
      case h_2 => cases h
  | receive i =>
      simp only [step] at h
      split at h
      case h_1 hpc => exact .receive hpc h
      case h_2 => cases h
  | timeout i =>
      simp only [step] at h
      split at h
      case h_1 hpc _ => cases h; exact .timeout hpc
      case h_2 => cases h
  | leave i =>
      simp only [step] at h
      split at h
      case h_1 hpc => cases h; exact .leave hpc
      case h_2 => cases h
  | drop i =>
      simp only [step] at h
      split at h
      case h_4 => cases h
      all_goals
        rename_i hpc
        cases h
        exact .drop (by rw [hpc]; rfl)
  | owner a => exact .owner h

end ConnectionInner

end ZephyrVox.Realtime

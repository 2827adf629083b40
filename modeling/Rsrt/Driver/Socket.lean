import Rsrt.Core.CloseDrain
import Rsrt.Core.Keystream
import Rsrt.Driver.Listener

namespace Rsrt

open Rsrt.Basis
open Connection (Session Input)

/-!
# The socket and its driver task

The driver owns a connection.  In every turn it drains both polls, publishes the state and
waits for a datagram, a command or its deadline.  Two channels join it to the handle of the
application.  An event is one atomic step of either side, so a run is any interleaving of
the two, with any network and whatever the clock shows.

The channels are those of the runtime, which is not part of the source.  They are a parameter,
and what is known of them is a hypothesis.
-/

/-- Bounded channels. -/
structure Channels where
  Chan : Type -> Type
  new {Item : Type} (capacity : Nat) : Chan Item
  /-- Puts an item in, if there is room. -/
  push {Item : Type} (chan : Chan Item) (item : Item) : Option (Chan Item)
  /-- Takes an item out, if one waits. -/
  pop {Item : Type} (chan : Chan Item) : Option (Item × Chan Item)
  /-- What waits. -/
  queue {Item : Type} (chan : Chan Item) : List Item

/-- What waits is a queue. -/
structure Channels.Fifo (C : Channels) : Prop where
  new_empty : forall {Item : Type} (capacity : Nat), C.queue (C.new capacity : C.Chan Item) = []
  push_last : forall {Item : Type} {chan next : C.Chan Item} {item : Item},
    C.push chan item = some next -> C.queue next = C.queue chan ++ [item]
  pop_first : forall {Item : Type} {chan next : C.Chan Item} {item : Item},
    C.pop chan = some (item, next) -> C.queue chan = item :: C.queue next

/-- The largest payload that the connection takes. -/
def Connection.maxPayload (self : Connection) : Nat :=
  match self.state with
  | .established sender _ _ => sender.cfg.maxPayload
  | _ => self.opts.maxPayload

inductive Cmd
  | send (payload : Bytes)
  | close
deriving DecidableEq

def Cmd.payload : Cmd -> Option Bytes
  | .send payload => some payload
  | .close => none

/-- The error of a failed `connect`. -/
inductive ConnectError
  | wrongPassphrase
  | srt (error : SrtError)
deriving DecidableEq

def connectError : CloseReason -> ConnectError
  | .connectTimeout => .srt .connectTimeout
  | .rejected code =>
      if code = Reject.badSecret then .wrongPassphrase
      else if code = Reject.unsecure then .srt .encryptionUnsupported
      else .srt (.rejected code)
  | other => .srt (.closed other)

/-- Where the driver is: in one of its three loops, in its `select`, or at its end. -/
inductive Phase
  | transmitting (now : Instant)
  | delivering (now : Instant)
  | flushing (horizon : Instant)
  | selecting (deadline : Option Instant)
  | finished
deriving DecidableEq

/-- The driver is in its `select`, with a deadline that is `ready`. -/
def Phase.selects (ready : Option Instant -> Bool) : Phase -> Bool
  | .selecting deadline => ready deadline
  | _ => false

/-- The handle is there, consumed by `close`, or gone. -/
inductive Handle
  | held
  | closing
  | dropped
deriving DecidableEq

/-- Both sides and what joins them. -/
structure Socket (C : Channels) where
  session : Session
  phase : Phase
  cmdOpen : Bool := true
  announced : Bool
  /-- The one-shot signal has not been given. -/
  awaited : Bool
  /-- The signal; an accepted socket is a success from the start. -/
  outcome : Option (Except ConnectError Unit)
  closeReason : Option CloseReason := none
  maxPayload : Nat
  commands : C.Chan Cmd
  payloads : C.Chan Bytes
  /-- The commands that the handle has put in. -/
  given : List Cmd := []
  /-- The payloads that the application has read. -/
  read : List Bytes := []
  /-- Payloads that found the channel full or closed. -/
  missed : Nat := 0
  handle : Handle := .held

namespace Socket

variable {C : Channels}

def cmdQueue : Nat := 256

def conn (self : Socket C) : Connection := self.session.conn

def spawnConnection (session : Session) (now : Instant) (caller : Bool) : Socket C where
  session
  phase := .transmitting now
  announced := session.conn.connState = .established
  awaited := caller
  outcome := if caller then none else some (.ok ())
  maxPayload := session.conn.maxPayload
  commands := C.new cmdQueue
  payloads := C.new (max session.conn.opts.recvBufferPkts 16)

variable (P : Primitives)

/-! ## The driver -/

/-- One call on the connection. -/
def feed (self : Socket C) (input : Input) : Socket C :=
  { self with session := self.session.next P input }

def deliver (self : Socket C) (payload : Bytes) : Socket C :=
  match if self.handle = .dropped then none else C.push self.payloads payload with
  | some payloads => { self with payloads }
  | none => { self with missed := self.missed + 1 }

def signal (self : Socket C) (result : Except ConnectError Unit) : Socket C :=
  if self.awaited then { self with awaited := false, outcome := some result } else self

def park (self : Socket C) (now : Instant) : Socket C :=
  { self with phase := .selecting (self.conn.nextDeadline now) }

/-- The second half of a turn; the limit is stored before the signal. -/
def publish (self : Socket C) (now : Instant) : Socket C :=
  match self.conn.connState with
  | .closed reason =>
      { self with
          phase := .flushing (now + closeDrainHorizon)
          closeReason := some reason }.signal (.error (connectError reason))
  | .established =>
      if self.announced then self.park now
      else ({ self with announced := true, maxPayload := self.conn.maxPayload }.signal
        (.ok ())).park now
  | .connecting => self.park now

/-- The command arm; the end of the channel closes the connection. -/
def obey (self : Socket C) (now : Instant) : Socket C :=
  match C.pop self.commands with
  | some (.send payload, commands) => { self with commands }.feed P (.send now payload)
  | some (.close, commands) => { self with commands }.feed P (.close now)
  | none => { self with cmdOpen := false }.feed P (.close now)

def turn (self : Socket C) (now : Instant) : Socket C := { self with phase := .transmitting now }

/-! ## The handle -/

def enqueue (self : Socket C) (command : Cmd) : Socket C :=
  match C.push self.commands command with
  | some commands => { self with commands, given := self.given ++ [command] }
  | none => self

def closedError (self : Socket C) : SrtError := .closed (self.closeReason.getD .locally)

/-- Result of `send`; a finished driver takes no command. -/
def send (self : Socket C) (payload : Bytes) : Except SrtError Unit :=
  if self.maxPayload < payload.length then .error (.payloadTooLarge payload.length)
  else if self.phase = .finished then .error self.closedError
  else .ok ()

/-- Result of `recv`, unless it has to wait. -/
def recv (self : Socket C) : Option (Except SrtError (Option Bytes)) :=
  match C.pop self.payloads with
  | some (payload, _) => some (.ok (some payload))
  | none =>
      if self.phase = .finished then
        match self.closeReason with
        | some .shutdown | some .locally | none => some (.ok none)
        | some reason => some (.error (.closed reason))
      else none

/-! ## All interleavings -/

/-- Events of the driver, with the instants it reads, and calls of the application. -/
inductive Event
  | transmit
  | deliver (now : Instant)
  | flush
  | datagram (now top : Instant) (datagram : Connection.Datagram) (draw : Draw)
  | recvError (top : Instant)
  | sourceClosed (now top : Instant)
  | command (now top : Instant)
  | timer (now top : Instant)
  | send (payload : Bytes)
  | recv
  | close
  | drop

def next (self : Socket C) : Event -> Socket C
  | .transmit =>
      match self.phase with
      | .transmitting now =>
          match (self.conn.pollTransmit now).2 with
          | some _ => self.feed P (.pollTransmit now)
          | none => { self.feed P (.pollTransmit now) with phase := .delivering now }
      | _ => self
  | .deliver later =>
      match self.phase with
      | .delivering now =>
          match (self.conn.pollDeliver now).2 with
          | some payload => (self.feed P (.pollDeliver now)).deliver payload
          | none => (self.feed P (.pollDeliver now)).publish later
      | _ => self
  | .flush =>
      match self.phase with
      | .flushing horizon =>
          match (self.conn.pollDeliver horizon).2 with
          | some payload => (self.feed P (.pollDeliver horizon)).deliver payload
          | none => { self.feed P (.pollDeliver horizon) with phase := .finished }
      | _ => self
  | .datagram now top datagram draw => (self.feed P (.datagram now datagram draw)).turn top
  | .recvError top => self.turn top
  | .sourceClosed now top => (self.feed P (.close now)).turn top
  | .command now top => (self.obey P now).turn top
  | .timer now top => (self.feed P (.timer now)).turn top
  | .send payload =>
      match self.send payload with
      | .ok _ => self.enqueue (.send payload)
      | .error _ => self
  | .recv =>
      match C.pop self.payloads with
      | some (payload, payloads) => { self with payloads, read := self.read ++ [payload] }
      | none => self
  | .close =>
      if self.phase = .finished then { self with handle := .closing }
      else { self.enqueue .close with handle := .closing }
  | .drop => { self with handle := .dropped }

/-- The application has the socket. -/
def Usable (self : Socket C) : Prop := self.handle = .held ∧ self.outcome = some (.ok ())

/-- The handle can put a command in; it waits for room, unless the driver is gone. -/
def Takes (self : Socket C) (command : Cmd) : Prop :=
  self.Usable ∧ ((C.push self.commands command).isSome ∨ self.phase = .finished)

/-- The ready arms of the `select` and the possible calls. -/
def Enabled (self : Socket C) : Event -> Prop
  | .transmit | .deliver _ | .flush | .drop => True
  | .datagram .. | .recvError _ | .sourceClosed .. => self.phase.selects fun _ => true
  | .command .. => (self.phase.selects fun _ => self.cmdOpen) ∧
      ((C.pop self.commands).isSome ∨ self.handle = .dropped)
  | .timer now _ => self.phase.selects fun deadline => deadline.any (· ≤ now)
  | .send payload => self.Takes (.send payload)
  | .close => self.Takes .close
  | .recv => self.Usable

/-- The socket of a caller gets a signal.  That of a listener has the connection of an accepted
conclusion, which is established and anchored before the driver starts. -/
inductive Spawned : Socket C -> Prop
  | caller (now later : Instant) (remote : SocketAddrV4) (localSocketId : SocketId)
      (initialSeq : SeqNumber) (opts : SrtOptions) (timebase : Timebase) :
      Spawned (spawnConnection
        { conn := .connectWithTimebase now remote localSocketId initialSeq opts timebase } later
        true)
  | accepted {driver : ListenerDriver} (configured : driver.opts = driver.core.opts)
      (now later : Instant) (hsTs : Timestamp) {peer : SocketAddrV4} {cif : HandshakeCif}
      {newId : SocketId} {reply : Packet} {negotiated : Negotiated}
      (accepts : driver.core.handleHandshake P now peer cif newId = .accept reply negotiated) :
      Spawned (spawnConnection { conn := driver.connectionOf now hsTs reply negotiated } later false)

variable (C) in
def machine : Machine (Socket C) Event where
  start := Spawned P
  guard := Enabled
  next := next P

instance (s : Socket C) : forall event, Decidable ((machine C P).guard s event)
  | .transmit | .deliver _ | .flush | .drop => .isTrue trivial
  | .datagram .. | .recvError _ | .sourceClosed .. | .timer .. =>
      inferInstanceAs (Decidable (_ = true))
  | .command .. | .recv => inferInstanceAs (Decidable (_ ∧ _))
  | .send _ | .close => inferInstanceAs (Decidable ((_ ∧ _) ∧ _))

variable {P} {s : Socket C} {now : Instant} {payload : Bytes}

/-! ## What passes through -/

/-- What a call asks the connection to send. -/
def asks : Session × Input -> List Bytes
  | (_, .send _ payload) => [payload]
  | _ => []

/-- What a call gets out of the connection. -/
def gives : Session × Input -> List Bytes
  | (session, .pollDeliver now) => (session.conn.pollDeliver now).2.toList
  | _ => []

/-- The calls of the driver form a run of the connection, and the channels, if they are queues,
stand between that run and the application. -/
def Relays (P : Primitives) (s : Socket C) : Prop :=
  C.Fifo -> Exists fun trace => (Connection.machine P).Run trace s.session ∧
    trace.flatMap asks ++ (C.queue s.commands).filterMap Cmd.payload =
      s.given.filterMap Cmd.payload ∧
    (s.read ++ C.queue s.payloads).Sublist (trace.flatMap gives) ∧
    (trace.flatMap gives).length = (s.read ++ C.queue s.payloads).length + s.missed

/-- A call that is no send and gets no payload. -/
theorem Relays.fed (relays : s.Relays P) {input : Input}
    (asked : asks (s.session, input) = []) (given : gives (s.session, input) = []) :
    (s.feed P input).Relays P := by
  intro fifo
  rcases relays fifo with ⟨trace, run, same, kept, counted⟩
  refine ⟨_, run.step trivial, ?_⟩
  simp only [List.flatMap_append, List.flatMap_singleton, asked, given, List.append_nil]
  exact ⟨same, kept, counted⟩

theorem Relays.delivered (relays : s.Relays P)
    (polled : (s.conn.pollDeliver now).2 = some payload) :
    ((s.feed P (.pollDeliver now)).deliver payload).Relays P := by
  intro fifo
  rcases relays fifo with ⟨trace, run, same, kept, counted⟩
  have given : gives (s.session, .pollDeliver now) = [payload] := by
    change (s.conn.pollDeliver now).2.toList = _
    rw [polled, Option.toList_some]
  have longer : (Connection.machine P).Run (trace ++ [(s.session, .pollDeliver now)])
      (s.session.next P (.pollDeliver now)) :=
    run.step trivial
  unfold deliver
  split
  case h_1 payloads taken =>
    split_ifs at taken
    have put : C.queue payloads = C.queue s.payloads ++ [payload] := fifo.push_last taken
    refine ⟨_, longer, ?_⟩
    simp [given, asks, feed, put, same, kept, counted, ← List.append_assoc, Nat.add_right_comm]
  case h_2 =>
    refine ⟨_, longer, ?_⟩
    simp [given, asks, feed, same, kept.trans, counted, Nat.add_assoc]

/-! ## Connecting -/

/-- Past the handshake, with a sender of the given limit while established. -/
def Limited (limit : Nat) : Connection.State -> Prop
  | .connecting _ _ _ => False
  | .established sender _ _ => sender.cfg.maxPayload = limit
  | .closed _ _ => True

theorem limited_maxPayload {c : Connection} (is : c.connState = .established) :
    Limited c.maxPayload c.state := by
  unfold Connection.connState at is
  unfold Connection.maxPayload
  cases state : c.state with
  | established => exact rfl
  | _ =>
      rw [state] at is
      cases is

theorem Limited.handle {c : Connection} {limit : Nat} (limited : Limited limit c.state)
    (input : Input) : Limited limit (c.handle P input).state := by
  cases state : c.state with
  | connecting =>
      rw [state] at limited
      exact limited.elim
  | established sender receiver crypto =>
      rw [state] at limited
      have shows := @Connection.handle_shows P c ⟨sender, receiver, crypto⟩ state input
      have same : ((c.calls input).foldl (Stack.call P) ⟨sender, receiver, crypto⟩).sender.cfg =
          sender.cfg := by
        rcases c.calls_single input with none | ⟨call, one⟩
        · rw [none, List.foldl_nil]
        · rw [one]
          exact Stack.call_sender_cfg _ call
      generalize (c.handle P input).state = after at shows
      cases shows with
      | established => exact (congrArg SenderConfig.maxPayload same).trans limited
      | closed => exact trivial
  | closed =>
      rw [Connection.handle_closed_state state]
      exact trivial

theorem handle_connState {c : Connection} {reason : CloseReason}
    (closed : c.connState = .closed reason) (input : Input) :
    (c.handle P input).connState = .closed reason := by
  unfold Connection.connState at closed ⊢
  cases state : c.state with
  | closed =>
      rw [Connection.handle_closed_state state]
      rw [state] at closed
      exact closed
  | _ =>
      rw [state] at closed
      cases closed

/-- How far `connect` has come: it waits, it has succeeded, or the connection closed before. -/
def Standing (s : Socket C) : Prop :=
  (s.awaited = true ∧ s.announced = false ∧ s.outcome = none ∧ s.closeReason = none ∧
    s.given = []) ∨
  (s.awaited = false ∧ s.announced = true ∧ s.outcome = some (.ok ()) ∧
    Limited s.maxPayload s.conn.state ∧
    forall payload, .send payload ∈ s.given -> payload.length ≤ s.maxPayload) ∨
  (s.awaited = false ∧ s.given = [] ∧ Exists fun reason =>
    s.conn.connState = .closed reason ∧ s.outcome = some (.error (connectError reason)))

theorem Standing.fed (standing : s.Standing) (input : Input) : (s.feed P input).Standing := by
  rcases standing with waits | ⟨told, announced, outcome, limited, fits⟩ |
    ⟨told, unused, reason, closed, outcome⟩
  · exact Or.inl waits
  · exact Or.inr (Or.inl ⟨told, announced, outcome, limited.handle input, fits⟩)
  · exact Or.inr (Or.inr ⟨told, unused, reason, handle_connState closed input, outcome⟩)

/-! ## All runs -/

theorem obey_keeps (relays : s.Relays P) (standing : s.Standing) :
    (s.obey P now).Relays P ∧ (s.obey P now).Standing := by
  unfold obey
  split
  case h_3 => exact ⟨Relays.fed (s := s) relays rfl rfl, Standing.fed (s := s) standing _⟩
  all_goals
    rename _ => taken
    refine ⟨fun fifo => ?_, Standing.fed (s := { s with commands := _ }) standing _⟩
    rcases relays fifo with ⟨trace, run, same, kept, counted⟩
    refine ⟨_, run.step trivial, ?_⟩
    simp only [fifo.pop_first taken, List.filterMap_cons, Cmd.payload] at same
    simpa [asks, gives, feed, kept, counted] using same

/-- Once the driver has seen that the connection is closed, it has recorded why. -/
def Placed (s : Socket C) : Phase -> Prop
  | .flushing _ | .finished =>
      Exists fun reason => s.conn.connState = .closed reason ∧ s.closeReason = some reason
  | _ => True

def Sound (P : Primitives) (s : Socket C) : Prop :=
  s.Relays P ∧ s.Standing ∧ s.Placed s.phase

theorem Sound.enqueued (sound : s.Sound P) (usable : s.Usable) (command : Cmd)
    (small : forall payload, command = .send payload -> payload.length ≤ s.maxPayload) :
    (s.enqueue command).Sound P := by
  unfold enqueue
  split
  case h_2 => exact sound
  case h_1 commands put =>
    have ⟨relays, standing, placed⟩ := sound
    refine ⟨fun fifo => ?_, ?_, placed⟩
    · rcases relays fifo with ⟨trace, run, same, kept⟩
      refine ⟨trace, run, ?_, kept⟩
      rw [fifo.push_last put, List.filterMap_append, List.filterMap_append, ← same, List.append_assoc]
    · rcases standing with ⟨_, _, outcome, _⟩ | ⟨told, announced, outcome, limited, fits⟩ |
        ⟨_, _, _, _, outcome⟩
      · cases outcome.symm.trans usable.2
      · refine Or.inr (Or.inl ⟨told, announced, outcome, limited, fun payload member => ?_⟩)
        rw [List.mem_append, List.mem_singleton] at member
        exact member.elim (fits payload) fun new => small payload new.symm
      · cases outcome.symm.trans usable.2

theorem Sound.delivered (relays : s.Relays P) (standing : s.Standing)
    (polled : (s.conn.pollDeliver now).2 = some payload)
    (placed : (s.feed P (.pollDeliver now)).Placed s.phase) :
    ((s.feed P (.pollDeliver now)).deliver payload).Sound P := by
  refine ⟨relays.delivered polled, ?_⟩
  unfold deliver
  split <;> exact ⟨standing.fed _, placed⟩

theorem Relays.polled (relays : s.Relays P) (nothing : (s.conn.pollDeliver now).2 = none) :
    (s.feed P (.pollDeliver now)).Relays P := by
  refine relays.fed rfl ?_
  change (s.conn.pollDeliver now).2.toList = []
  rw [nothing, Option.toList_none]

theorem Sound.published (relays : s.Relays P) (standing : s.Standing) :
    (s.publish now).Sound P := by
  unfold publish signal park
  split
  case h_1 reason is =>
    rcases standing with ⟨waits, _, _, _, unused⟩ | told
    · rw [if_pos waits]
      exact ⟨relays, Or.inr (Or.inr ⟨rfl, unused, reason, is, rfl⟩), reason, is, rfl⟩
    · rw [if_neg (ne_true_of_eq_false (told.elim And.left And.left))]
      exact ⟨relays, Or.inr told, reason, is, rfl⟩
  case h_2 is =>
    rcases standing with ⟨waits, fresh, _, _, unused⟩ | ⟨told, announced, rest⟩ |
      ⟨_, _, reason, closed, _⟩
    · rw [if_neg (ne_true_of_eq_false fresh), if_pos waits]
      refine ⟨relays, Or.inr (Or.inl ⟨rfl, rfl, rfl, limited_maxPayload is, ?_⟩), trivial⟩
      intro payload member
      change _ ∈ s.given at member
      rw [unused] at member
      cases member
    · rw [if_pos announced]
      exact ⟨relays, Or.inr (Or.inl ⟨told, announced, rest⟩), trivial⟩
    · cases is.symm.trans closed
  case h_3 => exact ⟨relays, standing, trivial⟩

theorem Sound.driven (sound : s.Sound P) {event : Event}
    (enabled : s.Enabled event) : (s.next P event).Sound P := by
  have ⟨relays, standing, placed⟩ := sound
  unfold next
  cases event with
  | transmit =>
      dsimp only
      split
      case h_1 now phase =>
        have relayed : (s.feed P (.pollTransmit now)).Relays P := relays.fed rfl rfl
        split
        · refine ⟨relayed, standing.fed _, ?_⟩
          change Placed _ s.phase
          rw [phase]
          exact trivial
        · exact ⟨relayed, standing.fed _, trivial⟩
      case h_2 => exact sound
  | deliver later =>
      dsimp only
      split
      case h_1 now phase =>
        split
        case h_1 found => exact .delivered relays standing found (phase ▸ trivial)
        case h_2 nothing => exact .published (relays.polled nothing) (standing.fed _)
      case h_2 => exact sound
  | flush =>
      dsimp only
      split
      case h_1 horizon phase =>
        rw [phase] at placed
        rcases placed with ⟨reason, closed, recorded⟩
        have still := (Connection.pollDeliver_connState s.conn horizon).trans closed
        split
        case h_1 found =>
          exact .delivered relays standing found (phase ▸ ⟨reason, still, recorded⟩)
        case h_2 nothing =>
          exact ⟨relays.polled nothing, standing.fed _, reason, still, recorded⟩
      case h_2 => exact sound
  | datagram | sourceClosed | timer => exact ⟨relays.fed rfl rfl, standing.fed _, trivial⟩
  | recvError => exact ⟨relays, standing, trivial⟩
  | command =>
      exact And.imp_right (⟨·, trivial⟩) (obey_keeps relays standing)
  | send payload =>
      dsimp only
      split
      case h_1 ok =>
        unfold send at ok
        split_ifs at ok with large
        exact sound.enqueued enabled.1 (.send payload)
          fun _ same => Cmd.send.inj same ▸ not_lt.mp large
      case h_2 => exact sound
  | recv =>
      dsimp only
      split
      case h_1 taken =>
        refine ⟨fun fifo => ?_, standing, placed⟩
        rcases relays fifo with ⟨trace, run, same, kept, counted⟩
        rw [fifo.pop_first taken, List.append_cons] at kept counted
        exact ⟨trace, run, same, kept, counted⟩
      case h_2 => exact sound
  | close =>
      dsimp only
      split_ifs with ended
      · exact sound
      · exact sound.enqueued enabled.1 .close nofun
  | drop => exact sound

theorem Spawned.sound (spawned : Spawned P s) : s.Sound P := by
  have relays {session : Session} {trace : List (Session × Input)} {later : Instant}
      {caller : Bool} (run : (Connection.machine P).Run trace session)
      (asked : trace.flatMap asks = []) (got : trace.flatMap gives = []) :
      (spawnConnection session later caller : Socket C).Relays P := by
    refine fun fifo => ⟨trace, run, ?_⟩
    simp [asked, got, spawnConnection, fifo.new_empty]
  cases spawned with
  | caller =>
      exact ⟨relays (.start (.caller ..)) rfl rfl, Or.inl ⟨rfl, rfl, rfl, rfl, rfl⟩, trivial⟩
  | @accepted driver configured now later hsTs peer cif newId reply negotiated accepts =>
      have opening := Connection.Opening.listener driver.core now now peer cif newId accepts ⟨now⟩
      rw [← configured] at opening
      have run : (Connection.machine P).Run [(_, .setHsAnchor now hsTs)] _ :=
        (Machine.Run.start opening).step trivial
      refine ⟨relays run rfl rfl, Or.inr (Or.inl ⟨rfl, rfl, rfl, rfl, fun payload member => ?_⟩),
        trivial⟩
      cases member

theorem reachable_sound (reachable : (machine C P).Reachable s) : s.Sound P :=
  reachable.invariant (Sound P) (fun _ spawned => spawned.sound)
    fun _ _ sound enabled => sound.driven enabled

/-! ## Samples -/

/-- Channels that are lists. -/
def lists : Channels where
  Chan Item := Nat × List Item
  new capacity := (capacity, [])
  push chan item :=
    if chan.2.length < chan.1 then some (chan.1, chan.2 ++ [item]) else none
  pop chan := chan.2.head?.map fun item => (item, chan.1, chan.2.tail)
  queue chan := chan.2

theorem lists_fifo : lists.Fifo where
  new_empty _ := rfl
  push_last {Item chan next item} put := by
    cases (Option.ite_none_right_eq_some.mp put).2
    rfl
  pop_first {Item chan next item} taken := by
    rcases chan with ⟨capacity, _ | ⟨first, rest⟩⟩ <;> cases taken
    rfl

def sampleTurn (now : Instant) : List Event := [.transmit, .transmit, .transmit, .deliver now]

/-- A caller connects, sends a payload and closes. -/
def sampleEvents : List Event :=
  sampleTurn 0 ++ (Connection.sampleResponses.flatMap fun
    | .datagram now datagram draw => .datagram now now datagram draw :: sampleTurn now
    | _ => []) ++ [.send [7], .close, .command 4000 4000] ++ sampleTurn 4000 ++
    .command 5000 5000 :: sampleTurn 5000 ++ [.flush]

def sampleSocket : Socket lists :=
  (machine lists .sample).exec (spawnConnection Connection.sampleCaller 0 true) sampleEvents

theorem sampleSocket_reachable : (machine lists .sample).Reachable sampleSocket :=
  ⟨_, Machine.run_exec (M := machine lists .sample) (Spawned.caller 0 0 _ _ _ _ ⟨0⟩)
    (by decide +kernel)⟩

/-- The socket of an accepted connection, which sends a payload at once. -/
def servedSocket : Socket lists :=
  match Connection.patientListener.handleHandshake .sample 0 ⟨[10, 0, 0, 2], 5000⟩
    Connection.patientCif ⟨5⟩ with
  | .accept reply negotiated => (machine lists .sample).exec
      (spawnConnection
        { conn := (ListenerDriver.bound Connection.patientListener).connectionOf 0 ⟨0⟩ reply
            negotiated } 0 false) [.send [7]]
  | _ => sampleSocket

theorem servedSocket_reachable : (machine lists .sample).Reachable servedSocket := by
  unfold servedSocket
  split
  case h_1 accepts =>
    have spawned := @Spawned.accepted lists .sample (.bound Connection.patientListener) rfl 0 0 ⟨0⟩
      _ _ _ _ _ accepts
    exact ⟨_, Machine.run_exec (M := machine lists .sample) spawned
      ⟨⟨⟨rfl, rfl⟩, Or.inl rfl⟩, trivial⟩⟩
  case h_2 => exact sampleSocket_reachable

/-! ## What the application can rely on -/

/-- The calls of the driver form a run of the connection.  The accepted payloads are, in order
and once each, those that it was asked to send and those that wait.  The payloads read and
those that wait are a subsequence of what it handed out, short of it by those missed. -/
theorem driver_relays (fifo : C.Fifo) (reachable : (machine C P).Reachable s) :
    Exists fun trace => (Connection.machine P).Run trace s.session ∧
      trace.flatMap asks ++ (C.queue s.commands).filterMap Cmd.payload =
        s.given.filterMap Cmd.payload ∧
      (s.read ++ C.queue s.payloads).Sublist (trace.flatMap gives) ∧
      (trace.flatMap gives).length = (s.read ++ C.queue s.payloads).length + s.missed :=
  (reachable_sound reachable).1 fifo

theorem driver_relays_sample :
    Exists fun trace => (Connection.machine .sample).Run trace sampleSocket.session ∧
      trace.flatMap asks = [[7]] := by
  rcases driver_relays lists_fifo sampleSocket_reachable with ⟨trace, run, asked, _⟩
  have waits : lists.queue sampleSocket.commands = [] := by decide +kernel
  have given : sampleSocket.given = [.send [7], .close] := by decide +kernel
  rw [waits, given, List.filterMap_nil, List.append_nil] at asked
  exact ⟨trace, run, asked⟩

/-- What the handle accepted, the connection takes whenever the driver comes to it, unless it is
closed: the handle never works with a limit above the negotiated one. -/
theorem accepted_taken (reachable : (machine C P).Reachable s)
    (accepted : .send payload ∈ s.given) (now : Instant) :
    (Exists fun reason => s.conn.connState = .closed reason) ∨
      Exists fun next => s.conn.send P now payload = .ok next := by
  rcases (reachable_sound reachable).2.1 with ⟨_, _, _, _, unused⟩ |
    ⟨_, _, _, limited, fits⟩ | ⟨_, unused, _⟩
  · rw [unused] at accepted
    cases accepted
  · unfold Connection.connState Connection.send Sender.push
    cases state : s.conn.state with
    | connecting =>
        rw [state] at limited
        exact limited.elim
    | established sender =>
        rw [state] at limited
        apply Or.inr
        dsimp only
        rw [if_neg (not_lt.mpr (limited.symm ▸ fits payload accepted))]
        exact ⟨_, rfl⟩
    | closed reason => exact Or.inl ⟨reason, rfl⟩
  · rw [unused] at accepted
    cases accepted

theorem accepted_taken_served :
    Exists fun next => servedSocket.conn.send .sample 6000 [7] = .ok next := by
  have taken := accepted_taken servedSocket_reachable
    (by decide +kernel : .send [7] ∈ servedSocket.given) 6000
  refine taken.resolve_left ?_
  rintro ⟨reason, closed⟩
  have is : servedSocket.conn.connState = .established := by decide +kernel
  cases is.symm.trans closed

/-- The driver ends only with a recorded close, after `connect` was told, if not of success then
of the error for that reason.  To the reader a shutdown and a local close are a clean end,
any other reason an error. -/
theorem stream_ends (reachable : (machine C P).Reachable s)
    (finished : s.phase = .finished) :
    Exists fun reason => s.conn.connState = .closed reason ∧ s.closeReason = some reason ∧
      (s.outcome = some (.ok ()) ∨ s.outcome = some (.error (connectError reason))) ∧
      (C.pop s.payloads = none -> s.recv =
        some (if reason = .shutdown ∨ reason = .locally then .ok none
          else .error (.closed reason))) := by
  have ⟨_, standing, placed⟩ := reachable_sound reachable
  rw [finished] at placed
  rcases placed with ⟨reason, closed, recorded⟩
  refine ⟨reason, closed, recorded, ?_, ?_⟩
  · rcases standing with ⟨_, _, _, unrecorded, _⟩ | ⟨_, _, outcome, _⟩ | ⟨_, _, other, same, outcome⟩
    · cases unrecorded.symm.trans recorded
    · exact Or.inl outcome
    · cases closed.symm.trans same
      exact Or.inr outcome
  · intro empty
    unfold recv
    rw [empty, if_pos finished, recorded]
    cases reason <;> rfl

theorem stream_ends_sample : sampleSocket.recv = some (.ok none) := by
  rcases stream_ends sampleSocket_reachable (by decide +kernel) with
    ⟨reason, closed, _, _, reads⟩
  have clean : sampleSocket.conn.connState = .closed .locally := by decide +kernel
  cases closed.symm.trans clean
  exact reads (by decide +kernel)

end Socket

end Rsrt

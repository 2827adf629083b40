import Rsrt.Basis.Machine
import Rsrt.Core.Stack

namespace Rsrt

open Rsrt.Basis

/-!
# Whole runs of a connection

Every run of one connection: a caller from its first request, or a listener's
connection from the conclusion that it accepted.  The inputs are the public calls, in
any order, at any instants and with any contents, so the peer is arbitrary.
-/

namespace Connection

/-- The public calls. -/
inductive Input
  | datagram (now : Instant) (datagram : Datagram) (draw : Draw)
  | timer (now : Instant)
  | send (now : Instant) (payload : Bytes)
  | close (now : Instant)
  | setHsAnchor (instant : Instant) (ts : Timestamp)
  | pollTransmit (now : Instant)
  | pollDeliver (now : Instant)
deriving DecidableEq

variable (P : Primitives)

/-- The connection after an input. -/
def handle (self : Connection) : Input -> Connection
  | .datagram now datagram draw => self.handleDatagram P now datagram draw
  | .timer now => self.handleTimer now
  | .send now payload =>
      match self.send P now payload with
      | .ok next => next
      | .error _ => self
  | .close now => self.close now
  | .setHsAnchor instant ts => self.setHsAnchor instant ts
  | .pollTransmit now => (self.pollTransmit now).1
  | .pollDeliver now => (self.pollDeliver now).1

/-! ## The calls of an input -/

/-- The packet is for another socket. -/
def foreign (self : Connection) (packet : Packet) : Prop :=
  packet.dstSocketId ≠ .handshake ∧ packet.dstSocketId ≠ self.localSocketId

instance (self : Connection) (packet : Packet) : Decidable (self.foreign packet) :=
  inferInstanceAs (Decidable (_ ∧ _))

def controlCalls (now : Instant) (packet : ControlPacket) (draw : Draw) : List Stack.Call :=
  match packet.controlType with
  | .ack ackNumber cif => [.ack now ackNumber cif draw.key]
  | .nak ranges => [.nak now ranges]
  | .ackAck ackNumber => [.ackAck now ackNumber packet.timestamp]
  | .dropRequest msgNumber first last => [.dropRequest now msgNumber first last]
  | .kmReq payload => [.kmReq payload]
  | .kmRsp payload => [.kmRsp payload]
  | _ => []

def packetCalls (now : Instant) (draw : Draw) : Packet -> List Stack.Call
  | .data data => [.data now data]
  | .control packet => controlCalls now packet draw

/-- The calls that an established connection makes. -/
def calls (self : Connection) : Input -> List Stack.Call
  | .datagram now (.packet packet) draw =>
      if self.foreign packet then [] else packetCalls now draw packet
  | .datagram _ _ _ => []
  | .timer now => [.timer now]
  | .send now payload => [.push now payload]
  | .close _ => []
  | .setHsAnchor instant ts => [.anchor instant ts]
  | .pollTransmit now => if self.transmitQ = [] then [.transmit now] else []
  | .pollDeliver now => [.deliver now]

/-- An input makes one call at most. -/
theorem calls_single (c : Connection) (input : Input) :
    c.calls input = [] ∨ Exists fun call => c.calls input = [call] := by
  unfold calls
  split
  · split_ifs
    · exact Or.inl rfl
    · unfold packetCalls
      split
      · exact Or.inr ⟨_, rfl⟩
      · unfold controlCalls
        split
        all_goals first | exact Or.inr ⟨_, rfl⟩ | exact Or.inl rfl
  · exact Or.inl rfl
  · exact Or.inr ⟨_, rfl⟩
  · exact Or.inr ⟨_, rfl⟩
  · exact Or.inl rfl
  · exact Or.inr ⟨_, rfl⟩
  · split_ifs
    · exact Or.inr ⟨_, rfl⟩
    · exact Or.inl rfl
  · exact Or.inr ⟨_, rfl⟩

/-- The input that each call comes from. -/
inductive Makes : Input -> Stack.Call -> Prop
  | timer (now : Instant) : Makes (.timer now) (.timer now)
  | send (now : Instant) (payload : Bytes) : Makes (.send now payload) (.push now payload)
  | anchor (instant : Instant) (ts : Timestamp) :
      Makes (.setHsAnchor instant ts) (.anchor instant ts)
  | transmit (now : Instant) : Makes (.pollTransmit now) (.transmit now)
  | deliver (now : Instant) : Makes (.pollDeliver now) (.deliver now)
  | data (now : Instant) (packet : DataPacket) (draw : Draw) :
      Makes (.datagram now (.packet (.data packet)) draw) (.data now packet)
  | control {now : Instant} {packet : ControlPacket} {draw : Draw} {call : Stack.Call}
      (member : call ∈ controlCalls now packet draw) :
      Makes (.datagram now (.packet (.control packet)) draw) call

theorem makes_of_mem {c : Connection} {input : Input} {call : Stack.Call}
    (member : call ∈ c.calls input) : Makes input call := by
  cases input with
  | timer now =>
      cases List.mem_singleton.mp member
      exact .timer now
  | send now payload =>
      cases List.mem_singleton.mp member
      exact .send now payload
  | close now => cases member
  | setHsAnchor instant ts =>
      cases List.mem_singleton.mp member
      exact .anchor instant ts
  | pollDeliver now =>
      cases List.mem_singleton.mp member
      exact .deliver now
  | pollTransmit now =>
      unfold calls at member
      dsimp only at member
      split_ifs at member
      · cases List.mem_singleton.mp member
        exact .transmit now
      · cases member
  | datagram now datagram draw =>
      cases datagram with
      | unknownControlType => cases member
      | undecodable => cases member
      | packet packet =>
          unfold calls at member
          dsimp only at member
          split_ifs at member
          · cases member
          · cases packet with
            | data data =>
                cases List.mem_singleton.mp member
                exact .data now data draw
            | control packet => exact .control member

/-- The components that a completed handshake opens. -/
def opening (self : Connection) (now : Instant) (negotiated : Negotiated) : Stack where
  sender := (transmissionPair now negotiated self.opts self.timebase).1
  receiver := (transmissionPair now negotiated self.opts self.timebase).2
  crypto := negotiated.crypto

/-- The calls that were held back until the handshake completed. -/
def openingCalls (now : Instant) (hsTs : Timestamp) (pendingSend : List Bytes)
    (earlyData : List (Instant × DataPacket)) : List Stack.Call :=
  .anchor now hsTs ::
    (earlyData.map (fun (arrival, data) => .data arrival data) ++ pendingSend.map (.push now))

/-- The negotiation that an input completes, with the instant and the timestamp of the
response. -/
def completes (self : Connection) : Input -> Option (Instant × Timestamp × Negotiated)
  | .datagram now (.packet (.control packet)) draw =>
      match self.state, packet.controlType with
      | .connecting hs _ _, .handshake cif =>
          if self.foreign (.control packet) then none
          else
            match (hs.handleHandshake P now cif draw).2 with
            | .ok (some negotiated) => some (now, packet.timestamp, negotiated)
            | _ => none
      | _, _ => none
  | _ => none

/-! ## What becomes of the components -/

/-- The state holds the components, all of them or the receiver that outlives a close. -/
inductive Shows (stack : Stack) : Connection.State -> Prop
  | established : Shows stack (.established stack.sender stack.receiver stack.crypto)
  | closed (reason : CloseReason) : Shows stack (.closed reason (some stack.receiver))

section Calls

variable {P} {c : Connection} {stack : Stack}

theorem closeWith_shows (shows : Shows stack c.state) (now : Instant) (reason : CloseReason)
    (sendShutdown : Bool) : Shows stack (c.closeWith now reason sendShutdown).state := by
  rcases c with ⟨state⟩
  cases shows with
  | established => cases sendShutdown <;> exact .closed reason
  | closed earlier => exact .closed earlier

theorem handleDataPacket_shows (is : c.state = .established stack.sender stack.receiver stack.crypto)
    (now : Instant) (data : DataPacket) :
    Shows (stack.call P (.data now data)) (c.handleDataPacket P now data).state := by
  unfold handleDataPacket
  rw [is]
  dsimp only
  split_ifs
  · exact closeWith_shows .established now _ _
  · exact .established

theorem handleAck_shows (now : Instant) (ackNumber : Nat) (cif : AckCif) (fresh : SecretKey) :
    Shows (stack.call P (.ack now ackNumber cif fresh))
      (c.handleAck P stack.sender stack.receiver stack.crypto now ackNumber cif fresh).state := by
  unfold handleAck Stack.call
  dsimp only
  generalize stack.sender.handleAck now ackNumber cif = outcome
  rcases outcome with ⟨sender, err | reply⟩
  · exact closeWith_shows .established now _ _
  · exact .established

theorem handleNak_shows (now : Instant) (ranges : List LossRange) :
    Shows (stack.call P (.nak now ranges))
      (c.handleNak stack.sender stack.receiver stack.crypto now ranges).state := by
  unfold handleNak
  dsimp only
  split_ifs
  · exact closeWith_shows .established now _ _
  · exact .established

theorem handleKmreq_shows (is : c.state = .established stack.sender stack.receiver stack.crypto)
    (payload : Bytes) :
    Shows (stack.call P (.kmReq payload)) (c.handleKmreq P payload).state := by
  rcases stack with ⟨sender, receiver, crypto⟩
  unfold handleKmreq
  rw [is]
  cases crypto with
  | none =>
      change Shows _ c.state
      rw [is]
      exact .established
  | some engine =>
      dsimp only
      split
      case h_1 evaluated =>
        change Shows ⟨sender, receiver, some (engine.handleKmreq P payload).1⟩ _
        rw [evaluated]
        exact .established
      case h_2 evaluated =>
        change Shows ⟨sender, receiver, some (engine.handleKmreq P payload).1⟩ _
        rw [evaluated]
        exact .established

theorem handleKmrsp_shows (is : c.state = .established stack.sender stack.receiver stack.crypto)
    (payload : Bytes) : Shows (stack.call P (.kmRsp payload)) (c.handleKmrsp payload).state := by
  rcases stack with ⟨sender, receiver, crypto⟩
  unfold handleKmrsp
  rw [is]
  cases crypto with
  | none =>
      change Shows _ c.state
      rw [is]
      exact .established
  | some engine => exact .established

theorem handleControlPacket_shows
    (is : c.state = .established stack.sender stack.receiver stack.crypto) (now : Instant)
    (packet : ControlPacket) (draw : Draw) :
    Shows ((controlCalls now packet draw).foldl (Stack.call P) stack)
      (c.handleControlPacket P now packet draw).state := by
  have same : Shows stack c.state := is ▸ .established
  rcases packet with ⟨ts, dst, message⟩
  cases message with
  | handshake cif =>
      change Shows stack (c.handleHandshakePacket P now ts cif draw).state
      unfold handleHandshakePacket
      rw [is]
      dsimp only
      split_ifs
      · exact .established
      · exact same
  | shutdown => exact closeWith_shows same now _ _
  | keepAlive => exact same
  | congestionWarning => exact same
  | peerError code => exact same
  | kmReq payload => exact handleKmreq_shows is payload
  | kmRsp payload => exact @handleKmrsp_shows P c stack is payload
  | ack ackNumber cif =>
      change Shows _ (c.handleTransmissionControl P now ts _ draw.key).state
      unfold handleTransmissionControl
      rw [is]
      exact handleAck_shows now ackNumber cif draw.key
  | nak ranges =>
      change Shows _ (c.handleTransmissionControl P now ts _ draw.key).state
      unfold handleTransmissionControl
      rw [is]
      exact @handleNak_shows P c stack now ranges
  | ackAck ackNumber =>
      change Shows _ (c.handleTransmissionControl P now ts _ draw.key).state
      unfold handleTransmissionControl
      rw [is]
      exact .established
  | dropRequest msgNumber first last =>
      change Shows _ (c.handleTransmissionControl P now ts _ draw.key).state
      unfold handleTransmissionControl
      rw [is]
      exact .established

theorem handlePacket_shows (is : c.state = .established stack.sender stack.receiver stack.crypto)
    (now : Instant) (packet : Packet) (draw : Draw) :
    Shows ((c.calls (.datagram now (.packet packet) draw)).foldl (Stack.call P) stack)
      (c.handlePacket P now packet draw).state := by
  have touched : (c.touch now).state = .established stack.sender stack.receiver stack.crypto := is
  unfold handlePacket calls
  rw [is]
  dsimp only
  by_cases elsewhere : c.foreign packet
  · have dropped : packet.dstSocketId ≠ .handshake ∧ packet.dstSocketId ≠ c.localSocketId :=
      elsewhere
    rw [if_pos elsewhere, if_pos dropped, is]
    exact .established
  · have taken : ¬(packet.dstSocketId ≠ .handshake ∧ packet.dstSocketId ≠ c.localSocketId) :=
      elsewhere
    rw [if_neg elsewhere, if_neg taken]
    cases packet with
    | data data => exact handleDataPacket_shows touched now data
    | control packet => exact handleControlPacket_shows touched now packet draw

/-- An open connection whose components have ticked. -/
def ticked (self : Connection) (stack : Stack) (now : Instant) (expCount : Nat) : Connection :=
  { self with
    state := .established (stack.sender.onTimer now) (stack.receiver.onTimer now) stack.crypto
    expCount }

/-- What the timers of an open connection do after the components have ticked. -/
inductive Ticks (stack : Stack) (now : Instant) (c : Connection) : Connection -> Prop
  | closes (expCount : Nat) (reason : CloseReason) :
      Ticks stack now c ((c.ticked stack now expCount).closeWith now reason true)
  | speaks (expCount : Nat) :
      Ticks stack now c
        { c with
          state := .established (stack.sender.onTimer now) (stack.receiver.onTimer now) stack.crypto
          expCount
          transmitQ := c.transmitQ ++ [control .keepAlive]
          lastSent := now }
  | rests (expCount : Nat) : Ticks stack now c (c.ticked stack now expCount)

theorem handleTimer_ticks (is : c.state = .established stack.sender stack.receiver stack.crypto)
    (now : Instant) : Ticks stack now c (c.handleTimer now) := by
  unfold handleTimer
  rw [is]
  dsimp only
  split
  · exact .closes _ _
  · split
    · exact .closes _ _
    · split
      · exact .speaks _
      · exact .rests _

theorem handleTimer_shows (is : c.state = .established stack.sender stack.receiver stack.crypto)
    (now : Instant) : Shows (stack.call P (.timer now)) (c.handleTimer now).state := by
  have ticks := handleTimer_ticks is now
  generalize c.handleTimer now = next at ticks ⊢
  cases ticks with
  | closes expCount reason => exact closeWith_shows .established now reason true
  | speaks expCount => exact .established
  | rests expCount => exact .established

theorem nextTransmitAt_cons {head : Packet} {rest : List Packet}
    (queue : c.transmitQ = head :: rest) (now : Instant) :
    c.nextTransmitAt now = ({ c with transmitQ := rest }, some (none, head)) := by
  unfold nextTransmitAt
  rw [queue]

theorem nextTransmitAt_closed {reason : CloseReason} {kept : Option Receiver}
    (queue : c.transmitQ = []) (state : c.state = .closed reason kept) (now : Instant) :
    c.nextTransmitAt now = (c, none) := by
  unfold nextTransmitAt
  rw [queue, state]

/-- An established connection with an empty queue polls its components. -/
theorem nextTransmitAt_established
    (is : c.state = .established stack.sender stack.receiver stack.crypto)
    (empty : c.transmitQ = []) (now : Instant) :
    c.nextTransmitAt now =
      ({ c with
          state := .established (stack.poll now).1.sender (stack.poll now).1.receiver
            (stack.poll now).1.crypto },
        (stack.poll now).2) := by
  unfold nextTransmitAt Stack.poll
  rw [empty, is]
  dsimp only
  generalize stack.receiver.pollControl now = heard
  rcases heard with ⟨receiver, _ | message⟩
  · generalize stack.sender.pollControl = said
    rcases said with ⟨sender, _ | message⟩ <;> rfl
  · rfl

theorem pollTransmit_state (c : Connection) (now : Instant) :
    (c.pollTransmit now).1.state = (c.nextTransmitAt now).1.state := by
  unfold pollTransmit pollTransmitAt
  dsimp only
  split
  case h_1 evaluated => rw [evaluated]
  case h_2 evaluated => rw [evaluated]

theorem pollTransmit_shows (is : c.state = .established stack.sender stack.receiver stack.crypto)
    (now : Instant) :
    Shows ((c.calls (.pollTransmit now)).foldl (Stack.call P) stack)
      (c.pollTransmit now).1.state := by
  rw [pollTransmit_state]
  unfold calls
  dsimp only
  split_ifs with empty
  · rw [nextTransmitAt_established is empty now]
    exact .established
  · unfold nextTransmitAt
    split
    · change Shows stack c.state
      rw [is]
      exact .established
    · contradiction

theorem handle_shows (is : c.state = .established stack.sender stack.receiver stack.crypto)
    (input : Input) :
    Shows ((c.calls input).foldl (Stack.call P) stack) (c.handle P input).state := by
  have same : Shows stack c.state := is ▸ .established
  cases input with
  | datagram now datagram draw =>
      cases datagram with
      | packet packet => exact handlePacket_shows is now packet draw
      | unknownControlType => exact same
      | undecodable => exact same
  | timer now => exact @handleTimer_shows P c stack is now
  | send now payload =>
      change Shows (stack.call P (.push now payload)) _
      unfold handle send Stack.call
      rw [is]
      dsimp only
      generalize stack.sender.push P now payload stack.crypto = outcome
      rcases outcome with err | ⟨sender, crypto⟩
      · exact same
      · exact .established
  | close now => exact closeWith_shows same now _ _
  | setHsAnchor instant ts =>
      change Shows _ (c.setHsAnchor instant ts).state
      unfold setHsAnchor
      rw [is]
      exact .established
  | pollTransmit now => exact pollTransmit_shows is now
  | pollDeliver now =>
      change Shows _ (c.pollDeliver now).1.state
      unfold pollDeliver
      rw [is]
      exact .established

/-! ### Establishment -/

theorem replayEarly_eq (stack : Stack) (earlyData : List (Instant × DataPacket)) :
    (earlyData.map fun (arrival, data) => Stack.Call.data arrival data).foldl (Stack.call P) stack =
      { stack with
          receiver := (replayEarly P stack.receiver stack.crypto earlyData).1
          crypto := (replayEarly P stack.receiver stack.crypto earlyData).2 } := by
  induction earlyData generalizing stack with
  | nil => rfl
  | cons entry rest ih =>
      rw [List.map_cons, List.foldl_cons, ih]
      rfl

theorem flushPending_eq (stack : Stack) (now : Instant) (pendingSend : List Bytes) :
    (pendingSend.map (Stack.Call.push now)).foldl (Stack.call P) stack =
      { stack with
          sender := (flushPending P now stack.sender stack.crypto pendingSend).1
          crypto := (flushPending P now stack.sender stack.crypto pendingSend).2 } := by
  induction pendingSend generalizing stack with
  | nil => rfl
  | cons payload rest ih =>
      rw [List.map_cons, List.foldl_cons, ih, flushPending]
      unfold Stack.call
      dsimp only
      generalize stack.sender.push P now payload stack.crypto = outcome
      rcases outcome with err | ⟨sender, crypto⟩ <;> rfl

/-- Establishment opens the components and makes the calls that were held back. -/
theorem establish_state {hs : CallerHandshake} {pendingSend : List Bytes}
    {earlyData : List (Instant × DataPacket)}
    (connecting : c.state = .connecting hs pendingSend earlyData) (now : Instant)
    (hsTs : Timestamp) (negotiated : Negotiated)
    (opened : (openingCalls now hsTs pendingSend earlyData).foldl (Stack.call P)
      (c.opening now negotiated) = stack) :
    (c.establish P now hsTs negotiated).state =
      .established stack.sender stack.receiver stack.crypto := by
  rw [← opened]
  unfold openingCalls
  rw [List.foldl_cons, List.foldl_append, replayEarly_eq, flushPending_eq]
  unfold establish
  rw [connecting]
  rfl

theorem connecting_of_completes {input : Input} {agreed : Instant × Timestamp × Negotiated}
    (completed : c.completes P input = some agreed) :
    Exists fun hs => Exists fun pendingSend => Exists fun earlyData =>
      c.state = .connecting hs pendingSend earlyData := by
  unfold completes at completed
  split at completed
  · split at completed
    case h_1 state _ => exact ⟨_, _, _, state⟩
    case h_2 => cases completed
  · cases completed

/-- An input that completes the handshake is a conclusion for this caller. -/
theorem handle_of_completes {hs : CallerHandshake} {pendingSend : List Bytes}
    {earlyData : List (Instant × DataPacket)}
    (connecting : c.state = .connecting hs pendingSend earlyData) {input : Input} {now : Instant}
    {hsTs : Timestamp} {negotiated : Negotiated}
    (completed : c.completes P input = some (now, hsTs, negotiated)) :
    Exists fun hs' => c.handle P input =
      { c.touch now with state := .connecting hs' pendingSend earlyData }.establish P now hsTs
        negotiated := by
  unfold completes at completed
  split at completed
  case h_2 => cases completed
  case h_1 arrival packet draw =>
    rw [connecting] at completed
    split at completed
    case h_2 => cases completed
    case h_1 cif state message =>
      cases state
      split_ifs at completed with elsewhere
      split at completed
      case h_2 => cases completed
      case h_1 agreed outcome =>
        cases completed
        have taken : ¬((Packet.control packet).dstSocketId ≠ .handshake ∧
            (Packet.control packet).dstSocketId ≠ c.localSocketId) := elsewhere
        have touched : (c.touch now).state = .connecting hs pendingSend earlyData := connecting
        refine ⟨(hs.handleHandshake P now cif draw).1, ?_⟩
        change c.handlePacket P now (.control packet) draw = _
        unfold handlePacket
        rw [connecting]
        dsimp only
        rw [if_neg taken]
        unfold handleControlPacket
        rw [message]
        dsimp only
        unfold handleHandshakePacket
        rw [touched]
        dsimp only
        rw [← Prod.mk.eta (p := hs.handleHandshake P now cif draw), outcome]

/-- An input that completes the handshake establishes the connection. -/
theorem handle_completes {hs : CallerHandshake} {pendingSend : List Bytes}
    {earlyData : List (Instant × DataPacket)}
    (connecting : c.state = .connecting hs pendingSend earlyData) {input : Input} {now : Instant}
    {hsTs : Timestamp} {negotiated : Negotiated}
    (completed : c.completes P input = some (now, hsTs, negotiated))
    (opened : (openingCalls now hsTs pendingSend earlyData).foldl (Stack.call P)
      (c.opening now negotiated) = stack) :
    (c.handle P input).state = .established stack.sender stack.receiver stack.crypto := by
  rcases handle_of_completes connecting completed with ⟨hs', handled⟩
  rw [handled]
  exact establish_state rfl now _ _ opened

/-- The handshake is fed, polled or left alone. -/
inductive HandshakeMoves (P : Primitives) (hs : CallerHandshake) : CallerHandshake -> Prop
  | rest : HandshakeMoves P hs hs
  | heard {now : Instant} {cif : HandshakeCif} {draw : Draw}
      (goes_on : (hs.handleHandshake P now cif draw).2 = .ok none) :
      HandshakeMoves P hs (hs.handleHandshake P now cif draw).1
  | polled (now : Instant) : HandshakeMoves P hs (hs.pollTransmit now).1

/-- A connecting caller goes on with its handshake or gives up. -/
inductive GoesOn (P : Primitives) (hs : CallerHandshake) : Connection.State -> Prop
  | connecting {hs' : CallerHandshake} (moves : HandshakeMoves P hs hs') (pendingSend : List Bytes)
      (earlyData : List (Instant × DataPacket)) :
      GoesOn P hs (.connecting hs' pendingSend earlyData)
  | closed (reason : CloseReason) : GoesOn P hs (.closed reason none)

section Connecting

variable {hs : CallerHandshake} {pendingSend : List Bytes}
  {earlyData : List (Instant × DataPacket)}

theorem GoesOn.same (connecting : c.state = .connecting hs pendingSend earlyData) :
    GoesOn P hs c.state :=
  connecting ▸ .connecting .rest _ _

theorem GoesOn.closeWith {hs' : CallerHandshake}
    (connecting : c.state = .connecting hs' pendingSend earlyData) (now : Instant)
    (reason : CloseReason) (sendShutdown : Bool) :
    GoesOn P hs (c.closeWith now reason sendShutdown).state := by
  rcases c with ⟨state⟩
  cases connecting
  cases sendShutdown <;> exact .closed reason

theorem handleHandshakePacket_goesOn
    (connecting : c.state = .connecting hs pendingSend earlyData) (now : Instant)
    (hsTs : Timestamp) (cif : HandshakeCif) (draw : Draw)
    (unfinished : forall negotiated, (hs.handleHandshake P now cif draw).2 ≠ .ok (some negotiated)) :
    GoesOn P hs (c.handleHandshakePacket P now hsTs cif draw).state := by
  unfold handleHandshakePacket
  rw [connecting]
  dsimp only
  split
  case h_1 evaluated => exact absurd (congrArg Prod.snd evaluated) (unfinished _)
  case h_2 next evaluated =>
    have moved : next = (hs.handleHandshake P now cif draw).1 := (congrArg Prod.fst evaluated).symm
    have goes_on := congrArg Prod.snd evaluated
    subst moved
    exact .connecting (.heard goes_on) _ _
  case h_3 => exact GoesOn.closeWith rfl now _ _

theorem handleControlPacket_goesOn
    (connecting : c.state = .connecting hs pendingSend earlyData) (now : Instant)
    (packet : ControlPacket) (draw : Draw)
    (unfinished : forall cif negotiated, packet.controlType = .handshake cif ->
      (hs.handleHandshake P now cif draw).2 ≠ .ok (some negotiated)) :
    GoesOn P hs (c.handleControlPacket P now packet draw).state := by
  have same : GoesOn P hs c.state := .same connecting
  rcases packet with ⟨ts, dst, message⟩
  have untouched (other : ControlType) (fresh : SecretKey) :
      GoesOn P hs (c.handleTransmissionControl P now ts other fresh).state := by
    unfold handleTransmissionControl
    rw [connecting]
    exact same
  cases message with
  | handshake cif =>
      exact handleHandshakePacket_goesOn connecting now ts cif draw fun negotiated =>
        unfinished cif negotiated rfl
  | shutdown => exact .closeWith connecting now _ _
  | keepAlive => exact same
  | congestionWarning => exact same
  | peerError code => exact same
  | kmReq payload =>
      change GoesOn P hs (c.handleKmreq P payload).state
      unfold handleKmreq
      rw [connecting]
      exact same
  | kmRsp payload =>
      change GoesOn P hs (c.handleKmrsp payload).state
      unfold handleKmrsp
      rw [connecting]
      exact same
  | ack ackNumber cif => exact untouched _ _
  | nak ranges => exact untouched _ _
  | ackAck ackNumber => exact untouched _ _
  | dropRequest msgNumber first last => exact untouched _ _

theorem handlePacket_goesOn (connecting : c.state = .connecting hs pendingSend earlyData)
    (now : Instant) (packet : Packet) (draw : Draw)
    (unfinished : c.completes P (.datagram now (.packet packet) draw) = none) :
    GoesOn P hs (c.handlePacket P now packet draw).state := by
  have touched : (c.touch now).state = .connecting hs pendingSend earlyData := connecting
  unfold handlePacket
  rw [connecting]
  dsimp only
  split_ifs with elsewhere
  · exact .same connecting
  · cases packet with
    | data data =>
        unfold handleDataPacket
        rw [touched]
        exact .connecting .rest _ _
    | control packet =>
        apply handleControlPacket_goesOn touched
        intro cif negotiated message outcome
        unfold completes at unfinished
        dsimp only at unfinished
        rw [connecting, message] at unfinished
        dsimp only at unfinished
        rw [if_neg (show ¬c.foreign (.control packet) from elsewhere), outcome] at unfinished
        cases unfinished

/-- Without a completed handshake a connecting caller goes on. -/
theorem handle_goesOn (connecting : c.state = .connecting hs pendingSend earlyData)
    {input : Input} (unfinished : c.completes P input = none) :
    GoesOn P hs (c.handle P input).state := by
  have same : GoesOn P hs c.state := .same connecting
  cases input with
  | datagram now datagram draw =>
      cases datagram with
      | packet packet => exact handlePacket_goesOn connecting now packet draw unfinished
      | unknownControlType => exact same
      | undecodable => exact same
  | timer now =>
      change GoesOn P hs (c.handleTimer now).state
      unfold handleTimer
      rw [connecting]
      dsimp only
      split_ifs
      · exact .closeWith connecting now _ _
      · exact same
  | send now payload =>
      unfold handle send
      rw [connecting]
      dsimp only
      by_cases large : c.opts.maxPayload < payload.length
      · rw [if_pos large]
        exact same
      · rw [if_neg large]
        exact .connecting .rest _ _
  | close now => exact .closeWith connecting now _ _
  | setHsAnchor instant ts =>
      change GoesOn P hs (c.setHsAnchor instant ts).state
      unfold setHsAnchor
      rw [connecting]
      exact same
  | pollTransmit now =>
      change GoesOn P hs (c.pollTransmit now).1.state
      rw [pollTransmit_state]
      unfold nextTransmitAt
      split
      · exact same
      · rw [connecting]
        exact .connecting (.polled now) _ _
  | pollDeliver now =>
      change GoesOn P hs (c.pollDeliver now).1.state
      unfold pollDeliver
      rw [connecting]
      exact same

end Connecting

/-- What an input leaves of the receiver that a closed connection keeps. -/
def Input.drains (kept : Option Receiver) : Input -> Option Receiver
  | .pollDeliver now => kept.map fun receiver => (receiver.pollDeliver now).1
  | _ => kept

/-- A closed connection only drains its receiver. -/
theorem handle_closed_state {reason : CloseReason} {kept : Option Receiver}
    (closed : c.state = .closed reason kept) (input : Input) :
    (c.handle P input).state = .closed reason (input.drains kept) := by
  cases input with
  | datagram now datagram draw =>
      cases datagram with
      | packet packet =>
          change (c.handlePacket P now packet draw).state = _
          unfold handlePacket
          rw [closed]
          exact closed
      | unknownControlType => exact closed
      | undecodable => exact closed
  | timer now =>
      change (c.handleTimer now).state = _
      unfold handleTimer
      rw [closed]
      exact closed
  | send now payload =>
      unfold handle send
      rw [closed]
      exact closed
  | close now =>
      change (c.closeWith now _ _).state = _
      unfold closeWith
      rw [closed]
      exact closed
  | setHsAnchor instant ts =>
      change (c.setHsAnchor instant ts).state = _
      unfold setHsAnchor
      rw [closed]
      exact closed
  | pollTransmit now =>
      change (c.pollTransmit now).1.state = _
      rw [pollTransmit_state]
      unfold nextTransmitAt
      split
      · exact closed
      · rw [closed]
        exact closed
  | pollDeliver now =>
      change (c.pollDeliver now).1.state = _
      unfold pollDeliver
      rw [closed]
      cases kept with
      | none => exact closed
      | some receiver => rfl

theorem handle_closed {reason : CloseReason} {kept : Option Receiver}
    (closed : c.state = .closed reason kept) (input : Input) :
    (c.handle P input).state = .closed reason kept ∨
      Exists fun now => Exists fun receiver => kept = some receiver ∧
        (c.handle P input).state = .closed reason (some (receiver.pollDeliver now).1) := by
  rw [handle_closed_state closed]
  cases input with
  | pollDeliver now =>
      cases kept with
      | none => exact Or.inl rfl
      | some receiver => exact Or.inr ⟨now, receiver, rfl, rfl⟩
  | _ => exact Or.inl rfl

end Calls

/-! ## What no input changes -/

/-- The identity of a connection, and where the packets that it owes come from.  The only
handshake among them is the stored reply. -/
structure Frame (c c' : Connection) : Prop where
  remote : c'.remote = c.remote
  localSocketId : c'.localSocketId = c.localSocketId
  timebase : c'.timebase = c.timebase
  opts : c'.opts = c.opts
  hsReply : c'.hsReply = c.hsReply
  queue : forall packet, packet ∈ c'.transmitQ ->
    packet ∈ c.transmitQ ∨ packet ∈ c.hsReply ∨
      Exists fun message => packet = control message ∧ forall cif, message ≠ .handshake cif

section Frame

variable {P} {c : Connection}

theorem Frame.of_queue_eq {c' : Connection} (remote : c'.remote = c.remote)
    (localSocketId : c'.localSocketId = c.localSocketId) (timebase : c'.timebase = c.timebase)
    (opts : c'.opts = c.opts) (hsReply : c'.hsReply = c.hsReply)
    (queue : c'.transmitQ = c.transmitQ) : Frame c c' :=
  ⟨remote, localSocketId, timebase, opts, hsReply, fun _ member => Or.inl (queue ▸ member)⟩

theorem Frame.refl (c : Connection) : Frame c c :=
  .of_queue_eq rfl rfl rfl rfl rfl rfl

theorem Frame.trans {middle last : Connection} (first : Frame c middle) (second : Frame middle last) :
    Frame c last where
  remote := second.remote.trans first.remote
  localSocketId := second.localSocketId.trans first.localSocketId
  timebase := second.timebase.trans first.timebase
  opts := second.opts.trans first.opts
  hsReply := second.hsReply.trans first.hsReply
  queue := by
    intro packet member
    rcases second.queue packet member with old | reply | owed
    · exact first.queue packet old
    · exact Or.inr (Or.inl (first.hsReply ▸ reply))
    · exact Or.inr (Or.inr owed)

/-- Messages that join the queue. -/
theorem Frame.of_owed {c' : Connection} (remote : c'.remote = c.remote)
    (localSocketId : c'.localSocketId = c.localSocketId) (timebase : c'.timebase = c.timebase)
    (opts : c'.opts = c.opts) (hsReply : c'.hsReply = c.hsReply) {owed : List Packet}
    (queue : c'.transmitQ = c.transmitQ ++ owed)
    (messages : forall packet, packet ∈ owed ->
      Exists fun message => packet = control message ∧ forall cif, message ≠ .handshake cif) :
    Frame c c' := by
  refine ⟨remote, localSocketId, timebase, opts, hsReply, ?_⟩
  intro packet member
  rw [queue] at member
  rcases List.mem_append.mp member with old | new
  · exact Or.inl old
  · exact Or.inr (Or.inr (messages packet new))

theorem messages_singleton {message : ControlType} (plain : forall cif, message ≠ .handshake cif) :
    forall packet, packet ∈ [control message] ->
      Exists fun message => packet = control message ∧ forall cif, message ≠ .handshake cif := by
  intro packet member
  exact ⟨message, List.mem_singleton.mp member, plain⟩

theorem closeWith_frame (c : Connection) (now : Instant) (reason : CloseReason)
    (sendShutdown : Bool) : Frame c (c.closeWith now reason sendShutdown) := by
  have shut (sendShutdown : Bool) : Frame c
      (if sendShutdown then
        { c with
            state := .closed reason c.state.keptReceiver
            transmitQ := c.transmitQ ++ [control .shutdown]
            lastSent := now }
      else { c with state := .closed reason c.state.keptReceiver }) := by
    split_ifs
    · exact .of_owed rfl rfl rfl rfl rfl rfl (messages_singleton nofun)
    · exact .of_queue_eq rfl rfl rfl rfl rfl rfl
  unfold closeWith
  split
  · exact .refl c
  · exact shut sendShutdown

theorem handleDataPacket_frame (c : Connection) (now : Instant) (data : DataPacket) :
    Frame c (c.handleDataPacket P now data) := by
  unfold handleDataPacket
  split
  · exact .of_queue_eq rfl rfl rfl rfl rfl rfl
  · dsimp only
    split_ifs
    · refine Frame.trans ?_ (closeWith_frame _ _ _ _)
      exact .of_queue_eq rfl rfl rfl rfl rfl rfl
    · exact .of_queue_eq rfl rfl rfl rfl rfl rfl
  · exact .refl c

theorem establish_frame (c : Connection) (now : Instant) (hsTs : Timestamp)
    (negotiated : Negotiated) : Frame c (c.establish P now hsTs negotiated) := by
  unfold establish
  split
  · exact .of_queue_eq rfl rfl rfl rfl rfl rfl
  · exact .refl c

theorem handleHandshakePacket_frame (c : Connection) (now : Instant) (hsTs : Timestamp)
    (cif : HandshakeCif) (draw : Draw) : Frame c (c.handleHandshakePacket P now hsTs cif draw) := by
  unfold handleHandshakePacket
  split
  · split
    · refine Frame.trans ?_ (establish_frame _ _ _ _)
      exact .of_queue_eq rfl rfl rfl rfl rfl rfl
    · exact .of_queue_eq rfl rfl rfl rfl rfl rfl
    · refine Frame.trans ?_ (closeWith_frame _ _ _ _)
      exact .of_queue_eq rfl rfl rfl rfl rfl rfl
  · split_ifs
    · refine ⟨rfl, rfl, rfl, rfl, rfl, ?_⟩
      intro packet member
      rcases List.mem_append.mp member with old | reply
      · exact Or.inl old
      · exact Or.inr (Or.inl (Option.mem_toList.mp reply))
    · exact .refl c
  · exact .refl c

theorem handleAck_frame (c : Connection) (sender : Sender) (receiver : Receiver)
    (crypto : Option Crypto) (now : Instant) (ackNumber : Nat) (cif : AckCif) (fresh : SecretKey) :
    Frame c (c.handleAck P sender receiver crypto now ackNumber cif fresh) := by
  unfold handleAck
  split
  · dsimp only
    refine .of_owed rfl rfl rfl rfl rfl (List.append_assoc _ _ _) ?_
    intro packet member
    rcases List.mem_append.mp member with request | reply
    · rcases Option.map_eq_some_iff.mp (Option.mem_toList.mp request) with ⟨blob, _, made⟩
      exact ⟨_, made.symm, nofun⟩
    · rcases Option.map_eq_some_iff.mp (Option.mem_toList.mp reply) with ⟨number, _, made⟩
      exact ⟨_, made.symm, nofun⟩
  · refine Frame.trans ?_ (closeWith_frame _ _ _ _)
    exact .of_queue_eq rfl rfl rfl rfl rfl rfl

theorem handleNak_frame (c : Connection) (sender : Sender) (receiver : Receiver)
    (crypto : Option Crypto) (now : Instant) (ranges : List LossRange) :
    Frame c (c.handleNak sender receiver crypto now ranges) := by
  unfold handleNak
  dsimp only
  split_ifs
  · refine Frame.trans ?_ (closeWith_frame _ _ _ _)
    exact .of_queue_eq rfl rfl rfl rfl rfl rfl
  · exact .of_queue_eq rfl rfl rfl rfl rfl rfl

theorem handleTransmissionControl_frame (c : Connection) (now : Instant) (ts : Timestamp)
    (message : ControlType) (fresh : SecretKey) :
    Frame c (c.handleTransmissionControl P now ts message fresh) := by
  unfold handleTransmissionControl
  split
  · split
    · exact handleAck_frame c _ _ _ now _ _ fresh
    · exact handleNak_frame c _ _ _ now _
    · exact .of_queue_eq rfl rfl rfl rfl rfl rfl
    · exact .of_queue_eq rfl rfl rfl rfl rfl rfl
    · exact .refl c
  · exact .refl c

theorem handleControlPacket_frame (c : Connection) (now : Instant) (packet : ControlPacket)
    (draw : Draw) : Frame c (c.handleControlPacket P now packet draw) := by
  unfold handleControlPacket
  split
  · exact handleHandshakePacket_frame c now _ _ draw
  · exact closeWith_frame c now _ _
  · exact .refl c
  · exact .refl c
  · exact .refl c
  · unfold handleKmreq
    split
    · split
      · exact .of_owed rfl rfl rfl rfl rfl rfl (messages_singleton nofun)
      · exact .of_queue_eq rfl rfl rfl rfl rfl rfl
    · exact .refl c
  · unfold handleKmrsp
    split
    · exact .of_queue_eq rfl rfl rfl rfl rfl rfl
    · exact .refl c
  · exact handleTransmissionControl_frame c now _ _ _

theorem handlePacket_frame (c : Connection) (now : Instant) (packet : Packet) (draw : Draw) :
    Frame c (c.handlePacket P now packet draw) := by
  have touched : Frame c (c.touch now) := .of_queue_eq rfl rfl rfl rfl rfl rfl
  unfold handlePacket
  split
  · exact .refl c
  · split_ifs
    · exact .refl c
    · cases packet with
      | data data => exact touched.trans (handleDataPacket_frame _ now data)
      | control packet => exact touched.trans (handleControlPacket_frame _ now packet draw)

theorem handleTimer_frame (c : Connection) (now : Instant) : Frame c (c.handleTimer now) := by
  rcases state : c.state with ⟨hs, pendingSend, earlyData⟩ | ⟨sender, receiver, crypto⟩ |
    ⟨reason, kept⟩
  · unfold handleTimer
    rw [state]
    dsimp only
    split_ifs
    · exact closeWith_frame c now _ _
    · exact .refl c
  · have ticked (expCount : Nat) : Frame c (c.ticked { sender, receiver, crypto } now expCount) :=
      .of_queue_eq rfl rfl rfl rfl rfl rfl
    have ticks := @handleTimer_ticks c { sender, receiver, crypto } state now
    generalize c.handleTimer now = next at ticks ⊢
    cases ticks with
    | closes expCount reason => exact (ticked expCount).trans (closeWith_frame _ now reason true)
    | speaks expCount =>
        exact .of_owed rfl rfl rfl rfl rfl rfl (messages_singleton fun _ same => by cases same)
    | rests expCount => exact ticked expCount
  · unfold handleTimer
    rw [state]
    exact .refl c

theorem nextTransmitAt_frame (c : Connection) (now : Instant) :
    Frame c (c.nextTransmitAt now).1 := by
  unfold nextTransmitAt
  split
  case h_1 head rest queue =>
    refine ⟨rfl, rfl, rfl, rfl, rfl, ?_⟩
    intro packet member
    rw [queue]
    exact Or.inl (List.mem_cons_of_mem head member)
  case h_2 =>
    repeat' split
    all_goals exact .of_queue_eq rfl rfl rfl rfl rfl rfl

theorem pollTransmitAt_frame (c : Connection) (now : Instant) :
    Frame c (c.pollTransmitAt now).1 := by
  have polled := nextTransmitAt_frame c now
  unfold pollTransmitAt
  split
  case h_1 evaluated =>
    rw [evaluated] at polled
    exact polled
  case h_2 evaluated =>
    rw [evaluated] at polled
    exact polled.trans (.of_queue_eq rfl rfl rfl rfl rfl rfl)

theorem handle_frame (c : Connection) (input : Input) : Frame c (c.handle P input) := by
  cases input with
  | datagram now datagram draw =>
      cases datagram with
      | packet packet => exact handlePacket_frame c now packet draw
      | unknownControlType => exact .of_queue_eq rfl rfl rfl rfl rfl rfl
      | undecodable => exact .refl c
  | timer now => exact handleTimer_frame c now
  | send now payload =>
      unfold handle send
      dsimp only
      split
      case h_1 accepted =>
        split at accepted
        · split_ifs at accepted
          all_goals
            cases accepted
            exact .of_queue_eq rfl rfl rfl rfl rfl rfl
        · split at accepted
          · cases accepted
            exact .of_queue_eq rfl rfl rfl rfl rfl rfl
          · cases accepted
        · cases accepted
      case h_2 => exact .refl c
  | close now => exact closeWith_frame c now _ _
  | setHsAnchor instant ts =>
      change Frame c (c.setHsAnchor instant ts)
      unfold setHsAnchor
      split
      · exact .of_queue_eq rfl rfl rfl rfl rfl rfl
      · exact .refl c
  | pollTransmit now => exact pollTransmitAt_frame c now
  | pollDeliver now =>
      change Frame c (c.pollDeliver now).1
      unfold pollDeliver
      split
      · exact .of_queue_eq rfl rfl rfl rfl rfl rfl
      · exact .of_queue_eq rfl rfl rfl rfl rfl rfl
      · exact .refl c

end Frame

/-! ## Runs -/

structure Session where
  conn : Connection
  log : Log := {}
deriving DecidableEq

/-- The components and the log after an input, while there are components. -/
def Session.driven (s : Session) (input : Input) : Option Stack.Session :=
  match s.conn.state with
  | .connecting _ pendingSend earlyData =>
      (s.conn.completes P input).map fun (now, hsTs, negotiated) =>
        Stack.Session.run P { stack := s.conn.opening now negotiated, log := s.log }
          (openingCalls now hsTs pendingSend earlyData)
  | .established sender receiver crypto =>
      some (Stack.Session.run P { stack := { sender, receiver, crypto }, log := s.log }
        (s.conn.calls input))
  | .closed _ _ => none

def Session.next (s : Session) (input : Input) : Session where
  conn := s.conn.handle P input
  log := ((s.driven P input).map Stack.Session.log).getD s.log

/-! ## Invariants of the components -/

/-- A property of the components and the log, and what a close leaves of it. -/
def Retains (Open : Stack.Session -> Prop) (Kept : Log -> Receiver -> Prop) (log : Log) :
    Connection.State -> Prop
  | .connecting _ _ _ => True
  | .established sender receiver crypto => Open { stack := { sender, receiver, crypto }, log }
  | .closed _ (some receiver) => Kept log receiver
  | .closed _ none => True

section Retains

variable {P} {Open : Stack.Session -> Prop} {Kept : Log -> Receiver -> Prop} {log : Log}
  {state : Connection.State}

theorem Retains.of_shows {stack : Stack} (keeps : forall t, Open t -> Kept t.log t.stack.receiver)
    (shows : Shows stack state) (holds : Open { stack, log }) : Retains Open Kept log state := by
  cases shows with
  | established => exact holds
  | closed reason => exact keeps _ holds

theorem GoesOn.retains {hs : CallerHandshake} (goes_on : GoesOn P hs state) :
    Retains Open Kept log state := by
  cases goes_on <;> exact trivial

/-- What the calls preserve, every input preserves. -/
theorem Retains.next {s : Session} (retains : Retains Open Kept s.log s.conn.state)
    (preserved : forall t call, Open t -> Open (t.step P call))
    (keeps : forall t, Open t -> Kept t.log t.stack.receiver)
    (drained : forall log receiver now, Kept log receiver -> Kept log (receiver.pollDeliver now).1)
    (input : Input)
    (opened : forall now hsTs negotiated, s.conn.completes P input = some (now, hsTs, negotiated) ->
      Open { stack := s.conn.opening now negotiated, log := s.log }) :
    Retains Open Kept (s.next P input).log (s.next P input).conn.state := by
  change Retains Open Kept (((s.driven P input).map Stack.Session.log).getD s.log)
    (s.conn.handle P input).state
  rcases state : s.conn.state with ⟨hs, pendingSend, earlyData⟩ | ⟨sender, receiver, crypto⟩ |
    ⟨reason, kept⟩
  · rcases completed : s.conn.completes P input with _ | ⟨now, hsTs, negotiated⟩
    · exact (handle_goesOn state completed).retains
    · have driven : s.driven P input =
          some (Stack.Session.run P { stack := s.conn.opening now negotiated, log := s.log }
            (openingCalls now hsTs pendingSend earlyData)) := by
        unfold Session.driven
        rw [state, completed]
        rfl
      have established := handle_completes state completed rfl
      rw [← Stack.Session.run_stack P { stack := s.conn.opening now negotiated, log := s.log }]
        at established
      rw [driven, established]
      exact Stack.Session.run_invariant preserved (opened now hsTs negotiated completed) _
  · have driven : s.driven P input =
        some (Stack.Session.run P { stack := { sender, receiver, crypto }, log := s.log }
          (s.conn.calls input)) := by
      unfold Session.driven
      rw [state]
    rw [state] at retains
    have shows := @handle_shows P s.conn { sender, receiver, crypto } state input
    rw [← Stack.Session.run_stack P { stack := { sender, receiver, crypto }, log := s.log }] at shows
    rw [driven]
    exact .of_shows keeps shows (Stack.Session.run_invariant preserved retains _)
  · have driven : s.driven P input = none := by
      unfold Session.driven
      rw [state]
    rw [state] at retains
    rw [driven]
    rcases @handle_closed P s.conn reason kept state input with same | ⟨now, receiver, rfl, polled⟩
    · rw [same]
      exact retains
    · rw [polled]
      exact drained s.log receiver now retains

end Retains

/-- How a connection comes to be. -/
inductive Opening : Session -> Prop
  | caller (now : Instant) (remote : SocketAddrV4) (localSocketId : SocketId)
      (initialSeq : SeqNumber) (opts : SrtOptions) (timebase : Timebase) :
      Opening { conn := connectWithTimebase now remote localSocketId initialSeq opts timebase }
  | listener (listener : Listener) (heard now : Instant) (peer : SocketAddrV4)
      (cif : HandshakeCif) (newSocketId : SocketId) {reply : Packet} {negotiated : Negotiated}
      (accepts : listener.handleHandshake P heard peer cif newSocketId =
        .accept reply negotiated) (timebase : Timebase) :
      Opening { conn := acceptedWithTimebase now negotiated reply listener.opts timebase }

/-- All runs of a connection. -/
def machine : Machine Session Input where
  start := Opening P
  guard := fun _ _ => True
  next := Session.next P

instance (s : Session) (input : Input) : Decidable ((machine P).guard s input) :=
  inferInstanceAs (Decidable True)

/-! ## Packets for runs on concrete inputs -/

/-- The listener's answers to a caller whose socket is one and whose sequence is zero. -/
def sampleReply (handshakeType : HandshakeType) (extensions : List HsExtension) : Packet :=
  .control
    { timestamp := ⟨0⟩
      dstSocketId := ⟨1⟩
      controlType := .handshake (plainCif handshakeType ⟨2⟩ extensions) }

def sampleDraw : Draw where
  salt := .uniform 0
  key := ⟨List.replicate 16 1⟩

def sampleCaller : Session where
  conn := connect 0 ⟨[10, 0, 0, 1], 4200⟩ ⟨1⟩ (SeqNumber.new 0) {}

theorem sampleCaller_opening : (machine .sample).start sampleCaller :=
  .caller 0 _ _ _ _ _

def sampleInduced : Input :=
  .datagram 1000 (.packet (sampleReply .induction [])) sampleDraw

def sampleConcluded (extensions : List HsExtension) : Input :=
  .datagram 3000 (.packet (sampleReply .conclusion (.hsRsp (plainFields 120) :: extensions)))
    sampleDraw

/-- Both responses of the handshake. -/
def sampleResponses : List Input := [sampleInduced, sampleConcluded []]

end Connection

end Rsrt

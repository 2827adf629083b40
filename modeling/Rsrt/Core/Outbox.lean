import Rsrt.Core.ConnectionSession
import Rsrt.Core.Traffic

namespace Rsrt

open Rsrt.Basis

/-!
# What joins the queue of a connection

An input adds to the queue what its call asks for: the request of a key refresh, the ACKACK
of an acknowledgement, then a keepalive, a stored handshake reply or the echo of a key
message.  A connection that closes says so, unless the peer did.
-/

/-- A message without keys.  A KMRSP of this kind is an echo. -/
def ControlType.plain : ControlType -> Prop
  | .kmReq _ => False
  | .kmRsp payload => 4 < payload.length
  | _ => True

theorem ControlType.plain_of_isReport {message : ControlType} (report : message.isReport) :
    message.plain := by
  cases message with
  | kmReq payload => cases report
  | kmRsp payload => cases report
  | _ => trivial

/-- A control packet without keys. -/
def Packet.plain : Packet -> Prop
  | .control packet => packet.controlType.plain
  | .data _ => False

/-- Messages beside the traffic of sender and receiver. -/
def ControlType.aside : ControlType -> Bool
  | .kmReq _ => true
  | .kmRsp _ => true
  | .keepAlive => true
  | .handshake _ => true
  | _ => false

def Packet.aside : Packet -> Bool
  | .control packet => packet.controlType.aside
  | .data _ => false

namespace Stack

/-- The requests that a call makes the connection send. -/
def asks (P : Primitives) (self : Stack) : Call -> List Bytes
  | .ack now ackNumber cif fresh =>
      match self.sender.handleAck now ackNumber cif with
      | (sender, .ok _) =>
          (Connection.refreshKeys P self.crypto now sender.rtt.1 fresh).2.toList
      | (_, .error _) => []
  | _ => []

/-- The confirmations that a call makes the connection send. -/
def answers (self : Stack) : Call -> List Packet
  | .ack now ackNumber cif _ =>
      match (self.sender.handleAck now ackNumber cif).2 with
      | .ok reply => (reply.map fun number => control (.ackAck number)).toList
      | .error _ => []
  | _ => []

theorem answers_plain {stack : Stack} {call : Call} {packet : Packet}
    (member : packet ∈ stack.answers call) : packet.plain ∧ packet.aside = false := by
  cases call with
  | ack now ackNumber cif fresh =>
      unfold answers at member
      dsimp only at member
      split at member
      · rcases Option.map_eq_some_iff.mp (Option.mem_toList.mp member) with ⟨number, _, rfl⟩
        exact ⟨trivial, rfl⟩
      · cases member
  | _ => cases member

end Stack

namespace Connection

def isOpen (self : Connection) : Bool :=
  match self.state with
  | .established _ _ _ => true
  | _ => false

/-- The peer closes the connection. -/
def Input.parting : Input -> Bool
  | .datagram _ (.packet (.control packet)) _ => packet.controlType = .shutdown
  | _ => false

/-- What may follow the requests and the confirmations. -/
inductive Trailing (calls : List Stack.Call) : Packet -> Prop
  | keepAlive : Trailing calls (control .keepAlive)
  | reply (cif : HandshakeCif) : Trailing calls (control (.handshake cif))
  | echo (payload : Bytes) (asked : .kmReq payload ∈ calls) :
      Trailing calls (control (.kmRsp payload))

theorem Trailing.aside {calls : List Stack.Call} {packet : Packet}
    (trailing : Trailing calls packet) : packet.aside = true := by
  cases trailing <;> rfl

/-- What comes last: other messages while the connection stays open, and a farewell
otherwise. -/
inductive Ends (calls : List Stack.Call) (parting : Bool) (c : Connection) : List Packet -> Prop
  | goesOn (others : List Packet) (stays : c.isOpen = true)
      (trailing : forall packet, packet ∈ others -> Trailing calls packet) :
      Ends calls parting c others
  | closes (shut : c.isOpen = false) :
      Ends calls parting c (if parting then [] else [control .shutdown])

/-- The requests, the confirmations and what comes last join the queue. -/
structure Owes (c : Connection) (requests : List Bytes) (answers : List Packet)
    (calls : List Stack.Call) (parting : Bool) (c' : Connection) : Prop where
  peerSocketId : c'.peerSocketId = c.peerSocketId
  queue : Exists fun others =>
    c'.transmitQ = c.transmitQ ++ (requests.map fun blob => control (.kmReq blob)) ++ answers ++
      others ∧ Ends calls parting c' others

variable {P : Primitives} {c c' : Connection} {stack : Stack} {calls : List Stack.Call}
  {parting : Bool}

theorem Owes.of_queue (peerSocketId : c'.peerSocketId = c.peerSocketId) (stays : c'.isOpen = true)
    {others : List Packet} (queue : c'.transmitQ = c.transmitQ ++ others)
    (trailing : forall packet, packet ∈ others -> Trailing calls packet) :
    c.Owes [] [] calls parting c' :=
  ⟨peerSocketId, others, by rw [queue, List.map_nil, List.append_nil, List.append_nil],
    .goesOn others stays trailing⟩

theorem Owes.nothing (peerSocketId : c'.peerSocketId = c.peerSocketId) (stays : c'.isOpen = true)
    (queue : c'.transmitQ = c.transmitQ) : c.Owes [] [] calls parting c' :=
  .of_queue peerSocketId stays (queue.trans (List.append_nil _).symm) fun _ member => by cases member

theorem Owes.say {packet : Packet} (peerSocketId : c'.peerSocketId = c.peerSocketId)
    (stays : c'.isOpen = true) (queue : c'.transmitQ = c.transmitQ ++ [packet])
    (trailing : Trailing calls packet) : c.Owes [] [] calls parting c' := by
  apply Owes.of_queue peerSocketId stays queue
  intro other member
  rw [List.mem_singleton.mp member]
  exact trailing

/-- A connection that closes says farewell, unless the peer did. -/
theorem Owes.close (c middle : Connection) (peerSocketId : middle.peerSocketId = c.peerSocketId)
    (queue : middle.transmitQ = c.transmitQ) (opened : middle.isOpen = true) (now : Instant)
    (reason : CloseReason) (parting : Bool) :
    c.Owes [] [] calls parting (middle.closeWith now reason (!parting)) := by
  unfold isOpen at opened
  unfold closeWith
  cases state : middle.state with
  | established sender receiver crypto =>
      dsimp only
      cases parting with
      | false =>
          refine ⟨peerSocketId, [control .shutdown], ?_, .closes rfl⟩
          change middle.transmitQ ++ [control .shutdown] = _
          rw [queue, List.map_nil, List.append_nil, List.append_nil]
      | true =>
          refine ⟨peerSocketId, [], ?_, .closes rfl⟩
          change middle.transmitQ = _
          rw [queue, List.map_nil, List.append_nil, List.append_nil, List.append_nil]
  | connecting hs pendingSend earlyData =>
      rw [state] at opened
      cases opened
  | closed reason kept =>
      rw [state] at opened
      cases opened

theorem handleAck_owes (c : Connection) (stack : Stack) (now : Instant) (ackNumber : Nat)
    (cif : AckCif) (fresh : SecretKey) :
    c.Owes (stack.asks P (.ack now ackNumber cif fresh)) (stack.answers (.ack now ackNumber cif fresh))
      calls false
      (c.handleAck P stack.sender stack.receiver stack.crypto now ackNumber cif fresh) := by
  unfold handleAck Stack.asks Stack.answers
  dsimp only
  generalize stack.sender.handleAck now ackNumber cif = outcome
  rcases outcome with ⟨sender, err | reply⟩
  · exact .close c { c with state := .established sender stack.receiver stack.crypto } rfl rfl rfl
      now _ false
  · dsimp only
    generalize refreshKeys P stack.crypto now sender.rtt.1 fresh = refreshed
    rcases refreshed with ⟨crypto, kmReq⟩
    refine ⟨rfl, [], ?_, .goesOn [] rfl fun _ member => by cases member⟩
    rw [List.append_nil]
    cases kmReq <;> rfl

theorem isOpen_of_state (is : c.state = .established stack.sender stack.receiver stack.crypto) :
    c.isOpen = true := by
  unfold isOpen
  rw [is]

theorem handleControlPacket_owes
    (is : c.state = .established stack.sender stack.receiver stack.crypto)
    (replies : forall packet, packet ∈ c.hsReply -> Exists fun cif => packet = control (.handshake cif))
    (now : Instant) (packet : ControlPacket) (draw : Draw) :
    c.Owes ((controlCalls now packet draw).flatMap (stack.asks P))
      ((controlCalls now packet draw).flatMap stack.answers) (controlCalls now packet draw)
      (packet.controlType = .shutdown) (c.handleControlPacket P now packet draw) := by
  have opened := isOpen_of_state is
  rcases packet with ⟨ts, dst, message⟩
  cases message with
  | handshake cif =>
      change c.Owes [] [] [] false (c.handleHandshakePacket P now ts cif draw)
      unfold handleHandshakePacket
      rw [is]
      dsimp only
      split_ifs
      · refine @Owes.of_queue c _ [] false rfl rfl c.hsReply.toList rfl ?_
        intro packet member
        rcases replies packet (Option.mem_toList.mp member) with ⟨cif, rfl⟩
        exact .reply cif
      · exact .nothing rfl opened rfl
  | shutdown => exact .close c c rfl rfl opened now .shutdown true
  | keepAlive => exact .nothing rfl opened rfl
  | congestionWarning => exact .nothing rfl opened rfl
  | peerError code => exact .nothing rfl opened rfl
  | kmReq payload =>
      change c.Owes [] [] [.kmReq payload] false (c.handleKmreq P payload)
      unfold handleKmreq
      split
      · split
        · exact .say rfl rfl rfl (.echo payload List.mem_cons_self)
        · exact .nothing rfl rfl rfl
      · exact .nothing rfl opened rfl
  | kmRsp payload =>
      change c.Owes [] [] [.kmRsp payload] false (c.handleKmrsp payload)
      unfold handleKmrsp
      split
      · exact .nothing rfl rfl rfl
      · exact .nothing rfl opened rfl
  | ack ackNumber cif =>
      have asked := @handleAck_owes P [.ack now ackNumber cif draw.key] c stack now ackNumber cif
        draw.key
      change c.Owes (stack.asks P (.ack now ackNumber cif draw.key) ++ [])
        (stack.answers (.ack now ackNumber cif draw.key) ++ []) [.ack now ackNumber cif draw.key] false
        (c.handleTransmissionControl P now ts (.ack ackNumber cif) draw.key)
      rw [List.append_nil, List.append_nil]
      unfold handleTransmissionControl
      rw [is]
      exact asked
  | nak ranges =>
      change c.Owes [] [] [.nak now ranges] false
        (c.handleTransmissionControl P now ts (.nak ranges) draw.key)
      unfold handleTransmissionControl
      rw [is]
      dsimp only
      unfold handleNak
      dsimp only
      split_ifs
      · exact .close c
          { c with
            state := .established (stack.sender.handleNak now ranges) stack.receiver stack.crypto }
          rfl rfl rfl now _ false
      · exact .nothing rfl rfl rfl
  | ackAck ackNumber =>
      change c.Owes [] [] [.ackAck now ackNumber ts] false
        (c.handleTransmissionControl P now ts (.ackAck ackNumber) draw.key)
      unfold handleTransmissionControl
      rw [is]
      exact .nothing rfl rfl rfl
  | dropRequest msgNumber first last =>
      change c.Owes [] [] [.dropRequest now msgNumber first last] false
        (c.handleTransmissionControl P now ts (.dropRequest msgNumber first last) draw.key)
      unfold handleTransmissionControl
      rw [is]
      exact .nothing rfl rfl rfl

theorem handlePacket_owes (is : c.state = .established stack.sender stack.receiver stack.crypto)
    (replies : forall packet, packet ∈ c.hsReply -> Exists fun cif => packet = control (.handshake cif))
    (now : Instant) (packet : Packet) (draw : Draw) :
    c.Owes ((c.calls (.datagram now (.packet packet) draw)).flatMap (stack.asks P))
      ((c.calls (.datagram now (.packet packet) draw)).flatMap stack.answers)
      (c.calls (.datagram now (.packet packet) draw))
      (Input.parting (.datagram now (.packet packet) draw)) (c.handlePacket P now packet draw) := by
  have touched : (c.touch now).state = .established stack.sender stack.receiver stack.crypto := is
  unfold calls handlePacket
  rw [is]
  dsimp only
  by_cases elsewhere : c.foreign packet
  · have dropped : packet.dstSocketId ≠ .handshake ∧ packet.dstSocketId ≠ c.localSocketId :=
      elsewhere
    rw [if_pos elsewhere, if_pos dropped]
    exact .nothing rfl (isOpen_of_state is) rfl
  · have taken : ¬(packet.dstSocketId ≠ .handshake ∧ packet.dstSocketId ≠ c.localSocketId) :=
      elsewhere
    rw [if_neg elsewhere, if_neg taken]
    cases packet with
    | data data =>
        change c.Owes [] [] [.data now data] false ((c.touch now).handleDataPacket P now data)
        unfold handleDataPacket
        rw [touched]
        dsimp only
        generalize ingestData P now stack.receiver stack.crypto data = ingested
        rcases ingested with ⟨receiver, crypto⟩
        dsimp only
        split_ifs
        · exact .close c
            { c.touch now with
              state := .established stack.sender receiver crypto
              lastData := now }
            rfl rfl rfl now _ false
        · exact .nothing rfl rfl rfl
    | control packet =>
        have owes := handleControlPacket_owes (P := P) touched replies now packet draw
        exact ⟨owes.peerSocketId, owes.queue⟩

theorem handle_owes (is : c.state = .established stack.sender stack.receiver stack.crypto)
    (replies : forall packet, packet ∈ c.hsReply -> Exists fun cif => packet = control (.handshake cif))
    {input : Input} (quiet : forall now, input ≠ .pollTransmit now) :
    c.Owes ((c.calls input).flatMap (stack.asks P)) ((c.calls input).flatMap stack.answers)
      (c.calls input) input.parting (c.handle P input) := by
  have opened := isOpen_of_state is
  cases input with
  | datagram now datagram draw =>
      cases datagram with
      | packet packet => exact handlePacket_owes is replies now packet draw
      | unknownControlType => exact .nothing rfl opened rfl
      | undecodable => exact .nothing rfl opened rfl
  | timer now =>
      change c.Owes [] [] [.timer now] false (c.handleTimer now)
      have ticks := handleTimer_ticks is now
      generalize c.handleTimer now = next at ticks ⊢
      cases ticks with
      | closes expCount reason =>
          exact .close c (c.ticked stack now expCount) rfl rfl rfl now reason false
      | speaks expCount => exact .say rfl rfl rfl .keepAlive
      | rests expCount => exact .nothing rfl rfl rfl
  | send now payload =>
      change c.Owes [] [] [.push now payload] false _
      unfold handle send
      rw [is]
      dsimp only
      generalize stack.sender.push P now payload stack.crypto = outcome
      rcases outcome with err | ⟨sender, crypto⟩
      · exact .nothing rfl opened rfl
      · exact .nothing rfl rfl rfl
  | close now =>
      have farewell := @Owes.close [] c c rfl rfl opened now .locally false
      have established : c.connState = .established := by
        unfold connState
        rw [is]
        rfl
      change c.Owes [] [] [] false (c.closeWith now .locally (c.connState = .established))
      rw [decide_eq_true established]
      exact farewell
  | setHsAnchor instant ts =>
      change c.Owes [] [] [.anchor instant ts] false (c.setHsAnchor instant ts)
      unfold setHsAnchor
      rw [is]
      exact .nothing rfl rfl rfl
  | pollTransmit now => exact absurd rfl (quiet now)
  | pollDeliver now =>
      change c.Owes [] [] [.deliver now] false (c.pollDeliver now).1
      unfold pollDeliver
      rw [is]
      exact .nothing rfl rfl rfl

/-- A closed connection owes nothing more. -/
theorem handle_closed_queue {reason : CloseReason} {kept : Option Receiver}
    (closed : c.state = .closed reason kept) {input : Input}
    (quiet : forall now, input ≠ .pollTransmit now) :
    (c.handle P input).peerSocketId = c.peerSocketId ∧
      (c.handle P input).transmitQ = c.transmitQ := by
  cases input with
  | datagram now datagram draw =>
      cases datagram with
      | packet packet =>
          change (c.handlePacket P now packet draw).peerSocketId = _ ∧
            (c.handlePacket P now packet draw).transmitQ = _
          unfold handlePacket
          rw [closed]
          exact ⟨rfl, rfl⟩
      | unknownControlType => exact ⟨rfl, rfl⟩
      | undecodable => exact ⟨rfl, rfl⟩
  | timer now =>
      change (c.handleTimer now).peerSocketId = _ ∧ (c.handleTimer now).transmitQ = _
      unfold handleTimer
      rw [closed]
      exact ⟨rfl, rfl⟩
  | send now payload =>
      unfold handle send
      rw [closed]
      exact ⟨rfl, rfl⟩
  | close now =>
      change (c.close now).peerSocketId = _ ∧ (c.close now).transmitQ = _
      unfold Connection.close closeWith
      rw [closed]
      exact ⟨rfl, rfl⟩
  | setHsAnchor instant ts =>
      change (c.setHsAnchor instant ts).peerSocketId = _ ∧ (c.setHsAnchor instant ts).transmitQ = _
      unfold setHsAnchor
      rw [closed]
      exact ⟨rfl, rfl⟩
  | pollTransmit now => exact absurd rfl (quiet now)
  | pollDeliver now =>
      change (c.pollDeliver now).1.peerSocketId = _ ∧ (c.pollDeliver now).1.transmitQ = _
      unfold pollDeliver
      rw [closed]
      cases kept with
      | none => exact ⟨rfl, rfl⟩
      | some receiver => exact ⟨rfl, rfl⟩

end Connection

end Rsrt

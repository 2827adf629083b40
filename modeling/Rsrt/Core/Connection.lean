import Rsrt.Core.Handshake
import Rsrt.Core.Receiver
import Rsrt.Core.Sender

namespace Rsrt

/-!
# A connection

The connection core composes the caller handshake, while connecting, and then a
sender, a receiver and an optional encryption engine.  It routes incoming packets,
stamps outgoing ones, runs the key exchange on the acknowledgement path and keeps
the liveness timers.  Key material that is generated at random is an argument of the
operation that generates it, and the statistics snapshot is not part of the model.
-/

def keepaliveInterval : Duration := Duration.fromSecs 1

def expMaxCount : Nat := 16

def expMinIntervalUs : Nat := 300000

def expPadUs : Nat := 10000

/-- Most data packets that are kept while the conclusion response is outstanding. -/
def earlyDataMax : Nat := 256

/-- Control-packet shell; timestamp and destination are stamped when it is sent. -/
def control (controlType : ControlType) : Packet :=
  .control { timestamp := ⟨0⟩, dstSocketId := .handshake, controlType }

def Packet.dstSocketId : Packet -> SocketId
  | .data packet => packet.dstSocketId
  | .control packet => packet.dstSocketId

/-- EXP expiry: `expCount` periods after the last packet from the peer. -/
def expDeadline (lastRecv : Instant) (expCount rttUs rttVarUs : Nat) : Instant :=
  let count := max expCount 1
  lastRecv + Duration.fromMicros
    (max (count * (rttUs + 4 * rttVarUs) + expPadUs) (count * expMinIntervalUs))

/-! ## Setup from a completed negotiation -/

def maxRecvBufferScale : Nat := 64

def maxScaledRecvBufferPkts : Nat := 2 ^ 20

/-- The receive buffer grows with a latency that the peer raised. -/
def scaledRecvBuffer (opts : SrtOptions) (rcvLatency : Duration) : Nat :=
  if rcvLatency ≤ opts.latency then opts.recvBufferPkts
  else
    let configuredUs := max (Duration.asMicros opts.latency) 1000
    let scaled :=
      (opts.recvBufferPkts * Duration.asMicros rcvLatency + (configuredUs - 1)) / configuredUs
    let cap := max (min (opts.recvBufferPkts * maxRecvBufferScale) maxScaledRecvBufferPkts)
      opts.recvBufferPkts
    min scaled cap

/-- Payload limit from the agreed MSS, capped by ours. -/
def negotiatedPayload (negotiated : Negotiated) (opts : SrtOptions) : Nat :=
  min opts.maxPayload (negotiated.mss - 44)

def transmissionPair (now : Instant) (negotiated : Negotiated) (opts : SrtOptions)
    (timebase : Timebase) : Sender × Receiver :=
  (Sender.new
    { initialSeq := negotiated.sendInitialSeq
      flowWindow := min opts.flowWindow negotiated.flowWindow
      sndLatency := negotiated.sndLatency
      maxPayload := negotiatedPayload negotiated opts
      bufferPkts := opts.sendBufferPkts
      bandwidth := opts.bandwidth
      timebase },
    (Receiver.new now
      { initialSeq := negotiated.recvInitialSeq
        rcvLatency := negotiated.rcvLatency
        bufferPkts := scaledRecvBuffer opts negotiated.rcvLatency }).setMaxPayload
      (negotiatedPayload negotiated opts))

/-! ## The connection -/

inductive Connection.State
  /-- `pendingSend` is what the application queued, `earlyData` the packets that raced
  ahead of the conclusion response, with their arrival instants. -/
  | connecting (hs : CallerHandshake) (pendingSend : List Bytes)
      (earlyData : List (Instant × DataPacket))
  | established (sender : Sender) (receiver : Receiver) (crypto : Option Crypto)
  /-- The receiver is kept so that data received before the close can drain. -/
  | closed (reason : CloseReason) (receiver : Option Receiver)
deriving DecidableEq

/-- The public connection state. -/
inductive ConnState
  | connecting
  | established
  | closed (reason : CloseReason)
deriving DecidableEq

def Connection.State.connState : Connection.State -> ConnState
  | .connecting _ _ _ => .connecting
  | .established _ _ _ => .established
  | .closed reason _ => .closed reason

/-- The receiver that outlives a close. -/
def Connection.State.keptReceiver : Connection.State -> Option Receiver
  | .connecting _ _ _ => none
  | .established _ receiver _ => some receiver
  | .closed _ receiver => receiver

structure Connection where
  state : Connection.State
  remote : SocketAddrV4
  localSocketId : SocketId
  /-- Zero until the handshake completes. -/
  peerSocketId : SocketId
  timebase : Timebase
  opts : SrtOptions
  streamid : Option Bytes
  /-- The conclusion response that accepted the peer, replayed when the peer repeats
  its conclusion. -/
  hsReply : Option Packet := none
  /-- Control packets owed to the peer, ahead of sender and receiver output. -/
  transmitQ : List Packet := []
  lastSent : Instant
  lastRecv : Instant
  lastData : Instant
  expCount : Nat := 1
deriving DecidableEq

namespace Connection

/-- Opens a caller connection. -/
def connectWithTimebase (now : Instant) (remote : SocketAddrV4) (localSocketId : SocketId)
    (initialSeq : SeqNumber) (opts : SrtOptions) (timebase : Timebase) : Connection where
  state := .connecting (.new now remote localSocketId initialSeq timebase opts) [] []
  remote := remote
  localSocketId := localSocketId
  peerSocketId := .handshake
  timebase := timebase
  opts := opts
  streamid := opts.streamid
  lastSent := now
  lastRecv := now
  lastData := now

def connect (now : Instant) (remote : SocketAddrV4) (localSocketId : SocketId)
    (initialSeq : SeqNumber) (opts : SrtOptions) : Connection :=
  connectWithTimebase now remote localSocketId initialSeq opts ⟨now⟩

/-- An established connection on the listener side.  The conclusion response is
queued for transmission. -/
def acceptedWithTimebase (now : Instant) (negotiated : Negotiated) (hsReply : Packet)
    (opts : SrtOptions) (timebase : Timebase) : Connection where
  state :=
    .established (transmissionPair now negotiated opts timebase).1
      (transmissionPair now negotiated opts timebase).2 negotiated.crypto
  remote := negotiated.remote
  localSocketId := negotiated.localSocketId
  peerSocketId := negotiated.peerSocketId
  timebase := timebase
  opts := opts
  streamid := negotiated.streamid
  hsReply := some hsReply
  transmitQ := [hsReply]
  lastSent := now
  lastRecv := now
  lastData := now

def accepted (now : Instant) (negotiated : Negotiated) (hsReply : Packet) (opts : SrtOptions) :
    Connection :=
  acceptedWithTimebase now negotiated hsReply opts ⟨now⟩

def connState (self : Connection) : ConnState := self.state.connState

/-- Seeds the receiver's time base from the peer's conclusion; set once. -/
def setHsAnchor (self : Connection) (instant : Instant) (ts : Timestamp) : Connection :=
  match self.state with
  | .established sender receiver crypto =>
      { self with state := .established sender (receiver.setHsAnchor instant ts) crypto }
  | _ => self

/-- Any received packet counts as peer activity. -/
def touch (self : Connection) (now : Instant) : Connection :=
  { self with lastRecv := now, expCount := 1 }

def closeWith (self : Connection) (now : Instant) (reason : CloseReason) (sendShutdown : Bool) :
    Connection :=
  match self.state with
  | .closed _ _ => self
  | _ =>
      if sendShutdown then
        { self with
            state := .closed reason self.state.keptReceiver
            transmitQ := self.transmitQ ++ [control .shutdown]
            lastSent := now }
      else { self with state := .closed reason self.state.keptReceiver }

/-- A caller that abandons its handshake just stops transmitting. -/
def close (self : Connection) (now : Instant) : Connection :=
  self.closeWith now .locally (self.connState = .established)

variable (P : Primitives)

/-! ## Data -/

/-- Queues one application message for sending.  While connecting the oldest payload
makes room for a new one. -/
def send (self : Connection) (now : Instant) (payload : Bytes) : Except SrtError Connection :=
  match self.state with
  | .connecting hs pendingSend earlyData =>
      if self.opts.maxPayload < payload.length then .error (.payloadTooLarge payload.length)
      else
        let kept :=
          if self.opts.sendBufferPkts ≤ pendingSend.length then pendingSend.tail else pendingSend
        .ok { self with state := .connecting hs (kept ++ [payload]) earlyData }
  | .established sender receiver crypto =>
      match sender.push P now payload crypto with
      | .ok (sender, crypto) => .ok { self with state := .established sender receiver crypto }
      | .error err => .error err
  | .closed reason _ => .error (.closed reason)

/-- Feeds one data packet to the receiver through the decrypt step.  With an
engine cleartext is rejected, without one it is the only thing accepted. -/
def ingestData (now : Instant) (receiver : Receiver) (crypto : Option Crypto)
    (data : DataPacket) : Receiver × Option Crypto :=
  match crypto with
  | some engine =>
      match engine.decrypt P data.seq data.encryption data.payload with
      | (engine, .ok payload) =>
          (receiver.handleData now { data with encryption := .none, payload }, some engine)
      | (engine, .error _) => (receiver.handleUndecryptable now data, some engine)
  | none =>
      if data.encryption = .none then
        (receiver.handleData now { data with encryption := .none }, none)
      else (receiver.handleUndecryptable now data, none)

/-- Keeps a data packet that arrived while connecting, if it is not too large and
there is room. -/
def bufferEarly (self : Connection) (now : Instant) (earlyData : List (Instant × DataPacket))
    (data : DataPacket) : List (Instant × DataPacket) :=
  if self.opts.maxPayload < data.payload.length then earlyData
  else if earlyData.length < earlyDataMax then earlyData ++ [(now, data)]
  else earlyData

/-- A sequence discrepancy breaks the connection: reception can never resume. -/
def handleDataPacket (self : Connection) (now : Instant) (data : DataPacket) : Connection :=
  match self.state with
  | .connecting hs pendingSend earlyData =>
      { self with
          state := .connecting hs pendingSend (self.bufferEarly now earlyData data)
          lastData := now }
  | .established sender receiver crypto =>
      let (receiver, crypto) := ingestData P now receiver crypto data
      let self := { self with state := .established sender receiver crypto, lastData := now }
      if receiver.sequenceDiscrepancy then self.closeWith now .sequenceDiscrepancy true else self
  | .closed _ _ => self

/-! ## Establishment -/

/-- Feeds the packets that raced the conclusion response, at their arrival instants. -/
def replayEarly (receiver : Receiver) (crypto : Option Crypto) :
    List (Instant × DataPacket) -> Receiver × Option Crypto
  | [] => (receiver, crypto)
  | (arrival, data) :: rest =>
      let (receiver, crypto) := ingestData P arrival receiver crypto data
      replayEarly receiver crypto rest

/-- Pushes the payloads that were queued while connecting; one that the sender refuses
is lost. -/
def flushPending (now : Instant) (sender : Sender) (crypto : Option Crypto) :
    List Bytes -> Sender × Option Crypto
  | [] => (sender, crypto)
  | payload :: rest =>
      match sender.push P now payload crypto with
      | .ok (sender, crypto) => flushPending now sender crypto rest
      | .error _ => flushPending now sender crypto rest

/-- The caller's transition from connecting to established. -/
def establish (self : Connection) (now : Instant) (hsTs : Timestamp) (negotiated : Negotiated) :
    Connection :=
  match self.state with
  | .connecting _ pendingSend earlyData =>
      let (sender, receiver) := transmissionPair now negotiated self.opts self.timebase
      let (receiver, crypto) :=
        replayEarly P (receiver.setHsAnchor now hsTs) negotiated.crypto earlyData
      let (sender, crypto) := flushPending P now sender crypto pendingSend
      { self with
          state := .established sender receiver crypto
          peerSocketId := negotiated.peerSocketId
          streamid := negotiated.streamid
          expCount := 1
          lastRecv := now
          lastData := now }
  | _ => self

/-- How a failed handshake is reported. -/
def failureReason : SrtError -> CloseReason
  | .rejected code => .rejected code
  | .encryptionUnsupported => .rejected Reject.unsecure
  | .connectTimeout => .connectTimeout
  | _ => .locally

/-- A repeated conclusion of an accepted peer is answered with the stored reply. -/
def handleHandshakePacket (self : Connection) (now : Instant) (hsTs : Timestamp)
    (cif : HandshakeCif) (draw : Draw) : Connection :=
  match self.state with
  | .connecting hs pendingSend earlyData =>
      match hs.handleHandshake P now cif draw with
      | (hs, .ok (some negotiated)) =>
          { self with state := .connecting hs pendingSend earlyData }.establish P now hsTs
            negotiated
      | (hs, .ok none) => { self with state := .connecting hs pendingSend earlyData }
      | (hs, .error err) =>
          { self with state := .connecting hs pendingSend earlyData }.closeWith now
            (failureReason err) false
  | .established _ _ _ =>
      if cif.handshakeType = .conclusion then
        { self with transmitQ := self.transmitQ ++ self.hsReply.toList }
      else self
  | .closed _ _ => self

/-! ## Control -/

/-- The refresh decisions of the engine, which run on accepted ACKs only. -/
def refreshKeys (crypto : Option Crypto) (now : Instant) (srttUs : Nat) (fresh : SecretKey) :
    Option Crypto × Option Bytes :=
  match crypto with
  | some engine =>
      let (engine, kmReq) := engine.onAck P now srttUs fresh
      (some engine, kmReq)
  | none => (none, none)

def handleAck (self : Connection) (sender : Sender) (receiver : Receiver) (crypto : Option Crypto)
    (now : Instant) (ackNumber : Nat) (cif : AckCif) (fresh : SecretKey) : Connection :=
  match sender.handleAck now ackNumber cif with
  | (sender, .ok reply) =>
      let (crypto, kmReq) := refreshKeys P crypto now sender.rtt.1 fresh
      { self with
          state := .established sender receiver crypto
          transmitQ := self.transmitQ ++ (kmReq.map fun blob => control (.kmReq blob)).toList ++
            (reply.map fun number => control (.ackAck number)).toList }
  | (sender, .error _) =>
      { self with state := .established sender receiver crypto }.closeWith now .locally true

def handleNak (self : Connection) (sender : Sender) (receiver : Receiver) (crypto : Option Crypto)
    (now : Instant) (ranges : List LossRange) : Connection :=
  let sender := sender.handleNak now ranges
  let self := { self with state := .established sender receiver crypto }
  if sender.protocolViolation then self.closeWith now .locally true else self

/-- ACK, NAK, ACKACK and DROPREQ, meaningful only when established. -/
def handleTransmissionControl (self : Connection) (now : Instant) (ts : Timestamp)
    (controlType : ControlType) (fresh : SecretKey) : Connection :=
  match self.state with
  | .established sender receiver crypto =>
      match controlType with
      | .ack ackNumber cif => self.handleAck P sender receiver crypto now ackNumber cif fresh
      | .nak ranges => self.handleNak sender receiver crypto now ranges
      | .ackAck ackNumber =>
          { self with
              state := .established sender (receiver.handleAckack now ackNumber ts) crypto }
      | .dropRequest msgNumber first last =>
          { self with
              state :=
                .established sender (receiver.handleDropreq now msgNumber first last) crypto }
      | _ => self
  | _ => self

/-- In-stream key refresh of the peer.  Success is answered with a full echo, and
every failure with silence. -/
def handleKmreq (self : Connection) (payload : Bytes) : Connection :=
  match self.state with
  | .established sender receiver (some engine) =>
      match engine.handleKmreq P payload with
      | (engine, .installed) =>
          { self with
              state := .established sender receiver (some engine)
              transmitQ := self.transmitQ ++ [control (.kmRsp payload)] }
      | (engine, .failed _) => { self with state := .established sender receiver (some engine) }
  | _ => self

def handleKmrsp (self : Connection) (payload : Bytes) : Connection :=
  match self.state with
  | .established sender receiver (some engine) =>
      { self with state := .established sender receiver (some (engine.handleKmrsp payload).1) }
  | _ => self

def handleControlPacket (self : Connection) (now : Instant) (packet : ControlPacket)
    (draw : Draw) : Connection :=
  match packet.controlType with
  | .handshake cif => self.handleHandshakePacket P now packet.timestamp cif draw
  | .shutdown => self.closeWith now .shutdown false
  | .keepAlive => self
  | .congestionWarning => self
  | .peerError _ => self
  | .kmReq payload => self.handleKmreq P payload
  | .kmRsp payload => self.handleKmrsp payload
  | other => self.handleTransmissionControl P now packet.timestamp other draw.key

/-- Feeds one parsed packet.  A packet for another socket is dropped. -/
def handlePacket (self : Connection) (now : Instant) (packet : Packet) (draw : Draw) :
    Connection :=
  match self.state with
  | .closed _ _ => self
  | _ =>
      if packet.dstSocketId ≠ .handshake ∧ packet.dstSocketId ≠ self.localSocketId then self
      else
        match packet with
        | .data data => (self.touch now).handleDataPacket P now data
        | .control packet => (self.touch now).handleControlPacket P now packet draw

/-- What the parser makes of a datagram. -/
inductive Datagram
  | packet (packet : Packet)
  | unknownControlType
  | undecodable
deriving DecidableEq

/-- Feeds one datagram.  An unknown control type still counts as peer activity. -/
def handleDatagram (self : Connection) (now : Instant) (datagram : Datagram) (draw : Draw) :
    Connection :=
  match datagram with
  | .packet packet => self.handlePacket P now packet draw
  | .unknownControlType => self.touch now
  | .undecodable => self

/-! ## Timers -/

/-- The EXP timer fired with the peer silent for too long. -/
def peerIdle (self : Connection) (now : Instant) : Bool :=
  expMaxCount < self.expCount && self.opts.peerIdleTimeout ≤ now - self.lastRecv

def dataIdle (self : Connection) (now : Instant) : Bool :=
  self.opts.dataIdleTimeout.any fun window => window ≤ now - self.lastData

/-- Runs every timer that is due. -/
def handleTimer (self : Connection) (now : Instant) : Connection :=
  match self.state with
  | .connecting hs _ _ =>
      if hs.isTimedOut now then self.closeWith now .connectTimeout false else self
  | .closed _ _ => self
  | .established sender receiver crypto =>
      let receiver := receiver.onTimer now
      let expired : Bool := expDeadline self.lastRecv self.expCount receiver.rtt.1 receiver.rtt.2 ≤ now
      let peerIdle := expired && self.peerIdle now
      let dataIdle := self.dataIdle now
      let ticked :=
        { self with
            state := .established (sender.onTimer now) receiver crypto
            expCount := if expired && !peerIdle then self.expCount + 1 else self.expCount }
      if peerIdle then ticked.closeWith now .peerIdle true
      else if dataIdle then ticked.closeWith now .dataIdle true
      else if keepaliveInterval ≤ now - self.lastSent then
        { ticked with transmitQ := self.transmitQ ++ [control .keepAlive], lastSent := now }
      else ticked

/-! ## Output -/

/-- The next packet before stamping: what the connection owes, then the control
messages of the receiver and the sender, then data.  A data packet is returned
with its index. -/
def nextTransmitAt (self : Connection) (now : Instant) : Connection × Option (Option Nat × Packet) :=
  match self.transmitQ with
  | packet :: rest => ({ self with transmitQ := rest }, some (none, packet))
  | [] =>
      match self.state with
      | .connecting hs pendingSend earlyData =>
          let (hs, request) := hs.pollTransmit now
          ({ self with state := .connecting hs pendingSend earlyData },
            request.map fun packet => (none, packet))
      | .closed _ _ => (self, none)
      | .established sender receiver crypto =>
          match receiver.pollControl now with
          | (receiver, some message) =>
              ({ self with state := .established sender receiver crypto },
                some (none, control message))
          | (receiver, none) =>
              match sender.pollControl with
              | (sender, some message) =>
                  ({ self with state := .established sender receiver crypto },
                    some (none, control message))
              | (sender, none) =>
                  let (sender, emitted) := sender.pollTransmitAt now
                  ({ self with state := .established sender receiver crypto },
                    emitted.map fun (index, packet) => (some index, .data packet))

/-- Handshake packets of a caller that is still connecting go to destination zero. -/
def controlDst (self : Connection) (controlType : ControlType) : SocketId :=
  match self.state, controlType with
  | .connecting _ _ _, .handshake _ => .handshake
  | _, _ => self.peerSocketId

/-- Every control packet carries a fresh timestamp; data keeps its own. -/
def stamp (self : Connection) (now : Instant) : Packet -> Packet
  | .control packet =>
      .control { packet with
        timestamp := self.timebase.timestamp now
        dstSocketId := self.controlDst packet.controlType }
  | .data packet => .data { packet with dstSocketId := self.peerSocketId }

def pollTransmitAt (self : Connection) (now : Instant) : Connection × Option (Option Nat × Packet) :=
  match self.nextTransmitAt now with
  | (next, none) => (next, none)
  | (next, some (index, packet)) => ({ next with lastSent := now }, some (index, next.stamp now packet))

/-- Next packet to put on the wire. -/
def pollTransmit (self : Connection) (now : Instant) : Connection × Option Packet :=
  let (next, emitted) := self.pollTransmitAt now
  (next, emitted.map Prod.snd)

/-- Next in-order payload; data received before a close may still drain. -/
def pollDeliver (self : Connection) (now : Instant) : Connection × Option Bytes :=
  match self.state with
  | .established sender receiver crypto =>
      let (receiver, payload) := receiver.pollDeliver now
      ({ self with state := .established sender receiver crypto }, payload)
  | .closed reason (some receiver) =>
      let (receiver, payload) := receiver.pollDeliver now
      ({ self with state := .closed reason (some receiver) }, payload)
  | _ => (self, none)

/-- Earliest instant at which the timers must run. -/
def nextDeadline (self : Connection) (now : Instant) : Option Instant :=
  if self.transmitQ ≠ [] then some now
  else
    match self.state with
    | .connecting hs _ _ => hs.nextDeadline
    | .closed _ _ => none
    | .established sender receiver _ =>
        let deadline := receiver.nextDeadline now
        let deadline := (sender.nextDeadline.map (min deadline)).getD deadline
        let deadline := min deadline (self.lastSent + keepaliveInterval)
        let deadline := min deadline
          (expDeadline self.lastRecv self.expCount receiver.rtt.1 receiver.rtt.2)
        some ((self.opts.dataIdleTimeout.map fun window =>
          min deadline (self.lastData + window)).getD deadline)

end Connection

end Rsrt

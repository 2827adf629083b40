import Rsrt.Core.Pacing

namespace Rsrt

/-!
# Live-mode data sender

Send buffer, flow window, sender loss list, ACK and NAK handling, too-late drops
and the choice of the next packet to transmit, as the source's sender computes
them.  The sender is a pure state machine: every input carries the instant at
which it happens, and drop requests owed to the peer collect in a queue.

Packets are counted by unbounded indices; the front of the buffer has index
`baseIndex`.  The ordered set of the sender loss list is a finite set whose least
element is taken first.  Counters are unbounded, and log output is not modelled.
-/

def ackackThrottle : Duration := Duration.fromMillis 10

def tlpktdropMinThreshold : Duration := Duration.fromMillis 1000

def tlpktdropReaction : Duration := Duration.fromMillis 20

def senderInitialRttUs : Nat := 100000

def senderInitialRttVarUs : Nat := 50000

structure SenderConfig where
  initialSeq : SeqNumber
  /-- Most packets in flight. -/
  flowWindow : Nat
  /-- Effective latency of the direction we send in. -/
  sndLatency : Duration
  maxPayload : Nat
  /-- Send buffer capacity in packets. -/
  bufferPkts : Nat
  bandwidth : Bandwidth := .unlimited
  timebase : Timebase
deriving DecidableEq

structure SenderStats where
  pktsSent : Nat := 0
  bytesSent : Nat := 0
  pktsRetransmitted : Nat := 0
  pktsDropped : Nat := 0
deriving DecidableEq

/-- One buffered packet, not yet acknowledged. -/
structure BufEntry where
  msg : MsgNumber
  /-- Submission time. -/
  origin : Instant
  /-- Wire timestamp taken at submission; retransmissions reuse it. -/
  ts : Timestamp
  lastRexmit : Option Instant := none
  /-- KK bits sampled when the payload was encrypted. -/
  encryption : EncryptionFlags
  /-- Payload as it goes on the wire. -/
  payload : Bytes
deriving DecidableEq

/-- Wire packet of an entry, under its sequence.  The destination is stamped by
the connection layer. -/
def BufEntry.packet (entry : BufEntry) (seq : SeqNumber) (retransmitted : Bool) : DataPacket where
  seq := seq
  position := .only
  order := false
  encryption := entry.encryption
  retransmitted := retransmitted
  msgNumber := entry.msg
  timestamp := entry.ts
  dstSocketId := ⟨0⟩
  payload := entry.payload

structure Sender where
  cfg : SenderConfig
  /-- Buffered packets from `baseIndex` on, oldest first. -/
  buffer : List BufEntry := []
  /-- Everything below is released or dropped. -/
  baseIndex : Nat := 0
  /-- Index of the next first transmission. -/
  nextSendIndex : Nat := 0
  /-- First index not yet acknowledged: the base of the in-flight window. -/
  lastAckIndex : Nat := 0
  nextMsg : MsgNumber := MsgNumber.new 1
  /-- Peer's advertised receive buffer, in packets. -/
  advertisedWindow : Nat
  /-- Indices that await retransmission. -/
  lossList : Finset Nat := ∅
  controlQueue : List ControlType := []
  lastAckackNumber : Nat := 0
  lastAckackTime : Option Instant := none
  rttUs : Nat := senderInitialRttUs
  rttVarUs : Nat := senderInitialRttVarUs
  rttAdopted : Bool := false
  protocolViolation : Bool := false
  pacer : Option Pacer
  stats : SenderStats := {}
deriving DecidableEq

namespace Sender

def new (cfg : SenderConfig) : Sender where
  cfg := cfg
  advertisedWindow := cfg.flowWindow
  pacer := Pacer.new cfg.bandwidth cfg.maxPayload

/-- Wire sequence of an index: the 64-bit sum truncated to 32 bits, masked. -/
def seqAt (self : Sender) (index : Nat) : SeqNumber :=
  SeqNumber.new ((self.cfg.initialSeq.value + index) % 2 ^ 32)

/-- Index of a wire sequence, resolved relative to the buffer base; negative for
sequences released before the first one. -/
def extOf (self : Sender) (seq : SeqNumber) : Int :=
  self.baseIndex + seq.diff (self.seqAt self.baseIndex)

/-- Packets sent and not yet acknowledged. -/
def flight (self : Sender) : Nat := self.nextSendIndex - self.lastAckIndex

def effectiveWindow (self : Sender) : Nat := min self.cfg.flowWindow self.advertisedWindow

def refreshPacer (self : Sender) : Sender :=
  { self with pacer := self.pacer.map Pacer.refresh }

/-! ## Drops -/

def dropThreshold (self : Sender) : Duration :=
  max self.cfg.sndLatency tlpktdropMinThreshold + tlpktdropReaction

/-- Drops `n` packets from the buffer front and acknowledges them locally, so that
a dropped packet that was never sent is never transmitted. -/
def dropFront (self : Sender) (n : Nat) (announce : Bool) : Sender :=
  let base := self.baseIndex + n
  { self with
      buffer := self.buffer.drop n
      baseIndex := base
      nextSendIndex := max self.nextSendIndex base
      lastAckIndex := max self.lastAckIndex base
      lossList := self.lossList.filter (base ≤ ·)
      stats := { self.stats with pktsDropped := self.stats.pktsDropped + n }
      controlQueue :=
        if announce then
          self.controlQueue ++
            [.dropRequest (MsgNumber.new 0) (self.seqAt self.baseIndex) (self.seqAt (base - 1))]
        else self.controlQueue }

/-- How many leading packets the too-late drop takes: none while the buffered
timespan is within the threshold. -/
def tlpktdropCount (self : Sender) (now : Instant) : Nat :=
  match self.buffer.head?, self.buffer.getLast? with
  | some front, some back =>
      if back.origin - front.origin ≤ self.dropThreshold then 0
      else (self.buffer.takeWhile fun e => self.dropThreshold ≤ now - e.origin).length
  | _, _ => 0

def checkTlpktdrop (self : Sender) (now : Instant) : Sender :=
  if 0 < self.tlpktdropCount now then self.dropFront (self.tlpktdropCount now) true else self

/-- Drops single packets from the front while the buffer is not empty and the
condition holds.  The fuel is the number of packets buffered. -/
def dropWhile (full : Sender -> Bool) : Nat -> Sender -> Sender
  | 0, self => self
  | fuel + 1, self =>
      if self.buffer ≠ [] ∧ full self then dropWhile full fuel (self.dropFront 1 false) else self

def bufferFull (self : Sender) : Bool := self.cfg.bufferPkts ≤ self.buffer.length

def windowFull (self : Sender) : Bool := self.effectiveWindow ≤ self.flight

/-! ## Submission -/

def feedPacer (self : Sender) (now : Instant) (payloadLen : Nat) : Sender :=
  { self with pacer := self.pacer.map fun (p : Pacer) => p.onInput now payloadLen }

/-- The first steps of a submission: the estimator is fed, late packets go, and
a buffer at its capacity drops the oldest packets. -/
def withinCapacity (self : Sender) (now : Instant) (payloadLen : Nat) : Sender :=
  let timely := (self.feedPacer now payloadLen).checkTlpktdrop now
  dropWhile bufferFull timely.buffer.length timely

/-- Everything that a submission does before the packet itself is added: a full
in-flight window drops the oldest packets as well. -/
def makeRoom (self : Sender) (now : Instant) (payloadLen : Nat) : Sender :=
  let room := self.withinCapacity now payloadLen
  dropWhile windowFull room.buffer.length room

/-- Adds one packet as it goes on the wire.  Message number zero is never
assigned. -/
def append (self : Sender) (now : Instant) (encryption : EncryptionFlags) (payload : Bytes) :
    Sender :=
  let succ := self.nextMsg.next
  { self with
      nextMsg := if succ.value = 0 then MsgNumber.new 1 else succ
      buffer := self.buffer ++
        [{ msg := self.nextMsg
           origin := now
           ts := self.cfg.timebase.timestamp now
           encryption
           payload }] }

/-- Encrypts a payload for the wire and samples the KK bits.  An empty payload is
never encrypted. -/
def sealPayload (P : Primitives) (crypto : Option Crypto) (seq : SeqNumber) (payload : Bytes) :
    Option Crypto × EncryptionFlags × Bytes :=
  match crypto with
  | some engine =>
      if payload.isEmpty then (some engine, .none, payload)
      else
        let (engine, flags, cipherText) := engine.encrypt P seq payload
        (some engine, flags, cipherText)
  | none => (none, .none, payload)

/-- Accepts one application message.  The payload is encrypted here, under the
sequence that it will have on the wire. -/
def push (P : Primitives) (self : Sender) (now : Instant) (payload : Bytes)
    (crypto : Option Crypto) : Except SrtError (Sender × Option Crypto) :=
  if self.cfg.maxPayload < payload.length then .error (.payloadTooLarge payload.length)
  else
    let room := self.makeRoom now payload.length
    let (crypto, flags, wirePayload) :=
      sealPayload P crypto (room.seqAt (room.baseIndex + room.buffer.length)) payload
    .ok (room.append now flags wirePayload, crypto)

/-! ## Acknowledgements and loss reports -/

/-- Releases the buffer below an acknowledged index. -/
def release (self : Sender) (ackExt : Int) : Sender :=
  if (self.baseIndex : Int) < ackExt then
    let n := min (ackExt - self.baseIndex).toNat self.buffer.length
    { self with
        buffer := self.buffer.drop n
        baseIndex := self.baseIndex + n
        lossList := self.lossList.filter (self.baseIndex + n ≤ ·) }
  else self

/-- A light ACK consumes window credit. -/
def consumeCredit (self : Sender) (ackExt : Int) : Sender :=
  if (self.lastAckIndex : Int) ≤ ackExt then
    { self with
        advertisedWindow :=
          self.advertisedWindow - min (ackExt - self.lastAckIndex).toNat (2 ^ 32 - 1)
        lastAckIndex := ackExt.toNat }
  else self

/-- Adopts the peer's RTT pair; before the first adoption a pair that still
carries an initial value is skipped. -/
def adoptRtt (self : Sender) (cif : AckCif) : Sender :=
  match cif.rttUs, cif.rttVarUs with
  | some rtt, some rttVar =>
      if self.rttAdopted ∨ rtt ≠ senderInitialRttUs ∧ rttVar ≠ senderInitialRttVarUs then
        { self with rttUs := rtt, rttVarUs := rttVar, rttAdopted := true }
      else self
  | _, _ => self

/-- Decides whether the ACK is answered with an ACKACK. -/
def replyAckack (self : Sender) (now : Instant) (ackNumber : Nat) : Sender × Option Nat :=
  if self.lastAckackTime.all (fun t => ackackThrottle < now - t) ∨
      ackNumber = self.lastAckackNumber then
    ({ self with lastAckackNumber := ackNumber, lastAckackTime := some now }, some ackNumber)
  else (self, none)

/-- Adopts the advertised buffer and the window base of a full ACK. -/
def adoptWindow (self : Sender) (ackExt : Int) (avail : Option Nat) : Sender :=
  if (self.lastAckIndex : Int) ≤ ackExt then
    { self with
        advertisedWindow := avail.getD self.advertisedWindow
        lastAckIndex := ackExt.toNat }
  else self

/-- An ACK beyond the highest sequence sent breaks the connection.  The result of
an accepted ACK is the number to echo as ACKACK. -/
def handleAck (self : Sender) (now : Instant) (ackNumber : Nat) (cif : AckCif) :
    Sender × Except SrtError (Option Nat) :=
  let ackExt := self.extOf cif.lastAckSeq
  if (self.nextSendIndex : Int) < ackExt then
    ({ self with protocolViolation := true }, .error (.closed .locally))
  else
    let released := self.release ackExt
    if cif.rttUs = none then (released.consumeCredit ackExt, .ok none)
    else
      let (replied, ackack) := (released.adoptRtt cif).replyAckack now ackNumber
      ((replied.adoptWindow ackExt cif.availBufPkts).refreshPacer, .ok ackack)

/-- One range of a loss report; `none` is a range that was never sent. -/
def nakRange (self : Sender) (range : LossRange) : Option Sender :=
  let lo := self.extOf range.first
  let hi := self.extOf range.last
  if hi < lo ∨ (self.nextSendIndex : Int) ≤ hi then none
  else if (self.lastAckIndex : Int) ≤ lo then
    some { self with lossList := self.lossList ∪ Finset.Icc lo.toNat hi.toNat }
  -- The acknowledged head of the range is clipped.
  else if (self.lastAckIndex : Int) ≤ hi then
    some { self with lossList := self.lossList ∪ Finset.Icc self.lastAckIndex hi.toNat }
  -- A whole range that is no longer buffered is answered; a single one is ignored.
  else if range.first ≠ range.last then
    some { self with
      controlQueue := self.controlQueue ++
        [.dropRequest (MsgNumber.new 0) range.first range.last] }
  else some self

/-- The ranges in order; a violation stops the processing. -/
def nakRanges (self : Sender) : List LossRange -> Sender
  | [] => self.refreshPacer
  | range :: rest =>
      match self.nakRange range with
      | some next => next.nakRanges rest
      | none => { self with protocolViolation := true }

def handleNak (self : Sender) (_now : Instant) (ranges : List LossRange) : Sender :=
  self.nakRanges ranges

def onTimer (self : Sender) (now : Instant) : Sender :=
  (self.checkTlpktdrop now).refreshPacer

/-! ## Transmission -/

/-- Wire packet of a buffered index; `none` stands for the out-of-bounds access,
which no reachable state makes. -/
def packetAt (self : Sender) (index : Nat) (retransmitted : Bool) : Option DataPacket :=
  self.buffer[index - self.baseIndex]?.map fun entry =>
    entry.packet (self.seqAt index) retransmitted

/-- A packet retransmitted within this window is presumed to be in flight. -/
def rexmitWindow (self : Sender) : Duration :=
  Duration.fromMicros (self.rttUs - 4 * self.rttVarUs)

/-- A loss entry that a poll passes over: released, never sent, or throttled. -/
def passesOver (self : Sender) (now : Instant) (index : Nat) : Bool :=
  index < self.baseIndex || self.nextSendIndex ≤ index ||
    self.buffer[index - self.baseIndex]?.any fun entry =>
      entry.lastRexmit.any fun last => now - last < self.rexmitWindow

/-- Pops the loss list until an entry is due.  The result is that entry and what
is left of the list; the fuel is the size of the list. -/
def nextLoss (self : Sender) (now : Instant) : Nat -> Finset Nat -> Option Nat × Finset Nat
  | 0, losses => (none, losses)
  | fuel + 1, losses =>
      match losses.min with
      | none => (none, losses)
      | some index =>
          if self.passesOver now index then self.nextLoss now fuel (losses.erase index)
          else (some index, losses.erase index)

/-- Books a packet that goes on the wire. -/
def booked (self : Sender) (now : Instant) (pkt : DataPacket) (probe : Bool) : Sender :=
  { self with
      stats := { self.stats with
        pktsSent := self.stats.pktsSent + 1
        bytesSent := self.stats.bytesSent + pkt.payload.length
        pktsRetransmitted := self.stats.pktsRetransmitted + if pkt.retransmitted then 1 else 0 }
      pacer := self.pacer.map fun p => p.onSend now pkt.payload.length probe }

def retransmit (self : Sender) (now : Instant) (index : Nat) : Sender × Option (Nat × DataPacket) :=
  let stamped := { self with
    buffer := self.buffer.modify (index - self.baseIndex) fun entry =>
      { entry with lastRexmit := some now } }
  match stamped.packetAt index true with
  | some pkt => (stamped.booked now pkt false, some (index, pkt))
  | none => (stamped, none)

/-- A first transmission; every sixteenth sequence starts a probe pair. -/
def transmit (self : Sender) (now : Instant) : Sender × Option (Nat × DataPacket) :=
  let index := self.nextSendIndex
  let sent := { self with nextSendIndex := index + 1 }
  match sent.packetAt index false with
  | some pkt => (sent.booked now pkt (pkt.seq.value % 16 = 0), some (index, pkt))
  | none => (sent, none)

/-- New data, while the in-flight window allows. -/
def transmitNew (self : Sender) (now : Instant) : Sender × Option (Nat × DataPacket) :=
  if self.nextSendIndex < self.baseIndex + self.buffer.length ∧
      self.flight < self.effectiveWindow then
    self.transmit now
  else ({ self with pacer := self.pacer.map Pacer.onNothingToSend }, none)

/-- The pacing gate; `none` while the schedule lies in the future. -/
def gate (self : Sender) (now : Instant) : Option Sender :=
  match self.pacer with
  | none => some self
  | some p => (p.gate now).map fun opened => { self with pacer := some opened }

/-- A due poll: retransmissions first, then new data. -/
def pollDue (self : Sender) (now : Instant) : Sender × Option (Nat × DataPacket) :=
  match self.nextLoss now self.lossList.card self.lossList with
  | (some index, rest) => { self with lossList := rest }.retransmit now index
  | (none, rest) => { self with lossList := rest }.transmitNew now

/-- Next data packet to put on the wire, returned with its index. -/
def pollTransmitAt (self : Sender) (now : Instant) : Sender × Option (Nat × DataPacket) :=
  match self.gate now with
  | none => (self, none)
  | some due => due.pollDue now

def pollTransmit (self : Sender) (now : Instant) : Sender × Option DataPacket :=
  let (next, emitted) := self.pollTransmitAt now
  (next, emitted.map Prod.snd)

def pollControl (self : Sender) : Sender × Option ControlType :=
  ({ self with controlQueue := self.controlQueue.tail }, self.controlQueue.head?)

def nextDeadline (self : Sender) : Option Instant :=
  let drop :=
    match self.buffer.head?, self.buffer.getLast? with
    | some front, some back =>
        if self.dropThreshold < back.origin - front.origin then
          some (front.origin + self.dropThreshold)
        else none
    | _, _ => none
  match drop, self.pacer.bind Pacer.deadline with
  | some d, some p => some (min d p)
  | d, p => d.or p

def rtt (self : Sender) : Nat × Nat := (self.rttUs, self.rttVarUs)

end Sender

end Rsrt

import Rsrt.Packet.Packet
import Rsrt.Core.Time

namespace Rsrt

/-!
# Live-mode data receiver

Buffer, loss list, ACK and NAK generation, and timestamp-based delivery, as the
source's receiver computes them.  The receiver is a pure state machine: every
input carries the instant at which it happens, and control messages owed to the
peer collect in a queue.

The slot ring is a list whose front is the slot of `baseSeq`; `none` is a hole.
Counters and microsecond values are unbounded: the machine bounds of the source's
`u32` and `u64` counters are not modelled, nor is its log output.
-/

def fullAckInterval : Duration := Duration.fromMillis 10

def lightAckPackets : Nat := 64

def ackHistory : Nat := 1024

def initialRttUs : Nat := 100000

def initialRttVarUs : Nat := 50000

def nakMinInterval : Duration := Duration.fromMillis 20

def nakInitialInterval : Duration := Duration.fromMillis 300

def minAvailBuf : Nat := 2

def defaultMaxPayload : Nat := 1456

def minNakWords : Nat := 2

/-- ACK journal numbers are a 31-bit counter. -/
def incack (a : Nat) : Nat :=
  if a = 0x7FFFFFFF then 0 else a + 1

structure ReceiverConfig where
  initialSeq : SeqNumber
  /-- Effective TSBPD latency of the direction we receive in. -/
  rcvLatency : Duration
  /-- Receive buffer capacity in packets. -/
  bufferPkts : Nat
deriving DecidableEq

structure ReceiverStats where
  pktsRecv : Nat := 0
  bytesRecv : Nat := 0
  pktsLost : Nat := 0
  pktsDropped : Nat := 0
  pktsBelated : Nat := 0
  pktsOversized : Nat := 0
deriving DecidableEq

/-- TSBPD time base: a local instant and the extended peer timestamp of it. -/
structure Anchor where
  instant : Instant
  extUs : Nat
deriving DecidableEq

/-- One buffered, not yet delivered data packet. -/
structure Slot where
  payload : Bytes
  msgNumber : MsgNumber
  extUs : Nat
  undecryptable : Bool
deriving DecidableEq

/-- ACK journal entry. -/
structure AckRecord where
  number : Nat
  seq : SeqNumber
  sent : Instant
deriving DecidableEq

structure Receiver where
  cfg : ReceiverConfig
  /-- Next sequence to deliver: the sequence of the front slot. -/
  baseSeq : SeqNumber
  slots : List (Option Slot) := []
  /-- Every slot below this index is empty. -/
  scanHint : Nat := 0
  /-- Highest contiguity-tracked received sequence. -/
  rcvCurrSeq : SeqNumber
  /-- Missing ranges, ascending and disjoint; the first entry pins the ACK. -/
  loss : List LossRange := []
  extender : TimestampExtender := {}
  anchor : Option Anchor := none
  /-- Last position sent in a full ACK. -/
  rcvLastAck : SeqNumber
  /-- Last position the peer confirmed with an ACKACK. -/
  rcvLastAckack : SeqNumber
  ackJournal : List AckRecord := []
  ackSeqNo : Nat := 0
  nextFullAck : Instant
  lastAckTime : Instant
  pktCount : Nat := 0
  lightAckCount : Nat := 1
  nakInterval : Duration := nakInitialInterval
  nextNakTime : Instant
  srttUs : Nat := initialRttUs
  rttVarUs : Nat := initialRttVarUs
  rttFirst : Bool := true
  firstRttUs : Nat := 0
  drift : DriftTracer := {}
  maxPayload : Nat := defaultMaxPayload
  discrepancy : Bool := false
  undecrypted : Nat := 0
  controlQ : List ControlType := []
  stats : ReceiverStats := {}
deriving DecidableEq

namespace Receiver

def new (now : Instant) (cfg : ReceiverConfig) : Receiver where
  cfg := cfg
  baseSeq := cfg.initialSeq
  rcvCurrSeq := cfg.initialSeq.prev
  rcvLastAck := cfg.initialSeq
  rcvLastAckack := cfg.initialSeq
  nextFullAck := now + fullAckInterval
  lastAckTime := now
  nextNakTime := now + nakInitialInterval

/-- Seeds the TSBPD time base from the handshake packet; set once. -/
def setHsAnchor (r : Receiver) (instant : Instant) (ts : Timestamp) : Receiver :=
  match r.anchor with
  | some _ => r
  | none =>
      let extended := r.extender.extend ts instant
      { r with extender := extended.1, anchor := some ⟨instant, extended.2⟩ }

def setMaxPayload (r : Receiver) (bytes : Nat) : Receiver :=
  { r with maxPayload := bytes }

def sequenceDiscrepancy (r : Receiver) : Bool := r.discrepancy

/-! ## Loss list -/

/-- Removes a single recovered sequence from an ascending loss list. -/
def unlose (seq : SeqNumber) : List LossRange -> List LossRange
  | [] => []
  | e :: rest =>
      if seq.diff e.first < 0 then e :: rest
      else if e.last.diff seq < 0 then e :: unlose seq rest
      else if e.first = e.last then rest
      else if seq = e.first then { e with first := seq.next } :: rest
      else if seq = e.last then { e with last := seq.prev } :: rest
      else { e with last := seq.prev } :: { first := seq.next, last := e.last } :: rest

/-- What one entry keeps when `[lo, hi]` is removed from it. -/
def remainder (lo hi : SeqNumber) (e : LossRange) : List LossRange :=
  if hi.diff e.first < 0 ∨ e.last.diff lo < 0 then [e]
  else
    (if e.first.diff lo < 0 then [{ first := e.first, last := lo.prev }] else []) ++
      (if 0 < e.last.diff hi then [{ first := hi.next, last := e.last }] else [])

/-- Removes the intersection with `[lo, hi]` from every loss entry. -/
def removeLossRange (lo hi : SeqNumber) (loss : List LossRange) : List LossRange :=
  loss.flatMap (remainder lo hi)

/-! ## Acknowledgements and loss reports -/

/-- The sequence a new ACK would carry: the first missing packet, or the one
after the highest received. -/
def ackValue (r : Receiver) : SeqNumber :=
  match r.loss with
  | [] => r.rcvCurrSeq.next
  | e :: _ => e.first

/-- Free receive-buffer units for the ACK: capacity less the acknowledged but
unread span, floored at two, truncated to 32 bits. -/
def availBufPkts (r : Receiver) : Nat :=
  let used := (max (r.rcvLastAck.diff r.baseSeq) 0).toNat
  max (r.cfg.bufferPkts - used) minAvailBuf % 2 ^ 32

def pushAckRecord (journal : List AckRecord) (record : AckRecord) : List AckRecord :=
  (if journal.length = ackHistory then journal.drop 1 else journal) ++ [record]

/-- Emits the full ACK for `rcvLastAck` and journals it. -/
def emitFullAck (r : Receiver) (now : Instant) : Receiver :=
  let number := incack r.ackSeqNo
  let cif : AckCif :=
    { lastAckSeq := r.rcvLastAck
      rttUs := some r.srttUs
      rttVarUs := some r.rttVarUs
      availBufPkts := some r.availBufPkts
      recvRatePkts := some 0
      linkCapacityPkts := some 0
      recvRateBytes := some 0 }
  { r with
    ackSeqNo := number
    controlQ := r.controlQ ++ [.ack number cif]
    ackJournal := pushAckRecord r.ackJournal ⟨number, r.rcvLastAck, now⟩
    lastAckTime := now }

/-- Rule 6: only while the peer has not confirmed this position. -/
def emitFullAckUnlessConfirmed (r : Receiver) (now : Instant) : Receiver :=
  if r.rcvLastAck.diff r.rcvLastAckack ≤ 0 then r else r.emitFullAck now

def queueFullAck (r : Receiver) (now : Instant) : Receiver :=
  let ack := r.ackValue
  -- Rule 1: the position is already confirmed by the peer's ACKACK.
  if ack = r.rcvLastAckack then r
  else
    let advance := ack.diff r.rcvLastAck
    if 0 < advance then
      emitFullAckUnlessConfirmed { r with rcvLastAck := ack } now
    else if advance = 0 then
      -- Rule 4: re-announce an unconfirmed position at RTT cadence.
      let repeatAfter := Duration.fromMicros (r.srttUs + 4 * r.rttVarUs)
      if Instant.saturatingDurationSince now r.lastAckTime < repeatAfter then r
      else emitFullAckUnlessConfirmed r now
    else
      -- Rule 5: the position would regress; suppressed.
      r

/-- Four-byte ACK: number zero, no journal entry, no state updates. -/
def queueLightAck (r : Receiver) : Receiver :=
  let ack := r.ackValue
  if ack = r.rcvLastAckack then r
  else { r with controlQ := r.controlQ ++ [.ack 0 { lastAckSeq := ack }] }

/-- Queues a loss report and refreshes the NAK interval from the RTT state. -/
def queueNak (r : Receiver) (ranges : List LossRange) : Receiver :=
  if ranges = [] then r
  else
    { r with
      nakInterval := max (Duration.fromMicros ((r.srttUs + 4 * r.rttVarUs) / 2)) nakMinInterval
      controlQ := r.controlQ ++ [.nak ranges] }

/-- The longest prefix of loss entries that fits the remaining word budget. -/
def nakPrefix (maxWords : Nat) : Nat -> List LossRange -> List LossRange
  | _, [] => []
  | words, e :: rest =>
      let need := if e.first = e.last then 1 else 2
      if maxWords < words + need then []
      else e :: nakPrefix maxWords (words + need) rest

def nakRanges (r : Receiver) : List LossRange :=
  nakPrefix (max (r.maxPayload / 4) minNakWords) 0 r.loss

/-! ## Data arrival -/

/-- Holes materialize as `none` slots up to the new packet's offset. -/
def resizeSlots (slots : List (Option Slot)) (size : Nat) : List (Option Slot) :=
  if slots.length < size then slots ++ List.replicate (size - slots.length) none else slots

/-- Gap detection: anything between the highest seen and this packet is newly
missing.  A gap revealed by an undecryptable packet is not recorded. -/
def detectGap (r : Receiver) (seq : SeqNumber) (undecryptable : Bool) : Receiver :=
  let expected := r.rcvCurrSeq.next
  if 0 < seq.diff expected ∧ undecryptable = false then
    let range : LossRange := { first := expected, last := seq.prev }
    let lost := (range.last.diff range.first).toNat + 1
    queueNak
      { r with
        stats := { r.stats with pktsLost := r.stats.pktsLost + lost }
        loss := r.loss ++ [range] }
      [range]
  else r

/-- Moves the receive cursor, or fills a hole behind it. -/
def noteArrival (r : Receiver) (seq : SeqNumber) : Receiver :=
  if 0 < seq.diff r.rcvCurrSeq then { r with rcvCurrSeq := seq }
  else { r with loss := unlose seq r.loss }

def occupy (r : Receiver) (offset : Nat) (slot : Slot) : Receiver :=
  { r with
    slots := r.slots.set offset (some slot)
    scanHint := min r.scanHint offset
    undecrypted := if slot.undecryptable then r.undecrypted + 1 else r.undecrypted }

/-- The content of a slot, `none` past the end of the ring. -/
def slotAt (slots : List (Option Slot)) (index : Nat) : Option Slot := (slots[index]?).join

/-- The buffer scan of the capacity check: no packet at or after the hint. -/
def nothingBuffered (r : Receiver) : Bool :=
  (r.slots.drop r.scanHint).all Option.isNone

def slotOf (pkt : DataPacket) (extUs : Nat) (undecryptable : Bool) : Slot :=
  { payload := pkt.payload
    msgNumber := pkt.msgNumber
    extUs := extUs
    undecryptable := undecryptable }

def storeData (r : Receiver) (pkt : DataPacket) (extUs : Nat) (undecryptable : Bool) : Receiver :=
  let offset := pkt.seq.diff r.baseSeq
  if offset < 0 then
    -- Already delivered or skipped past this sequence.
    { r with stats := { r.stats with pktsBelated := r.stats.pktsBelated + 1 } }
  else if r.cfg.bufferPkts ≤ offset.toNat then
    -- Beyond an empty buffer is an unrecoverable discrepancy; else drop only.
    if r.nothingBuffered then { r with discrepancy := true } else r
  else
    let r := { r with slots := resizeSlots r.slots (offset.toNat + 1) }
    if (slotAt r.slots offset.toNat).isSome then r
    else
      ((r.detectGap pkt.seq undecryptable).noteArrival pkt.seq).occupy offset.toNat
        (slotOf pkt extUs undecryptable)

/-- Extends the packet's timestamp and anchors the time base if it is not. -/
def observeTimestamp (r : Receiver) (now : Instant) (ts : Timestamp) : Receiver × Nat :=
  let extended := r.extender.extend ts now
  let anchor := match r.anchor with
    | some anchor => anchor
    | none => ⟨now, extended.2⟩
  ({ r with extender := extended.1, anchor := some anchor }, extended.2)

/-- Light ACK after 64, 128, 192 packets within one full-ACK period. -/
def selfClock (r : Receiver) : Receiver :=
  if lightAckPackets * r.lightAckCount ≤ r.pktCount then
    queueLightAck { r with lightAckCount := r.lightAckCount + 1 }
  else r

def countArrival (r : Receiver) (pkt : DataPacket) : Receiver :=
  { r with
    stats :=
      { r.stats with
        pktsRecv := r.stats.pktsRecv + 1
        bytesRecv := r.stats.bytesRecv + pkt.payload.length }
    pktCount := r.pktCount + 1 }

/-- Common arrival path for decryptable and undecryptable data. -/
def ingest (r : Receiver) (now : Instant) (pkt : DataPacket) (undecryptable : Bool) : Receiver :=
  if r.maxPayload < pkt.payload.length then
    { r with stats := { r.stats with pktsOversized := r.stats.pktsOversized + 1 } }
  else
    let observed := (r.countArrival pkt).observeTimestamp now pkt.timestamp
    (observed.1.storeData pkt observed.2 undecryptable).selfClock

def handleData (r : Receiver) (now : Instant) (pkt : DataPacket) : Receiver :=
  r.ingest now pkt false

def handleUndecryptable (r : Receiver) (now : Instant) (pkt : DataPacket) : Receiver :=
  r.ingest now pkt true

/-! ## ACKACK and DROPREQ -/

/-- Smooths a positive RTT sample; the first one resets the estimator.  The
variance is updated first, with the old mean. -/
def smoothRtt (r : Receiver) (rttUs : Nat) : Receiver :=
  if r.rttFirst then
    { r with rttFirst := false, firstRttUs := rttUs, srttUs := rttUs, rttVarUs := rttUs / 2 }
  else
    let err := Int.natAbs ((r.srttUs : Int) - rttUs)
    { r with rttVarUs := (3 * r.rttVarUs + err) / 4, srttUs := (7 * r.srttUs + rttUs) / 8 }

/-- Drift sample from the ACKACK's header timestamp, with the change of the
path delay since the first RTT sample removed. -/
def sampleDrift (r : Receiver) (now : Instant) (ts : Timestamp) (rttUs : Nat) : Receiver :=
  match r.anchor with
  | none => r
  | some anchor =>
      let extended := r.extender.extend ts now
      let localUs : Int := Duration.asMicros (Instant.saturatingDurationSince now anchor.instant)
      let peerUs : Int := (extended.2 : Int) - anchor.extUs
      let rttCorrUs : Int := ((rttUs : Int) - r.firstRttUs).tdiv 2
      { r with
        extender := extended.1
        drift := (r.drift.sample (localUs - peerUs - rttCorrUs)).1 }

def handleAckack (r : Receiver) (now : Instant) (ackNumber : Nat) (ts : Timestamp) : Receiver :=
  match r.ackJournal.findIdx? (fun record => record.number = ackNumber) with
  | none => r
  | some pos =>
      match r.ackJournal[pos]? with
      | none => r
      | some rec =>
          -- The lookup consumes the entry and everything older.
          let r := { r with ackJournal := r.ackJournal.drop (pos + 1) }
          let rttUs :=
            min (Duration.asMicros (Instant.saturatingDurationSince now rec.sent)) (2 ^ 32 - 1)
          if rttUs = 0 then r
          else
            let r := r.smoothRtt rttUs
            let r :=
              if 0 < rec.seq.diff r.rcvLastAckack then { r with rcvLastAckack := rec.seq } else r
            r.sampleDrift now ts rttUs

/-- Clears the slots of `[lo, hi]` that hold the named message. -/
def dropMessage (msgNumber : MsgNumber) (lo hi : Int) (slots : List (Option Slot)) :
    List (Option Slot) :=
  slots.mapIdx fun index entry =>
    match entry with
    | none => none
    | some slot =>
        if lo ≤ (index : Int) ∧ (index : Int) ≤ hi ∧ slot.msgNumber = msgNumber then none
        else some slot

/-- Removes a sender-dropped range from the loss list. -/
def handleDropreq (r : Receiver) (_now : Instant) (msgNumber : MsgNumber)
    (first last : SeqNumber) : Receiver :=
  if 0 < first.diff last then r
  else
    let r := { r with loss := removeLossRange first last r.loss }
    -- A nonzero message number also drops that message from the buffer.
    let r :=
      if msgNumber.value = 0 then r
      else
        { r with
          slots := dropMessage msgNumber (max (first.diff r.baseSeq) 0) (last.diff r.baseSeq)
            r.slots }
    -- Skip ahead if the range covers the next expected packet.
    if first.diff r.rcvCurrSeq.next ≤ 0 ∧ 0 < last.diff r.rcvCurrSeq then
      { r with rcvCurrSeq := last }
    else r

/-! ## Timers and delivery -/

/-- The timer ACK resets the light-ACK bookkeeping whether or not one is sent. -/
def ackTimer (r : Receiver) (now : Instant) : Receiver :=
  if r.nextFullAck ≤ now then
    { r.queueFullAck now with
      pktCount := 0
      lightAckCount := 1
      nextFullAck := now + fullAckInterval }
  else r

/-- Periodic NAK; while nothing is missing the timer just rolls forward. -/
def nakTimer (r : Receiver) (now : Instant) : Receiver :=
  if r.loss = [] then { r with nextNakTime := now + r.nakInterval }
  else if r.nextNakTime ≤ now then
    let r := r.queueNak r.nakRanges
    { r with nextNakTime := now + r.nakInterval }
  else r

def onTimer (r : Receiver) (now : Instant) : Receiver :=
  (r.ackTimer now).nakTimer now

def pollControl (r : Receiver) (_now : Instant) : Receiver × Option ControlType :=
  match r.controlQ with
  | [] => (r, none)
  | head :: rest => ({ r with controlQ := rest }, some head)

/-- Offset of a delivery deadline from the anchor instant, in microseconds. -/
def deadlineOffsetUs (r : Receiver) (anchor : Anchor) (extUs : Nat) : Int :=
  (extUs : Int) - anchor.extUs + r.drift.correctionUs + Duration.asMicros r.cfg.rcvLatency

/-- Delivery deadline: anchor, timestamp delta, latency and drift correction. -/
def tsbpdDeadline (r : Receiver) (anchor : Anchor) (extUs : Nat) : Instant :=
  let offset := r.deadlineOffsetUs anchor extUs
  if 0 ≤ offset then anchor.instant + Duration.fromMicros offset.toNat
  else
    match Instant.checkedSub anchor.instant (Duration.fromMicros offset.natAbs) with
    | some instant => instant
    | none => anchor.instant

/-- Index of the first occupied slot, searched from the hint. -/
def firstOccupied (r : Receiver) : Option Nat :=
  ((r.slots.drop r.scanHint).findIdx? Option.isSome).map (r.scanHint + ·)

/-- The first available packet is due but preceded by a hole: skip the hole. -/
def skipHole (r : Receiver) (first : Nat) : Receiver :=
  if 0 < first then
    { r with
      loss := removeLossRange r.baseSeq (r.baseSeq.add ((first : Int) - 1)) r.loss
      stats := { r.stats with pktsDropped := r.stats.pktsDropped + first }
      slots := r.slots.drop first
      baseSeq := r.baseSeq.add first }
  else r

/-- Skips the hole below the first occupied slot and removes the slot. -/
def popSlot (r : Receiver) (first : Nat) : Receiver :=
  let r := r.skipHole first
  { r with scanHint := 0, slots := r.slots.drop 1, baseSeq := r.baseSeq.next }

def countDropped (r : Receiver) : Receiver :=
  { r with stats := { r.stats with pktsDropped := r.stats.pktsDropped + 1 } }

/-- The delivery loop.  Every turn but the last removes a slot, so the number of
slots bounds the turns; `pollDeliver` starts it with one more. -/
def deliverLoop (anchor : Anchor) (now : Instant) : Nat -> Receiver -> Receiver × Option Bytes
  | 0, r => (r, none)
  | turns + 1, r =>
      match r.firstOccupied with
      | none => ({ r with scanHint := r.slots.length }, none)
      | some first =>
          let r := { r with scanHint := first }
          match slotAt r.slots first with
          | none => (r, none)
          | some slot =>
              if now < r.tsbpdDeadline anchor slot.extUs then (r, none)
              else if slot.undecryptable then
                -- Freed at play time without being delivered.
                deliverLoop anchor now turns (r.popSlot first).countDropped
              else (r.popSlot first, some slot.payload)

/-- Next payload whose deadline has been reached, in sequence order. -/
def pollDeliver (r : Receiver) (now : Instant) : Receiver × Option Bytes :=
  match r.anchor with
  | none => (r, none)
  | some anchor => deliverLoop anchor now (r.slots.length + 1) r

/-- Earliest instant the receiver needs waking. -/
def nextDeadline (r : Receiver) (now : Instant) : Instant :=
  let ackOrNak := if r.loss = [] then r.nextFullAck else min r.nextFullAck r.nextNakTime
  let deadline :=
    match r.anchor, (r.slots.drop r.scanHint).findSome? id with
    | some anchor, some slot => min ackOrNak (r.tsbpdDeadline anchor slot.extUs)
    | _, _ => ackOrNak
  max deadline now

def rtt (r : Receiver) : Nat × Nat := (r.srttUs, r.rttVarUs)

end Receiver

end Rsrt

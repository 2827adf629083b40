import Rsrt.Basis.FiniteMap
import Rsrt.Basis.Runs
import Rsrt.Core.Receiver

namespace Rsrt

open Rsrt.Basis

/-!
# The receiver with true sequence numbers

What the receiver is for, stated without its representation.  Sequence numbers are
integers that never wrap, the buffer is a finite map from sequences to packets and the
loss list is a finite set of sequences.  There is no slot ring, no scan hint and no list
of ranges; a loss report names the runs of the set.

Clock, round-trip and counter state is that of the receiver: it holds no sequence
numbers.
-/

/-- A control message with true sequence numbers. -/
inductive Report
  /-- A full ACK also tells the round-trip time, its variance and the free buffer. -/
  | ack (number : Nat) (seq : Int) (state : Option (Nat × Nat × Nat))
  | nak (ranges : List (Int × Int))

/-- A journal entry with a true sequence number. -/
structure ReportRecord where
  number : Nat
  seq : Int
  sent : Instant

structure IdealReceiver where
  rcvLatency : Duration
  bufferPkts : Nat
  /-- Next sequence to deliver. -/
  base : Int
  /-- Highest sequence seen. -/
  top : Int
  stored : FiniteMap Int Slot := .empty
  missing : Finset Int := ∅
  extender : TimestampExtender := {}
  anchor : Option Anchor := none
  lastAck : Int
  lastAckack : Int
  journal : List ReportRecord := []
  ackSeqNo : Nat := 0
  nextFullAck : Instant
  lastAckTime : Instant
  pktCount : Nat := 0
  lightAckCount : Nat := 1
  nakInterval : Duration := nakInitialInterval
  nextNakTime : Instant
  srttUs : Nat := initialRttUs
  rttVarUs : Nat := initialRttVarUs
  rttFirst : Bool := true
  firstRttUs : Nat := 0
  drift : DriftTracer := {}
  maxPayload : Nat := defaultMaxPayload
  discrepancy : Bool := false
  undecrypted : Nat := 0
  queue : List Report := []
  stats : ReceiverStats := {}

namespace IdealReceiver

def new (now : Instant) (initial : Int) (rcvLatency : Duration) (bufferPkts : Nat) :
    IdealReceiver where
  rcvLatency := rcvLatency
  bufferPkts := bufferPkts
  base := initial
  top := initial - 1
  lastAck := initial
  lastAckack := initial
  nextFullAck := now + fullAckInterval
  lastAckTime := now
  nextNakTime := now + nakInitialInterval

def setHsAnchor (a : IdealReceiver) (instant : Instant) (ts : Timestamp) : IdealReceiver :=
  match a.anchor with
  | some _ => a
  | none =>
      { a with
        extender := (a.extender.extend ts instant).1
        anchor := some ⟨instant, (a.extender.extend ts instant).2⟩ }

/-! ## Acknowledgements and loss reports -/

/-- First missing sequence, or the one after the highest seen. -/
def ackPosition (a : IdealReceiver) : Int :=
  if some_missing : a.missing.Nonempty then a.missing.min' some_missing else a.top + 1

def availBufPkts (a : IdealReceiver) : Nat :=
  max (a.bufferPkts - (a.lastAck - a.base).toNat) minAvailBuf % 2 ^ 32

/-- The journal keeps the latest entries. -/
def record (journal : List ReportRecord) (entry : ReportRecord) : List ReportRecord :=
  (if journal.length = ackHistory then journal.drop 1 else journal) ++ [entry]

def emitFullAck (a : IdealReceiver) (now : Instant) : IdealReceiver :=
  { a with
    ackSeqNo := incack a.ackSeqNo
    queue := a.queue ++
      [.ack (incack a.ackSeqNo) a.lastAck (some (a.srttUs, a.rttVarUs, a.availBufPkts))]
    journal := record a.journal ⟨incack a.ackSeqNo, a.lastAck, now⟩
    lastAckTime := now }

def emitFullAckUnlessConfirmed (a : IdealReceiver) (now : Instant) : IdealReceiver :=
  if a.lastAck ≤ a.lastAckack then a else a.emitFullAck now

/-- A full ACK announces an advance at once and repeats an unconfirmed position after a
while. -/
def queueFullAck (a : IdealReceiver) (now : Instant) : IdealReceiver :=
  if a.ackPosition = a.lastAckack then a
  else if a.lastAck < a.ackPosition then
    emitFullAckUnlessConfirmed { a with lastAck := a.ackPosition } now
  else if a.ackPosition = a.lastAck then
    if Instant.saturatingDurationSince now a.lastAckTime <
        Duration.fromMicros (a.srttUs + 4 * a.rttVarUs) then a
    else a.emitFullAckUnlessConfirmed now
  else a

def queueLightAck (a : IdealReceiver) : IdealReceiver :=
  if a.ackPosition = a.lastAckack then a
  else { a with queue := a.queue ++ [.ack 0 a.ackPosition none] }

def queueNak (a : IdealReceiver) (ranges : List (Int × Int)) : IdealReceiver :=
  if ranges = [] then a
  else
    { a with
      nakInterval := max (Duration.fromMicros ((a.srttUs + 4 * a.rttVarUs) / 2)) nakMinInterval
      queue := a.queue ++ [.nak ranges] }

/-- The runs that fit the words that are left. -/
def fitting (maxWords : Nat) : Nat -> List (Int × Int) -> List (Int × Int)
  | _, [] => []
  | words, range :: rest =>
      if maxWords < words + (if range.1 = range.2 then 1 else 2) then []
      else range :: fitting maxWords (words + (if range.1 = range.2 then 1 else 2)) rest

def nakRanges (a : IdealReceiver) : List (Int × Int) :=
  fitting (max (a.maxPayload / 4) minNakWords) 0 (Intervals.runs a.missing)

/-! ## Arrivals -/

/-- A decryptable packet reveals the gap below it. -/
def detectGap (a : IdealReceiver) (seq : Int) (undecryptable : Bool) : IdealReceiver :=
  if a.top + 1 < seq ∧ undecryptable = false then
    queueNak
      { a with
        stats := { a.stats with pktsLost := a.stats.pktsLost + (seq - 1 - (a.top + 1)).toNat + 1 }
        missing := a.missing ∪ Intervals.span (a.top + 1) (seq - 1) }
      [(a.top + 1, seq - 1)]
  else a

def noteArrival (a : IdealReceiver) (seq : Int) : IdealReceiver :=
  if a.top < seq then { a with top := seq } else { a with missing := a.missing.erase seq }

def occupy (a : IdealReceiver) (seq : Int) (slot : Slot) : IdealReceiver :=
  { a with
    stored := a.stored.insert seq slot
    undecrypted := if slot.undecryptable then a.undecrypted + 1 else a.undecrypted }

def storeData (a : IdealReceiver) (seq : Int) (slot : Slot) : IdealReceiver :=
  if seq < a.base then
    { a with stats := { a.stats with pktsBelated := a.stats.pktsBelated + 1 } }
  else if a.base + a.bufferPkts ≤ seq then
    if a.stored.keys = ∅ then { a with discrepancy := true } else a
  else if (a.stored.lookup seq).isSome then a
  else ((a.detectGap seq slot.undecryptable).noteArrival seq).occupy seq slot

def selfClock (a : IdealReceiver) : IdealReceiver :=
  if lightAckPackets * a.lightAckCount ≤ a.pktCount then
    queueLightAck { a with lightAckCount := a.lightAckCount + 1 }
  else a

/-- Counts the packet and sets the time base if it is not set. -/
def register (a : IdealReceiver) (now : Instant) (pkt : DataPacket) : IdealReceiver :=
  { a with
    stats :=
      { a.stats with
        pktsRecv := a.stats.pktsRecv + 1
        bytesRecv := a.stats.bytesRecv + pkt.payload.length }
    pktCount := a.pktCount + 1
    extender := (a.extender.extend pkt.timestamp now).1
    anchor := some (a.anchor.getD ⟨now, (a.extender.extend pkt.timestamp now).2⟩) }

/-- A packet with the true sequence `seq`. -/
def ingest (a : IdealReceiver) (now : Instant) (seq : Int) (pkt : DataPacket)
    (undecryptable : Bool) : IdealReceiver :=
  if a.maxPayload < pkt.payload.length then
    { a with stats := { a.stats with pktsOversized := a.stats.pktsOversized + 1 } }
  else
    ((a.register now pkt).storeData seq
      (Receiver.slotOf pkt (a.extender.extend pkt.timestamp now).2 undecryptable)).selfClock

/-! ## ACKACK and DROPREQ -/

def smoothRtt (a : IdealReceiver) (rttUs : Nat) : IdealReceiver :=
  if a.rttFirst then
    { a with rttFirst := false, firstRttUs := rttUs, srttUs := rttUs, rttVarUs := rttUs / 2 }
  else
    { a with
      rttVarUs := (3 * a.rttVarUs + Int.natAbs ((a.srttUs : Int) - rttUs)) / 4
      srttUs := (7 * a.srttUs + rttUs) / 8 }

def sampleDrift (a : IdealReceiver) (now : Instant) (ts : Timestamp) (rttUs : Nat) :
    IdealReceiver :=
  match a.anchor with
  | none => a
  | some anchor =>
      { a with
        extender := (a.extender.extend ts now).1
        drift := (a.drift.sample
          ((Duration.asMicros (Instant.saturatingDurationSince now anchor.instant) : Int) -
            (((a.extender.extend ts now).2 : Int) - anchor.extUs) -
            ((rttUs : Int) - a.firstRttUs).tdiv 2)).1 }

/-- The peer confirms an ACK: the entry and everything older leave the journal. -/
def handleAckack (a : IdealReceiver) (now : Instant) (ackNumber : Nat) (ts : Timestamp) :
    IdealReceiver :=
  match a.journal.dropWhile (fun entry => entry.number ≠ ackNumber) with
  | [] => a
  | entry :: later =>
      let rttUs :=
        min (Duration.asMicros (Instant.saturatingDurationSince now entry.sent)) (2 ^ 32 - 1)
      if rttUs = 0 then { a with journal := later }
      else
        sampleDrift
          { (({ a with journal := later } : IdealReceiver).smoothRtt rttUs) with
            lastAckack := max a.lastAckack entry.seq }
          now ts rttUs

/-- The sender gives up on a range. -/
def handleDropreq (a : IdealReceiver) (msgNumber : MsgNumber) (first last : Int) :
    IdealReceiver :=
  if last < first then a
  else
    { a with
      missing := a.missing.filter fun seq => ¬(first ≤ seq ∧ seq ≤ last)
      stored := a.stored.filter fun seq slot =>
        !decide (msgNumber.value ≠ 0 ∧ first ≤ seq ∧ seq ≤ last ∧ slot.msgNumber = msgNumber)
      top := if first ≤ a.top + 1 ∧ a.top < last then last else a.top }

/-! ## Timers and delivery -/

def ackTimer (a : IdealReceiver) (now : Instant) : IdealReceiver :=
  if a.nextFullAck ≤ now then
    { a.queueFullAck now with
      pktCount := 0
      lightAckCount := 1
      nextFullAck := now + fullAckInterval }
  else a

def nakTimer (a : IdealReceiver) (now : Instant) : IdealReceiver :=
  if a.missing = ∅ then { a with nextNakTime := now + a.nakInterval }
  else if a.nextNakTime ≤ now then
    { a.queueNak a.nakRanges with nextNakTime := now + (a.queueNak a.nakRanges).nakInterval }
  else a

def onTimer (a : IdealReceiver) (now : Instant) : IdealReceiver :=
  (a.ackTimer now).nakTimer now

def pollControl (a : IdealReceiver) : IdealReceiver × Option Report :=
  match a.queue with
  | [] => (a, none)
  | head :: rest => ({ a with queue := rest }, some head)

def tsbpdDeadline (a : IdealReceiver) (anchor : Anchor) (extUs : Nat) : Instant :=
  let offset : Int := (extUs : Int) - anchor.extUs + a.drift.correctionUs +
    Duration.asMicros a.rcvLatency
  if 0 ≤ offset then anchor.instant + Duration.fromMicros offset.toNat
  else
    match Instant.checkedSub anchor.instant (Duration.fromMicros offset.natAbs) with
    | some instant => instant
    | none => anchor.instant

/-- Everything up to a stored sequence is done with; what lies below it was never
received. -/
def advance (a : IdealReceiver) (seq : Int) : IdealReceiver :=
  { a with
    base := seq + 1
    missing := a.missing.filter (seq < ·)
    stored := a.stored.filter fun other _ => decide (seq < other)
    stats := { a.stats with pktsDropped := a.stats.pktsDropped + (seq - a.base).toNat } }

def countDropped (a : IdealReceiver) : IdealReceiver :=
  { a with stats := { a.stats with pktsDropped := a.stats.pktsDropped + 1 } }

/-- Hands out the lowest stored packet once it is due; an undecryptable one is freed and
the search goes on.  Every turn but the last removes a packet. -/
def deliver (anchor : Anchor) (now : Instant) : Nat -> IdealReceiver -> IdealReceiver × Option Bytes
  | 0, a => (a, none)
  | turns + 1, a =>
      match a.stored.least with
      | none => (a, none)
      | some (seq, slot) =>
          if now < a.tsbpdDeadline anchor slot.extUs then (a, none)
          else if slot.undecryptable then deliver anchor now turns (a.advance seq).countDropped
          else (a.advance seq, some slot.payload)

def pollDeliver (a : IdealReceiver) (now : Instant) : IdealReceiver × Option Bytes :=
  match a.anchor with
  | none => (a, none)
  | some anchor => deliver anchor now a.stored.keys.card a

def nextDeadline (a : IdealReceiver) (now : Instant) : Instant :=
  let ackOrNak := if a.missing = ∅ then a.nextFullAck else min a.nextFullAck a.nextNakTime
  let deadline :=
    match a.anchor, a.stored.least with
    | some anchor, some (_, slot) => min ackOrNak (a.tsbpdDeadline anchor slot.extUs)
    | _, _ => ackOrNak
  max deadline now

end IdealReceiver

end Rsrt

import Rsrt.Basis.Transducer
import Rsrt.Core.IdealReceiver
import Rsrt.Core.ReceiverAcks
import Rsrt.Core.ReceiverPolling

namespace Rsrt

open Rsrt.Basis Rsrt.Basis.Intervals SeqNumber

/-!
# The receiver refines the ideal one

The receiver answers every request as the ideal receiver does, with sequence numbers
modulo `2^31`.  The window of the receiver carries the buffer and the loss list across;
everything else is the same state on both sides, apart from the ACK positions, which are
compared on the wire.

The comparison needs short distances.  Sequences in requests are near the base, but the
position that the peer last confirmed is not: it stays where it is while the base moves
on.  So the ACK position must also be less than `2^30` past it.
-/

/-- The true sequence modulo `2^31`. -/
def SeqNumber.ofInt (seq : Int) : SeqNumber := wire (SeqNumber.new 0) seq

theorem SeqNumber.ofInt_diff {left right : Int} (above : -2 ^ 30 ≤ left - right)
    (below : left - right < 2 ^ 30) : (ofInt left).diff (ofInt right) = left - right :=
  diff_wire _ above below

theorem SeqNumber.ofInt_eq_iff {left right : Int} (above : -2 ^ 31 < left - right)
    (below : left - right < 2 ^ 31) : ofInt left = ofInt right ↔ left = right := by
  constructor
  · intro same
    simp only [ofInt, wire, SeqNumber.mk.injEq, new] at same
    omega
  · exact congrArg ofInt

/-! ## Requests and replies -/

/-- The calls of a receiver, over wire or true sequence numbers. -/
inductive Request (Seq : Type)
  | setHsAnchor (instant : Instant) (ts : Timestamp)
  | setMaxPayload (bytes : Nat)
  /-- The packet carries `seq` as its sequence number. -/
  | handleData (now : Instant) (seq : Seq) (pkt : DataPacket)
  | handleUndecryptable (now : Instant) (seq : Seq) (pkt : DataPacket)
  | handleAckack (now : Instant) (ackNumber : Nat) (ts : Timestamp)
  | handleDropreq (now : Instant) (msgNumber : MsgNumber) (first last : Seq)
  | onTimer (now : Instant)
  | pollControl (now : Instant)
  | pollDeliver (now : Instant)
  | nextDeadline (now : Instant)

def Request.map {Seq Seq' : Type} (f : Seq -> Seq') : Request Seq -> Request Seq'
  | .setHsAnchor instant ts => .setHsAnchor instant ts
  | .setMaxPayload bytes => .setMaxPayload bytes
  | .handleData now seq pkt => .handleData now (f seq) pkt
  | .handleUndecryptable now seq pkt => .handleUndecryptable now (f seq) pkt
  | .handleAckack now ackNumber ts => .handleAckack now ackNumber ts
  | .handleDropreq now msgNumber first last => .handleDropreq now msgNumber (f first) (f last)
  | .onTimer now => .onTimer now
  | .pollControl now => .pollControl now
  | .pollDeliver now => .pollDeliver now
  | .nextDeadline now => .nextDeadline now

/-- What the owner of a receiver sees of a call: what the call returns, and the flag and
the statistics after it. -/
structure Reply (Message : Type) where
  message : Option Message
  payload : Option Bytes
  deadline : Option Instant
  discrepancy : Bool
  stats : ReceiverStats
  rtt : Nat × Nat
  driftUs : Int
  undecrypted : Nat

def Reply.map {Message Message' : Type} (f : Message -> Message') (reply : Reply Message) :
    Reply Message' :=
  { reply with message := reply.message.map f }

namespace Receiver

def reply (r : Receiver) (message : Option ControlType) (payload : Option Bytes)
    (deadline : Option Instant) : Reply ControlType where
  message := message
  payload := payload
  deadline := deadline
  discrepancy := r.discrepancy
  stats := r.stats
  rtt := (r.srttUs, r.rttVarUs)
  driftUs := r.drift.correctionUs
  undecrypted := r.undecrypted

def serve (r : Receiver) : Request SeqNumber -> Receiver × Reply ControlType
  | .setHsAnchor instant ts =>
      (r.setHsAnchor instant ts, (r.setHsAnchor instant ts).reply none none none)
  | .setMaxPayload bytes => (r.setMaxPayload bytes, (r.setMaxPayload bytes).reply none none none)
  | .handleData now seq pkt =>
      (r.handleData now { pkt with seq }, (r.handleData now { pkt with seq }).reply none none none)
  | .handleUndecryptable now seq pkt =>
      (r.handleUndecryptable now { pkt with seq },
        (r.handleUndecryptable now { pkt with seq }).reply none none none)
  | .handleAckack now ackNumber ts =>
      (r.handleAckack now ackNumber ts, (r.handleAckack now ackNumber ts).reply none none none)
  | .handleDropreq now msgNumber first last =>
      (r.handleDropreq now msgNumber first last,
        (r.handleDropreq now msgNumber first last).reply none none none)
  | .onTimer now => (r.onTimer now, (r.onTimer now).reply none none none)
  | .pollControl now =>
      ((r.pollControl now).1, (r.pollControl now).1.reply (r.pollControl now).2 none none)
  | .pollDeliver now =>
      ((r.pollDeliver now).1, (r.pollDeliver now).1.reply none (r.pollDeliver now).2 none)
  | .nextDeadline now => (r, r.reply none none (some (r.nextDeadline now)))

end Receiver

/-- The message on the wire. -/
def Report.toControl : Report -> ControlType
  | .ack number seq none => .ack number { lastAckSeq := .ofInt seq }
  | .ack number seq (some (rttUs, rttVarUs, availBufPkts)) =>
      .ack number
        { lastAckSeq := .ofInt seq
          rttUs := some rttUs
          rttVarUs := some rttVarUs
          availBufPkts := some availBufPkts
          recvRatePkts := some 0
          linkCapacityPkts := some 0
          recvRateBytes := some 0 }
  | .nak ranges => .nak (ranges.map (Receiver.wireRange (SeqNumber.new 0)))

namespace IdealReceiver

def reply (a : IdealReceiver) (message : Option Report) (payload : Option Bytes)
    (deadline : Option Instant) : Reply Report where
  message := message
  payload := payload
  deadline := deadline
  discrepancy := a.discrepancy
  stats := a.stats
  rtt := (a.srttUs, a.rttVarUs)
  driftUs := a.drift.correctionUs
  undecrypted := a.undecrypted

def serve (a : IdealReceiver) : Request Int -> IdealReceiver × Reply Report
  | .setHsAnchor instant ts =>
      (a.setHsAnchor instant ts, (a.setHsAnchor instant ts).reply none none none)
  | .setMaxPayload bytes =>
      ({ a with maxPayload := bytes }, reply { a with maxPayload := bytes } none none none)
  | .handleData now seq pkt =>
      (a.ingest now seq pkt false, (a.ingest now seq pkt false).reply none none none)
  | .handleUndecryptable now seq pkt =>
      (a.ingest now seq pkt true, (a.ingest now seq pkt true).reply none none none)
  | .handleAckack now ackNumber ts =>
      (a.handleAckack now ackNumber ts, (a.handleAckack now ackNumber ts).reply none none none)
  | .handleDropreq _ msgNumber first last =>
      (a.handleDropreq msgNumber first last,
        (a.handleDropreq msgNumber first last).reply none none none)
  | .onTimer now => (a.onTimer now, (a.onTimer now).reply none none none)
  | .pollControl _ => (a.pollControl.1, a.pollControl.1.reply a.pollControl.2 none none)
  | .pollDeliver now =>
      ((a.pollDeliver now).1, (a.pollDeliver now).1.reply none (a.pollDeliver now).2 none)
  | .nextDeadline now => (a, a.reply none none (some (a.nextDeadline now)))

/-- Every sequence that the request carries is within `2^29` of the base. -/
def Near (a : IdealReceiver) : Request Int -> Prop
  | .handleData _ seq _ => a.base - 2 ^ 29 ≤ seq ∧ seq ≤ a.base + 2 ^ 29
  | .handleUndecryptable _ seq _ => a.base - 2 ^ 29 ≤ seq ∧ seq ≤ a.base + 2 ^ 29
  | .handleDropreq _ _ first last =>
      (a.base - 2 ^ 29 ≤ first ∧ first ≤ a.base + 2 ^ 29) ∧
        (a.base - 2 ^ 29 ≤ last ∧ last ≤ a.base + 2 ^ 29)
  | _ => True

instance (a : IdealReceiver) : forall request, Decidable (a.Near request)
  | .handleData .. | .handleUndecryptable .. | .handleDropreq .. =>
      inferInstanceAs (Decidable (_ ∧ _))
  | .setHsAnchor .. | .setMaxPayload _ | .handleAckack .. | .onTimer _ | .pollControl _ |
    .pollDeliver _ | .nextDeadline _ => .isTrue trivial

/-- The ACK position has not run away from the last confirmed one. -/
def Confirmed (a : IdealReceiver) : Prop := a.ackPosition - a.lastAckack < 2 ^ 30

instance (a : IdealReceiver) : Decidable a.Confirmed :=
  inferInstanceAs (Decidable (_ < _))

/-! ## The window -/

/-- The window stands for the buffer and the missing sequences. -/
structure Shows (a : IdealReceiver) (w : ReceiveWindow Slot) : Prop where
  base : a.base = w.base
  top : a.top = w.top
  missing : forall seq, seq ∈ a.missing ↔ Covers w.missing seq
  stored : a.stored.lookup = w.held

section Window

variable {a a' : IdealReceiver} {w : ReceiveWindow Slot}

/-- The parts of the state that a window stands for. -/
theorem Shows.of_eq (shows : a.Shows w) (base : a'.base = a.base) (top : a'.top = a.top)
    (missing : a'.missing = a.missing) (stored : a'.stored = a.stored) : a'.Shows w where
  base := base.trans shows.base
  top := top.trans shows.top
  missing := fun seq => missing ▸ shows.missing seq
  stored := stored ▸ shows.stored

theorem Shows.ackPosition_eq (shows : a.Shows w) : a.ackPosition = w.frontier := by
  unfold ackPosition ReceiveWindow.frontier
  rw [shows.top]
  exact lowest_eq_min w.separated shows.missing (w.top + 1)

theorem Shows.runs_eq (shows : a.Shows w) : runs a.missing = w.missing :=
  Intervals.runs_eq w.separated shows.missing

theorem Shows.missing_empty (shows : a.Shows w) : a.missing = ∅ ↔ w.missing = [] := by
  rw [← shows.runs_eq, Finset.eq_empty_iff_forall_notMem]
  constructor
  · intro nothing
    cases listed : runs a.missing with
    | nil => rfl
    | cons range rest =>
        have separated := separated_runs a.missing
        rw [listed] at separated
        have ordered := ((separated_cons _ _).mp separated).1
        have covered : Covers (runs a.missing) range.1 := by
          rw [listed]
          exact (covers_cons _ _ _).mpr (Or.inl ⟨le_refl _, ordered⟩)
        exact absurd ((covers_runs _ _).mp covered) (nothing range.1)
  · intro empty seq member
    have covered := (covers_runs a.missing seq).mpr member
    rw [empty] at covered
    exact not_covers_nil seq covered

theorem queueNak_window (a : IdealReceiver) (ranges : List (Int × Int)) :
    (a.queueNak ranges).base = a.base ∧ (a.queueNak ranges).top = a.top ∧
      (a.queueNak ranges).missing = a.missing ∧ (a.queueNak ranges).stored = a.stored := by
  unfold queueNak
  split_ifs <;> exact ⟨rfl, rfl, rfl, rfl⟩

theorem detectGap_window (a : IdealReceiver) (seq : Int) (undecryptable : Bool) :
    (a.detectGap seq undecryptable).base = a.base ∧ (a.detectGap seq undecryptable).top = a.top ∧
      (a.detectGap seq undecryptable).stored = a.stored ∧
      forall other, other ∈ (a.detectGap seq undecryptable).missing ↔
        other ∈ a.missing ∨ undecryptable = false ∧ a.top < other ∧ other < seq := by
  unfold detectGap
  split_ifs with opens
  · rcases queueNak_window { a with
      stats := { a.stats with pktsLost := a.stats.pktsLost + (seq - 1 - (a.top + 1)).toNat + 1 }
      missing := a.missing ∪ span (a.top + 1) (seq - 1) } [(a.top + 1, seq - 1)] with
      ⟨base, top, missing, stored⟩
    refine ⟨base, top, stored, fun other => ?_⟩
    rw [missing, Finset.mem_union, mem_span]
    refine or_congr Iff.rfl ⟨fun between => ⟨opens.2, by omega, by omega⟩, fun between => ?_⟩
    omega
  · refine ⟨rfl, rfl, rfl, fun other => ⟨Or.inl, ?_⟩⟩
    rintro (old | ⟨decryptable, above, below⟩)
    · exact old
    · exact absurd ⟨by omega, decryptable⟩ opens

/-- A packet that is stored arrives in the window. -/
theorem Shows.arrive (shows : a.Shows w) {seq : Int} {slot : Slot} (ahead : w.base ≤ seq) :
    Shows (((a.detectGap seq slot.undecryptable).noteArrival seq).occupy seq slot)
      (w.arrive seq slot (!slot.undecryptable) ahead) := by
  rcases detectGap_window a seq slot.undecryptable with ⟨base, top, stored, missing⟩
  have reveals : (!slot.undecryptable) = true ↔ slot.undecryptable = false := by
    cases slot.undecryptable <;> simp
  have covers (other : Int) : Covers (w.arrive seq slot (!slot.undecryptable) ahead).missing other ↔
      (Covers w.missing other ∧ other ≠ seq) ∨
        slot.undecryptable = false ∧ w.top < other ∧ other < seq := by
    change Covers (cut seq seq w.missing ++ w.gap seq (!slot.undecryptable)) other ↔ _
    rw [covers_append, covers_cut, w.covers_gap, reveals]
    refine or_congr (and_congr_right fun _ => ?_) Iff.rfl
    omega
  have awaited (other : Int) : other ∈ (a.detectGap seq slot.undecryptable).missing ↔
      Covers w.missing other ∨ slot.undecryptable = false ∧ w.top < other ∧ other < seq := by
    rw [missing, shows.missing, shows.top]
  have filled : Function.update a.stored.lookup seq (some slot) =
      (w.arrive seq slot (!slot.undecryptable) ahead).held := by
    rw [shows.stored]
    rfl
  have cursor := top.trans shows.top
  unfold noteArrival
  split_ifs with above
  · rw [cursor] at above
    refine ⟨base.trans shows.base, (max_eq_right (le_of_lt above)).symm, fun other => ?_, ?_⟩
    · change other ∈ (a.detectGap seq slot.undecryptable).missing ↔ _
      rw [awaited, covers]
      refine or_congr ⟨fun old => ⟨old, ?_⟩, fun old => old.1⟩ Iff.rfl
      have below := (w.inside other old).2
      omega
    · change ((a.detectGap seq slot.undecryptable).stored.insert seq slot).lookup = _
      rw [stored]
      exact filled
  · rw [cursor] at above
    refine ⟨base.trans shows.base, ?_, fun other => ?_, ?_⟩
    · change (a.detectGap seq slot.undecryptable).top = max w.top seq
      rw [cursor]
      exact (max_eq_left (not_lt.mp above)).symm
    · change other ∈ (a.detectGap seq slot.undecryptable).missing.erase seq ↔ _
      rw [Finset.mem_erase, awaited, covers]
      constructor
      · rintro ⟨different, old | new⟩
        · exact Or.inl ⟨old, different⟩
        · omega
      · rintro (⟨old, different⟩ | new)
        · exact ⟨different, Or.inl old⟩
        · omega
    · change ((a.detectGap seq slot.undecryptable).stored.insert seq slot).lookup = _
      rw [stored]
      exact filled

theorem Shows.storeData (shows : a.Shows w) (seq : Int) (slot : Slot) :
    Shows (a.storeData seq slot) (w.accept a.bufferPkts seq slot (!slot.undecryptable)) := by
  have base := shows.base
  unfold IdealReceiver.storeData ReceiveWindow.accept
  by_cases fits : w.base ≤ seq ∧ seq < w.base + a.bufferPkts ∧ w.held seq = none
  · rw [dif_pos fits, if_neg (by omega), if_neg (by omega), if_neg]
    · exact shows.arrive fits.1
    · rw [shows.stored, fits.2.2]
      exact nofun
  · rw [dif_neg fits]
    split_ifs with belated beyond empty occupied
    · exact shows.of_eq rfl rfl rfl rfl
    · exact shows.of_eq rfl rfl rfl rfl
    · exact shows
    · exact shows
    · refine absurd ⟨by omega, by omega, ?_⟩ fits
      rw [← shows.stored]
      exact Option.not_isSome_iff_eq_none.mp occupied

theorem Shows.selfClock (shows : a.Shows w) : a.selfClock.Shows w := by
  unfold IdealReceiver.selfClock queueLightAck
  split_ifs
  · exact shows.of_eq rfl rfl rfl rfl
  · exact shows.of_eq rfl rfl rfl rfl
  · exact shows

theorem Shows.ingest (shows : a.Shows w) (now : Instant) (seq : Int) (pkt : DataPacket)
    (undecryptable : Bool) :
    Shows (a.ingest now seq pkt undecryptable)
      (if a.maxPayload < pkt.payload.length then w
       else w.accept a.bufferPkts seq
        (Receiver.slotOf pkt (a.extender.extend pkt.timestamp now).2 undecryptable)
        (!undecryptable)) := by
  unfold IdealReceiver.ingest
  split_ifs
  · exact shows.of_eq rfl rfl rfl rfl
  · have registered : (a.register now pkt).Shows w := shows.of_eq rfl rfl rfl rfl
    exact (registered.storeData seq _).selfClock

theorem Shows.handleAckack (shows : a.Shows w) (now : Instant) (ackNumber : Nat) (ts : Timestamp) :
    (a.handleAckack now ackNumber ts).Shows w := by
  have smoothed (later : List ReportRecord) (rttUs : Nat) :
      (({ a with journal := later } : IdealReceiver).smoothRtt rttUs).Shows w := by
    unfold smoothRtt
    split_ifs <;> exact shows.of_eq rfl rfl rfl rfl
  unfold IdealReceiver.handleAckack sampleDrift
  cases a.journal.dropWhile (fun entry => decide (entry.number ≠ ackNumber)) with
  | nil => exact shows
  | cons entry later =>
      dsimp only
      split_ifs
      · exact shows.of_eq rfl rfl rfl rfl
      · split
        · exact (smoothed later _).of_eq rfl rfl rfl rfl
        · exact (smoothed later _).of_eq rfl rfl rfl rfl

theorem Shows.handleDropreq (shows : a.Shows w) (msgNumber : MsgNumber) (first last : Int) :
    Shows (a.handleDropreq msgNumber first last) (Receiver.dropWindow w msgNumber first last) := by
  unfold IdealReceiver.handleDropreq Receiver.dropWindow
  by_cases valid : first ≤ last
  · rw [if_neg (not_lt.mpr valid), dif_pos valid]
    refine ⟨shows.base, ?_, fun seq => ?_, ?_⟩
    · change (if first ≤ a.top + 1 ∧ a.top < last then last else a.top) = _
      rw [shows.top]
      rfl
    · change seq ∈ a.missing.filter _ ↔ Covers (cut first last w.missing) seq
      rw [Finset.mem_filter, covers_cut, shows.missing]
    · funext seq
      change (a.stored.filter _).lookup seq = _
      rw [FiniteMap.lookup_filter, shows.stored]
      rfl
  · rw [if_pos (not_le.mp valid), dif_neg valid]
    exact shows

theorem Shows.advance (shows : a.Shows w) {seq : Int} {slot : Slot} (first : w.First seq slot) :
    Shows (a.advance seq) (w.take first) := by
  refine ⟨(w.take_base first).symm, shows.top.trans (w.take_top first).symm, fun other => ?_, ?_⟩
  · change other ∈ a.missing.filter _ ↔ _
    rw [Finset.mem_filter, w.covers_take first, shows.missing]
  · funext other
    change (a.stored.filter _).lookup other = _
    rw [FiniteMap.lookup_filter, w.take_held first, shows.stored]
    by_cases below : other < seq + 1
    · rw [if_pos below]
      cases w.held other with
      | none => rfl
      | some value => simp [Option.filter, not_lt.mpr (Int.lt_add_one_iff.mp below)]
    · rw [if_neg below]
      cases w.held other with
      | none => rfl
      | some value => simp [Option.filter, show seq < other by omega]

theorem Shows.least_eq_none (shows : a.Shows w) (nothing : forall seq, w.held seq = none) :
    a.stored.least = none := by
  apply a.stored.least_eq_none
  rw [shows.stored]
  exact nothing

theorem Shows.least_eq_some (shows : a.Shows w) {seq : Int} {slot : Slot}
    (first : w.First seq slot) : a.stored.least = some (seq, slot) := by
  apply a.stored.least_eq_some
  · rw [shows.stored]
    exact first.present
  · rw [shows.stored]
    exact first.lowest

end Window

end IdealReceiver

namespace IdealReceiver

/-! ## The acknowledged positions -/

/-- What has been acknowledged and confirmed. -/
def acks (a : IdealReceiver) : Int × Int × List ReportRecord :=
  (a.lastAck, a.lastAckack, a.journal)

theorem queueNak_acks (a : IdealReceiver) (ranges : List (Int × Int)) :
    (a.queueNak ranges).acks = a.acks := by
  unfold queueNak
  split_ifs <;> rfl

theorem storeData_acks (a : IdealReceiver) (seq : Int) (slot : Slot) :
    (a.storeData seq slot).acks = a.acks := by
  have revealed : (a.detectGap seq slot.undecryptable).acks = a.acks := by
    unfold detectGap
    split_ifs
    · exact queueNak_acks _ _
    · rfl
  have noted : ((a.detectGap seq slot.undecryptable).noteArrival seq).acks = a.acks := by
    rw [← revealed]
    unfold noteArrival
    split_ifs <;> rfl
  unfold storeData
  split_ifs
  · rfl
  · rfl
  · rfl
  · rfl
  · exact noted

theorem selfClock_acks (a : IdealReceiver) : a.selfClock.acks = a.acks := by
  unfold selfClock queueLightAck
  split_ifs <;> rfl

theorem ingest_acks (a : IdealReceiver) (now : Instant) (seq : Int) (pkt : DataPacket)
    (undecryptable : Bool) : (a.ingest now seq pkt undecryptable).acks = a.acks := by
  unfold ingest
  split_ifs
  · rfl
  · rw [selfClock_acks, storeData_acks]
    rfl

end IdealReceiver

/-! ## Everything but the window -/

/-- The state of a receiver beside its window. -/
structure Tail where
  rcvLatency : Duration
  bufferPkts : Nat
  extender : TimestampExtender
  anchor : Option Anchor
  rcvLastAck : SeqNumber
  rcvLastAckack : SeqNumber
  ackJournal : List AckRecord
  ackSeqNo : Nat
  nextFullAck : Instant
  lastAckTime : Instant
  pktCount : Nat
  lightAckCount : Nat
  nakInterval : Duration
  nextNakTime : Instant
  srttUs : Nat
  rttVarUs : Nat
  rttFirst : Bool
  firstRttUs : Nat
  drift : DriftTracer
  maxPayload : Nat
  discrepancy : Bool
  undecrypted : Nat
  controlQ : List ControlType
  stats : ReceiverStats

def Receiver.tail (r : Receiver) : Tail where
  rcvLatency := r.cfg.rcvLatency
  bufferPkts := r.cfg.bufferPkts
  extender := r.extender
  anchor := r.anchor
  rcvLastAck := r.rcvLastAck
  rcvLastAckack := r.rcvLastAckack
  ackJournal := r.ackJournal
  ackSeqNo := r.ackSeqNo
  nextFullAck := r.nextFullAck
  lastAckTime := r.lastAckTime
  pktCount := r.pktCount
  lightAckCount := r.lightAckCount
  nakInterval := r.nakInterval
  nextNakTime := r.nextNakTime
  srttUs := r.srttUs
  rttVarUs := r.rttVarUs
  rttFirst := r.rttFirst
  firstRttUs := r.firstRttUs
  drift := r.drift
  maxPayload := r.maxPayload
  discrepancy := r.discrepancy
  undecrypted := r.undecrypted
  controlQ := r.controlQ
  stats := r.stats

def ReportRecord.toRecord (entry : ReportRecord) : AckRecord :=
  ⟨entry.number, .ofInt entry.seq, entry.sent⟩

/-- The same state as it stands on the wire. -/
def IdealReceiver.tail (a : IdealReceiver) : Tail where
  rcvLatency := a.rcvLatency
  bufferPkts := a.bufferPkts
  extender := a.extender
  anchor := a.anchor
  rcvLastAck := .ofInt a.lastAck
  rcvLastAckack := .ofInt a.lastAckack
  ackJournal := a.journal.map ReportRecord.toRecord
  ackSeqNo := a.ackSeqNo
  nextFullAck := a.nextFullAck
  lastAckTime := a.lastAckTime
  pktCount := a.pktCount
  lightAckCount := a.lightAckCount
  nakInterval := a.nakInterval
  nextNakTime := a.nextNakTime
  srttUs := a.srttUs
  rttVarUs := a.rttVarUs
  rttFirst := a.rttFirst
  firstRttUs := a.firstRttUs
  drift := a.drift
  maxPayload := a.maxPayload
  discrepancy := a.discrepancy
  undecrypted := a.undecrypted
  controlQ := a.queue.map Report.toControl
  stats := a.stats

namespace Tail

def say (t : Tail) (message : ControlType) : Tail := { t with controlQ := t.controlQ ++ [message] }

/-- A loss report renews its interval. -/
def report (t : Tail) (ranges : List LossRange) : Tail :=
  { t.say (.nak ranges) with
    nakInterval := max (Duration.fromMicros ((t.srttUs + 4 * t.rttVarUs) / 2)) nakMinInterval }

/-- A full ACK is queued and journaled. -/
def emitFullAck (t : Tail) (availBufPkts : Nat) (now : Instant) : Tail :=
  { t.say (.ack (incack t.ackSeqNo)
      { lastAckSeq := t.rcvLastAck
        rttUs := some t.srttUs
        rttVarUs := some t.rttVarUs
        availBufPkts := some availBufPkts
        recvRatePkts := some 0
        linkCapacityPkts := some 0
        recvRateBytes := some 0 }) with
    ackSeqNo := incack t.ackSeqNo
    ackJournal := Receiver.pushAckRecord t.ackJournal ⟨incack t.ackSeqNo, t.rcvLastAck, now⟩
    lastAckTime := now }

end Tail

section Tails

variable {a : IdealReceiver} {r : Receiver} (same : r.tail = a.tail)

include same

theorem setHsAnchor_tail (instant : Instant) (ts : Timestamp) :
    (r.setHsAnchor instant ts).tail = (a.setHsAnchor instant ts).tail := by
  have anchor : r.anchor = a.anchor := congrArg Tail.anchor same
  unfold Receiver.setHsAnchor IdealReceiver.setHsAnchor
  rw [anchor]
  cases a.anchor with
  | some set => exact same
  | none =>
      exact congrArg (fun t : Tail =>
        { t with
          extender := (t.extender.extend ts instant).1
          anchor := some ⟨instant, (t.extender.extend ts instant).2⟩ }) same

theorem queueNak_tail (ranges : List (Int × Int)) :
    (r.queueNak (ranges.map (Receiver.wireRange (SeqNumber.new 0)))).tail =
      (a.queueNak ranges).tail := by
  cases ranges with
  | nil => exact same
  | cons range rest =>
      have ideal : (a.queueNak (range :: rest)).tail =
          a.tail.report ((range :: rest).map (Receiver.wireRange (SeqNumber.new 0))) := by
        change IdealReceiver.tail { a with nakInterval := _, queue := a.queue ++ [_] } = _
        unfold IdealReceiver.tail Tail.report Tail.say
        simp only [List.map_append, List.map_singleton, Report.toControl]
      rw [ideal, ← same]
      rfl

theorem smoothRtt_tail (rttUs : Nat) : (r.smoothRtt rttUs).tail = (a.smoothRtt rttUs).tail := by
  have first : r.rttFirst = a.rttFirst := congrArg Tail.rttFirst same
  unfold Receiver.smoothRtt IdealReceiver.smoothRtt
  by_cases fresh : a.rttFirst
  · rw [if_pos fresh, if_pos (first.trans fresh)]
    exact congrArg (fun t : Tail =>
      { t with rttFirst := false, firstRttUs := rttUs, srttUs := rttUs, rttVarUs := rttUs / 2 }) same
  · rw [if_neg fresh, if_neg (first ▸ fresh)]
    exact congrArg (fun t : Tail =>
      { t with
        rttVarUs := (3 * t.rttVarUs + Int.natAbs ((t.srttUs : Int) - rttUs)) / 4
        srttUs := (7 * t.srttUs + rttUs) / 8 }) same

theorem sampleDrift_tail (now : Instant) (ts : Timestamp) (rttUs : Nat) :
    (r.sampleDrift now ts rttUs).tail = (a.sampleDrift now ts rttUs).tail := by
  have anchor : r.anchor = a.anchor := congrArg Tail.anchor same
  rcases set : a.anchor with _ | anchor'
  · have unset : r.anchor = none := anchor.trans set
    have concrete : r.sampleDrift now ts rttUs = r := by
      unfold Receiver.sampleDrift
      rw [unset]
    have ideal : a.sampleDrift now ts rttUs = a := by
      unfold IdealReceiver.sampleDrift
      rw [set]
    rw [concrete, ideal, same]
  · have set' : r.anchor = some anchor' := anchor.trans set
    have concrete : (r.sampleDrift now ts rttUs).tail =
        { r.tail with
          extender := (r.tail.extender.extend ts now).1
          drift := (r.tail.drift.sample
            ((Duration.asMicros (Instant.saturatingDurationSince now anchor'.instant) : Int) -
              (((r.tail.extender.extend ts now).2 : Int) - anchor'.extUs) -
              ((rttUs : Int) - r.tail.firstRttUs).tdiv 2)).1 } := by
      unfold Receiver.sampleDrift Receiver.tail
      rw [set']
    have ideal : (a.sampleDrift now ts rttUs).tail =
        { a.tail with
          extender := (a.tail.extender.extend ts now).1
          drift := (a.tail.drift.sample
            ((Duration.asMicros (Instant.saturatingDurationSince now anchor'.instant) : Int) -
              (((a.tail.extender.extend ts now).2 : Int) - anchor'.extUs) -
              ((rttUs : Int) - a.tail.firstRttUs).tdiv 2)).1 } := by
      unfold IdealReceiver.sampleDrift IdealReceiver.tail
      rw [set]
    rw [concrete, ideal, same]

end Tails

/-! ### Acknowledgements -/

section Acks

variable {a : IdealReceiver} {r : Receiver}

theorem record_map (journal : List ReportRecord) (entry : ReportRecord) :
    (IdealReceiver.record journal entry).map ReportRecord.toRecord =
      Receiver.pushAckRecord (journal.map ReportRecord.toRecord) entry.toRecord := by
  unfold IdealReceiver.record Receiver.pushAckRecord
  rw [List.map_append, List.length_map, List.map_singleton]
  split_ifs
  · rw [List.map_drop]
  · rfl

theorem availBufPkts_eq (same : r.tail = a.tail) (base : r.baseSeq = .ofInt a.base)
    (above : a.base ≤ a.lastAck) (below : a.lastAck ≤ a.base + 2 ^ 29 + 1) :
    r.availBufPkts = a.availBufPkts := by
  have capacity : r.cfg.bufferPkts = a.bufferPkts := congrArg Tail.bufferPkts same
  have last : r.rcvLastAck = .ofInt a.lastAck := congrArg Tail.rcvLastAck same
  unfold Receiver.availBufPkts IdealReceiver.availBufPkts
  rw [capacity, last, base, ofInt_diff (by omega) (by omega), max_eq_left (by omega)]

theorem emitFullAck_tail (same : r.tail = a.tail) (base : r.baseSeq = .ofInt a.base)
    (above : a.base ≤ a.lastAck) (below : a.lastAck ≤ a.base + 2 ^ 29 + 1) (now : Instant) :
    (r.emitFullAck now).tail = (a.emitFullAck now).tail := by
  have ideal : (a.emitFullAck now).tail = a.tail.emitFullAck a.availBufPkts now := by
    unfold IdealReceiver.emitFullAck IdealReceiver.tail Tail.emitFullAck Tail.say
    simp only [List.map_append, List.map_singleton, Report.toControl, record_map]
    rfl
  rw [ideal, ← same, ← availBufPkts_eq same base above below]
  rfl

/-- Short distances between the positions of a receiver that is kept confirmed. -/
structure Placed (a : IdealReceiver) (r : Receiver) : Prop where
  base : r.baseSeq = .ofInt a.base
  ack : r.ackValue = .ofInt a.ackPosition
  above : a.base ≤ a.ackPosition
  below : a.ackPosition ≤ a.base + 2 ^ 29 + 1
  confirmed : a.lastAckack ≤ a.lastAck
  sent : a.lastAck ≤ a.ackPosition

theorem emitFullAckUnlessConfirmed_tail (same : r.tail = a.tail)
    (base : r.baseSeq = .ofInt a.base) (above : a.base ≤ a.lastAck)
    (below : a.lastAck ≤ a.base + 2 ^ 29 + 1) (confirmed : a.lastAckack ≤ a.lastAck)
    (short : a.lastAck - a.lastAckack < 2 ^ 30) (now : Instant) :
    (r.emitFullAckUnlessConfirmed now).tail = (a.emitFullAckUnlessConfirmed now).tail := by
  have last : r.rcvLastAck = .ofInt a.lastAck := congrArg Tail.rcvLastAck same
  have lastAckack : r.rcvLastAckack = .ofInt a.lastAckack := congrArg Tail.rcvLastAckack same
  have distance : r.rcvLastAck.diff r.rcvLastAckack = a.lastAck - a.lastAckack := by
    rw [last, lastAckack]
    exact ofInt_diff (by omega) short
  unfold Receiver.emitFullAckUnlessConfirmed IdealReceiver.emitFullAckUnlessConfirmed
  by_cases settled : a.lastAck ≤ a.lastAckack
  · rw [if_pos settled, if_pos (by omega)]
    exact same
  · rw [if_neg settled, if_neg (by omega)]
    exact emitFullAck_tail same base above below now

theorem Placed.queueFullAck_tail (placed : Placed a r) (same : r.tail = a.tail)
    (short : a.Confirmed) (now : Instant) :
    (r.queueFullAck now).tail = (a.queueFullAck now).tail := by
  have last : r.rcvLastAck = .ofInt a.lastAck := congrArg Tail.rcvLastAck same
  have lastAckack : r.rcvLastAckack = .ofInt a.lastAckack := congrArg Tail.rcvLastAckack same
  have time : r.lastAckTime = a.lastAckTime := congrArg Tail.lastAckTime same
  have srtt : r.srttUs = a.srttUs := congrArg Tail.srttUs same
  have rttVar : r.rttVarUs = a.rttVarUs := congrArg Tail.rttVarUs same
  unfold IdealReceiver.Confirmed at short
  rcases placed with ⟨base, ack, above, below, confirmed, sent⟩
  have settled : r.ackValue = r.rcvLastAckack ↔ a.ackPosition = a.lastAckack := by
    rw [ack, lastAckack]
    exact ofInt_eq_iff (by omega) (by omega)
  have advance : r.ackValue.diff r.rcvLastAck = a.ackPosition - a.lastAck := by
    rw [ack, last]
    exact ofInt_diff (by omega) (by omega)
  unfold Receiver.queueFullAck IdealReceiver.queueFullAck
  dsimp only
  by_cases met : a.ackPosition = a.lastAckack
  · rw [if_pos met, if_pos (settled.mpr met)]
    exact same
  rw [if_neg met, if_neg (fun equal => met (settled.mp equal))]
  by_cases advances : a.lastAck < a.ackPosition
  · rw [if_pos advances, if_pos (by omega)]
    refine @emitFullAckUnlessConfirmed_tail { a with lastAck := a.ackPosition }
      { r with rcvLastAck := r.ackValue } ?_ base above below (le_trans confirmed sent) short now
    rw [ack]
    exact congrArg (fun t : Tail => { t with rcvLastAck := .ofInt a.ackPosition }) same
  · have still : a.ackPosition = a.lastAck := by omega
    rw [if_neg advances, if_pos still, if_neg (by omega), if_pos (by omega), time, srtt, rttVar]
    split_ifs
    · exact same
    · exact emitFullAckUnlessConfirmed_tail same base (by omega) (by omega) confirmed (by omega) now

theorem Placed.ackTimer_tail (placed : Placed a r) (same : r.tail = a.tail) (short : a.Confirmed)
    (now : Instant) : (r.ackTimer now).tail = (a.ackTimer now).tail := by
  have time : r.nextFullAck = a.nextFullAck := congrArg Tail.nextFullAck same
  unfold Receiver.ackTimer IdealReceiver.ackTimer
  by_cases due : a.nextFullAck ≤ now
  · rw [if_pos due, if_pos (time ▸ due)]
    exact congrArg (fun t : Tail =>
      { t with pktCount := 0, lightAckCount := 1, nextFullAck := now + fullAckInterval })
      (placed.queueFullAck_tail same short now)
  · rw [if_neg due, if_neg (time ▸ due)]
    exact same

theorem queueLightAck_tail (same : r.tail = a.tail) (ack : r.ackValue = .ofInt a.ackPosition)
    (confirmed : a.lastAckack ≤ a.ackPosition) (short : a.ackPosition - a.lastAckack < 2 ^ 31) :
    r.queueLightAck.tail = a.queueLightAck.tail := by
  have lastAckack : r.rcvLastAckack = .ofInt a.lastAckack := congrArg Tail.rcvLastAckack same
  have settled : r.ackValue = r.rcvLastAckack ↔ a.ackPosition = a.lastAckack := by
    rw [ack, lastAckack]
    exact ofInt_eq_iff (by omega) short
  unfold Receiver.queueLightAck IdealReceiver.queueLightAck
  dsimp only
  by_cases equal : a.ackPosition = a.lastAckack
  · rw [if_pos equal, if_pos (settled.mpr equal)]
    exact same
  · have ideal : IdealReceiver.tail { a with queue := a.queue ++ [.ack 0 a.ackPosition none] } =
        a.tail.say (.ack 0 { lastAckSeq := .ofInt a.ackPosition }) := by
      unfold IdealReceiver.tail Tail.say
      simp only [List.map_append, List.map_singleton, Report.toControl]
    rw [if_neg equal, if_neg (fun met => equal (settled.mp met)), ideal, ← same, ack]
    rfl

theorem selfClock_tail (same : r.tail = a.tail) (ack : r.ackValue = .ofInt a.ackPosition)
    (confirmed : a.lastAckack ≤ a.ackPosition) (short : a.ackPosition - a.lastAckack < 2 ^ 31) :
    r.selfClock.tail = a.selfClock.tail := by
  have light : r.lightAckCount = a.lightAckCount := congrArg Tail.lightAckCount same
  have count : r.pktCount = a.pktCount := congrArg Tail.pktCount same
  unfold Receiver.selfClock IdealReceiver.selfClock
  by_cases due : lightAckPackets * a.lightAckCount ≤ a.pktCount
  · rw [if_pos due, if_pos (light ▸ count ▸ due)]
    refine queueLightAck_tail ?_ ack confirmed short
    exact congrArg (fun t : Tail => { t with lightAckCount := t.lightAckCount + 1 }) same
  · rw [if_neg due, if_neg (light ▸ count ▸ due)]
    exact same

end Acks

/-! ### Arrivals -/

section Arrivals

variable {a : IdealReceiver} {r : Receiver} {w : ReceiveWindow Slot}

theorem detectGap_tail (same : r.tail = a.tail) (cursor : r.rcvCurrSeq = .ofInt a.top) {seq : Int}
    (low : -2 ^ 30 < seq - a.top) (high : seq - a.top < 2 ^ 30) (undecryptable : Bool) :
    (r.detectGap (.ofInt seq) undecryptable).tail = (a.detectGap seq undecryptable).tail := by
  have first : r.rcvCurrSeq.next = ofInt (a.top + 1) := by
    rw [cursor]
    exact next_wire _ a.top
  have last : (ofInt seq).prev = ofInt (seq - 1) := prev_wire _ seq
  have distance : (ofInt seq).diff r.rcvCurrSeq.next = seq - (a.top + 1) := by
    rw [first]
    exact ofInt_diff (by omega) (by omega)
  unfold Receiver.detectGap IdealReceiver.detectGap
  dsimp only
  by_cases opens : a.top + 1 < seq ∧ undecryptable = false
  · have opens' : 0 < (ofInt seq).diff r.rcvCurrSeq.next ∧ undecryptable = false :=
      ⟨by omega, opens.2⟩
    have lost : ((ofInt seq).prev.diff r.rcvCurrSeq.next).toNat + 1 =
        (seq - 1 - (a.top + 1)).toNat + 1 := by
      rw [first, last, ofInt_diff (by omega) (by omega)]
    rw [if_pos opens, if_pos opens', lost, first, last]
    refine queueNak_tail ?_ [(a.top + 1, seq - 1)]
    exact congrArg (fun t : Tail =>
      { t with
        stats :=
          { t.stats with
            pktsLost := t.stats.pktsLost + (seq - 1 - (a.top + 1)).toNat + 1 } }) same
  · rw [if_neg opens, if_neg (fun gap => opens ⟨by omega, gap.2⟩)]
    exact same

/-- The cursor and the loss list are part of the window. -/
theorem occupy_noteArrival_tail (same : r.tail = a.tail) (seq : SeqNumber) (seq' : Int)
    (offset : Nat) (slot : Slot) :
    ((r.noteArrival seq).occupy offset slot).tail =
      ((a.noteArrival seq').occupy seq' slot).tail := by
  have concrete : (r.noteArrival seq).tail = r.tail := by
    unfold Receiver.noteArrival
    split_ifs <;> rfl
  have ideal : (a.noteArrival seq').tail = a.tail := by
    unfold IdealReceiver.noteArrival
    split_ifs <;> rfl
  exact congrArg (fun t : Tail =>
    { t with undecrypted := if slot.undecryptable then t.undecrypted + 1 else t.undecrypted })
    (concrete.trans (same.trans ideal.symm))

theorem nothingBuffered_iff (tracks : Receiver.Tracks (SeqNumber.new 0) w r) (shows : a.Shows w) :
    r.nothingBuffered = true ↔ a.stored.keys = ∅ := by
  rw [FiniteMap.keys_eq_empty_iff, shows.stored]
  constructor
  · intro clear
    exact tracks.held_eq_none_of_slots
      (Receiver.slotAt_eq_none_of_nothingBuffered tracks.hint_empty clear)
  · intro clear
    unfold Receiver.nothingBuffered
    rw [List.all_eq_true]
    intro entry member
    rcases List.mem_iff_getElem?.mp member with ⟨index, found⟩
    have content := tracks.held (r.scanHint + index)
    rw [clear, ← Receiver.slotAt_drop, Receiver.slotAt, found] at content
    have hole : entry = none := content
    rw [hole]
    rfl

theorem storeData_tail (same : r.tail = a.tail)
    (tracks : Receiver.Tracks (SeqNumber.new 0) w r) (shows : a.Shows w) {pkt : DataPacket}
    {seq : Int} (carried : pkt.seq = .ofInt seq)
    (near : w.base - 2 ^ 29 ≤ seq ∧ seq ≤ w.base + 2 ^ 29) (extUs : Nat) (undecryptable : Bool) :
    (r.storeData pkt extUs undecryptable).tail =
      (a.storeData seq (Receiver.slotOf pkt extUs undecryptable)).tail := by
  have base := shows.base
  have capacity : r.cfg.bufferPkts = a.bufferPkts := congrArg Tail.bufferPkts same
  have distance : pkt.seq.diff r.baseSeq = seq - w.base := by
    rw [carried]
    exact tracks.diff_base near.1 (by omega)
  unfold Receiver.storeData IdealReceiver.storeData
  simp only [distance, capacity]
  by_cases belated : seq < a.base
  · rw [if_pos belated, if_pos (by omega)]
    exact congrArg (fun t : Tail =>
      { t with stats := { t.stats with pktsBelated := t.stats.pktsBelated + 1 } }) same
  rw [if_neg belated, if_neg (by omega)]
  by_cases beyond : a.base + a.bufferPkts ≤ seq
  · rw [if_pos beyond, if_pos (by omega)]
    by_cases clear : a.stored.keys = ∅
    · rw [if_pos clear, if_pos ((nothingBuffered_iff tracks shows).mpr clear)]
      exact congrArg (fun t : Tail => { t with discrepancy := true }) same
    · rw [if_neg clear, if_neg (fun empty => clear ((nothingBuffered_iff tracks shows).mp empty))]
      exact same
  rw [if_neg beyond, if_neg (by omega)]
  have lookup : Receiver.slotAt r.slots (seq - w.base).toNat = a.stored.lookup seq := by
    rw [tracks.held, shows.stored, Int.toNat_of_nonneg (by omega), add_sub_cancel]
  rw [Receiver.slotAt_resizeSlots, lookup]
  split_ifs with occupied
  · exact same
  · have cursor : r.rcvCurrSeq = .ofInt a.top := by
      rw [tracks.rcvCurrSeq, shows.top]
      rfl
    have top := shows.top
    have bottom := w.base_le
    have span := tracks.span
    rw [carried]
    apply occupy_noteArrival_tail
    exact detectGap_tail
      (r := { r with slots := Receiver.resizeSlots r.slots ((seq - w.base).toNat + 1) }) same cursor
      (by omega) (by omega) undecryptable

theorem register_tail (same : r.tail = a.tail) (now : Instant) (pkt : DataPacket) :
    ((r.countArrival pkt).observeTimestamp now pkt.timestamp).1.tail = (a.register now pkt).tail := by
  have picked : ((r.countArrival pkt).observeTimestamp now pkt.timestamp).1.anchor =
      some (r.anchor.getD ⟨now, (r.extender.extend pkt.timestamp now).2⟩) := by
    have anchor : (r.countArrival pkt).anchor = r.anchor := rfl
    have extender : (r.countArrival pkt).extender = r.extender := rfl
    unfold Receiver.observeTimestamp
    rw [anchor, extender]
    cases r.anchor <;> rfl
  have registered := congrArg (fun t : Tail =>
    { t with
      stats :=
        { t.stats with
          pktsRecv := t.stats.pktsRecv + 1
          bytesRecv := t.stats.bytesRecv + pkt.payload.length }
      pktCount := t.pktCount + 1
      extender := (t.extender.extend pkt.timestamp now).1
      anchor := some (t.anchor.getD ⟨now, (t.extender.extend pkt.timestamp now).2⟩) }) same
  refine Eq.trans ?_ registered
  have concrete : ((r.countArrival pkt).observeTimestamp now pkt.timestamp).1.tail =
      { r.tail with
        stats :=
          { r.tail.stats with
            pktsRecv := r.tail.stats.pktsRecv + 1
            bytesRecv := r.tail.stats.bytesRecv + pkt.payload.length }
        pktCount := r.tail.pktCount + 1
        extender := (r.tail.extender.extend pkt.timestamp now).1
        anchor := ((r.countArrival pkt).observeTimestamp now pkt.timestamp).1.anchor } := rfl
  rw [concrete, picked]
  rfl

theorem ingest_tail (same : r.tail = a.tail)
    (tracks : Receiver.Tracks (SeqNumber.new 0) w r) (shows : a.Shows w) {pkt : DataPacket}
    {seq : Int} (carried : pkt.seq = .ofInt seq)
    (near : w.base - 2 ^ 29 ≤ seq ∧ seq ≤ w.base + 2 ^ 29) (now : Instant) (undecryptable : Bool)
    (low : w.base - 2 ^ 30 < a.lastAckack) (high : a.lastAckack ≤ w.frontier) :
    (r.ingest now pkt undecryptable).tail = (a.ingest now seq pkt undecryptable).tail := by
  have payload : r.maxPayload = a.maxPayload := congrArg Tail.maxPayload same
  have extender : r.extender = a.extender := congrArg Tail.extender same
  unfold Receiver.ingest IdealReceiver.ingest
  by_cases oversized : a.maxPayload < pkt.payload.length
  · rw [if_pos oversized, if_pos (payload ▸ oversized)]
    exact congrArg (fun t : Tail =>
      { t with stats := { t.stats with pktsOversized := t.stats.pktsOversized + 1 } }) same
  rw [if_neg oversized, if_neg (payload ▸ oversized)]
  change (Receiver.selfClock (Receiver.storeData _ pkt (r.extender.extend pkt.timestamp now).2
    undecryptable)).tail = _
  rw [extender]
  have registered := register_tail same now pkt
  have shown : (a.register now pkt).Shows w := shows.of_eq rfl rfl rfl rfl
  have tracked : Receiver.Tracks (SeqNumber.new 0) w
      ((r.countArrival pkt).observeTimestamp now pkt.timestamp).1 := tracks.of_buffer_eq rfl
  generalize ((r.countArrival pkt).observeTimestamp now pkt.timestamp).1 = r₁ at registered tracked
  have stored := storeData_tail registered tracked shown carried near
    (a.extender.extend pkt.timestamp now).2 undecryptable
  have moved := tracked.storeData carried near (a.extender.extend pkt.timestamp now).2 undecryptable
  have shown' := shown.storeData seq
    (Receiver.slotOf pkt (a.extender.extend pkt.timestamp now).2 undecryptable)
  have capacity : r₁.cfg.bufferPkts = (a.register now pkt).bufferPkts :=
    congrArg Tail.bufferPkts registered
  have acks : ((a.register now pkt).storeData seq (Receiver.slotOf pkt
      (a.extender.extend pkt.timestamp now).2 undecryptable)).lastAckack = a.lastAckack :=
    congrArg (fun acks => acks.2.1) (IdealReceiver.storeData_acks (a.register now pkt) seq _)
  rw [capacity] at moved
  -- The ACK position has moved, but no farther than the window reaches.
  change Receiver.Tracks _ (w.accept _ seq (Receiver.slotOf pkt
    (a.extender.extend pkt.timestamp now).2 undecryptable) (!undecryptable)) _ at moved
  change IdealReceiver.Shows _ (w.accept _ seq (Receiver.slotOf pkt
    (a.extender.extend pkt.timestamp now).2 undecryptable) (!undecryptable)) at shown'
  have grows : w.frontier ≤ (w.accept (a.register now pkt).bufferPkts seq (Receiver.slotOf pkt
      (a.extender.extend pkt.timestamp now).2 undecryptable) (!undecryptable)).frontier :=
    Receiver.accept_frontier _ _ _ _ _
  have still := Receiver.accept_base w (a.register now pkt).bufferPkts seq (Receiver.slotOf pkt
      (a.extender.extend pkt.timestamp now).2 undecryptable) (!undecryptable)
  generalize w.accept (a.register now pkt).bufferPkts seq (Receiver.slotOf pkt
      (a.extender.extend pkt.timestamp now).2 undecryptable) (!undecryptable) = w'
    at moved shown' grows still
  have reach := w'.frontier_le
  have span := moved.span
  have position := shown'.ackPosition_eq
  apply selfClock_tail stored
  · rw [moved.ackValue_eq, position]
    rfl
  · rw [position, acks]
    omega
  · rw [position, acks]
    omega

end Arrivals

/-! ### Timers -/

section Timers

variable {a : IdealReceiver} {r : Receiver} {w : ReceiveWindow Slot}

theorem nakPrefix_wire {base : Int} {ranges : List (Int × Int)}
    (inside : forall range, range ∈ ranges ->
      base ≤ range.1 ∧ range.1 ≤ range.2 ∧ range.2 < base + 2 ^ 29) (maxWords words : Nat) :
    Receiver.nakPrefix maxWords words (ranges.map (Receiver.wireRange (SeqNumber.new 0))) =
      (IdealReceiver.fitting maxWords words ranges).map (Receiver.wireRange (SeqNumber.new 0)) := by
  induction ranges generalizing words with
  | nil => rfl
  | cons range rest ih =>
      have bounds := inside range List.mem_cons_self
      have single : ofInt range.1 = ofInt range.2 ↔ range.1 = range.2 :=
        ofInt_eq_iff (by omega) (by omega)
      have need : (if (Receiver.wireRange (SeqNumber.new 0) range).first =
          (Receiver.wireRange (SeqNumber.new 0) range).last then 1 else 2) =
          if range.1 = range.2 then 1 else 2 := by
        exact if_congr single rfl rfl
      rw [List.map_cons, Receiver.nakPrefix, IdealReceiver.fitting, need]
      generalize (if range.1 = range.2 then 1 else 2) = words'
      split_ifs
      · rfl
      · rw [List.map_cons, ih fun other member => inside other (List.mem_cons_of_mem _ member)]

theorem nakRanges_eq (same : r.tail = a.tail) (tracks : Receiver.Tracks (SeqNumber.new 0) w r)
    (shows : a.Shows w) :
    r.nakRanges = a.nakRanges.map (Receiver.wireRange (SeqNumber.new 0)) := by
  have payload : r.maxPayload = a.maxPayload := congrArg Tail.maxPayload same
  unfold Receiver.nakRanges IdealReceiver.nakRanges
  rw [payload, tracks.loss, shows.runs_eq]
  exact nakPrefix_wire tracks.missing_inside _ _

theorem nakTimer_tail (same : r.tail = a.tail) (tracks : Receiver.Tracks (SeqNumber.new 0) w r)
    (shows : a.Shows w) (now : Instant) : (r.nakTimer now).tail = (a.nakTimer now).tail := by
  have time : r.nextNakTime = a.nextNakTime := congrArg Tail.nextNakTime same
  have missing : r.loss = [] ↔ a.missing = ∅ := by
    rw [tracks.loss, List.map_eq_nil_iff, shows.missing_empty]
  unfold Receiver.nakTimer IdealReceiver.nakTimer
  by_cases nothing : a.missing = ∅
  · rw [if_pos nothing, if_pos (missing.mpr nothing)]
    exact congrArg (fun t : Tail => { t with nextNakTime := now + t.nakInterval }) same
  rw [if_neg nothing, if_neg (fun empty => nothing (missing.mp empty))]
  by_cases due : a.nextNakTime ≤ now
  · rw [if_pos due, if_pos (time ▸ due), nakRanges_eq same tracks shows]
    exact congrArg (fun t : Tail => { t with nextNakTime := now + t.nakInterval })
      (queueNak_tail same a.nakRanges)
  · rw [if_neg due, if_neg (time ▸ due)]
    exact same

end Timers

/-! ### ACKACK -/

section Ackack

variable {a : IdealReceiver} {r : Receiver}

/-- A measured confirmation moves the confirmed position forward. -/
theorem confirm_tail (same : r.tail = a.tail) {seq : Int}
    (placed : a.lastAckack ≤ seq ∧ seq - a.lastAckack < 2 ^ 30) (now : Instant) (ts : Timestamp)
    (rttUs : Nat) :
    (Receiver.sampleDrift
      (if 0 < (ofInt seq).diff (r.smoothRtt rttUs).rcvLastAckack then
        { r.smoothRtt rttUs with rcvLastAckack := .ofInt seq }
      else r.smoothRtt rttUs) now ts rttUs).tail =
      (IdealReceiver.sampleDrift
        { a.smoothRtt rttUs with lastAckack := max a.lastAckack seq } now ts rttUs).tail := by
  have smoothed := smoothRtt_tail same rttUs
  have kept : (a.smoothRtt rttUs).lastAckack = a.lastAckack := by
    unfold IdealReceiver.smoothRtt
    split_ifs <;> rfl
  have before : (r.smoothRtt rttUs).rcvLastAckack = .ofInt a.lastAckack := by
    rw [← kept]
    exact congrArg Tail.rcvLastAckack smoothed
  have distance : (ofInt seq).diff (r.smoothRtt rttUs).rcvLastAckack = seq - a.lastAckack := by
    rw [before]
    exact ofInt_diff (by omega) placed.2
  apply sampleDrift_tail
  by_cases advances : a.lastAckack < seq
  · rw [if_pos (by omega), max_eq_right (le_of_lt advances)]
    exact congrArg (fun t : Tail => { t with rcvLastAckack := .ofInt seq }) smoothed
  · rw [if_neg (by omega), max_eq_left (by omega), ← kept]
    exact smoothed

theorem handleAckack_tail (same : r.tail = a.tail)
    (placed : forall entry, entry ∈ a.journal ->
      a.lastAckack ≤ entry.seq ∧ entry.seq - a.lastAckack < 2 ^ 30)
    (now : Instant) (ackNumber : Nat) (ts : Timestamp) :
    (r.handleAckack now ackNumber ts).tail = (a.handleAckack now ackNumber ts).tail := by
  have journal : r.ackJournal = a.journal.map ReportRecord.toRecord :=
    congrArg Tail.ackJournal same
  have lastAckack : r.rcvLastAckack = .ofInt a.lastAckack := congrArg Tail.rcvLastAckack same
  have split : r.ackJournal.dropWhile (fun record => !decide (record.number = ackNumber)) =
      (a.journal.dropWhile fun entry => entry.number ≠ ackNumber).map ReportRecord.toRecord := by
    rw [journal, List.dropWhile_map]
    congr 2
    funext entry
    change (!decide (entry.number = ackNumber)) = decide (entry.number ≠ ackNumber)
    exact decide_not.symm
  have members : forall entry, entry ∈ (a.journal.dropWhile fun entry => entry.number ≠ ackNumber) ->
      entry ∈ a.journal := fun entry member => (List.dropWhile_sublist _).subset member
  rw [Receiver.handleAckack_eq, split]
  unfold IdealReceiver.handleAckack
  generalize (a.journal.dropWhile fun entry => decide (entry.number ≠ ackNumber)) = rest at members
  cases rest with
  | nil => exact same
  | cons entry later =>
      have confirmed := placed entry (members entry List.mem_cons_self)
      have shorter : Receiver.tail { r with ackJournal := later.map ReportRecord.toRecord } =
          IdealReceiver.tail { a with journal := later } :=
        congrArg (fun t : Tail => { t with ackJournal := later.map ReportRecord.toRecord }) same
      rw [List.map_cons]
      dsimp only
      by_cases unmeasured : min (Duration.asMicros (Instant.saturatingDurationSince now entry.sent))
          (2 ^ 32 - 1) = 0
      · rw [if_pos unmeasured]
        have unmeasured' : min (Duration.asMicros (Instant.saturatingDurationSince now
          entry.toRecord.sent)) (2 ^ 32 - 1) = 0 := unmeasured
        rw [if_pos unmeasured']
        exact shorter
      · rw [if_neg unmeasured]
        have measured : ¬min (Duration.asMicros (Instant.saturatingDurationSince now
          entry.toRecord.sent)) (2 ^ 32 - 1) = 0 := unmeasured
        rw [if_neg measured]
        exact confirm_tail shorter confirmed now ts _

end Ackack

/-! ### Delivery -/

section Delivery

variable {a : IdealReceiver} {r : Receiver} {w : ReceiveWindow Slot}

theorem tsbpdDeadline_eq (same : r.tail = a.tail) (anchor : Anchor) (extUs : Nat) :
    r.tsbpdDeadline anchor extUs = a.tsbpdDeadline anchor extUs := by
  have latency : r.cfg.rcvLatency = a.rcvLatency := congrArg Tail.rcvLatency same
  have drift : r.drift = a.drift := congrArg Tail.drift same
  have offset : r.deadlineOffsetUs anchor extUs =
      (extUs : Int) - anchor.extUs + a.drift.correctionUs + Duration.asMicros a.rcvLatency := by
    unfold Receiver.deadlineOffsetUs
    rw [latency, drift]
  unfold Receiver.tsbpdDeadline
  rw [offset]
  rfl

theorem advance_tail (same : r.tail = a.tail) (shows : a.Shows w) (first : Nat) :
    (({ r with scanHint := first } : Receiver).popSlot first).tail =
      (a.advance (w.base + first)).tail := by
  have passed : (w.base + first - a.base).toNat = first := by
    rw [shows.base]
    omega
  have concrete : (({ r with scanHint := first } : Receiver).popSlot first).tail =
      { r.tail with
        stats := { r.tail.stats with pktsDropped := r.tail.stats.pktsDropped + first } } := by
    unfold Receiver.popSlot Receiver.skipHole
    split_ifs with hole
    · rfl
    · rw [Nat.eq_zero_of_not_pos hole]
      rfl
  unfold IdealReceiver.advance
  rw [concrete, passed]
  exact congrArg (fun t : Tail =>
    { t with stats := { t.stats with pktsDropped := t.stats.pktsDropped + first } }) same

theorem card_advance_lt {seq : Int} {slot : Slot} (present : a.stored.lookup seq = some slot) :
    (a.advance seq).stored.keys.card < a.stored.keys.card := by
  have member : seq ∈ a.stored.keys :=
    (a.stored.mem_keys seq).mpr (Option.isSome_iff_exists.mpr ⟨slot, present⟩)
  apply Finset.card_lt_card
  refine ⟨Finset.filter_subset _ _, fun subset => ?_⟩
  have kept := (FiniteMap.mem_keys (a.advance seq).stored seq).mp (subset member)
  change ((a.stored.filter _).lookup seq).isSome at kept
  rw [FiniteMap.lookup_filter, present] at kept
  simp [Option.filter] at kept

/-- Both loops hand out the same payload. -/
theorem deliverLoop_refines (anchor : Anchor) (now : Instant) {turns fuel : Nat}
    (same : r.tail = a.tail) (tracks : Receiver.Tracks (SeqNumber.new 0) w r) (shows : a.Shows w)
    (enough : r.slots.length < turns) (enough' : a.stored.keys.card ≤ fuel) :
    (Receiver.deliverLoop anchor now turns r).2 = (IdealReceiver.deliver anchor now fuel a).2 ∧
      (Receiver.deliverLoop anchor now turns r).1.tail =
        (IdealReceiver.deliver anchor now fuel a).1.tail ∧
      (IdealReceiver.deliver anchor now fuel a).1.acks = a.acks ∧
      Exists fun w' => Receiver.Tracks (SeqNumber.new 0) w'
          (Receiver.deliverLoop anchor now turns r).1 ∧
        (IdealReceiver.deliver anchor now fuel a).1.Shows w' ∧ w.frontier ≤ w'.frontier := by
  induction turns generalizing r a w fuel with
  | zero => exact absurd enough (Nat.not_lt_zero _)
  | succ turns ih =>
      cases found : r.firstOccupied with
      | none =>
          have nothing := Receiver.slotAt_eq_none_of_firstOccupied_eq_none tracks.hint_empty found
          have stopped : Receiver.deliverLoop anchor now (turns + 1) r =
              ({ r with scanHint := r.slots.length }, none) := by
            rw [Receiver.deliverLoop, found]
          have ideal : IdealReceiver.deliver anchor now fuel a = (a, none) := by
            cases fuel with
            | zero => rfl
            | succ fuel =>
                rw [IdealReceiver.deliver,
                  shows.least_eq_none (tracks.held_eq_none_of_slots nothing)]
          rw [stopped, ideal]
          refine ⟨rfl, same, rfl, w, ?_, shows, le_refl _⟩
          exact ⟨tracks.baseSeq, tracks.rcvCurrSeq, tracks.loss, tracks.held, tracks.capacity,
            le_refl _, fun index _ => nothing index, tracks.span⟩
      | some first =>
          rcases Receiver.firstOccupied_eq_some tracks.hint_empty found with
            ⟨⟨slot, content⟩, before⟩
          have lowest := tracks.first_of_slots content before
          have least := shows.least_eq_some lowest
          have present : a.stored.lookup (w.base + first) = some slot := by
            rw [shows.stored]
            exact lowest.present
          have inside := Receiver.lt_length_of_slotAt content
          have hinted : Receiver.Tracks (SeqNumber.new 0) w { r with scanHint := first } :=
            ⟨tracks.baseSeq, tracks.rcvCurrSeq, tracks.loss, tracks.held, tracks.capacity,
              le_of_lt inside, before, tracks.span⟩
          have taken := hinted.take lowest
          have advanced := shows.advance lowest
          have tails := advance_tail same shows first
          have grows : w.frontier ≤ (w.take lowest).frontier := by
            refine ReceiveWindow.frontier_mono (le_of_eq (w.take_top lowest).symm) ?_
            intro point covered
            exact Or.inl ((w.covers_take lowest point).mp covered).1
          have fewer := card_advance_lt present
          rcases fuel with _ | fuel
          · omega
          have deadline := tsbpdDeadline_eq same anchor slot.extUs
          rw [Receiver.deliverLoop_turn found content, IdealReceiver.deliver, least, deadline]
          dsimp only
          split_ifs with early concealed
          · exact ⟨rfl, same, rfl, w, hinted, shows, le_refl _⟩
          · have shorter : (({ r with scanHint := first }).popSlot first).slots.length =
                r.slots.length - first - 1 := Receiver.popSlot_length { r with scanHint := first } first
            have counted := congrArg (fun t : Tail =>
              { t with stats := { t.stats with pktsDropped := t.stats.pktsDropped + 1 } }) tails
            have tracked : Receiver.Tracks (SeqNumber.new 0) (w.take lowest)
                (({ r with scanHint := first }).popSlot first).countDropped :=
              ⟨taken.baseSeq, taken.rcvCurrSeq, taken.loss, taken.held, taken.capacity, taken.hint,
                taken.hint_empty, taken.span⟩
            have shown : (a.advance (w.base + first)).countDropped.Shows (w.take lowest) :=
              advanced.of_eq rfl rfl rfl rfl
            have room : (({ r with scanHint := first }).popSlot first).countDropped.slots.length <
                turns := by
              change (({ r with scanHint := first }).popSlot first).slots.length < turns
              omega
            have room' : (a.advance (w.base + first)).countDropped.stored.keys.card ≤ fuel := by
              change (a.advance (w.base + first)).stored.keys.card ≤ fuel
              omega
            rcases ih counted tracked shown room room' with
              ⟨payload, rest, acks, w', tracks', shows', further⟩
            exact ⟨payload, rest, acks, w', tracks', shows', le_trans grows further⟩
          · exact ⟨rfl, tails, rfl, w.take lowest, taken, advanced, grows⟩

end Delivery

/-! ## The simulation -/

namespace IdealReceiver

/-- Positions are acknowledged in order and confirmed in order. -/
structure Ordered (a : IdealReceiver) : Prop where
  confirmed : a.lastAckack ≤ a.lastAck
  journaled : forall entry, entry ∈ a.journal -> a.lastAckack ≤ entry.seq ∧ entry.seq ≤ a.lastAck
  sorted : a.journal.Pairwise fun earlier later => earlier.seq ≤ later.seq

variable {a a' : IdealReceiver} {w : ReceiveWindow Slot}

theorem Ordered.of_acks (ordered : a.Ordered) (same : a'.acks = a.acks) : a'.Ordered := by
  have last : a'.lastAck = a.lastAck := congrArg (fun acks => acks.1) same
  have lastAckack : a'.lastAckack = a.lastAckack := congrArg (fun acks => acks.2.1) same
  have journal : a'.journal = a.journal := congrArg (fun acks => acks.2.2) same
  constructor
  · rw [last, lastAckack]
    exact ordered.confirmed
  · rw [last, lastAckack, journal]
    exact ordered.journaled
  · rw [journal]
    exact ordered.sorted

/-- A full ACK moves to the ACK position, and is sent or not. -/
theorem queueFullAck_cases (a : IdealReceiver) (now : Instant) :
    a.queueFullAck now = a ∨
      a.lastAck ≤ a.ackPosition ∧
        (a.queueFullAck now = { a with lastAck := a.ackPosition } ∨
          a.queueFullAck now = emitFullAck { a with lastAck := a.ackPosition } now) := by
  have sent (b : IdealReceiver) : b.emitFullAckUnlessConfirmed now = b ∨
      b.emitFullAckUnlessConfirmed now = b.emitFullAck now := by
    unfold emitFullAckUnlessConfirmed
    split_ifs
    · exact Or.inl rfl
    · exact Or.inr rfl
  unfold queueFullAck
  split_ifs with settled advances still early
  · exact Or.inl rfl
  · exact Or.inr ⟨le_of_lt advances, sent _⟩
  · exact Or.inl rfl
  · have same : ({ a with lastAck := a.ackPosition } : IdealReceiver) = a := by
      rw [still]
    rw [same]
    exact Or.inr ⟨le_of_eq still.symm, sent a⟩
  · exact Or.inl rfl

theorem Ordered.move (ordered : a.Ordered) {seq : Int} (ahead : a.lastAck ≤ seq) :
    Ordered { a with lastAck := seq } where
  confirmed := le_trans ordered.confirmed ahead
  journaled := fun entry member =>
    ⟨(ordered.journaled entry member).1, le_trans (ordered.journaled entry member).2 ahead⟩
  sorted := ordered.sorted

theorem Ordered.emitFullAck (ordered : a.Ordered) (now : Instant) : (a.emitFullAck now).Ordered := by
  have kept : (if a.journal.length = ackHistory then a.journal.drop 1 else a.journal).Sublist
      a.journal := by
    split_ifs
    · exact List.drop_sublist _ _
    · exact List.Sublist.refl _
  refine ⟨ordered.confirmed, ?_, ?_⟩
  · intro entry member
    rcases List.mem_append.mp member with old | new
    · exact ordered.journaled entry (kept.subset old)
    · rw [List.mem_singleton.mp new]
      exact ⟨ordered.confirmed, le_refl _⟩
  · refine List.pairwise_append.mpr ⟨ordered.sorted.sublist kept, List.pairwise_singleton _ _, ?_⟩
    intro earlier member later new
    rw [List.mem_singleton.mp new]
    exact (ordered.journaled earlier (kept.subset member)).2

/-- The timer ACK keeps the window and the order, and what is acknowledged stays below
the ACK position. -/
theorem ackTimer_keeps (shows : a.Shows w) (ordered : a.Ordered) (sent : a.lastAck ≤ a.ackPosition)
    (now : Instant) :
    (a.ackTimer now).Shows w ∧ (a.ackTimer now).Ordered ∧ (a.ackTimer now).lastAck ≤ w.frontier := by
  rw [shows.ackPosition_eq] at sent
  unfold ackTimer
  split_ifs
  · rcases queueFullAck_cases a now with same | ⟨ahead, same | same⟩
    · rw [same]
      exact ⟨shows.of_eq rfl rfl rfl rfl, ordered.of_acks rfl, sent⟩
    · rw [same]
      exact ⟨shows.of_eq rfl rfl rfl rfl, (ordered.move ahead).of_acks rfl,
        le_of_eq shows.ackPosition_eq⟩
    · rw [same]
      exact ⟨shows.of_eq rfl rfl rfl rfl, ((ordered.move ahead).emitFullAck now).of_acks rfl,
        le_of_eq shows.ackPosition_eq⟩
  · exact ⟨shows, ordered, sent⟩

theorem nakTimer_keeps (shows : a.Shows w) (now : Instant) :
    (a.nakTimer now).Shows w ∧ (a.nakTimer now).acks = a.acks := by
  rcases queueNak_window a a.nakRanges with ⟨base, top, missing, stored⟩
  have acks := queueNak_acks a a.nakRanges
  unfold nakTimer
  split_ifs
  · exact ⟨shows.of_eq rfl rfl rfl rfl, rfl⟩
  · exact ⟨shows.of_eq base top missing stored, acks⟩
  · exact ⟨shows, rfl⟩

/-- What a confirmation leaves is still in order. -/
theorem Ordered.handleAckack (ordered : a.Ordered) (now : Instant) (ackNumber : Nat)
    (ts : Timestamp) :
    (a.handleAckack now ackNumber ts).Ordered ∧
      (a.handleAckack now ackNumber ts).lastAck = a.lastAck := by
  have smoothed (b : IdealReceiver) (rttUs : Nat) : (b.smoothRtt rttUs).acks = b.acks := by
    unfold smoothRtt
    split_ifs <;> rfl
  have sampled (b : IdealReceiver) (rttUs : Nat) : (b.sampleDrift now ts rttUs).acks = b.acks := by
    unfold sampleDrift
    split <;> rfl
  have left := List.dropWhile_sublist (l := a.journal) fun entry => decide (entry.number ≠ ackNumber)
  unfold IdealReceiver.handleAckack
  generalize (a.journal.dropWhile fun entry => decide (entry.number ≠ ackNumber)) = rest at left ⊢
  cases rest with
  | nil => exact ⟨ordered, rfl⟩
  | cons entry later =>
      have older : later.Sublist a.journal := (List.sublist_cons_self entry later).trans left
      have bounds := ordered.journaled entry (left.subset List.mem_cons_self)
      rcases List.pairwise_cons.mp (ordered.sorted.sublist left) with ⟨above, sorted⟩
      dsimp only
      split_ifs
      · refine ⟨⟨ordered.confirmed, fun other member => ?_, sorted⟩, rfl⟩
        exact ordered.journaled other (older.subset member)
      · have moved : Ordered { a with journal := later, lastAckack := max a.lastAckack entry.seq } := by
          refine ⟨max_le ordered.confirmed bounds.2, fun other member => ?_, sorted⟩
          have known := ordered.journaled other (older.subset member)
          exact ⟨max_le known.1 (above other member), known.2⟩
        generalize min (Duration.asMicros (Instant.saturatingDurationSince now entry.sent))
          (2 ^ 32 - 1) = rttUs
        have acks := smoothed { a with journal := later } rttUs
        have last : (({ a with journal := later } : IdealReceiver).smoothRtt rttUs).lastAck =
            a.lastAck := congrArg (fun acks => acks.1) acks
        have journal : (({ a with journal := later } : IdealReceiver).smoothRtt rttUs).journal =
            later := congrArg (fun acks => acks.2.2) acks
        have same := sampled
          { (({ a with journal := later } : IdealReceiver).smoothRtt rttUs) with
            lastAckack := max a.lastAckack entry.seq } rttUs
        refine ⟨moved.of_acks (same.trans ?_), (congrArg (fun acks => acks.1) same).trans last⟩
        unfold IdealReceiver.acks
        rw [last, journal]

end IdealReceiver

/-- The receiver stands for the ideal one. -/
structure Simulated (a : IdealReceiver) (r : Receiver) : Prop where
  window : Exists fun w => Receiver.Tracks (SeqNumber.new 0) w r ∧ a.Shows w
  tails : r.tail = a.tail
  ordered : a.Ordered
  sent : a.lastAck ≤ a.ackPosition

section Serving

variable {a : IdealReceiver} {r : Receiver}

theorem reply_eq (same : r.tail = a.tail) (message : Option Report) (payload : Option Bytes)
    (deadline : Option Instant) :
    r.reply (message.map Report.toControl) payload deadline =
      (a.reply message payload deadline).map Report.toControl :=
  congrArg (fun t : Tail =>
    ({ message := message.map Report.toControl
       payload
       deadline
       discrepancy := t.discrepancy
       stats := t.stats
       rtt := (t.srttUs, t.rttVarUs)
       driftUs := t.drift.correctionUs
       undecrypted := t.undecrypted } : Reply ControlType)) same

theorem simulated_new (now : Instant) (initial : Int) (rcvLatency : Duration) (bufferPkts : Nat) :
    Simulated (IdealReceiver.new now initial rcvLatency bufferPkts)
      (Receiver.new now ⟨.ofInt initial, rcvLatency, bufferPkts⟩) where
  window := by
    refine ⟨ReceiveWindow.start initial, ?_, ?_⟩
    · exact ⟨rfl, prev_wire _ initial, rfl, fun _ => rfl, Nat.zero_le _, le_refl _,
        fun _ below => absurd below (Nat.not_lt_zero _), by
          change initial - 1 ≤ initial + 2 ^ 29
          omega⟩
    · refine ⟨rfl, rfl, fun seq => ?_, rfl⟩
      change seq ∈ (∅ : Finset Int) ↔ Covers [] seq
      simp
  tails := rfl
  ordered := ⟨le_refl _, nofun, List.Pairwise.nil⟩
  sent := by
    change initial ≤ initial - 1 + 1
    omega

theorem Simulated.placed (simulated : Simulated a r) : Placed a r := by
  rcases simulated.window with ⟨w, tracks, shows⟩
  have position := shows.ackPosition_eq
  have reach := w.frontier_le
  have span := tracks.span
  refine ⟨?_, ?_, ?_, ?_, simulated.ordered.confirmed, simulated.sent⟩
  · rw [tracks.baseSeq, shows.base]
    rfl
  · rw [tracks.ackValue_eq, position]
    rfl
  · rw [position, shows.base]
    exact w.base_le_frontier
  · rw [position, shows.base]
    omega

/-- Requests that leave the window and the acknowledged positions alone. -/
theorem Simulated.of_same (simulated : Simulated a r) {a' : IdealReceiver} {r' : Receiver}
    (buffer : r'.buffer = r.buffer) (base : a'.base = a.base) (top : a'.top = a.top)
    (missing : a'.missing = a.missing) (stored : a'.stored = a.stored) (acks : a'.acks = a.acks)
    (tails : r'.tail = a'.tail) : Simulated a' r' := by
  rcases simulated.window with ⟨w, tracks, shows⟩
  have shown := shows.of_eq base top missing stored
  refine ⟨⟨w, tracks.of_buffer_eq buffer, shown⟩, tails, simulated.ordered.of_acks acks, ?_⟩
  have last : a'.lastAck = a.lastAck := congrArg (fun acks => acks.1) acks
  rw [last, shown.ackPosition_eq, ← shows.ackPosition_eq]
  exact simulated.sent

theorem Simulated.setHsAnchor (simulated : Simulated a r) (instant : Instant) (ts : Timestamp) :
    Simulated (a.setHsAnchor instant ts) (r.setHsAnchor instant ts) := by
  have kept : (a.setHsAnchor instant ts).base = a.base ∧ (a.setHsAnchor instant ts).top = a.top ∧
      (a.setHsAnchor instant ts).missing = a.missing ∧
      (a.setHsAnchor instant ts).stored = a.stored ∧ (a.setHsAnchor instant ts).acks = a.acks := by
    unfold IdealReceiver.setHsAnchor
    split <;> exact ⟨rfl, rfl, rfl, rfl, rfl⟩
  rcases kept with ⟨base, top, missing, stored, acks⟩
  exact simulated.of_same (Receiver.setHsAnchor_buffer r instant ts) base top missing stored acks
    (setHsAnchor_tail simulated.tails instant ts)

theorem Simulated.ingest (simulated : Simulated a r) (short : a.Confirmed) {pkt : DataPacket}
    {seq : Int} (carried : pkt.seq = .ofInt seq)
    (near : a.base - 2 ^ 29 ≤ seq ∧ seq ≤ a.base + 2 ^ 29) (now : Instant) (undecryptable : Bool) :
    Simulated (a.ingest now seq pkt undecryptable) (r.ingest now pkt undecryptable) := by
  rcases simulated.window with ⟨w, tracks, shows⟩
  have position := shows.ackPosition_eq
  have bottom := w.base_le_frontier
  have ordered := simulated.ordered.confirmed
  have sent := simulated.sent
  unfold IdealReceiver.Confirmed at short
  rw [shows.base] at near
  rw [position] at short sent
  have tails := ingest_tail simulated.tails tracks shows carried near now undecryptable (by omega)
    (by omega)
  have acks := IdealReceiver.ingest_acks a now seq pkt undecryptable
  have last : (a.ingest now seq pkt undecryptable).lastAck = a.lastAck :=
    congrArg (fun acks => acks.1) acks
  have payload : r.maxPayload = a.maxPayload := congrArg Tail.maxPayload simulated.tails
  have capacity : r.cfg.bufferPkts = a.bufferPkts := congrArg Tail.bufferPkts simulated.tails
  have extender : r.extender = a.extender := congrArg Tail.extender simulated.tails
  have moved := tracks.ingest carried near now undecryptable
  rw [payload, capacity, extender] at moved
  have shown := shows.ingest now seq pkt undecryptable
  refine ⟨⟨_, moved, shown⟩, tails, simulated.ordered.of_acks acks, ?_⟩
  rw [last, shown.ackPosition_eq]
  refine le_trans sent ?_
  split_ifs
  · exact le_refl _
  · exact Receiver.accept_frontier _ _ _ _ _

theorem Simulated.handleAckack (simulated : Simulated a r) (short : a.Confirmed) (now : Instant)
    (ackNumber : Nat) (ts : Timestamp) :
    Simulated (a.handleAckack now ackNumber ts) (r.handleAckack now ackNumber ts) := by
  rcases simulated.window with ⟨w, tracks, shows⟩
  have sent := simulated.sent
  unfold IdealReceiver.Confirmed at short
  have tails := handleAckack_tail simulated.tails (fun entry member => by
    have bounds := simulated.ordered.journaled entry member
    exact ⟨bounds.1, by omega⟩) now ackNumber ts
  rcases simulated.ordered.handleAckack now ackNumber ts with ⟨ordered, last⟩
  have shown := shows.handleAckack now ackNumber ts
  refine ⟨⟨w, tracks.of_buffer_eq (Receiver.handleAckack_buffer _ _ _ _), shown⟩, tails, ordered, ?_⟩
  rw [last, shown.ackPosition_eq, ← shows.ackPosition_eq]
  exact sent

theorem Simulated.handleDropreq (simulated : Simulated a r) {first last : Int}
    (near : (a.base - 2 ^ 29 ≤ first ∧ first ≤ a.base + 2 ^ 29) ∧
      (a.base - 2 ^ 29 ≤ last ∧ last ≤ a.base + 2 ^ 29)) (now : Instant) (msgNumber : MsgNumber) :
    Simulated (a.handleDropreq msgNumber first last)
      (r.handleDropreq now msgNumber (.ofInt first) (.ofInt last)) := by
  rcases simulated.window with ⟨w, tracks, shows⟩
  rw [shows.base] at near
  have concrete : (r.handleDropreq now msgNumber (.ofInt first) (.ofInt last)).tail = r.tail := by
    unfold Receiver.handleDropreq
    dsimp only
    split_ifs <;> rfl
  have ideal : (a.handleDropreq msgNumber first last).tail = a.tail ∧
      (a.handleDropreq msgNumber first last).acks = a.acks := by
    unfold IdealReceiver.handleDropreq
    split_ifs <;> exact ⟨rfl, rfl⟩
  have last_ : (a.handleDropreq msgNumber first last).lastAck = a.lastAck :=
    congrArg (fun acks => acks.1) ideal.2
  have shown := shows.handleDropreq msgNumber first last
  refine ⟨⟨_, tracks.handleDropreq near.1 near.2 now msgNumber, shown⟩,
    concrete.trans (simulated.tails.trans ideal.1.symm), simulated.ordered.of_acks ideal.2, ?_⟩
  rw [last_, shown.ackPosition_eq]
  refine le_trans simulated.sent ?_
  rw [shows.ackPosition_eq]
  exact Receiver.dropWindow_frontier _ _ _ _

theorem Simulated.onTimer (simulated : Simulated a r) (short : a.Confirmed) (now : Instant) :
    Simulated (a.onTimer now) (r.onTimer now) := by
  rcases simulated.window with ⟨w, tracks, shows⟩
  have acked := simulated.placed.ackTimer_tail simulated.tails short now
  have buffer : (r.ackTimer now).buffer = r.buffer := by
    unfold Receiver.ackTimer
    split
    · exact Receiver.queueFullAck_buffer r now
    · rfl
  rcases IdealReceiver.ackTimer_keeps shows simulated.ordered simulated.sent now with
    ⟨shown, ordered, sent⟩
  rcases IdealReceiver.nakTimer_keeps shown now with ⟨shown', acks⟩
  have last : (a.onTimer now).lastAck = (a.ackTimer now).lastAck :=
    congrArg (fun acks => acks.1) acks
  refine ⟨⟨w, tracks.of_buffer_eq (Receiver.onTimer_buffer r now), shown'⟩,
    nakTimer_tail acked (tracks.of_buffer_eq buffer) shown now, ordered.of_acks acks, ?_⟩
  rw [last]
  exact le_trans sent (le_of_eq shown'.ackPosition_eq.symm)

theorem Simulated.pollControl (simulated : Simulated a r) (now : Instant) :
    (r.pollControl now).2 = a.pollControl.2.map Report.toControl ∧
      Simulated a.pollControl.1 (r.pollControl now).1 := by
  have queue : r.controlQ = a.queue.map Report.toControl := congrArg Tail.controlQ simulated.tails
  unfold Receiver.pollControl IdealReceiver.pollControl
  cases waiting : a.queue with
  | nil =>
      rw [waiting] at queue
      rw [queue]
      exact ⟨rfl, simulated⟩
  | cons head rest =>
      rw [waiting] at queue
      rw [queue]
      refine ⟨rfl, simulated.of_same rfl rfl rfl rfl rfl rfl ?_⟩
      exact congrArg (fun t : Tail => { t with controlQ := rest.map Report.toControl })
        simulated.tails

theorem Simulated.pollDeliver (simulated : Simulated a r) (now : Instant) :
    (r.pollDeliver now).2 = (a.pollDeliver now).2 ∧
      Simulated (a.pollDeliver now).1 (r.pollDeliver now).1 := by
  rcases simulated.window with ⟨w, tracks, shows⟩
  have anchor : r.anchor = a.anchor := congrArg Tail.anchor simulated.tails
  unfold Receiver.pollDeliver IdealReceiver.pollDeliver
  rw [anchor]
  cases a.anchor with
  | none => exact ⟨rfl, simulated⟩
  | some anchor =>
      dsimp only
      rcases deliverLoop_refines anchor now simulated.tails tracks shows
        (Nat.lt_succ_self _) (le_refl _) with
        ⟨payload, tails, acks, w', tracks', shows', further⟩
      refine ⟨payload, ⟨w', tracks', shows'⟩, tails, simulated.ordered.of_acks acks, ?_⟩
      have last := congrArg (fun acks => acks.1) acks
      change (IdealReceiver.deliver _ _ _ _).1.lastAck = a.lastAck at last
      rw [last, shows'.ackPosition_eq]
      refine le_trans simulated.sent ?_
      rw [shows.ackPosition_eq]
      exact further

theorem nextHeld_eq {w : ReceiveWindow Slot} (tracks : Receiver.Tracks (SeqNumber.new 0) w r)
    (shows : a.Shows w) : r.nextHeld = a.stored.least.map Prod.snd := by
  cases found : r.firstOccupied with
  | none =>
      have nothing := Receiver.slotAt_eq_none_of_firstOccupied_eq_none tracks.hint_empty found
      rw [Receiver.nextHeld_of_firstOccupied_none found,
        shows.least_eq_none (tracks.held_eq_none_of_slots nothing)]
      rfl
  | some first =>
      rcases Receiver.nextHeld_of_firstOccupied found with ⟨slot, content, held, _⟩
      rcases Receiver.firstOccupied_eq_some tracks.hint_empty found with ⟨_, before⟩
      rw [held, shows.least_eq_some (tracks.first_of_slots content before)]
      rfl

theorem Simulated.nextDeadline (simulated : Simulated a r) (now : Instant) :
    r.nextDeadline now = a.nextDeadline now := by
  rcases simulated.window with ⟨w, tracks, shows⟩
  have fullAck : r.nextFullAck = a.nextFullAck := congrArg Tail.nextFullAck simulated.tails
  have nakTime : r.nextNakTime = a.nextNakTime := congrArg Tail.nextNakTime simulated.tails
  have anchored : r.anchor = a.anchor := congrArg Tail.anchor simulated.tails
  have lossless : r.loss = [] ↔ a.missing = ∅ := by
    rw [tracks.loss, List.map_eq_nil_iff, shows.missing_empty]
  have alarm : (if r.loss = [] then r.nextFullAck else min r.nextFullAck r.nextNakTime) =
      if a.missing = ∅ then a.nextFullAck else min a.nextFullAck a.nextNakTime := by
    rw [fullAck, nakTime]
    exact if_congr lossless rfl rfl
  have held := nextHeld_eq tracks shows
  unfold Receiver.nextHeld at held
  have due := tsbpdDeadline_eq simulated.tails
  unfold Receiver.nextDeadline IdealReceiver.nextDeadline
  dsimp only
  rw [alarm, anchored, held]
  cases a.anchor with
  | none => rfl
  | some anchor =>
      cases a.stored.least with
      | none => rfl
      | some first =>
          dsimp only [Option.map_some]
          rw [due]

/-- Every request is answered alike and leaves the receiver standing for the ideal one. -/
theorem Simulated.serve (simulated : Simulated a r) (request : Request Int) (near : a.Near request)
    (short : a.Confirmed) :
    (r.serve (request.map .ofInt)).2 = (a.serve request).2.map Report.toControl ∧
      Simulated (a.serve request).1 (r.serve (request.map .ofInt)).1 := by
  cases request with
  | setHsAnchor instant ts =>
      have next := simulated.setHsAnchor instant ts
      exact ⟨reply_eq next.tails none none none, next⟩
  | setMaxPayload bytes =>
      have tails : (r.setMaxPayload bytes).tail = ({ a with maxPayload := bytes } : IdealReceiver).tail :=
        congrArg (fun t : Tail => { t with maxPayload := bytes }) simulated.tails
      exact ⟨reply_eq tails none none none, simulated.of_same rfl rfl rfl rfl rfl rfl tails⟩
  | handleData now seq pkt =>
      have carried : ({ pkt with seq := .ofInt seq } : DataPacket).seq = .ofInt seq := rfl
      have next := simulated.ingest short carried near now false
      exact ⟨reply_eq next.tails none none none, next⟩
  | handleUndecryptable now seq pkt =>
      have carried : ({ pkt with seq := .ofInt seq } : DataPacket).seq = .ofInt seq := rfl
      have next := simulated.ingest short carried near now true
      exact ⟨reply_eq next.tails none none none, next⟩
  | handleAckack now ackNumber ts =>
      have next := simulated.handleAckack short now ackNumber ts
      exact ⟨reply_eq next.tails none none none, next⟩
  | handleDropreq now msgNumber first last =>
      have next := simulated.handleDropreq near now msgNumber
      exact ⟨reply_eq next.tails none none none, next⟩
  | onTimer now =>
      have next := simulated.onTimer short now
      exact ⟨reply_eq next.tails none none none, next⟩
  | pollControl now =>
      rcases simulated.pollControl now with ⟨message, next⟩
      refine ⟨?_, next⟩
      change (r.pollControl now).1.reply (r.pollControl now).2 none none = _
      rw [message]
      exact reply_eq next.tails a.pollControl.2 none none
  | pollDeliver now =>
      rcases simulated.pollDeliver now with ⟨payload, next⟩
      refine ⟨?_, next⟩
      change (r.pollDeliver now).1.reply none (r.pollDeliver now).2 none = _
      rw [payload]
      exact reply_eq next.tails none (a.pollDeliver now).2 none
  | nextDeadline now =>
      refine ⟨?_, simulated⟩
      change r.reply none none (some (r.nextDeadline now)) = _
      rw [simulated.nextDeadline now]
      exact reply_eq simulated.tails none none (some (a.nextDeadline now))

end Serving

/-- The receiver answers every list of calls as the ideal receiver does, as long as the
sequences in the calls stay near the base and the ACK position stays within reach of the
last confirmed one. -/
theorem receiver_refines (now : Instant) (initial : Int) (rcvLatency : Duration) (bufferPkts : Nat)
    (requests : List (Request Int))
    (permitted : Permitted (fun a request => a.Near request ∧ a.Confirmed) IdealReceiver.serve
      (IdealReceiver.new now initial rcvLatency bufferPkts) requests) :
    replies Receiver.serve (Receiver.new now ⟨.ofInt initial, rcvLatency, bufferPkts⟩)
        (requests.map (Request.map SeqNumber.ofInt)) =
      (replies IdealReceiver.serve (IdealReceiver.new now initial rcvLatency bufferPkts) requests).map
        (Reply.map Report.toControl) :=
  replies_of_simulation Simulated (Request.map SeqNumber.ofInt) (Reply.map Report.toControl)
    (fun _ _ request simulated allowed => simulated.serve request allowed.1 allowed.2)
    (simulated_new now initial rcvLatency bufferPkts) permitted

def parcel : Bytes -> DataPacket := plainPacket (.new 0) 0

/-- A gap across the wrap of the wire sequence, given up in part. -/
def wrappingCalls : List (Request Int) :=
  [.handleData 0 (2 ^ 31 - 2) (parcel [1]), .handleData 0 (2 ^ 31 + 2) (parcel [2]),
    .pollControl 0, .handleDropreq 0 ⟨0, by decide⟩ (2 ^ 31 - 1) (2 ^ 31), .pollDeliver 0,
    .onTimer (Duration.fromMillis 10), .pollControl (Duration.fromMillis 10),
    .pollControl (Duration.fromMillis 10), .handleAckack (Duration.fromMillis 20) 1 ⟨0⟩,
    .handleUndecryptable 0 (2 ^ 31 + 1) (parcel [3]), .pollDeliver (Duration.fromMillis 20),
    .nextDeadline 0]

theorem receiver_refines_wrapping :
    Permitted (fun a request => a.Near request ∧ a.Confirmed) IdealReceiver.serve
        (IdealReceiver.new 0 (2 ^ 31 - 2) 0 8) wrappingCalls ∧
      replies Receiver.serve (Receiver.new 0 ⟨.ofInt (2 ^ 31 - 2), 0, 8⟩)
          (wrappingCalls.map (Request.map SeqNumber.ofInt)) =
        (replies IdealReceiver.serve (IdealReceiver.new 0 (2 ^ 31 - 2) 0 8) wrappingCalls).map
          (Reply.map Report.toControl) :=
  ⟨by decide +kernel, receiver_refines 0 (2 ^ 31 - 2) 0 8 wrappingCalls (by decide +kernel)⟩

/-! ## A position out of reach -/

theorem SeqNumber.ofInt_sub_turn (seq : Int) : ofInt (seq - 2 ^ 31) = ofInt seq := by
  simp only [ofInt, wire, SeqNumber.mk.injEq, new]
  omega

theorem Receiver.onTimer_silent {r : Receiver} (backward : r.ackValue.diff r.rcvLastAck < 0)
    (lossless : r.loss = []) (now : Instant) : (r.onTimer now).controlQ = r.controlQ := by
  have quiet : r.queueFullAck now = r := by
    unfold Receiver.queueFullAck
    dsimp only
    split_ifs
    · rfl
    · omega
    · omega
    · omega
    · rfl
  have acked : (r.ackTimer now).controlQ = r.controlQ ∧ (r.ackTimer now).loss = [] := by
    unfold Receiver.ackTimer
    rw [quiet]
    split_ifs <;> exact ⟨rfl, lossless⟩
  unfold Receiver.onTimer Receiver.nakTimer
  rw [if_pos acked.2]
  exact acked.1

section Leaping

variable {a : IdealReceiver} {r : Receiver}

/-- A position `2^30` past the last acknowledged one looks like a regression. -/
theorem Simulated.regresses (simulated : Simulated a r)
    (far : 2 ^ 30 ≤ a.ackPosition - a.lastAck) (bounded : a.ackPosition - a.lastAck < 2 ^ 31) :
    r.ackValue.diff r.rcvLastAck < 0 := by
  have last : r.rcvLastAck = .ofInt a.lastAck := congrArg Tail.rcvLastAck simulated.tails
  rw [simulated.placed.ack, last, ← ofInt_sub_turn, ofInt_diff (by omega) (by omega)]
  omega

/-- Such a position is not announced. -/
theorem Simulated.onTimer_silent (simulated : Simulated a r)
    (far : 2 ^ 30 ≤ a.ackPosition - a.lastAck) (bounded : a.ackPosition - a.lastAck < 2 ^ 31)
    (lossless : a.missing = ∅) (now : Instant) :
    (r.onTimer now).controlQ = a.queue.map Report.toControl := by
  rcases simulated.window with ⟨w, tracks, shows⟩
  have queue : r.controlQ = a.queue.map Report.toControl := congrArg Tail.controlQ simulated.tails
  have nothing : r.loss = [] := by
    rw [tracks.loss, List.map_eq_nil_iff]
    exact shows.missing_empty.mp lossless
  rw [← queue]
  exact Receiver.onTimer_silent (simulated.regresses far bounded) nothing now

theorem Simulated.within (simulated : Simulated a r) {seq : Int}
    (near : a.base - 2 ^ 29 ≤ seq ∧ seq ≤ a.base + 2 ^ 29) :
    Receiver.Within r.baseSeq (.ofInt seq) := by
  unfold Receiver.Within
  rw [simulated.placed.base, ofInt_diff (by omega) (by omega)]
  omega

/-- All sequences of the receiver itself are within `2^29` of the base, or at that distance. -/
def Receiver.Ranged (r : Receiver) : Prop :=
  Within r.baseSeq r.rcvLastAckack ∧ Within r.baseSeq r.rcvLastAck ∧ Within r.baseSeq r.ackValue

theorem Simulated.ranged (simulated : Simulated a r)
    (near : a.base - 2 ^ 29 ≤ a.lastAckack ∧ a.ackPosition ≤ a.base + 2 ^ 29) : r.Ranged := by
  have placed := simulated.placed
  have ordered := placed.confirmed
  have sent := placed.sent
  have last : r.rcvLastAck = .ofInt a.lastAck := congrArg Tail.rcvLastAck simulated.tails
  have confirmed : r.rcvLastAckack = .ofInt a.lastAckack :=
    congrArg Tail.rcvLastAckack simulated.tails
  unfold Receiver.Ranged
  rw [placed.ack, last, confirmed]
  exact ⟨simulated.within (by omega), simulated.within (by omega), simulated.within (by omega)⟩

end Leaping

section Overtaking

open Receiver (Session Call machine)

end Overtaking

theorem message_eq_none_of_silent {r : Receiver} {now : Instant}
    (silent : (r.onTimer now).controlQ = []) :
    (Receiver.serve (Receiver.serve r (.onTimer now)).1 (.pollControl now)).2.message = none := by
  change ((r.onTimer now).pollControl now).2 = none
  unfold Receiver.pollControl
  rw [silent]

/-- The sender gives up everything up to `2^29`, one packet moves the base there, and the
sender gives up as much again. -/
def leap : List (Request Int) :=
  [.handleDropreq 0 ⟨0, by decide⟩ 0 (2 ^ 29), .handleData 0 (2 ^ 29) (parcel [1]), .pollDeliver 0,
    .handleDropreq 0 ⟨0, by decide⟩ (2 ^ 29 + 1) (2 ^ 30 + 1)]

def leapingCalls : List (Request Int) :=
  leap ++ [.onTimer (Duration.fromMillis 10), .pollControl (Duration.fromMillis 10)]

/-- The receiver after the leap stands for the ideal one. -/
theorem simulated_leap :
    Simulated (settle IdealReceiver.serve (IdealReceiver.new 0 0 0 (2 ^ 29 + 1)) leap)
      (settle Receiver.serve (Receiver.new 0 ⟨.ofInt 0, 0, 2 ^ 29 + 1⟩)
        (leap.map (Request.map SeqNumber.ofInt))) :=
  related_of_simulation Simulated (Request.map SeqNumber.ofInt) (Reply.map Report.toControl)
    (fun _ _ request simulated allowed => simulated.serve request allowed.1 allowed.2)
    (simulated_new 0 0 0 (2 ^ 29 + 1))
    (by decide +kernel : Permitted (fun a request => a.Near request ∧ a.Confirmed)
      IdealReceiver.serve (IdealReceiver.new 0 0 0 (2 ^ 29 + 1)) leap)

/-- The receiver after the leap has nothing to say. -/
theorem leap_silent :
    ((settle Receiver.serve (Receiver.new 0 ⟨.ofInt 0, 0, 2 ^ 29 + 1⟩)
        (leap.map (Request.map SeqNumber.ofInt))).onTimer (Duration.fromMillis 10)).controlQ = [] := by
  have unsaid : ((settle IdealReceiver.serve (IdealReceiver.new 0 0 0 (2 ^ 29 + 1)) leap).queue.map
      Report.toControl) = [] := by
    decide +kernel
  rw [← unsaid]
  exact simulated_leap.onTimer_silent (by decide +kernel) (by decide +kernel) (by decide +kernel) _

/-- The last answer to the calls. -/
theorem replies_leapingCalls {State Output Seq : Type} (f : Int -> Seq)
    (serve : State -> Request Seq -> State × Output) (state : State) :
    (replies serve state (leapingCalls.map (Request.map f)))[5]? =
      some (serve (serve (settle serve state (leap.map (Request.map f)))
        (.onTimer (Duration.fromMillis 10))).1 (.pollControl (Duration.fromMillis 10))).2 :=
  rfl

/-- No sequence in the calls is further than `2^29` from the base, but the ideal receiver
acknowledges what the receiver does not. -/
theorem receiver_suppresses :
    Permitted (fun a request => a.Near request) IdealReceiver.serve
        (IdealReceiver.new 0 0 0 (2 ^ 29 + 1)) leapingCalls ∧
      replies Receiver.serve (Receiver.new 0 ⟨.ofInt 0, 0, 2 ^ 29 + 1⟩)
          (leapingCalls.map (Request.map SeqNumber.ofInt)) ≠
        (replies IdealReceiver.serve (IdealReceiver.new 0 0 0 (2 ^ 29 + 1)) leapingCalls).map
          (Reply.map Report.toControl) := by
  refine ⟨by decide +kernel, fun same => ?_⟩
  have spoken : (((replies IdealReceiver.serve (IdealReceiver.new 0 0 0 (2 ^ 29 + 1))
      leapingCalls).map (Reply.map Report.toControl))[5]?).map (Option.isSome ∘ Reply.message) =
      some true := by
    decide +kernel
  have quiet : ((replies Receiver.serve (Receiver.new 0 ⟨.ofInt 0, 0, 2 ^ 29 + 1⟩)
      (leapingCalls.map (Request.map SeqNumber.ofInt)))[5]?).map (Option.isSome ∘ Reply.message) =
      some false := by
    rw [replies_leapingCalls, Option.map_some, Function.comp_apply,
      message_eq_none_of_silent leap_silent]
    rfl
  rw [same, spoken] at quiet
  cases quiet

end Rsrt

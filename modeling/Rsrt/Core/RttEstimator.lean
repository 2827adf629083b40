import Rsrt.Core.ReceiverAcks

namespace Rsrt
namespace Receiver

open Rsrt.Basis SeqNumber

/-!
# The ACK journal and the RTT estimator

A full ACK leaves a record in the journal; the ACKACK that names it measures the
round trip.  Over any run with a clock that does not go back, the journal is a bounded
stretch of consecutive numbers, and the estimates stay within the range of the
samples that were measured.
-/

/-! ## Smoothing -/

/-- One step of the mean stays between any bounds of the old mean and the sample. -/
theorem smoothed_mean_between {low high mean sample : Nat} (below : low ≤ mean)
    (above : mean ≤ high) (fits : low ≤ sample ∧ sample ≤ high) :
    low ≤ (7 * mean + sample) / 8 ∧ (7 * mean + sample) / 8 ≤ high := by
  constructor <;> omega

/-- One step of the variation stays below any bound of the samples. -/
theorem smoothed_variation_le {high mean sample variation : Nat} (above : mean ≤ high)
    (fits : sample ≤ high) (spread : variation ≤ high) :
    (3 * variation + Int.natAbs ((mean : Int) - sample)) / 4 ≤ high := by
  omega

/-! ## What the calls write -/

/-- What the full ACKs and their confirmations write. -/
structure RoundTrip where
  journal : List AckRecord
  ackSeqNo : Nat
  srttUs : Nat
  rttVarUs : Nat
  rttFirst : Bool

def roundTrip (r : Receiver) : RoundTrip where
  journal := r.ackJournal
  ackSeqNo := r.ackSeqNo
  srttUs := r.srttUs
  rttVarUs := r.rttVarUs
  rttFirst := r.rttFirst

/-- The round trip that a confirmation of the record measures. -/
def elapsedUs (record : AckRecord) (now : Instant) : Nat :=
  min (Duration.asMicros (Instant.saturatingDurationSince now record.sent)) (2 ^ 32 - 1)

/-- The positive sample that a call takes. -/
def sample (r : Receiver) : Call -> Option Nat
  | .handleAckack now number _ =>
      (r.ackJournal.find? fun record => record.number = number).bind fun record =>
        if elapsedUs record now = 0 then none
        else some (elapsedUs record now)
  | _ => none

def isFullAck : ControlType -> Bool
  | .ack _ cif => cif.rttUs.isSome
  | _ => false

/-- The full ACKs that a call queues. -/
def fullAcksOf (r : Receiver) (c : Call) : Nat :=
  (r.call c).1.controlQ.countP isFullAck - r.controlQ.countP isFullAck

/-- What a call does to the round trip. -/
inductive Measures (r : Receiver) (c : Call) (after : Receiver) : Prop
  | rests (same : after.roundTrip = r.roundTrip) (unsampled : r.sample c = none)
  | announces (now : Instant) (seq : SeqNumber) (isCall : c = .onTimer now)
      (same : after.roundTrip =
        { r.roundTrip with
          journal := pushAckRecord r.ackJournal ⟨incack r.ackSeqNo, seq, now⟩
          ackSeqNo := incack r.ackSeqNo })
      (counted : after.controlQ.countP isFullAck = r.controlQ.countP isFullAck + 1)
  | confirms (older later : List AckRecord) (record : AckRecord)
      (split : r.ackJournal = older ++ record :: later)
      (same : after.roundTrip =
        (match r.sample c with
        | none => { r with ackJournal := later }
        | some rttUs => ({ r with ackJournal := later } : Receiver).smoothRtt rttUs).roundTrip)

section Calls

variable {r : Receiver}

theorem roundTrip_of_arrivalFrame_eq {after : Receiver}
    (same : after.arrivalFrame = r.arrivalFrame) : after.roundTrip = r.roundTrip := by
  have framed := congrArg roundTrip same
  exact framed

theorem roundTrip_of_outside_eq {after : Receiver} (same : after.outside = r.outside) :
    after.roundTrip = r.roundTrip := by
  have framed := congrArg roundTrip same
  exact framed

theorem setHsAnchor_roundTrip (instant : Instant) (ts : Timestamp) :
    (r.setHsAnchor instant ts).roundTrip = r.roundTrip := by
  unfold setHsAnchor
  split <;> rfl

theorem pollControl_roundTrip (now : Instant) :
    (r.pollControl now).1.roundTrip = r.roundTrip := by
  unfold pollControl
  split <;> rfl

theorem sampleDrift_roundTrip (now : Instant) (ts : Timestamp) (rttUs : Nat) :
    (r.sampleDrift now ts rttUs).roundTrip = r.roundTrip := by
  unfold sampleDrift
  split <;> rfl

theorem sampleDrift_rcvLastAckack (now : Instant) (ts : Timestamp) (rttUs : Nat) :
    (r.sampleDrift now ts rttUs).rcvLastAckack = r.rcvLastAckack := by
  unfold sampleDrift
  split <;> rfl

theorem smoothRtt_rcvLastAckack (rttUs : Nat) :
    (r.smoothRtt rttUs).rcvLastAckack = r.rcvLastAckack := by
  unfold smoothRtt
  split <;> rfl

theorem nakTimer_roundTrip (now : Instant) : (r.nakTimer now).roundTrip = r.roundTrip := by
  unfold nakTimer queueNak
  dsimp only
  split_ifs <;> rfl

/-- Periodic loss reports are not full ACKs. -/
theorem nakTimer_fullAcks (now : Instant) :
    (r.nakTimer now).controlQ.countP isFullAck = r.controlQ.countP isFullAck := by
  unfold nakTimer queueNak
  dsimp only
  split_ifs
  · rfl
  · rfl
  · exact List.countP_append.trans (by simp [isFullAck])
  · rfl

theorem ackTimer_measures (now : Instant) :
    Measures r (.onTimer now) (r.ackTimer now) := by
  by_cases due : r.nextFullAck ≤ now
  · rw [ackTimer, if_pos due]
    rcases queueFullAck_cases r now with same | ⟨_, same | same⟩
    · rw [same]
      exact .rests rfl rfl
    · rw [same]
      exact .rests rfl rfl
    · rw [same]
      apply Measures.announces now r.ackValue rfl rfl
      exact List.countP_append.trans rfl
  · rw [ackTimer, if_neg due]
    exact .rests rfl rfl

theorem onTimer_measures (now : Instant) : Measures r (.onTimer now) (r.onTimer now) := by
  have frame := nakTimer_roundTrip (r := r.ackTimer now) now
  have count := nakTimer_fullAcks (r := r.ackTimer now) now
  cases ackTimer_measures (r := r) now with
  | rests same unsampled => exact .rests (frame.trans same) unsampled
  | announces at_ seq isCall same counted =>
      exact .announces at_ seq isCall (frame.trans same) (count.trans counted)
  | confirms older later record split same =>
      exact .confirms older later record split (frame.trans same)

/-- The ACKACK that names a record, with the record found first. -/
theorem handleAckack_of_split {older later : List AckRecord} {record : AckRecord}
    (split : r.ackJournal = older ++ record :: later)
    (fresh : forall entry, entry ∈ older -> entry.number ≠ record.number) (now : Instant)
    (ts : Timestamp) :
    r.handleAckack now record.number ts =
      if elapsedUs record now = 0 then { r with ackJournal := later }
      else
        let smooth := ({ r with ackJournal := later } : Receiver).smoothRtt
          (elapsedUs record now)
        sampleDrift
          (if 0 < record.seq.diff smooth.rcvLastAckack then
            { smooth with rcvLastAckack := record.seq } else smooth)
          now ts (elapsedUs record now) := by
  have found : r.ackJournal.dropWhile (fun entry => !decide (entry.number = record.number)) =
      record :: later := by
    rw [split, List.dropWhile_append_of_pos]
    · simp
    · intro entry member
      simp [fresh entry member]
  rw [handleAckack_eq, found]
  rfl

theorem sample_of_split {older later : List AckRecord} {record : AckRecord}
    (split : r.ackJournal = older ++ record :: later)
    (fresh : forall entry, entry ∈ older -> entry.number ≠ record.number) (now : Instant)
    (ts : Timestamp) :
    r.sample (.handleAckack now record.number ts) =
      if elapsedUs record now = 0 then none
      else some (elapsedUs record now) := by
  have found : r.ackJournal.find? (fun entry => decide (entry.number = record.number)) =
      some record := by
    rw [split, List.find?_append, List.find?_eq_none.mpr]
    · simp
    · intro entry member
      simp [fresh entry member]
  unfold sample
  dsimp only
  rw [found]
  rfl

/-- A journal names a number at a first place, or not at all. -/
theorem named_or_unnamed (journal : List AckRecord) (number : Nat) :
    (forall entry, entry ∈ journal -> entry.number ≠ number) ∨
      Exists fun older => Exists fun record => Exists fun later =>
        journal = older ++ record :: later ∧ record.number = number ∧
          forall entry, entry ∈ older -> entry.number ≠ number := by
  induction journal with
  | nil => exact Or.inl fun _ member => absurd member List.not_mem_nil
  | cons head rest ih =>
      by_cases here : head.number = number
      · exact Or.inr ⟨[], head, rest, rfl, here, fun _ member => absurd member List.not_mem_nil⟩
      rcases ih with absent | ⟨older, record, later, split, named, fresh⟩
      · exact Or.inl (List.forall_mem_cons.mpr ⟨here, absent⟩)
      · refine Or.inr ⟨head :: older, record, later, ?_, named, ?_⟩
        · rw [split, List.cons_append]
        · exact List.forall_mem_cons.mpr ⟨here, fresh⟩

/-- An ACKACK that names no pending record changes nothing. -/
theorem handleAckack_unnamed {number : Nat}
    (absent : forall entry, entry ∈ r.ackJournal -> entry.number ≠ number) (now : Instant)
    (ts : Timestamp) : r.handleAckack now number ts = r := by
  have missing : r.ackJournal.findIdx? (fun record => decide (record.number = number)) = none := by
    apply List.findIdx?_eq_none_iff.mpr
    intro entry member
    exact decide_eq_false (absent entry member)
  rw [handleAckack, missing]

theorem handleAckack_measures (now : Instant) (number : Nat) (ts : Timestamp) :
    Measures r (.handleAckack now number ts) (r.handleAckack now number ts) := by
  rcases named_or_unnamed r.ackJournal number with absent | ⟨older, record, later, split, rfl, fresh⟩
  · rw [handleAckack_unnamed absent]
    apply Measures.rests rfl
    have missing : r.ackJournal.find? (fun record => decide (record.number = number)) = none := by
      apply List.find?_eq_none.mpr
      intro entry member
      simp [absent entry member]
    unfold sample
    dsimp only
    rw [missing]
    rfl
  · apply Measures.confirms older later record split
    rw [sample_of_split split fresh, handleAckack_of_split split fresh]
    by_cases unmeasured : elapsedUs record now = 0
    · rw [if_pos unmeasured, if_pos unmeasured]
    · rw [if_neg unmeasured, if_neg unmeasured]
      dsimp only
      rw [sampleDrift_roundTrip]
      split_ifs <;> rfl

theorem call_measures (c : Call) : Measures r c (r.call c).1 := by
  cases c with
  | setHsAnchor instant ts => exact .rests (setHsAnchor_roundTrip instant ts) rfl
  | setMaxPayload _ => exact .rests rfl rfl
  | handleData now pkt =>
      exact .rests (roundTrip_of_arrivalFrame_eq (ingest_arrivalFrame r now pkt false)) rfl
  | handleUndecryptable now pkt =>
      exact .rests (roundTrip_of_arrivalFrame_eq (ingest_arrivalFrame r now pkt true)) rfl
  | handleAckack now number ts => exact handleAckack_measures now number ts
  | handleDropreq now msgNumber first last =>
      exact .rests (roundTrip_of_outside_eq (handleDropreq_outside r now msgNumber first last)) rfl
  | onTimer now => exact onTimer_measures now
  | pollControl now => exact .rests (pollControl_roundTrip now) rfl
  | pollDeliver now => exact .rests (roundTrip_of_outside_eq (pollDeliver_outside r now)) rfl

end Calls

/-! ## Runs -/

/-- The instant a call carries; the setup calls carry none of the receiver's clock. -/
def Call.instant : Call -> Option Instant
  | .setHsAnchor _ _ => none
  | .setMaxPayload _ => none
  | .handleData now _ => some now
  | .handleUndecryptable now _ => some now
  | .handleAckack now _ _ => some now
  | .handleDropreq now _ _ _ => some now
  | .onTimer now => some now
  | .pollControl now => some now
  | .pollDeliver now => some now

/-- A receiver under any calls whatever. -/
def anyCalls : Machine Receiver Call where
  start := fun r => Exists fun now => Exists fun cfg => r = Receiver.new now cfg
  guard := fun _ _ => True
  next := fun r c => (r.call c).1

instance (r : Receiver) (c : Call) : Decidable (anyCalls.guard r c) :=
  inferInstanceAs (Decidable True)

/-- The same, by a clock that does not go back from the receiver's creation on. -/
def clocked : Machine (Receiver × Instant) Call :=
  anyCalls.timed Receiver.lastAckTime Call.instant

instance (state : Receiver × Instant) (c : Call) : Decidable (clocked.guard state c) :=
  inferInstanceAs (Decidable ((anyCalls.timed Receiver.lastAckTime Call.instant).guard state c))

/-- The full ACKs queued over a history. -/
def fullAcks (history : List ((Receiver × Instant) × Call)) : Nat :=
  (history.map fun entry => entry.1.1.fullAcksOf entry.2).sum

/-- The positive samples taken over a history, oldest first. -/
def samples (history : List ((Receiver × Instant) × Call)) : List Nat :=
  history.filterMap fun entry => entry.1.1.sample entry.2

/-- The journal is the stretch of numbers that ends in the last one given out. -/
def Consecutive (journal : List AckRecord) (ackSeqNo : Nat) : Prop :=
  Exists fun first => journal.map AckRecord.number = List.range' first journal.length ∧
    first + journal.length = ackSeqNo + 1

/-- The estimates lie within every bound of the samples. -/
structure Estimates (taken : List Nat) (trip : RoundTrip) : Prop where
  started : trip.rttFirst = true ↔ taken = []
  initial : taken = [] -> trip.srttUs = initialRttUs ∧ trip.rttVarUs = initialRttVarUs
  above : forall low, taken ≠ [] -> (forall sample, sample ∈ taken -> low ≤ sample) ->
    low ≤ trip.srttUs
  below : forall high, taken ≠ [] -> (forall sample, sample ∈ taken -> sample ≤ high) ->
    trip.srttUs ≤ high ∧ trip.rttVarUs ≤ high

/-- What every run keeps of the journal, the counter and the estimates. -/
structure Measured (history : List ((Receiver × Instant) × Call)) (trip : RoundTrip)
    (clock : Instant) : Prop where
  counted : trip.ackSeqNo ≤ fullAcks history
  bounded : trip.journal.length ≤ ackHistory
  consecutive : fullAcks history < 2 ^ 31 -> Consecutive trip.journal trip.ackSeqNo
  sent : forall record, record ∈ trip.journal -> record.sent ≤ clock
  small : forall sample, sample ∈ samples history -> sample < 2 ^ 32
  estimates : Estimates (samples history) trip

section Journal

variable {journal : List AckRecord} {ackSeqNo : Nat}

theorem Consecutive.drop (consecutive : Consecutive journal ackSeqNo) {count : Nat}
    (short : count ≤ journal.length) : Consecutive (journal.drop count) ackSeqNo := by
  rcases consecutive with ⟨first, numbers, ends⟩
  refine ⟨first + count, ?_, ?_⟩
  · rw [List.map_drop, numbers, List.drop_range', List.length_drop, Nat.mul_one]
  · rw [List.length_drop]
    omega

theorem Consecutive.push (consecutive : Consecutive journal ackSeqNo) (seq : SeqNumber)
    (now : Instant) : Consecutive (journal ++ [⟨ackSeqNo + 1, seq, now⟩]) (ackSeqNo + 1) := by
  rcases consecutive with ⟨first, numbers, ends⟩
  refine ⟨first, ?_, ?_⟩
  · rw [List.map_append, numbers, List.length_append, List.length_singleton,
      List.range'_1_concat, ends]
    rfl
  · rw [List.length_append, List.length_singleton]
    omega

/-- The journal forgets at most its oldest record for a new one. -/
theorem pushAckRecord_eq (journal : List AckRecord) (record : AckRecord) :
    Exists fun count => count ≤ journal.length ∧
      pushAckRecord journal record = journal.drop count ++ [record] := by
  by_cases full : journal.length = ackHistory
  · refine ⟨1, ?_, ?_⟩
    · rw [full]
      decide
    · rw [pushAckRecord, if_pos full]
  · refine ⟨0, Nat.zero_le _, ?_⟩
    rw [pushAckRecord, if_neg full]
    rfl

theorem pushAckRecord_length (record : AckRecord) (bounded : journal.length ≤ ackHistory) :
    (pushAckRecord journal record).length ≤ ackHistory := by
  unfold pushAckRecord
  rw [List.length_append, List.length_singleton]
  unfold ackHistory at *
  split_ifs with full
  · rw [List.length_drop, full]
  · omega

theorem Consecutive.pairwise (consecutive : Consecutive journal ackSeqNo) :
    journal.Pairwise fun older newer => older.number < newer.number := by
  rcases consecutive with ⟨first, numbers, _⟩
  have increasing := List.pairwise_lt_range' (s := first) (n := journal.length) 1
  rw [← numbers] at increasing
  exact List.pairwise_map.mp increasing

end Journal

section Estimator

variable {taken : List Nat} {trip : RoundTrip} {r : Receiver}

theorem Estimates.of_same {trip' : RoundTrip} (estimates : Estimates taken trip)
    (first : trip'.rttFirst = trip.rttFirst) (mean : trip'.srttUs = trip.srttUs)
    (variation : trip'.rttVarUs = trip.rttVarUs) : Estimates taken trip' := by
  cases trip
  cases trip'
  cases first
  cases mean
  cases variation
  exact ⟨estimates.started, estimates.initial, estimates.above, estimates.below⟩

/-- The first sample resets the estimator to itself. -/
theorem Estimates.reset (rttUs : Nat) (first : r.rttFirst = true) :
    Estimates [rttUs] (r.smoothRtt rttUs).roundTrip := by
  rw [smoothRtt, if_pos first]
  constructor
  · exact ⟨nofun, nofun⟩
  · exact nofun
  · intro low _ bound
    exact bound rttUs (List.mem_singleton_self _)
  · intro high _ bound
    have fits := bound rttUs (List.mem_singleton_self _)
    exact ⟨fits, le_trans (Nat.div_le_self _ _) fits⟩

/-- A later sample moves the estimates within the widened range. -/
theorem Estimates.smooth (estimates : Estimates taken r.roundTrip) (rttUs : Nat)
    (later : r.rttFirst = false) :
    Estimates (taken ++ [rttUs]) (r.smoothRtt rttUs).roundTrip := by
  have nonempty : taken ≠ [] := by
    intro empty
    have first : r.rttFirst = true := estimates.started.mpr empty
    rw [later] at first
    cases first
  rw [smoothRtt, if_neg (by rw [later]; decide)]
  constructor
  · constructor
    · intro first
      change r.rttFirst = true at first
      rw [later] at first
      cases first
    · intro empty
      exact absurd empty (by simp)
  · intro empty
    exact absurd empty (by simp)
  · intro low _ bound
    have mean := estimates.above low nonempty fun sample member =>
      bound sample (List.mem_append_left _ member)
    have fits := bound rttUs (List.mem_append_right _ (List.mem_singleton_self _))
    exact (smoothed_mean_between mean (le_max_left _ rttUs) ⟨fits, le_max_right _ _⟩).1
  · intro high _ bound
    have old := estimates.below high nonempty fun sample member =>
      bound sample (List.mem_append_left _ member)
    have fits := bound rttUs (List.mem_append_right _ (List.mem_singleton_self _))
    constructor
    · exact (smoothed_mean_between (Nat.zero_le _) old.1 ⟨Nat.zero_le _, fits⟩).2
    · exact smoothed_variation_le old.1 fits old.2

theorem Estimates.extend (estimates : Estimates taken r.roundTrip) (rttUs : Nat) :
    Estimates (taken ++ [rttUs]) (r.smoothRtt rttUs).roundTrip := by
  cases first : r.rttFirst with
  | true =>
      rw [estimates.started.mp first]
      exact Estimates.reset rttUs first
  | false => exact estimates.smooth rttUs first

end Estimator

section Steps

variable {history : List ((Receiver × Instant) × Call)} {r : Receiver} {clock : Instant} {c : Call}

theorem fullAcks_snoc (entry : (Receiver × Instant) × Call) :
    fullAcks (history ++ [entry]) = fullAcks history + entry.1.1.fullAcksOf entry.2 := by
  simp [fullAcks]

theorem samples_snoc (entry : (Receiver × Instant) × Call) :
    samples (history ++ [entry]) = samples history ++ (entry.1.1.sample entry.2).toList := by
  unfold samples
  rw [List.filterMap_append]
  cases found : entry.1.1.sample entry.2 <;> simp [found]

theorem elapsedUs_lt (record : AckRecord) (now : Instant) : elapsedUs record now < 2 ^ 32 :=
  lt_of_le_of_lt (min_le_right _ _) (by decide)

theorem sample_lt {rttUs : Nat} (taken : r.sample c = some rttUs) : rttUs < 2 ^ 32 := by
  cases c with
  | handleAckack now number ts =>
      rcases Option.bind_eq_some_iff.mp taken with ⟨record, _, measured⟩
      split_ifs at measured
      cases measured
      exact elapsedUs_lt record now
  | _ => cases taken

theorem incack_le (number : Nat) : incack number ≤ number + 1 := by
  unfold incack
  split_ifs
  · exact Nat.zero_le _
  · exact le_refl _

theorem incack_eq {number : Nat} (short : number + 1 < 2 ^ 31) : incack number = number + 1 := by
  rw [incack, if_neg (by omega)]

/-- Any longer history and later clock, without a sample or a full ACK of note. -/
theorem Measured.rest {history' : List ((Receiver × Instant) × Call)} {trip : RoundTrip}
    {clock' : Instant} (measured : Measured history trip clock)
    (more : fullAcks history ≤ fullAcks history') (same : samples history' = samples history)
    (later : clock ≤ clock') : Measured history' trip clock' where
  counted := le_trans measured.counted more
  bounded := measured.bounded
  consecutive := fun short => measured.consecutive (lt_of_le_of_lt more short)
  sent := fun record member => le_trans (measured.sent record member) later
  small := by
    rw [same]
    exact measured.small
  estimates := by
    rw [same]
    exact measured.estimates

/-- A full ACK extends the journal by the next number. -/
theorem Measured.announce {history' : List ((Receiver × Instant) × Call)} {trip : RoundTrip}
    {now : Instant} (measured : Measured history trip clock) (seq : SeqNumber)
    (one : fullAcks history' = fullAcks history + 1) (same : samples history' = samples history)
    (later : clock ≤ now) :
    Measured history'
      { trip with
        journal := pushAckRecord trip.journal ⟨incack trip.ackSeqNo, seq, now⟩
        ackSeqNo := incack trip.ackSeqNo } now := by
  have numbered := measured.counted
  rcases pushAckRecord_eq trip.journal ⟨incack trip.ackSeqNo, seq, now⟩ with
    ⟨count, short, pushed⟩
  constructor
  · rw [one]
    exact le_trans (incack_le _) (Nat.add_le_add_right numbered 1)
  · exact pushAckRecord_length _ measured.bounded
  · intro few
    rw [one] at few
    dsimp only
    rw [pushed, incack_eq (by omega)]
    exact ((measured.consecutive (by omega)).drop short).push seq now
  · intro record member
    dsimp only at member
    rw [pushed] at member
    rcases List.mem_append.mp member with old | new
    · exact le_trans (measured.sent record (List.mem_of_mem_drop old)) later
    · rw [List.mem_singleton.mp new]
  · rw [same]
    exact measured.small
  · rw [same]
    exact measured.estimates.of_same rfl rfl rfl

/-- A confirmation shortens the journal from its old end. -/
theorem Measured.consume {trip : RoundTrip} (measured : Measured history trip clock)
    {older later : List AckRecord} {record : AckRecord}
    (split : trip.journal = older ++ record :: later) :
    Measured history { trip with journal := later } clock := by
  have dropped : later = trip.journal.drop (older.length + 1) := by
    rw [split, List.append_cons, List.drop_left' (by simp)]
  have short : older.length + 1 ≤ trip.journal.length := by
    rw [split]
    simp
  constructor
  · exact measured.counted
  · apply le_trans _ measured.bounded
    dsimp only
    rw [dropped, List.length_drop]
    exact Nat.sub_le _ _
  · intro few
    dsimp only
    rw [dropped]
    exact (measured.consecutive few).drop short
  · intro other member
    dsimp only at member
    rw [dropped] at member
    exact measured.sent other (List.mem_of_mem_drop member)
  · exact measured.small
  · exact measured.estimates.of_same rfl rfl rfl

/-- A measured confirmation takes one sample more. -/
theorem Measured.smooth (measured : Measured history r.roundTrip clock)
    {history' : List ((Receiver × Instant) × Call)} {rttUs : Nat} (bounded : rttUs < 2 ^ 32)
    (more : fullAcks history ≤ fullAcks history')
    (taken : samples history' = samples history ++ [rttUs]) :
    Measured history' (r.smoothRtt rttUs).roundTrip clock := by
  have journal : (r.smoothRtt rttUs).roundTrip.journal = r.roundTrip.journal := by
    unfold smoothRtt
    split_ifs <;> rfl
  have number : (r.smoothRtt rttUs).roundTrip.ackSeqNo = r.roundTrip.ackSeqNo := by
    unfold smoothRtt
    split_ifs <;> rfl
  constructor
  · rw [number]
    exact le_trans measured.counted more
  · rw [journal]
    exact measured.bounded
  · intro few
    rw [journal, number]
    exact measured.consecutive (lt_of_le_of_lt more few)
  · rw [journal]
    exact measured.sent
  · intro sample member
    rw [taken] at member
    rcases List.mem_append.mp member with old | new
    · exact measured.small sample old
    · rw [List.mem_singleton.mp new]
      exact bounded
  · rw [taken]
    exact measured.estimates.extend rttUs

/-- A call keeps what is measured, with itself in the history. -/
theorem Measured.call (measured : Measured history r.roundTrip clock)
    (now : forall instant, instant ∈ c.instant -> clock ≤ instant) :
    Measured (history ++ [((r, clock), c)]) (r.call c).1.roundTrip (c.instant.getD clock) := by
  have later : clock ≤ c.instant.getD clock := by
    cases carried : c.instant with
    | none => exact le_refl _
    | some instant => exact now instant carried
  have counted := @fullAcks_snoc history ((r, clock), c)
  have taken := @samples_snoc history ((r, clock), c)
  dsimp only at counted taken
  have more : fullAcks history ≤ fullAcks (history ++ [((r, clock), c)]) := by
    rw [counted]
    exact Nat.le_add_right _ _
  cases call_measures (r := r) c with
  | rests same unsampled =>
      rw [unsampled, Option.toList_none, List.append_nil] at taken
      rw [same]
      exact measured.rest more taken later
  | announces instant seq isCall same queued =>
      rw [fullAcksOf, queued, Nat.add_sub_cancel_left] at counted
      subst isCall
      have unsampled : r.sample (.onTimer instant) = none := rfl
      rw [unsampled, Option.toList_none, List.append_nil] at taken
      rw [same]
      exact measured.announce seq counted taken (now instant rfl)
  | confirms older rest record split same =>
      have consumed := measured.consume split
      rw [same]
      cases found : r.sample c with
      | none =>
          rw [found, Option.toList_none, List.append_nil] at taken
          exact consumed.rest more taken later
      | some rttUs =>
          rw [found, Option.toList_some] at taken
          have timed := consumed.rest (le_refl _) rfl later
          exact Measured.smooth (r := { r with ackJournal := rest }) timed (sample_lt found) more
            taken

theorem clocked_measured {history : List ((Receiver × Instant) × Call)} {final : Receiver × Instant}
    (run : clocked.Run history final) : Measured history final.1.roundTrip final.2 := by
  refine run.induct (fun history state => Measured history state.1.roundTrip state.2) ?_ ?_
  · rintro ⟨r, clock⟩ ⟨⟨now, cfg, rfl⟩, began⟩
    constructor
    · exact Nat.zero_le _
    · exact Nat.zero_le _
    · exact fun _ => ⟨1, rfl, rfl⟩
    · exact fun _ member => absurd member List.not_mem_nil
    · exact fun _ member => absurd member List.not_mem_nil
    · exact ⟨⟨fun _ => rfl, fun _ => rfl⟩, fun _ => ⟨rfl, rfl⟩,
        fun _ nonempty => absurd rfl nonempty, fun _ nonempty => absurd rfl nonempty⟩
  · rintro history ⟨r, clock⟩ c _ measured ⟨_, now⟩
    exact measured.call now

end Steps

/-! ## Confirmations -/

/-- What the confirmation of a pending record does, at an instant after the record. -/
structure Confirmation (r : Receiver) (now : Instant) (record : AckRecord) (ts : Timestamp)
    (after : Receiver) : Prop where
  consumed : after.ackJournal = r.ackJournal.filter fun other => record.number < other.number
  ordered : record.sent ≤ now
  sampled : 1000 ≤ now - record.sent ->
    r.sample (.handleAckack now record.number ts) =
        some (min ((now - record.sent) / 1000) (2 ^ 32 - 1)) ∧
      after.rtt = (r.smoothRtt (min ((now - record.sent) / 1000) (2 ^ 32 - 1))).rtt ∧
      after.rcvLastAckack =
        (if 0 < record.seq.diff r.rcvLastAckack then record.seq else r.rcvLastAckack) ∧
      record.seq.diff after.rcvLastAckack ≤ 0
  unsampled : now - record.sent < 1000 ->
    r.sample (.handleAckack now record.number ts) = none ∧
      after = { r with ackJournal := after.ackJournal }

/-- In a journal of increasing numbers the records behind one are those above it. -/
theorem later_eq_filter {older later : List AckRecord} {record : AckRecord}
    (increasing : (older ++ record :: later).Pairwise fun older newer =>
      older.number < newer.number) :
    later = (older ++ record :: later).filter fun other => record.number < other.number := by
  rcases List.pairwise_append.mp increasing with ⟨_, behind, across⟩
  rcases List.pairwise_cons.mp behind with ⟨above, _⟩
  have below : older.filter (fun other => decide (record.number < other.number)) = [] := by
    apply List.filter_eq_nil_iff.mpr
    intro other member
    have under := across other member record List.mem_cons_self
    simpa using le_of_lt under
  have kept : later.filter (fun other => decide (record.number < other.number)) = later := by
    apply List.filter_eq_self.mpr
    intro other member
    exact decide_eq_true (above other member)
  rw [List.filter_append, below, List.filter_cons_of_neg (by simp), kept, List.nil_append]

theorem smoothRtt_rtt_of_journal (r : Receiver) (later : List AckRecord) (rttUs : Nat) :
    (({ r with ackJournal := later } : Receiver).smoothRtt rttUs).rtt =
      (r.smoothRtt rttUs).rtt := by
  unfold smoothRtt
  dsimp only
  split_ifs <;> rfl

/-- The part of a confirmation behind the smoothing leaves the round trip alone. -/
theorem raise_roundTrip (r : Receiver) (seq : SeqNumber) (now : Instant) (ts : Timestamp)
    (rttUs : Nat) :
    (sampleDrift (if 0 < seq.diff r.rcvLastAckack then { r with rcvLastAckack := seq } else r)
      now ts rttUs).roundTrip = r.roundTrip := by
  rw [sampleDrift_roundTrip]
  split_ifs <;> rfl

theorem raise_rcvLastAckack (r : Receiver) (seq : SeqNumber) (now : Instant) (ts : Timestamp)
    (rttUs : Nat) :
    (sampleDrift (if 0 < seq.diff r.rcvLastAckack then { r with rcvLastAckack := seq } else r)
      now ts rttUs).rcvLastAckack =
      if 0 < seq.diff r.rcvLastAckack then seq else r.rcvLastAckack := by
  rw [sampleDrift_rcvLastAckack]
  split_ifs <;> rfl

theorem diff_raised_le (seq confirmed : SeqNumber) :
    seq.diff (if 0 < seq.diff confirmed then seq else confirmed) ≤ 0 := by
  split_ifs with ahead
  · exact le_of_eq (diff_self seq)
  · exact not_lt.mp ahead

theorem Measured.confirmation {history : List ((Receiver × Instant) × Call)} {r : Receiver}
    {clock : Instant} (measured : Measured history r.roundTrip clock)
    (few : fullAcks history < 2 ^ 31) {now : Instant} (later : clock ≤ now) (ts : Timestamp)
    {record : AckRecord} (pending : record ∈ r.ackJournal) :
    Confirmation r now record ts (r.handleAckack now record.number ts) := by
  have increasing : r.ackJournal.Pairwise fun older newer => older.number < newer.number :=
    (measured.consecutive few).pairwise
  rcases List.append_of_mem pending with ⟨older, rest, split⟩
  have fresh : forall entry, entry ∈ older -> entry.number ≠ record.number := by
    intro entry member
    rw [split] at increasing
    exact ne_of_lt ((List.pairwise_append.mp increasing).2.2 entry member record
      List.mem_cons_self)
  have behind : rest = r.ackJournal.filter fun other => record.number < other.number := by
    rw [split] at increasing ⊢
    exact later_eq_filter increasing
  have result := handleAckack_of_split split fresh now ts
  have taken := sample_of_split split fresh now ts
  have elapsed : elapsedUs record now = min ((now - record.sent) / 1000) (2 ^ 32 - 1) := rfl
  by_cases short : elapsedUs record now = 0
  · rw [if_pos short] at result taken
    have brief : now - record.sent < 1000 := by
      unfold Instant at *
      rw [elapsed] at short
      omega
    rw [result]
    exact ⟨behind, le_trans (measured.sent record pending) later,
      fun long => absurd brief (not_lt_of_ge long), fun _ => ⟨taken, rfl⟩⟩
  · rw [if_neg short] at result taken
    have long : ¬ now - record.sent < 1000 := by
      unfold Instant at *
      rw [elapsed] at short
      omega
    have confirmed :=
      smoothRtt_rcvLastAckack (r := { r with ackJournal := rest }) (elapsedUs record now)
    have trip := congrArg roundTrip result
    have raised := congrArg Receiver.rcvLastAckack result
    dsimp only at trip raised
    rw [raise_roundTrip] at trip
    rw [raise_rcvLastAckack, confirmed] at raised
    refine ⟨?_, le_trans (measured.sent record pending) later, fun _ => ?_,
      fun brief => absurd brief long⟩
    · rw [← behind]
      refine (congrArg RoundTrip.journal trip).trans ?_
      unfold smoothRtt
      split_ifs <;> rfl
    · rw [← elapsed]
      refine ⟨taken, ?_, raised, ?_⟩
      · have estimate := congrArg (fun t : RoundTrip => (t.srttUs, t.rttVarUs)) trip
        exact estimate.trans (smoothRtt_rtt_of_journal r rest _)
      · rw [raised]
        exact diff_raised_le _ _

/-! ## The estimates over a run -/

/-- The source's 64-bit intermediate sums and 32-bit results of smoothing a sample in. -/
def Fits (r : Receiver) (rttUs : Nat) : Prop :=
  3 * r.rttVarUs + Int.natAbs ((r.srttUs : Int) - rttUs) < 2 ^ 64 ∧
    7 * r.srttUs + rttUs < 2 ^ 64 ∧
    (3 * r.rttVarUs + Int.natAbs ((r.srttUs : Int) - rttUs)) / 4 < 2 ^ 32 ∧
    (7 * r.srttUs + rttUs) / 8 < 2 ^ 32

theorem Measured.estimates_lt {history : List ((Receiver × Instant) × Call)} {trip : RoundTrip}
    {clock : Instant} (measured : Measured history trip clock) :
    trip.srttUs < 2 ^ 32 ∧ trip.rttVarUs < 2 ^ 32 := by
  by_cases none : samples history = []
  · rcases measured.estimates.initial none with ⟨mean, variation⟩
    rw [mean, variation]
    decide
  · have bounds := measured.estimates.below (2 ^ 32 - 1) none fun sample member =>
      Nat.le_sub_one_of_lt (measured.small sample member)
    omega

theorem Measured.fits {history : List ((Receiver × Instant) × Call)} {r : Receiver}
    {clock : Instant} (measured : Measured history r.roundTrip clock) {rttUs : Nat}
    (small : rttUs < 2 ^ 32) : r.Fits rttUs := by
  have bounds : r.srttUs < 2 ^ 32 ∧ r.rttVarUs < 2 ^ 32 := measured.estimates_lt
  unfold Fits
  omega

theorem Measured.within {history : List ((Receiver × Instant) × Call)} {r : Receiver}
    {clock : Instant} (measured : Measured history r.roundTrip clock)
    (sampled : samples history ≠ []) :
    Exists fun low => Exists fun high => (samples history).min? = some low ∧
      (samples history).max? = some high ∧ low ≤ r.srttUs ∧ r.srttUs ≤ high ∧
      r.rttVarUs ≤ high := by
  cases least : (samples history).min? with
  | none => exact absurd (List.min?_eq_none_iff.mp least) sampled
  | some low =>
      cases greatest : (samples history).max? with
      | none => exact absurd (List.max?_eq_none_iff.mp greatest) sampled
      | some high =>
          have above := measured.estimates.above low sampled
            (List.min?_eq_some_iff.mp least).2
          have below := measured.estimates.below high sampled
            (List.max?_eq_some_iff.mp greatest).2
          exact ⟨low, high, rfl, rfl, above, below⟩

/-- The journal and the estimator over every run with a clock that does not go back: the
pending records are few and consecutive, a confirmation consumes and measures exactly its
record, and the estimates stay within the samples and within the machine's integers. -/
theorem roundTrip_measured {history : List ((Receiver × Instant) × Call)} {r : Receiver}
    {clock : Instant} (run : clocked.Run history (r, clock)) (few : fullAcks history < 2 ^ 31) :
    (r.ackJournal.length ≤ 1024 ∧ Exists fun first =>
        r.ackJournal.map AckRecord.number = List.range' first r.ackJournal.length) ∧
      (forall now number ts, (forall record, record ∈ r.ackJournal -> record.number ≠ number) ->
        r.handleAckack now number ts = r) ∧
      (forall now ts record, clock ≤ now -> record ∈ r.ackJournal ->
        Confirmation r now record ts (r.handleAckack now record.number ts)) ∧
      (samples history ≠ [] -> Exists fun low => Exists fun high =>
        (samples history).min? = some low ∧ (samples history).max? = some high ∧
          low ≤ r.srttUs ∧ r.srttUs ≤ high ∧ r.rttVarUs ≤ high) ∧
      forall rttUs, rttUs < 2 ^ 32 -> r.Fits rttUs := by
  have measured : Measured history r.roundTrip clock := clocked_measured run
  refine ⟨⟨measured.bounded, ?_⟩, ?_, ?_, measured.within, ?_⟩
  · rcases measured.consecutive few with ⟨first, numbers, _⟩
    exact ⟨first, numbers⟩
  · intro now number ts absent
    exact handleAckack_unnamed absent now ts
  · intro now ts record later pending
    exact measured.confirmation few later ts pending
  · intro rttUs small
    exact measured.fits small

/-- A new receiver at instant zero. -/
def young : Receiver × Instant :=
  (Receiver.new 0 { initialSeq := SeqNumber.new 7, rcvLatency := 0, bufferPkts := 16 }, 0)

/-- Two positions are announced and confirmed, 5 ms and 1 ms after their full ACKs. -/
def twoRoundTrips : List Call :=
  [.handleDropreq 1000000 (MsgNumber.new 0) (SeqNumber.new 7) (SeqNumber.new 7),
    .onTimer 10000000,
    .handleAckack 15000000 1 ⟨15000⟩,
    .handleDropreq 16000000 (MsgNumber.new 0) (SeqNumber.new 8) (SeqNumber.new 8),
    .onTimer 20000000,
    .handleAckack 21000000 2 ⟨21000⟩]

theorem roundTrip_measured_twoRoundTrips :
    samples (clocked.trace young twoRoundTrips) = [5000, 1000] ∧
      1000 ≤ (clocked.exec young twoRoundTrips).1.srttUs ∧
      (clocked.exec young twoRoundTrips).1.srttUs ≤ 5000 ∧
      (clocked.exec young twoRoundTrips).1.rttVarUs ≤ 5000 := by
  have begins : clocked.start young := ⟨⟨0, _, rfl⟩, rfl⟩
  have run := Machine.run_exec begins (by decide +kernel : clocked.Allowed young twoRoundTrips)
  have few : fullAcks (clocked.trace young twoRoundTrips) < 2 ^ 31 := by decide +kernel
  have taken : samples (clocked.trace young twoRoundTrips) = [5000, 1000] := by decide +kernel
  rcases (roundTrip_measured run few).2.2.2.1 (by rw [taken]; simp) with
    ⟨low, high, least, greatest, bounds⟩
  rw [taken] at least greatest
  cases least
  cases greatest
  exact ⟨taken, bounds⟩

end Receiver
end Rsrt

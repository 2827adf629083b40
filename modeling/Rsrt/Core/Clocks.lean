import Mathlib.Algebra.BigOperators.Group.List.Basic
import Mathlib.Tactic
import Rsrt.Core.Time

namespace Rsrt

/-!
# The peer's clock, as the receiver reconstructs it

A peer's clock is an unbounded counter of microseconds of which the wire shows 32 bits.
The first part says when the extender recovers it.  The second part follows the drift
tracer over whole batches of samples: its correction is the mean of the last batch, up to
truncation, and carries nothing over from the batches before.
-/

/-! ## Timestamp extension -/

/-- The low 32 bits of a peer's clock. -/
def Timestamp.ofPeer (peerUs : Nat) : Timestamp := ⟨UInt32.ofNat peerUs⟩

/-- A timestamp seen at a local instant, with the true time of the peer. -/
structure Observation where
  peerUs : Nat
  now : Instant

namespace TimestampExtender

/-- What an extender makes of a sequence of observations. -/
def extendAll (self : TimestampExtender) : List Observation -> List Nat
  | [] => []
  | o :: rest =>
      let extended := self.extend (Timestamp.ofPeer o.peerUs) o.now
      extended.2 :: extended.1.extendAll rest

/-- The wrapping difference of two clocks is the true one, if that is short. -/
theorem toInt_sub_ofNat {peer expected : Nat} (low : -2 ^ 31 ≤ (peer : Int) - expected)
    (high : (peer : Int) - expected < 2 ^ 31) :
    (UInt32.ofNat peer - UInt32.ofNat expected).toInt32.toInt = (peer : Int) - expected := by
  change (BitVec.ofNat 32 peer - BitVec.ofNat 32 expected).toInt = _
  rw [BitVec.toInt_sub, BitVec.toInt_ofNat', BitVec.toInt_ofNat', Int.sub_bmod_bmod,
    Int.bmod_sub_bmod]
  apply Int.bmod_eq_of_le
  · omega
  · omega

theorem extend_anchored {anchorInstant now : Instant} {anchorExt peerUs : Nat}
    (low : -2 ^ 31 ≤ (peerUs : Int) - (anchorExt + Duration.asMicros (now - anchorInstant) : Nat))
    (high : (peerUs : Int) - (anchorExt + Duration.asMicros (now - anchorInstant) : Nat) < 2 ^ 31) :
    extend ⟨some (anchorInstant, anchorExt)⟩ (Timestamp.ofPeer peerUs) now =
      (⟨some (anchorInstant, anchorExt)⟩, peerUs) := by
  unfold extend Timestamp.ofPeer Instant.saturatingDurationSince
  dsimp only
  rw [toInt_sub_ofNat low high]
  congr 1
  omega

/-- After its first observation an extender keeps its anchor. -/
theorem extendAll_anchored (anchor : Instant × Nat) (observations : List Observation) (k : Nat) :
    (extendAll ⟨some anchor⟩ observations)[k]? =
      observations[k]?.map fun o =>
        (extend ⟨some anchor⟩ (Timestamp.ofPeer o.peerUs) o.now).2 := by
  induction observations generalizing k with
  | nil => rfl
  | cons o rest ih =>
      cases k with
      | zero => rfl
      | succ k => exact ih k

/-- Whatever the other observations are, a clock within `2^31` microseconds of where the
local clock expects it is recovered, over any number of wraps. -/
theorem extendAll_exact (first : Observation) (rest : List Observation)
    (small : first.peerUs < 2 ^ 32) {k : Nat} {o : Observation}
    (found : (first :: rest)[k]? = some o)
    (low : -2 ^ 31 ≤ (o.peerUs : Int) -
      (first.peerUs + Duration.asMicros (o.now - first.now) : Nat))
    (high : (o.peerUs : Int) - (first.peerUs + Duration.asMicros (o.now - first.now) : Nat) <
      2 ^ 31) :
    (extendAll {} (first :: rest))[k]? = some o.peerUs := by
  have start : (UInt32.ofNat first.peerUs).toNat = first.peerUs :=
    UInt32.toNat_ofNat_of_lt' small
  cases k with
  | zero =>
      cases found
      exact congrArg some start
  | succ k =>
      change rest[k]? = some o at found
      change (extendAll ⟨some (first.now, (UInt32.ofNat first.peerUs).toNat)⟩ rest)[k]? = _
      rw [start, extendAll_anchored, found, Option.map_some, extend_anchored low high]

/-- The peer's clock wraps three times between two packets, the second of which overtakes
one that is a second older. -/
theorem extendAll_exact_wraps :
    (extendAll {} [⟨2 ^ 32 - 5, 0⟩, ⟨2 ^ 34 + 7, Duration.fromMicros (3 * 2 ^ 32)⟩,
      ⟨2 ^ 34 - 999993, Duration.fromMicros (3 * 2 ^ 32 + 1)⟩])[2]? = some (2 ^ 34 - 999993) :=
  @extendAll_exact ⟨2 ^ 32 - 5, 0⟩ _ (by decide) 2
    ⟨2 ^ 34 - 999993, Duration.fromMicros (3 * 2 ^ 32 + 1)⟩ rfl (by decide) (by decide)

end TimestampExtender

/-! ## Drift -/

namespace DriftTracer

/-- The tracer after a sequence of samples. -/
def run (self : DriftTracer) (offsets : List Int) : DriftTracer :=
  offsets.foldl (fun tracer offset => (tracer.sample offset).1) self

theorem run_append (self : DriftTracer) (offsets later : List Int) :
    self.run (offsets ++ later) = (self.run offsets).run later :=
  List.foldl_append

/-- No batch is open. -/
def Fresh (self : DriftTracer) : Prop := self.sumUs = 0 ∧ self.samples = 0

/-- The shift that a batch average calls for. -/
def shiftOf (avg : Int) : Int :=
  if tsbpdDriftMaxValueUs < |avg| then
    max (-tsbpdDriftMaxValueUs) (min avg tsbpdDriftMaxValueUs)
  else 0

/-- The tracer after a batch whose samples, net of the base, add up to a sum. -/
def closed (self : DriftTracer) (sum : Int) : DriftTracer where
  driftUs := sum.tdiv 1000 - shiftOf (sum.tdiv 1000)
  baseShiftUs := self.baseShiftUs + shiftOf (sum.tdiv 1000)

/-- Inside a batch only its sum and its count change. -/
theorem run_open (self : DriftTracer) (offsets : List Int)
    (short : self.samples + offsets.length < 1000) :
    self.run offsets =
      { self with
        sumUs := self.sumUs + (offsets.sum - offsets.length * self.baseShiftUs)
        samples := self.samples + offsets.length } := by
  induction offsets generalizing self with
  | nil =>
      change self = { self with sumUs := self.sumUs + (0 - 0 * self.baseShiftUs), samples := _ }
      rw [zero_mul, sub_zero, add_zero]
      rfl
  | cons offset rest ih =>
      rw [List.length_cons] at short
      have sampled : (self.sample offset).1 =
          { self with
            sumUs := self.sumUs + (offset - self.baseShiftUs)
            samples := self.samples + 1 } := by
        unfold sample
        dsimp only
        rw [if_pos (by unfold tsbpdDriftMaxSamples; omega)]
      change (self.sample offset).1.run rest = _
      rw [sampled, ih _ (by dsimp only; omega), List.sum_cons, List.length_cons]
      congr 1
      · push_cast
        ring
      · dsimp only
        omega

/-- The last sample of a batch closes it. -/
theorem sample_closed (self : DriftTracer) (offset : Int) (last : self.samples = 999) :
    (self.sample offset).1 = self.closed (self.sumUs + (offset - self.baseShiftUs)) := by
  unfold sample closed shiftOf
  rw [last]
  rfl

/-- A whole batch. -/
theorem run_batch {self : DriftTracer} (fresh : self.Fresh) {offsets : List Int}
    (full : offsets.length = 1000) :
    self.run offsets = self.closed (offsets.sum - 1000 * self.baseShiftUs) := by
  rcases List.eq_nil_or_concat offsets with empty | ⟨init, last, split⟩
  · rw [empty] at full
    cases full
  · rw [split, List.concat_eq_append] at full ⊢
    have length : init.length = 999 := by
      rw [List.length_append, List.length_singleton] at full
      omega
    rw [run_append, run_open self init (by rw [fresh.2]; omega)]
    change (sample _ last).1 = _
    rw [sample_closed _ _ (by dsimp only; rw [fresh.2, length]), List.sum_append,
      List.sum_singleton, length, fresh.1]
    unfold closed
    dsimp only
    have sums : 0 + (init.sum - ((999 : Nat) : Int) * self.baseShiftUs) +
        (last - self.baseShiftUs) = init.sum + last - 1000 * self.baseShiftUs := by
      push_cast
      ring
    rw [sums]

/-! ### The correction and the base -/

/-- Truncation loses less than one. -/
theorem tdiv_near (sum : Int) : |1000 * sum.tdiv 1000 - sum| < 1000 := by
  have parts := Int.mul_tdiv_add_tmod sum 1000
  have low := Int.lt_tmod_of_pos sum (by decide : (0 : Int) < 1000)
  have high := Int.tmod_lt_of_pos sum (by decide : (0 : Int) < 1000)
  rw [abs_lt]
  constructor
  · omega
  · omega

theorem closed_correctionUs (self : DriftTracer) (sum : Int) :
    (self.closed sum).correctionUs = self.baseShiftUs + sum.tdiv 1000 := by
  unfold correctionUs closed
  dsimp only
  ring

/-- A shift is a step of at most the maximum towards the average. -/
theorem shiftOf_cases (avg : Int) :
    shiftOf avg = 0 ∨ (5000 < avg ∧ shiftOf avg = 5000) ∨ (avg < -5000 ∧ shiftOf avg = -5000) := by
  unfold shiftOf tsbpdDriftMaxValueUs
  split_ifs with wide
  · rcases lt_abs.mp wide with above | below
    · rw [min_eq_right (le_of_lt above), max_eq_right (by decide)]
      exact Or.inr (Or.inl ⟨above, rfl⟩)
    · have under : avg < -5000 := by omega
      rw [min_eq_left (by omega), max_eq_left (le_of_lt under)]
      exact Or.inr (Or.inr ⟨under, rfl⟩)
  · exact Or.inl rfl

theorem abs_shiftOf_le (avg : Int) : |shiftOf avg| ≤ 5000 := by
  rcases shiftOf_cases avg with same | ⟨_, same⟩ | ⟨_, same⟩
  · rw [same]
    decide
  · rw [same]
    decide
  · rw [same]
    decide

theorem abs_sum_le {offsets : List Int} {bound : Int}
    (bounded : forall offset, offset ∈ offsets -> |offset| ≤ bound) :
    |offsets.sum| ≤ offsets.length * bound := by
  induction offsets with
  | nil => simp
  | cons offset rest ih =>
      have head := bounded offset List.mem_cons_self
      have tail := ih fun other member => bounded other (List.mem_cons_of_mem _ member)
      rw [List.sum_cons, List.length_cons]
      calc |offset + rest.sum| ≤ |offset| + |rest.sum| := abs_add_le _ _
        _ ≤ bound + rest.length * bound := add_le_add head tail
        _ = (rest.length + 1 : Nat) * bound := by
            push_cast
            ring

/-- A batch does not move the base beyond what was sampled. -/
theorem closed_bounded {self : DriftTracer} {bound : Int} (based : |self.baseShiftUs| ≤ bound)
    {offsets : List Int} (full : offsets.length = 1000)
    (bounded : forall offset, offset ∈ offsets -> |offset| ≤ bound) :
    |(self.closed (offsets.sum - 1000 * self.baseShiftUs)).baseShiftUs| ≤ bound := by
  have sum := abs_sum_le bounded
  rw [full, abs_le] at sum
  rw [abs_le] at based ⊢
  have near := tdiv_near (offsets.sum - 1000 * self.baseShiftUs)
  rw [abs_lt] at near
  change -bound ≤ self.baseShiftUs + shiftOf _ ∧ self.baseShiftUs + shiftOf _ ≤ bound
  generalize (offsets.sum - 1000 * self.baseShiftUs).tdiv 1000 = avg at near
  push_cast at sum
  rcases shiftOf_cases avg with same | ⟨above, same⟩ | ⟨below, same⟩
  · rw [same]
    omega
  · rw [same]
    omega
  · rw [same]
    omega

/-! ### Whole runs -/

/-- Whole batches leave no batch open, and the base within what was sampled. -/
theorem run_batches {bound : Int} (batches : Nat) {self : DriftTracer} (fresh : self.Fresh)
    (based : |self.baseShiftUs| ≤ bound) {offsets : List Int}
    (whole : offsets.length = 1000 * batches)
    (bounded : forall offset, offset ∈ offsets -> |offset| ≤ bound) :
    (self.run offsets).Fresh ∧ |(self.run offsets).baseShiftUs| ≤ bound := by
  induction batches generalizing self offsets with
  | zero =>
      rw [List.length_eq_zero_iff.mp whole]
      exact ⟨fresh, based⟩
  | succ batches ih =>
      have full : (offsets.take 1000).length = 1000 := by
        rw [List.length_take]
        omega
      have rest : (offsets.drop 1000).length = 1000 * batches := by
        rw [List.length_drop]
        omega
      have first := run_batch fresh full
      have moved := closed_bounded based full fun offset member =>
        bounded offset (List.mem_of_mem_take member)
      rw [← List.take_append_drop 1000 offsets, run_append, first]
      exact ih ⟨rfl, rfl⟩ moved rest fun offset member =>
        bounded offset (List.mem_of_mem_drop member)

/-- The correction after a batch is the mean of its offsets, up to truncation and whatever
came before; it stays put inside a batch; and the base moves by at most five milliseconds
a batch and never beyond what was sampled.  With offsets below `2^52` the 64-bit sum does
not overflow. -/
theorem drift_memoryless (earlier batch : List Int) (whole : 1000 ∣ earlier.length)
    (short : batch.length ≤ 1000)
    (small : forall offset, offset ∈ earlier ++ batch -> |offset| < 2 ^ 52) :
    (batch.length < 1000 ->
      (run {} (earlier ++ batch)).correctionUs = (run {} earlier).correctionUs ∧
      (run {} (earlier ++ batch)).baseShiftUs = (run {} earlier).baseShiftUs ∧
      forall next : Int, |next| < 2 ^ 52 ->
        |(run {} (earlier ++ batch)).sumUs +
          (next - (run {} (earlier ++ batch)).baseShiftUs)| < 2 ^ 63) ∧
    (batch.length = 1000 ->
      |1000 * (run {} (earlier ++ batch)).correctionUs - batch.sum| < 1000 ∧
      |(run {} (earlier ++ batch)).baseShiftUs - (run {} earlier).baseShiftUs| ≤ 5000) ∧
    forall bound : Nat, (forall offset, offset ∈ earlier ++ batch -> |offset| ≤ bound) ->
      |(run {} (earlier ++ batch)).baseShiftUs| ≤ bound := by
  rcases whole with ⟨batches, whole⟩
  have started : forall bound : Int, 0 ≤ bound ->
      (forall offset, offset ∈ earlier -> |offset| ≤ bound) ->
      (run {} earlier).Fresh ∧ |(run {} earlier).baseShiftUs| ≤ bound :=
    fun bound positive bounded => run_batches batches ⟨rfl, rfl⟩ positive whole bounded
  rw [run_append]
  generalize run {} earlier = self at started
  refine ⟨?_, ?_, ?_⟩
  · intro inside
    have start := started (2 ^ 52 - 1) (by decide) fun offset member =>
      Int.le_sub_one_of_lt (small offset (List.mem_append_left _ member))
    rw [run_open self batch (by rw [start.1.2]; omega)]
    refine ⟨rfl, rfl, ?_⟩
    intro next fits
    have sum := abs_sum_le fun offset member =>
      Int.le_sub_one_of_lt (small offset (List.mem_append_right _ member))
    have based := start.2
    rw [abs_le] at sum based
    rw [abs_lt] at fits ⊢
    have count : (0 : Int) ≤ batch.length := Int.natCast_nonneg _
    have low := mul_le_mul_of_nonneg_left based.1 count
    have high := mul_le_mul_of_nonneg_left based.2 count
    rw [start.1.1]
    dsimp only
    generalize (batch.length : Int) * self.baseShiftUs = product at low high
    omega
  · intro full
    have start := started (2 ^ 52 - 1) (by decide) fun offset member =>
      Int.le_sub_one_of_lt (small offset (List.mem_append_left _ member))
    rw [run_batch start.1 full, closed_correctionUs]
    have near := tdiv_near (batch.sum - 1000 * self.baseShiftUs)
    have shift := abs_shiftOf_le ((batch.sum - 1000 * self.baseShiftUs).tdiv 1000)
    constructor
    · have same : 1000 * (self.baseShiftUs + (batch.sum - 1000 * self.baseShiftUs).tdiv 1000) -
          batch.sum = 1000 * (batch.sum - 1000 * self.baseShiftUs).tdiv 1000 -
            (batch.sum - 1000 * self.baseShiftUs) := by ring
      rw [same]
      exact near
    · change |self.baseShiftUs + shiftOf _ - self.baseShiftUs| ≤ 5000
      rw [add_sub_cancel_left]
      exact shift
  · intro bound bounded
    have start := started bound (Int.natCast_nonneg _) fun offset member =>
      bounded offset (List.mem_append_left _ member)
    rcases Nat.lt_or_eq_of_le short with inside | full
    · rw [run_open self batch (by rw [start.1.2]; omega)]
      exact start.2
    · rw [run_batch start.1 full]
      exact closed_bounded start.2 full fun offset member =>
        bounded offset (List.mem_append_right _ member)

/-- A batch of a constant offset of seven milliseconds, after a batch without any. -/
theorem drift_memoryless_constant :
    |1000 * (run {} (List.replicate 1000 0 ++ List.replicate 1000 7000)).correctionUs -
      (List.replicate 1000 7000).sum| < 1000 := by
  have small : forall offset, offset ∈ List.replicate 1000 (0 : Int) ++ List.replicate 1000 7000 ->
      |offset| < 2 ^ 52 := by
    intro offset member
    rcases List.mem_append.mp member with zero | constant
    · rw [List.eq_of_mem_replicate zero]
      decide
    · rw [List.eq_of_mem_replicate constant]
      decide
  exact ((drift_memoryless (List.replicate 1000 0) (List.replicate 1000 7000)
    (by rw [List.length_replicate]) (by rw [List.length_replicate]) small).2.1
    List.length_replicate).1

end DriftTracer

end Rsrt

import Rsrt.Packet.Types

namespace Rsrt

/-!
# Time base, timestamp extension and drift tracing

Instants and durations are counted in nanoseconds.  Instant zero is the earliest
instant the platform clock can represent, so a subtraction that would go below
it is exactly one that `Instant::checked_sub` refuses.  The subtraction of
naturals is the saturating difference that `duration_since` computes.
-/

abbrev Instant := Nat

abbrev Duration := Nat

namespace Duration

def fromMicros (us : Nat) : Duration := us * 1000

def fromMillis (ms : Nat) : Duration := ms * 1000000

def fromSecs (s : Nat) : Duration := s * 1000000000

/-- Whole microseconds, truncated. -/
def asMicros (d : Duration) : Nat := d / 1000

/-- Whole milliseconds, truncated. -/
def asMillis (d : Duration) : Nat := d / 1000000

/-- Whole seconds, truncated. -/
def asSecs (d : Duration) : Nat := d / 1000000000

/-- A positive timespan has elapsed exactly from its end on. -/
theorem elapsed_iff {d : Duration} {since now : Instant} (positive : 0 < d) :
    d ≤ now - since ↔ since + d ≤ now := by
  unfold Instant Duration at *
  omega

end Duration

namespace Instant

def saturatingDurationSince (now earlier : Instant) : Duration := now - earlier

def checkedSub (instant : Instant) (d : Duration) : Option Instant :=
  if d ≤ instant then some (instant - d) else none

end Instant

/-- Maps local instants to wire timestamps. -/
structure Timebase where
  start : Instant
deriving DecidableEq

/-- Microseconds since the start, truncated to 32 bits. -/
def Timebase.timestamp (base : Timebase) (now : Instant) : Timestamp :=
  ⟨UInt32.ofNat (Duration.asMicros (Instant.saturatingDurationSince now base.start))⟩

/-- Extends wrapping 32-bit timestamps onto an unbounded scale.  The anchor is
the local arrival instant and the extended value of the first timestamp. -/
structure TimestampExtender where
  anchor : Option (Instant × Nat) := none
deriving DecidableEq

/-- Signed shortest path from where the peer's clock should read now; the sum
saturates at zero. -/
def TimestampExtender.extend (self : TimestampExtender) (ts : Timestamp) (now : Instant) :
    TimestampExtender × Nat :=
  match self.anchor with
  | none => ({ anchor := some (now, ts.micros.toNat) }, ts.micros.toNat)
  | some (anchorInstant, anchorExt) =>
      let elapsed := Duration.asMicros (Instant.saturatingDurationSince now anchorInstant)
      let expected := anchorExt + elapsed
      let delta := (ts.micros - UInt32.ofNat expected).toInt32.toInt
      (self, ((expected : Int) + delta).toNat)

def tsbpdDriftMaxSamples : Nat := 1000

def tsbpdDriftMaxValueUs : Int := 5000

/-- TSBPD clock-drift tracer: batch sum and count, the residual drift and the
accumulated time-base shifts. -/
structure DriftTracer where
  sumUs : Int := 0
  samples : Nat := 0
  driftUs : Int := 0
  baseShiftUs : Int := 0
deriving DecidableEq

namespace DriftTracer

/-- Feeds one local-minus-peer offset, net of the shifts made so far.  The
result tells whether the sample completed a batch. -/
def sample (self : DriftTracer) (offsetUs : Int) : DriftTracer × Bool :=
  let sumUs := self.sumUs + (offsetUs - self.baseShiftUs)
  let samples := self.samples + 1
  if samples < tsbpdDriftMaxSamples then
    ({ self with sumUs := sumUs, samples := samples }, false)
  else
    let avg := sumUs.tdiv samples
    let shift :=
      if tsbpdDriftMaxValueUs < |avg| then
        max (-tsbpdDriftMaxValueUs) (min avg tsbpdDriftMaxValueUs)
      else 0
    ({ sumUs := 0
       samples := 0
       driftUs := avg - shift
       baseShiftUs := self.baseShiftUs + shift }, true)

/-- Net correction applied to every delivery deadline, in microseconds. -/
def correctionUs (self : DriftTracer) : Int := self.baseShiftUs + self.driftUs

end DriftTracer

end Rsrt

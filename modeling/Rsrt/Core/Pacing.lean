import Rsrt.Options

namespace Rsrt

/-!
# Send pacing

The send interval, the input-rate estimator behind `Bandwidth.estimated`, and the
schedule with its lateness credit.  Every event carries the caller's instant.

The source divides floating-point numbers and truncates the quotient to whole
microseconds.  Its numerator is an integer far below `2^53`, for which the
truncated quotient is the integer one.
-/

def bwInfinite : Nat := 125000000

def dataHdrSize : Nat := 44

def liveDefPayload : Nat := 1316

def inputrateFastStart : Duration := Duration.fromMillis 500

def inputrateRunning : Duration := Duration.fromSecs 1

def inputrateMaxPackets : Nat := 2000

/-- Saturating product of 64-bit numbers. -/
def saturatingMul (a b : Nat) : Nat := min (a * b) (2 ^ 64 - 1)

/-- Integer IIR smoother. -/
def avgIir (n old sample : Nat) : Nat := (old * (n - 1) + sample) / n

def withOverhead (base pct : Nat) : Nat := saturatingMul base (100 + pct) / 100

structure InputRateEstimator where
  period : Duration := inputrateFastStart
  windowStart : Option Instant := none
  pkts : Nat := 0
  bytes : Nat := 0
  /-- Rate of the last closed window. -/
  rate : Option Nat := none
deriving DecidableEq

namespace InputRateEstimator

def onInput (self : InputRateEstimator) (now : Instant) (payloadLen : Nat) : InputRateEstimator :=
  match self.windowStart with
  -- The first sample only stamps the window; its bytes are not counted.
  | none => { self with windowStart := some now }
  | some start =>
      let pkts := self.pkts + 1
      let bytes := self.bytes + payloadLen
      let early := self.period < inputrateRunning ∧ inputrateMaxPackets < pkts
      let elapsedUs := Duration.asMicros (Instant.saturatingDurationSince now start)
      if (early ∨ Duration.asMicros self.period < elapsedUs) ∧ 1 ≤ elapsedUs then
        let total := bytes + pkts * dataHdrSize
        { period := inputrateRunning
          windowStart := some now
          pkts := 0
          bytes := 0
          rate := some (saturatingMul total 1000000 / elapsedUs) }
      else { self with pkts := pkts, bytes := bytes }

def ceilingInput (self : InputRateEstimator) : Nat := self.rate.getD bwInfinite

end InputRateEstimator

inductive PacerMode
  /-- The ceiling is fixed at construction. -/
  | fixed
  /-- The ceiling is derived again from the estimator on every refresh. -/
  | estimated (est : InputRateEstimator) (min overheadPct : Nat)
deriving DecidableEq

structure Pacer where
  mode : PacerMode
  maxBw : Nat
  avgPayload : Nat
  period : Duration := 0
  /-- `none` is a disarmed gate: the next packet goes out immediately. -/
  nextSendTime : Option Instant := none
  credit : Duration := 0
deriving DecidableEq

namespace Pacer

def recomputePeriod (self : Pacer) : Pacer :=
  { self with
      period := Duration.fromMicros
        (1000000 * (self.avgPayload + dataHdrSize) / max self.maxBw 1) }

/-- An unlimited bandwidth has no pacer at all. -/
def new (bw : Bandwidth) (maxPayload : Nat) : Option Pacer :=
  let build (mode : PacerMode) (maxBw : Nat) : Pacer :=
    recomputePeriod { mode, maxBw, avgPayload := min liveDefPayload maxPayload }
  match bw with
  | .unlimited => none
  | .max bytesPerSec => some (build .fixed bytesPerSec)
  | .input bytesPerSec overheadPct => some (build .fixed (withOverhead bytesPerSec overheadPct))
  | .estimated minBytesPerSec overheadPct =>
      some (build (.estimated {} minBytesPerSec overheadPct) bwInfinite)

def onInput (self : Pacer) (now : Instant) (payloadLen : Nat) : Pacer :=
  match self.mode with
  | .estimated est min overheadPct =>
      { self with mode := .estimated (est.onInput now payloadLen) min overheadPct }
  | .fixed => self

/-- Derives the ceiling and the period again; a zero estimate keeps the previous
ceiling. -/
def refresh (self : Pacer) : Pacer :=
  match self.mode with
  | .estimated est min overheadPct =>
      let bw := withOverhead (max min est.ceilingInput) overheadPct
      recomputePeriod { self with maxBw := if 0 < bw then bw else self.maxBw }
  | .fixed => self.recomputePeriod

/-- The gate of a poll: a schedule in the future blocks, a past one accrues its
lateness as credit. -/
def gate (self : Pacer) (now : Instant) : Option Pacer :=
  match self.nextSendTime with
  | some t => if now < t then none else some { self with credit := self.credit + (now - t) }
  | none => some self

/-- A data packet was emitted.  After a probe the next send is due at once. -/
def onSend (self : Pacer) (now : Instant) (payloadLen : Nat) (probe : Bool) : Pacer :=
  let self := { self with avgPayload := avgIir 128 self.avgPayload payloadLen }
  if probe then { self with nextSendTime := some now }
  else if self.period ≤ self.credit then
    { self with nextSendTime := some now, credit := self.credit - self.period }
  else
    { self with nextSendTime := some (now + (self.period - self.credit)), credit := 0 }

/-- A due poll found nothing to send: credit never survives idle. -/
def onNothingToSend (self : Pacer) : Pacer :=
  { self with nextSendTime := none, credit := 0 }

def deadline (self : Pacer) : Option Instant := self.nextSendTime

end Pacer

end Rsrt

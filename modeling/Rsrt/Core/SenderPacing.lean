import Rsrt.Basis.Schedule
import Rsrt.Core.SenderPolling
import Rsrt.Core.SenderInvariant

namespace Rsrt

open Rsrt.Basis

/-!
# The pacing schedule

The schedule and the credit of a pacer move together: their difference is a virtual time
that a paced packet advances by the period in force, that a probe leaves where it is, and
that no other operation touches.  It bounds the rate over whole runs, across idle resets
and changes of the period.
-/

namespace Pacer

/-- The schedule less the credit, while the gate is armed. -/
def virtualTime (p : Pacer) : Option Int :=
  p.nextSendTime.map fun (t : Nat) => (t : Int) - (p.credit : Nat)

/-- Credit never survives idle. -/
def Settled (p : Pacer) : Prop := p.nextSendTime = none -> p.credit = 0

/-- A poll at this instant passes the gate. -/
def Due (p : Pacer) (now : Instant) : Prop := forall t, t ∈ p.nextSendTime -> t ≤ now

instance (p : Pacer) (now : Instant) : Decidable (p.Due now) :=
  inferInstanceAs (Decidable (forall t, t ∈ p.nextSendTime -> t ≤ now))

theorem new_disarmed {bw : Bandwidth} (limited : bw ≠ .unlimited) (maxPayload : Nat) :
    Exists fun p => new bw maxPayload = some p ∧ p.nextSendTime = none ∧ p.credit = 0 := by
  cases bw with
  | unlimited => exact absurd rfl limited
  | max bytesPerSec => exact ⟨_, rfl, rfl, rfl⟩
  | input bytesPerSec overheadPct => exact ⟨_, rfl, rfl, rfl⟩
  | estimated minBytesPerSec overheadPct => exact ⟨_, rfl, rfl, rfl⟩

variable {p opened : Pacer} {now : Instant}

theorem gate_eq_none (ahead : ¬p.Due now) : p.gate now = none := by
  unfold gate
  cases scheduled : p.nextSendTime with
  | none =>
      refine absurd ?_ ahead
      intro t member
      rw [scheduled] at member
      cases member
  | some t =>
      apply if_pos
      by_contra reached
      apply ahead
      intro t' member
      rw [scheduled] at member
      cases member
      exact not_lt.mp reached

/-- The gate of a due poll counts the lateness as credit. -/
theorem gate_eq_some (due : p.Due now) : Exists fun opened => p.gate now = some opened := by
  unfold gate
  cases scheduled : p.nextSendTime with
  | none => exact ⟨_, rfl⟩
  | some t => exact ⟨_, if_neg (not_lt.mpr (due t scheduled))⟩

/-- Behind the gate the virtual time is the present less the credit. -/
theorem gate_virtualTime (settled : p.Settled) (passed : p.gate now = some opened) :
    p.Due now ∧ opened.period = p.period ∧
      (now : Int) - (opened.credit : Nat) = p.virtualTime.getD now := by
  unfold gate at passed
  unfold Due virtualTime
  cases scheduled : p.nextSendTime with
  | none =>
      rw [scheduled] at passed
      cases passed
      refine ⟨fun t member => absurd member (Option.not_mem_none t), rfl, ?_⟩
      rw [settled scheduled]
      exact sub_zero _
  | some t =>
      rw [scheduled] at passed
      dsimp only at passed
      split_ifs at passed with ahead
      cases passed
      refine ⟨?_, rfl, ?_⟩
      · intro t' member
        cases member
        exact not_lt.mp ahead
      · have reached : t ≤ now := not_lt.mp ahead
        change (now : Int) - ((p.credit + (now - t) : Nat) : Int) = (t : Int) - (p.credit : Nat)
        rw [Nat.cast_add, Nat.cast_sub reached]
        ring

theorem virtualTime_le (due : p.Due now) (v : Int) (armed : v ∈ p.virtualTime) : v ≤ now := by
  rcases Option.map_eq_some_iff.mp armed with ⟨t, scheduled, rfl⟩
  have reached : (t : Int) ≤ (now : Nat) := Nat.cast_le.mpr (due t scheduled)
  omega

/-- A packet advances the virtual time by the period, a probe does not. -/
theorem onSend_virtualTime (p : Pacer) (now : Instant) (payloadLen : Nat) (probe : Bool) :
    (p.onSend now payloadLen probe).virtualTime =
        some ((now : Int) - (p.credit : Nat) + (if probe then 0 else p.period : Nat)) ∧
      (p.onSend now payloadLen probe).Settled := by
  unfold onSend virtualTime Settled
  dsimp only
  cases probe with
  | true =>
      rw [if_pos rfl, if_pos rfl]
      dsimp only [Option.map_some]
      rw [Nat.cast_zero, add_zero]
      exact ⟨rfl, fun nothing => absurd nothing (Option.some_ne_none _)⟩
  | false =>
      rw [if_neg Bool.false_ne_true, if_neg Bool.false_ne_true]
      split_ifs with enough
      · dsimp only [Option.map_some]
        rw [Nat.cast_sub enough, sub_sub_eq_add_sub, add_sub_right_comm]
        exact ⟨rfl, fun nothing => nothing.elim⟩
      · dsimp only [Option.map_some]
        rw [Nat.cast_add, Nat.cast_sub (Nat.le_of_not_le enough), Nat.cast_zero, sub_zero,
          add_sub_assoc', add_sub_right_comm]
        exact ⟨rfl, fun nothing => nothing.elim⟩

end Pacer

namespace Sender

/-! ## Calls that leave the schedule alone -/

/-- The schedule and the credit. -/
def pace (s : Sender) : Option (Option Instant × Duration) :=
  s.pacer.map fun p => (p.nextSendTime, p.credit)

theorem refresh_credit (p : Pacer) : p.refresh.credit = p.credit := by
  rcases p with ⟨mode, maxBw, avgPayload, period, nextSendTime, credit⟩
  cases mode <;> rfl

theorem refreshPacer_pace (s : Sender) : s.refreshPacer.pace = s.pace := by
  unfold pace refreshPacer
  dsimp only
  cases s.pacer with
  | none => rfl
  | some p =>
      rw [Option.map_some, Option.map_some, Option.map_some, refresh_nextSendTime, refresh_credit]

theorem feedPacer_pace (s : Sender) (now : Instant) (payloadLen : Nat) :
    (s.feedPacer now payloadLen).pace = s.pace := by
  unfold pace feedPacer
  dsimp only
  cases s.pacer with
  | none => rfl
  | some p =>
      rw [Option.map_some, Option.map_some, Option.map_some]
      unfold Pacer.onInput
      split <;> rfl

theorem checkTlpktdrop_pacer (s : Sender) (now : Instant) :
    (s.checkTlpktdrop now).pacer = s.pacer := by
  unfold checkTlpktdrop
  split_ifs <;> rfl

theorem dropWhile_pacer (full : Sender -> Bool) (fuel : Nat) (s : Sender) :
    (dropWhile full fuel s).pacer = s.pacer :=
  dropWhile_keeps (pacer · = s.pacer) (fun _ same => same) full fuel rfl

theorem makeRoom_pace (s : Sender) (now : Instant) (payloadLen : Nat) :
    (s.makeRoom now payloadLen).pace = s.pace := by
  have pacer : (s.makeRoom now payloadLen).pacer = (s.feedPacer now payloadLen).pacer := by
    unfold makeRoom withinCapacity
    dsimp only
    rw [dropWhile_pacer, dropWhile_pacer, checkTlpktdrop_pacer]
  rw [← feedPacer_pace s now payloadLen]
  unfold pace
  rw [pacer]

theorem submit_pace {P : Primitives} (s : Sender) (now : Instant) (payload : Bytes)
    (crypto : Option Crypto) : (s.submit P now payload crypto).pace = s.pace := by
  unfold submit
  split
  case h_1 next crypto' ok =>
    rcases push_ok ok with ⟨_, flags, wirePayload, rfl, _⟩
    exact makeRoom_pace s now payload.length
  · rfl

theorem handleAck_pace (s : Sender) (now : Instant) (ackNumber : Nat) (cif : AckCif) :
    (s.handleAck now ackNumber cif).1.pace = s.pace := by
  have released (ackExt : Int) : (s.release ackExt).pacer = s.pacer := by
    unfold release
    split_ifs <;> rfl
  have adopted (s : Sender) : (s.adoptRtt cif).pacer = s.pacer := by
    unfold adoptRtt
    split
    · split_ifs <;> rfl
    · rfl
  have replied (s : Sender) : (s.replyAckack now ackNumber).1.pacer = s.pacer := by
    unfold replyAckack
    split_ifs <;> rfl
  have credited (s : Sender) (ackExt : Int) : (s.consumeCredit ackExt).pacer = s.pacer := by
    unfold consumeCredit
    split_ifs <;> rfl
  have widened (s : Sender) (ackExt : Int) :
      (s.adoptWindow ackExt cif.availBufPkts).pacer = s.pacer := by
    unfold adoptWindow
    split_ifs <;> rfl
  unfold handleAck
  dsimp only
  split_ifs
  · rfl
  · unfold pace
    rw [credited, released]
  · rw [refreshPacer_pace]
    unfold pace
    rw [widened, replied, adopted, released]

theorem handleNak_pace (s : Sender) (now : Instant) (ranges : List LossRange) :
    (s.handleNak now ranges).pace = s.pace := by
  have one {t next : Sender} {range : LossRange} (accepted : t.nakRange range = some next) :
      next.pace = t.pace := by
    unfold nakRange at accepted
    dsimp only at accepted
    split_ifs at accepted <;> cases accepted <;> rfl
  unfold handleNak
  induction ranges generalizing s with
  | nil => exact refreshPacer_pace s
  | cons range rest ih =>
      unfold nakRanges
      cases accepted : s.nakRange range with
      | none => rfl
      | some next => exact (ih next).trans (one accepted)

theorem onTimer_pace (s : Sender) (now : Instant) : (s.onTimer now).pace = s.pace := by
  unfold onTimer
  rw [refreshPacer_pace]
  unfold pace
  rw [checkTlpktdrop_pacer]

/-! ## Polls -/

section Polls

variable {s : Sender} {now : Instant}

/-- The first packet of a probe pair: a new one, under every sixteenth sequence. -/
def probes (pkt : DataPacket) : Bool := !pkt.retransmitted && pkt.seq.value % 16 = 0

/-- What a due poll does to the pacer. -/
def Books (s : Sender) (now : Instant) (result : Sender × Option (Nat × DataPacket)) : Prop :=
  match result.2 with
  | some (_, pkt) =>
      result.1.pacer = s.pacer.map fun p => p.onSend now pkt.payload.length (probes pkt)
  | none => result.1.pacer = s.pacer.map Pacer.onNothingToSend

theorem retransmit_books {index : Nat} (above : s.baseIndex ≤ index)
    (below : index < s.baseIndex + s.buffer.length) (now : Instant) :
    s.Books now (s.retransmit now index) := by
  rcases retransmit_eq above below now with ⟨pkt, again, result⟩
  have paced : probes pkt = false := by
    unfold probes
    rw [again]
    rfl
  rw [result]
  unfold Books booked
  dsimp only
  rw [paced]

theorem transmitNew_books (placed : s.Placed) (now : Instant) :
    s.Books now (s.transmitNew now) := by
  unfold transmitNew
  split_ifs with room
  · rcases transmit_eq placed room.1 now with ⟨pkt, first, result⟩
    have probe : probes pkt = decide (pkt.seq.value % 16 = 0) := by
      unfold probes
      rw [first]
      rfl
    rw [result]
    unfold Books booked
    dsimp only
    rw [probe]
  · unfold Books
    rfl

theorem pollDue_books (placed : s.Placed) (now : Instant) : s.Books now (s.pollDue now) := by
  unfold pollDue
  split
  case h_1 index rest scanned =>
    have bounds := (nextLoss_due s now _ _ (congrArg Prod.fst scanned)).2
    exact @retransmit_books { s with lossList := rest } index bounds.1
      (lt_of_lt_of_le bounds.2 placed.2) now
  case h_2 rest scanned => exact @transmitNew_books { s with lossList := rest } placed now

/-- A gate in the future keeps the sender as it is. -/
theorem pollTransmitAt_ahead {p : Pacer} (paced : s.pacer = some p) (ahead : ¬p.Due now) :
    s.pollTransmitAt now = (s, none) := by
  have closed : s.gate now = none := by
    unfold gate
    rw [paced]
    exact Option.map_eq_none_iff.mpr (Pacer.gate_eq_none ahead)
  unfold pollTransmitAt
  rw [closed]

theorem pollTransmitAt_due (placed : s.Placed) {p : Pacer} (paced : s.pacer = some p)
    (due : p.Due now) :
    Exists fun opened => p.gate now = some opened ∧
      match (s.pollTransmitAt now).2 with
      | some (_, pkt) => (s.pollTransmitAt now).1.pacer =
          some (opened.onSend now pkt.payload.length (probes pkt))
      | none => (s.pollTransmitAt now).1.pacer = some opened.onNothingToSend := by
  rcases Pacer.gate_eq_some due with ⟨opened, passed⟩
  have unlocked : s.gate now = some { s with pacer := some opened } := by
    unfold gate
    rw [paced]
    exact congrArg (Option.map _) passed
  have books := @pollDue_books { s with pacer := some opened } placed now
  have result : s.pollTransmitAt now = { s with pacer := some opened }.pollDue now := by
    unfold pollTransmitAt
    rw [unlocked]
  rw [result]
  refine ⟨opened, passed, ?_⟩
  unfold Books at books
  split at books
  · exact books
  · exact books

end Polls

/-! ## The law -/

/-- What an emission is charged: the period in force, or nothing for a probe. -/
def charge (p : Pacer) (pkt : DataPacket) : Duration := if probes pkt then 0 else p.period

/-- What a call does to the virtual time.  An emission advances it by its charge, from the
present if the gate was disarmed; a due poll with nothing to send disarms the gate, no
earlier than the virtual time; and nothing else changes it. -/
def KeepsLaw (s : Sender) (p p' : Pacer) : Call -> Prop
  | .pollTransmit now =>
      match (s.pollTransmitAt now).2 with
      | some (_, pkt) => p.Due now ∧
          p'.virtualTime = some (p.virtualTime.getD (now : Nat) + (charge p pkt : Nat))
      | none =>
          if p.Due now then
            p'.virtualTime = none ∧ forall v, v ∈ p.virtualTime -> v ≤ (now : Nat)
          else p'.virtualTime = p.virtualTime
  | _ => p'.virtualTime = p.virtualTime

theorem pollTransmitAt_keepsLaw {s : Sender} (placed : s.Placed) {p : Pacer}
    (paced : s.pacer = some p) (settled : p.Settled) (now : Instant) :
    Exists fun p' => (s.pollTransmitAt now).1.pacer = some p' ∧ p'.Settled ∧
      KeepsLaw s p p' (.pollTransmit now) := by
  by_cases due : p.Due now
  · rcases pollTransmitAt_due placed paced due with ⟨opened, passed, booked⟩
    have opening := Pacer.gate_virtualTime settled passed
    cases found : (s.pollTransmitAt now).2 with
    | none =>
        rw [found] at booked
        refine ⟨_, booked, fun _ => rfl, ?_⟩
        unfold KeepsLaw
        dsimp only
        rw [found]
        dsimp only
        rw [if_pos due]
        exact ⟨rfl, Pacer.virtualTime_le due⟩
    | some emitted =>
        rcases emitted with ⟨index, pkt⟩
        rw [found] at booked
        have sent := opened.onSend_virtualTime now pkt.payload.length (probes pkt)
        refine ⟨_, booked, sent.2, ?_⟩
        unfold KeepsLaw charge
        dsimp only
        rw [found]
        refine ⟨due, ?_⟩
        rw [sent.1, opening.2.2, opening.2.1]
  · have closed := pollTransmitAt_ahead paced due
    refine ⟨p, ?_, settled, ?_⟩
    · rw [closed]
      exact paced
    · unfold KeepsLaw
      dsimp only
      rw [closed]
      dsimp only
      rw [if_neg due]

section Runs

variable {P : Primitives} {s : Session}

/-- A call that leaves the schedule alone. -/
theorem settled_of_pace {t t' : Sender} {p : Pacer} (paced : t.pacer = some p)
    (settled : p.Settled) (same : t'.pace = t.pace) :
    Exists fun p' => t'.pacer = some p' ∧ p'.Settled ∧ p'.virtualTime = p.virtualTime := by
  unfold pace at same
  rw [paced, Option.map_some] at same
  rcases Option.map_eq_some_iff.mp same with ⟨p', paced', fields⟩
  have schedule : p'.nextSendTime = p.nextSendTime := congrArg Prod.fst fields
  have credit : p'.credit = p.credit := congrArg Prod.snd fields
  refine ⟨p', paced', ?_, ?_⟩
  · unfold Pacer.Settled
    rw [schedule, credit]
    exact settled
  · unfold Pacer.virtualTime
    rw [schedule, credit]

theorem step_keepsLaw {w : SendWindow BufEntry} (tracked : s.Tracked w) {p : Pacer}
    (paced : s.sender.pacer = some p) (settled : p.Settled) (c : Call) :
    Exists fun p' => (s.step P c).sender.pacer = some p' ∧ p'.Settled ∧
      KeepsLaw s.sender p p' c := by
  cases c with
  | push now payload crypto =>
      exact settled_of_pace paced settled (submit_pace s.sender now payload crypto)
  | handleAck now ackNumber cif =>
      exact settled_of_pace paced settled (handleAck_pace s.sender now ackNumber cif)
  | handleNak now ranges =>
      exact settled_of_pace paced settled (handleNak_pace s.sender now ranges)
  | onTimer now => exact settled_of_pace paced settled (onTimer_pace s.sender now)
  | pollTransmit now => exact pollTransmitAt_keepsLaw tracked.tracks.placed paced settled now
  | pollControl => exact ⟨p, paced, settled, rfl⟩

/-- The charge for what a call emits. -/
def charged (s : Sender) : Call -> Option Charge
  | .pollTransmit now =>
      match s.pacer, (s.pollTransmitAt now).2 with
      | some p, some (_, pkt) => some ⟨now, charge p pkt⟩
      | _, _ => none
  | _ => none

/-- One charge for each emission of a history. -/
def charges (history : List ((Session × Instant) × Call)) : List Charge :=
  history.filterMap fun entry => charged entry.1.1.sender entry.2

theorem charges_append (history : List ((Session × Instant) × Call)) (s : Session)
    (clock : Instant) (c : Call) :
    charges (history ++ [((s, clock), c)]) = charges history ++ (charged s.sender c).toList := by
  unfold charges
  rw [List.filterMap_append]
  congr 1

/-- The law is the one of a schedule that charges its emissions. -/
theorem KeepsLaw.paces {t : Sender} {p p' : Pacer} (paced : t.pacer = some p) {c : Call}
    (law : KeepsLaw t p p' c) (clock : Instant) :
    Paces (c.instant.getD clock) p.virtualTime p'.virtualTime (charged t c) := by
  have still (same : p'.virtualTime = p.virtualTime) (instant : Nat) :
      Paces instant p.virtualTime p'.virtualTime none := by
    rw [same]
    exact .idle
  cases c with
  | push now payload crypto => exact still law now
  | handleAck now ackNumber cif => exact still law now
  | handleNak now ranges => exact still law now
  | onTimer now => exact still law now
  | pollControl => exact still law clock
  | pollTransmit now =>
      change Paces now p.virtualTime p'.virtualTime _
      unfold KeepsLaw at law
      dsimp only at law
      unfold charged
      dsimp only
      rw [paced]
      cases found : (t.pollTransmitAt now).2 with
      | some emitted =>
          rw [found] at law
          rcases law with ⟨due, law⟩
          rw [law]
          exact .emit _ (Pacer.virtualTime_le due)
      | none =>
          rw [found] at law
          dsimp only at law
          split_ifs at law with due
          · rw [law.1]
            exact .disarm law.2
          · exact still law now

/-- A run of a paced sender: the pacer is settled and the ledger of its charges is right. -/
structure OnSchedule (history : List ((Session × Instant) × Call)) (s : Session)
    (clock : Instant) (p : Pacer) : Prop where
  paced : s.sender.pacer = some p
  settled : p.Settled
  ledger : Ledger clock p.virtualTime (charges history)

theorem OnSchedule.step {history : List ((Session × Instant) × Call)} {clock : Instant}
    {p : Pacer} {w : SendWindow BufEntry} (tracked : s.Tracked w)
    (schedule : OnSchedule history s clock p) {c : Call}
    (allowed : (timedMachine P).guard (s, clock) c) :
    Exists fun p' => OnSchedule (history ++ [((s, clock), c)]) (s.step P c)
      (c.instant.getD clock) p' := by
  rcases step_keepsLaw (P := P) tracked schedule.paced schedule.settled c with
    ⟨p', paced, settled, law⟩
  have passed : clock ≤ c.instant.getD clock := by
    cases timed : c.instant with
    | none => exact le_refl clock
    | some now => exact allowed.2 now timed
  refine ⟨p', paced, settled, ?_⟩
  rw [charges_append]
  exact (schedule.ledger.later passed).paces (law.paces schedule.paced clock)

theorem timed_schedule {history : List ((Session × Instant) × Call)} {clock : Instant}
    (run : (timedMachine P).Run history (s, clock)) :
    (Exists fun w => s.Tracked w) ∧
      (s.sender.cfg.bandwidth ≠ .unlimited -> Exists fun p => OnSchedule history s clock p) := by
  refine run.induct (fun history state => (Exists fun w => state.1.Tracked w) ∧
    (state.1.sender.cfg.bandwidth ≠ .unlimited ->
      Exists fun p => OnSchedule history state.1 state.2 p)) ?_ ?_
  · rintro ⟨s, clock⟩ ⟨⟨cfg, started⟩, began⟩
    cases started
    refine ⟨reachable_tracked ⟨_, .start (start_new P cfg)⟩, ?_⟩
    intro limited
    rcases Pacer.new_disarmed limited cfg.maxPayload with ⟨p, built, disarmed, credit⟩
    refine ⟨p, built, fun _ => credit, ?_⟩
    have unarmed : p.virtualTime = none := by
      unfold Pacer.virtualTime
      rw [disarmed, Option.map_none]
    rw [unarmed]
    exact Ledger.empty clock
  · rintro history ⟨s, clock⟩ c _ ⟨⟨w, tracked⟩, schedule⟩ allowed
    refine ⟨tracked.step c, ?_⟩
    intro limited
    change (s.step P c).sender.cfg.bandwidth ≠ .unlimited at limited
    rw [step_cfg] at limited
    rcases schedule limited with ⟨p, schedule⟩
    exact schedule.step tracked allowed

/-- The schedule of a paced sender whose clock does not go back: every call keeps the law of
the virtual time, and every emission is at least as far from the first one as the charges
before it add up to. -/
theorem pacing_schedule {history : List ((Session × Instant) × Call)} {clock : Instant}
    (run : (timedMachine P).Run history (s, clock))
    (limited : s.sender.cfg.bandwidth ≠ .unlimited) :
    (forall c, Exists fun p => Exists fun p' => s.sender.pacer = some p ∧
        (s.step P c).sender.pacer = some p' ∧ KeepsLaw s.sender p p' c) ∧
      forall first k charge, (charges history).head? = some first ->
        (charges history)[k]? = some charge ->
        first.time + Charge.total ((charges history).take k) ≤ charge.time := by
  rcases timed_schedule run with ⟨⟨w, tracked⟩, scheduled⟩
  rcases scheduled limited with ⟨p, schedule⟩
  constructor
  · intro c
    rcases step_keepsLaw (P := P) tracked schedule.paced schedule.settled c with
      ⟨p', paced, _, law⟩
    exact ⟨p, p', schedule.paced, paced, law⟩
  · intro first k charge started found
    exact schedule.ledger.spaced first started k charge found

end Runs

/-- A sender at 1360 bytes per second: a packet of the default size takes a second. -/
def slowConfig : SenderConfig :=
  { liveConfig 15 with sndLatency := Duration.fromSecs 100, bandwidth := .max 1360 }

/-- A late poll, a probe that lets its successor out at once, and a poll too early. -/
def slowCalls : List Call :=
  [.push 0 [1] none, .push 0 [2] none, .push 0 [3] none, .push 0 [4] none, .pollTransmit 0,
    .pollTransmit (Duration.fromMillis 1500), .pollTransmit (Duration.fromMillis 1500),
    .pollTransmit (Duration.fromMillis 1600), .pollTransmit (Duration.fromMillis 2000)]

def slowHistory : List ((Session × Instant) × Call) :=
  (timedMachine .sample).trace ({ sender := Sender.new slowConfig }, 0) slowCalls

theorem pacing_schedule_slowCalls :
    (charges slowHistory).map Charge.time =
        [0, Duration.fromMillis 1500, Duration.fromMillis 1500, Duration.fromMillis 2000] ∧
      forall first k charge, (charges slowHistory).head? = some first ->
        (charges slowHistory)[k]? = some charge ->
        first.time + Charge.total ((charges slowHistory).take k) ≤ charge.time := by
  have run := Machine.run_exec (timedMachine_start .sample slowConfig)
    (by decide +kernel : (timedMachine .sample).Allowed _ slowCalls)
  exact ⟨by decide +kernel, (pacing_schedule run (by decide +kernel)).2⟩

end Sender

end Rsrt

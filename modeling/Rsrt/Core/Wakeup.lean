import Rsrt.Core.ConnectionPolling

namespace Rsrt

open Rsrt.Basis

/-!
# No missed wake-up

The driver drains a connection, asks it for its next deadline and sleeps.  Until that
deadline nothing happens by itself: the timers and the polls of any earlier instant
change nothing that is visible from outside.
-/

/-- Spent components say nothing before their deadlines, also after the timers have run. -/
theorem Stack.Spent.silent {stack : Stack} {now t : Instant} (spent : stack.Spent now)
    (sent : forall deadline, stack.sender.nextDeadline = some deadline -> t < deadline)
    (acks : t < stack.receiver.nextFullAck)
    (naks : stack.receiver.loss ≠ [] -> t < stack.receiver.nextNakTime) :
    (Stack.poll ⟨stack.sender.onTimer t, stack.receiver.onTimer t, stack.crypto⟩ t).2 = none := by
  rcases Receiver.onTimer_of_ahead acks naks with ⟨nextNakTime, rolled⟩
  have heard : (stack.receiver.onTimer t).controlQ = [] := by
    rw [rolled]
    exact spent.heard
  have said : (stack.sender.onTimer t).controlQueue = [] := by
    rw [Sender.onTimer_of_timely ((Sender.nextDeadline_ahead _ t).mp sent).1]
    exact spent.said
  rw [Stack.poll_of_silent heard said]
  exact Option.map_eq_none_iff.mpr (spent.sent.silent sent)

namespace Connection

variable {P : Primitives} {c : Connection} {now t : Instant}

/-! ## Time -/

/-- The instant of a call; the anchor of the receiver's time base is not one. -/
def Input.instant : Input -> Option Instant
  | .datagram now _ _ => some now
  | .timer now => some now
  | .send now _ => some now
  | .close now => some now
  | .setHsAnchor _ _ => none
  | .pollTransmit now => some now
  | .pollDeliver now => some now

/-- Runs in which time does not go back, from the instant of creation on. -/
def timedMachine (P : Primitives) : Machine (Session × Instant) Input :=
  (machine P).timed (fun s => s.conn.lastSent) Input.instant

instance (s : Session × Instant) (input : Input) : Decidable ((timedMachine P).guard s input) :=
  Machine.decidableTimed (machine P) (fun s => s.conn.lastSent) Input.instant s input

/-- Data is dated by the call that brings it. -/
def Dated (now : Instant) (c c' : Connection) : Prop :=
  c'.lastData = c.lastData ∨ c'.lastData = now

theorem closeWith_lastData (c : Connection) (now : Instant) (reason : CloseReason)
    (sendShutdown : Bool) : (c.closeWith now reason sendShutdown).lastData = c.lastData := by
  unfold closeWith
  split
  · rfl
  · split_ifs <;> rfl

theorem handleDataPacket_dated (c : Connection) (now : Instant) (data : DataPacket) :
    Dated now c (c.handleDataPacket P now data) := by
  unfold handleDataPacket
  split
  · exact Or.inr rfl
  · dsimp only
    split_ifs
    · exact Or.inr (closeWith_lastData _ _ _ _)
    · exact Or.inr rfl
  · exact Or.inl rfl

theorem establish_dated (c : Connection) (now : Instant) (hsTs : Timestamp)
    (negotiated : Negotiated) : Dated now c (c.establish P now hsTs negotiated) := by
  unfold establish
  split
  · exact Or.inr rfl
  · exact Or.inl rfl

theorem handleHandshakePacket_dated (c : Connection) (now : Instant) (hsTs : Timestamp)
    (cif : HandshakeCif) (draw : Draw) :
    Dated now c (c.handleHandshakePacket P now hsTs cif draw) := by
  unfold handleHandshakePacket
  split
  · split
    · exact establish_dated { c with state := _ } now hsTs _
    · exact Or.inl rfl
    · exact Or.inl (closeWith_lastData _ _ _ _)
  · split_ifs
    · exact Or.inl rfl
    · exact Or.inl rfl
  · exact Or.inl rfl

theorem handleTransmissionControl_lastData (c : Connection) (now : Instant) (ts : Timestamp)
    (message : ControlType) (fresh : SecretKey) :
    (c.handleTransmissionControl P now ts message fresh).lastData = c.lastData := by
  unfold handleTransmissionControl
  split
  · split
    · unfold handleAck
      split
      · rfl
      · exact closeWith_lastData _ _ _ _
    · unfold handleNak
      dsimp only
      split_ifs
      · exact closeWith_lastData _ _ _ _
      · rfl
    · rfl
    · rfl
    · rfl
  · rfl

theorem handleControlPacket_dated (c : Connection) (now : Instant) (packet : ControlPacket)
    (draw : Draw) : Dated now c (c.handleControlPacket P now packet draw) := by
  unfold handleControlPacket
  split
  · exact handleHandshakePacket_dated c now _ _ draw
  · exact Or.inl (closeWith_lastData _ _ _ _)
  · exact Or.inl rfl
  · exact Or.inl rfl
  · exact Or.inl rfl
  · unfold handleKmreq
    split
    · split
      · exact Or.inl rfl
      · exact Or.inl rfl
    · exact Or.inl rfl
  · unfold handleKmrsp
    split
    · exact Or.inl rfl
    · exact Or.inl rfl
  · exact Or.inl (handleTransmissionControl_lastData c now _ _ _)

theorem handlePacket_dated (c : Connection) (now : Instant) (packet : Packet) (draw : Draw) :
    Dated now c (c.handlePacket P now packet draw) := by
  unfold handlePacket
  split
  · exact Or.inl rfl
  · split_ifs
    · exact Or.inl rfl
    · cases packet with
      | data data => exact handleDataPacket_dated (c.touch now) now data
      | control packet => exact handleControlPacket_dated (c.touch now) now packet draw

theorem handleTimer_lastData (c : Connection) (now : Instant) :
    (c.handleTimer now).lastData = c.lastData := by
  rcases state : c.state with ⟨hs, pendingSend, earlyData⟩ | ⟨sender, receiver, crypto⟩ |
    ⟨reason, kept⟩
  · unfold handleTimer
    rw [state]
    dsimp only
    split_ifs
    · exact closeWith_lastData c now .connectTimeout false
    · rfl
  · have ticks := @handleTimer_ticks c { sender, receiver, crypto } state now
    generalize c.handleTimer now = next at ticks ⊢
    cases ticks with
    | closes expCount reason => exact closeWith_lastData (c.ticked _ now expCount) now reason true
    | speaks expCount => rfl
    | rests expCount => rfl
  · unfold handleTimer
    rw [state]

theorem send_lastData {now : Instant} {payload : Bytes} {next : Connection}
    (accepted : c.send P now payload = .ok next) : next.lastData = c.lastData := by
  unfold send at accepted
  split at accepted
  · split_ifs at accepted
    all_goals
      cases accepted
      rfl
  · split at accepted
    · cases accepted
      rfl
    · cases accepted
  · cases accepted

theorem pollTransmit_lastData (c : Connection) (now : Instant) :
    (c.pollTransmit now).1.lastData = c.lastData := by
  have polled : (c.nextTransmitAt now).1.lastData = c.lastData := by
    unfold nextTransmitAt
    repeat' split
    all_goals rfl
  unfold pollTransmit pollTransmitAt
  dsimp only
  split
  case h_1 evaluated =>
    rw [evaluated] at polled
    exact polled
  case h_2 evaluated =>
    rw [evaluated] at polled
    exact polled

theorem pollDeliver_lastData (c : Connection) (now : Instant) :
    (c.pollDeliver now).1.lastData = c.lastData := by
  unfold pollDeliver
  split <;> rfl

/-- No call dates the data later than itself. -/
theorem handle_lastData (c : Connection) (input : Input) :
    (c.handle P input).lastData = c.lastData ∨
      input.instant = some (c.handle P input).lastData := by
  cases input with
  | datagram now datagram draw =>
      cases datagram with
      | packet packet =>
          rcases handlePacket_dated (P := P) c now packet draw with same | dated
          · exact Or.inl same
          · exact Or.inr (congrArg some dated.symm)
      | unknownControlType => exact Or.inl rfl
      | undecodable => exact Or.inl rfl
  | timer now => exact Or.inl (handleTimer_lastData c now)
  | send now payload =>
      apply Or.inl
      unfold handle
      dsimp only
      split
      case h_1 accepted => exact send_lastData accepted
      case h_2 => rfl
  | close now => exact Or.inl (closeWith_lastData _ _ _ _)
  | setHsAnchor instant ts =>
      apply Or.inl
      change (c.setHsAnchor instant ts).lastData = _
      unfold setHsAnchor
      split <;> rfl
  | pollTransmit now => exact Or.inl (pollTransmit_lastData c now)
  | pollDeliver now => exact Or.inl (pollDeliver_lastData c now)

/-- What holds in every run on a clock: the components are ready, and no data is dated in
the future. -/
theorem timed_run {history : List ((Session × Instant) × Input)} {s : Session} {clock : Instant}
    (run : (timedMachine P).Run history (s, clock)) :
    s.conn.Ready P ∧ s.conn.lastData ≤ clock := by
  refine run.invariant (fun (s, clock) => s.conn.Ready P ∧ s.conn.lastData ≤ clock) ?_ ?_
  · rintro ⟨s, clock⟩ ⟨opening, rfl⟩
    refine ⟨opening.ready, ?_⟩
    cases opening with
    | caller => exact le_refl _
    | listener => exact le_refl _
  · rintro ⟨s, clock⟩ input ⟨ready, dated⟩ ⟨_, later⟩
    refine ⟨ready.handle input, ?_⟩
    change (s.conn.handle P input).lastData ≤ input.instant.getD clock
    rcases handle_lastData (P := P) s.conn input with same | brought
    · rw [same]
      cases timed : input.instant with
      | none => exact dated
      | some instant => exact le_trans dated (later instant timed)
    · rw [brought]
      exact le_refl _

/-! ## Deadlines -/

/-- A deadline with an optional earlier one lies ahead exactly if both do. -/
theorem lt_getD_min {t deadline : Instant} {other : Option Instant} :
    t < (other.map (min deadline)).getD deadline ↔
      t < deadline ∧ forall earlier, other = some earlier -> t < earlier := by
  cases other with
  | none => exact ⟨fun ahead => ⟨ahead, fun _ found => by cases found⟩, And.left⟩
  | some earlier =>
      rw [Option.map_some, Option.getD_some, lt_min_iff]
      constructor
      · rintro ⟨ahead, before⟩
        refine ⟨ahead, fun _ found => ?_⟩
        cases found
        exact before
      · rintro ⟨ahead, before⟩
        exact ⟨ahead, before earlier rfl⟩

/-- The deadline of an established connection lies ahead exactly if every timer does. -/
theorem nextDeadline_established {stack : Stack}
    (is : c.state = .established stack.sender stack.receiver stack.crypto)
    (queue : c.transmitQ = []) (now t : Instant) :
    (forall deadline, c.nextDeadline now = some deadline -> t < deadline) ↔
      t < stack.receiver.nextDeadline now ∧
        (forall deadline, stack.sender.nextDeadline = some deadline -> t < deadline) ∧
        t < c.lastSent + keepaliveInterval ∧
        t < expDeadline c.lastRecv c.expCount stack.receiver.rtt.1 stack.receiver.rtt.2 ∧
        forall window, c.opts.dataIdleTimeout = some window -> t < c.lastData + window := by
  have idle (deadline : Instant) :
      t < (c.opts.dataIdleTimeout.map fun window => min deadline (c.lastData + window)).getD deadline ↔
        t < deadline ∧
          forall window, c.opts.dataIdleTimeout = some window -> t < c.lastData + window := by
    have ahead := @lt_getD_min t deadline (c.opts.dataIdleTimeout.map (c.lastData + ·))
    rw [Option.map_map] at ahead
    refine ahead.trans (and_congr_right fun _ => ?_)
    constructor
    · intro before window found
      exact before _ (by rw [found, Option.map_some])
    · intro before earlier found
      rcases Option.map_eq_some_iff.mp found with ⟨window, present, rfl⟩
      exact before window present
  unfold nextDeadline
  rw [if_neg (not_not.mpr queue), is]
  dsimp only
  have named (deadline : Instant) :
      (forall earlier, some deadline = some earlier -> t < earlier) ↔ t < deadline :=
    ⟨fun ahead => ahead deadline rfl, fun ahead _ found => Option.some.inj found ▸ ahead⟩
  rw [named, idle, lt_min_iff, lt_min_iff, lt_getD_min, and_assoc, and_assoc, and_assoc]

/-- Before every deadline the timers of an established connection do nothing visible. -/
theorem handleTimer_of_ahead {stack : Stack}
    (is : c.state = .established stack.sender stack.receiver stack.crypto)
    (queue : c.transmitQ = []) (later : now ≤ t) (dated : c.lastData ≤ t)
    (ahead : forall deadline, c.nextDeadline now = some deadline -> t < deadline) :
    c.handleTimer t =
      { c with
          state := .established (stack.sender.onTimer t) (stack.receiver.onTimer t)
            stack.crypto } := by
  rcases (nextDeadline_established is queue now t).mp ahead with
    ⟨received, sent, kept, unexpired, fresh⟩
  rcases (Receiver.nextDeadline_ahead later).mp received with ⟨acks, naks, _⟩
  rcases Receiver.onTimer_of_ahead acks naks with ⟨nextNakTime, rolled⟩
  have rtt : (stack.receiver.onTimer t).rtt = stack.receiver.rtt := by
    rw [rolled]
    rfl
  have active : c.dataIdle t = false := by
    unfold dataIdle
    cases idle : c.opts.dataIdleTimeout with
    | none => rfl
    | some window =>
        exact decide_eq_false (not_le.mpr (Nat.sub_lt_left_of_lt_add dated (fresh window idle)))
  have talking : ¬keepaliveInterval ≤ t - c.lastSent := by
    rw [Duration.elapsed_iff (by decide)]
    exact not_le.mpr kept
  unfold handleTimer
  rw [is]
  dsimp only
  rw [rtt, active, decide_eq_false (not_le.mpr unexpired), if_neg talking]
  rfl

/-- Nothing happens to a drained connection before its deadline. -/
structure Silent (c : Connection) (t : Instant) : Prop where
  connState : (c.handleTimer t).connState = c.connState
  transmits : ((c.handleTimer t).pollTransmit t).2 = none
  delivers : (c.handleTimer t).state.DeliverSpent t

theorem silent_established {stack : Stack}
    (is : c.state = .established stack.sender stack.receiver stack.crypto)
    (drained : c.Drained now) (later : now ≤ t) (dated : c.lastData ≤ t)
    (ahead : forall deadline, c.nextDeadline now = some deadline -> t < deadline) :
    c.Silent t := by
  have timer := handleTimer_of_ahead is drained.queue later dated ahead
  have spent := drained.transmit
  rw [is] at spent
  rcases (nextDeadline_established is drained.queue now t).mp ahead with ⟨received, sent, _⟩
  rcases (Receiver.nextDeadline_ahead later).mp received with ⟨acks, naks, early⟩
  refine ⟨?_, ?_, ?_⟩
  · rw [timer]
    unfold connState
    rw [is]
    rfl
  · apply pollTransmit_of_none
    rw [@nextTransmitAt_established _
      ⟨stack.sender.onTimer t, stack.receiver.onTimer t, stack.crypto⟩
      (congrArg Connection.state timer) ((congrArg Connection.transmitQ timer).trans drained.queue) t]
    exact spent.silent sent acks naks
  · rw [timer]
    rcases Receiver.onTimer_of_ahead acks naks with ⟨nextNakTime, rolled⟩
    rw [rolled]
    exact early

theorem silent_connecting {hs : CallerHandshake} {pendingSend : List Bytes}
    {earlyData : List (Instant × DataPacket)}
    (is : c.state = .connecting hs pendingSend earlyData) (queue : c.transmitQ = [])
    (ahead : forall deadline, c.nextDeadline now = some deadline -> t < deadline) :
    c.Silent t := by
  have waits : hs.requesting -> t < hs.nextSend ∧ t < hs.deadline := by
    intro requesting
    rw [← lt_min_iff]
    apply ahead
    unfold nextDeadline CallerHandshake.nextDeadline
    rw [if_neg (not_not.mpr queue), is]
    exact if_pos requesting
  have timer : c.handleTimer t = c := by
    have running : hs.isTimedOut t = false := by
      unfold CallerHandshake.isTimedOut
      cases requesting : hs.requesting with
      | false => rfl
      | true => exact decide_eq_false (not_le.mpr (waits requesting).2)
    unfold handleTimer
    rw [is]
    dsimp only
    rw [running]
    rfl
  refine ⟨congrArg connState timer, ?_, ?_⟩
  · rw [timer]
    apply pollTransmit_of_none
    rw [nextTransmitAt_connecting queue is]
    apply Option.map_eq_none_iff.mpr
    unfold CallerHandshake.pollTransmit
    cases made : hs.request with
    | none => rfl
    | some cif =>
        have requesting : hs.requesting := by
          rw [← hs.request_isSome, made]
          rfl
        dsimp only
        rw [if_pos (Or.inr (waits requesting).1)]
  · rw [timer, is]
    exact trivial

theorem pollDeliver_of_spent (spent : c.state.DeliverSpent t) : (c.pollDeliver t).2 = none := by
  unfold pollDeliver
  rcases state : c.state with ⟨hs, pendingSend, earlyData⟩ | ⟨sender, receiver, crypto⟩ |
    ⟨reason, _ | receiver⟩
  · rfl
  · rw [state] at spent
    exact Receiver.pollDeliver_of_nothingDue spent
  · rfl
  · rw [state] at spent
    exact Receiver.pollDeliver_of_nothingDue spent

theorem pollDeliver_connState (c : Connection) (now : Instant) :
    (c.pollDeliver now).1.connState = c.connState := by
  unfold pollDeliver connState
  rcases state : c.state with ⟨hs, pendingSend, earlyData⟩ | ⟨sender, receiver, crypto⟩ |
    ⟨reason, _ | receiver⟩
  · dsimp only
    rw [state]
  · rfl
  · dsimp only
    rw [state]
  · rfl

theorem pollTransmit_connState (c : Connection) (now : Instant) :
    (c.pollTransmit now).1.connState = c.connState := by
  unfold connState
  rw [pollTransmit_state]
  cases queue : c.transmitQ with
  | cons head rest => rw [nextTransmitAt_cons queue]
  | nil =>
      rcases state : c.state with ⟨hs, pendingSend, earlyData⟩ | ⟨sender, receiver, crypto⟩ |
        ⟨reason, kept⟩
      · rw [nextTransmitAt_connecting queue state]
        rfl
      · rw [@nextTransmitAt_established c { sender, receiver, crypto } state queue now]
        rfl
      · rw [nextTransmitAt_closed queue state, state]

/-- What both polls keep is kept by draining. -/
theorem DrainsBoth.keeps {β : Type} (project : Connection -> β)
    (transmit : forall x, project (pollTransmit x now).1 = project x)
    (deliver : forall x, project (pollDeliver x now).1 = project x) {final : Connection}
    (both : DrainsBoth now c final) : project final = project c := by
  let same (x : Connection) : Prop := project x = project c
  have transmitting : forall x, same x -> same (x.pollTransmit now).1 := fun x => (transmit x).trans
  have delivering : forall x, same x -> same (x.pollDeliver now).1 := fun x => (deliver x).trans
  rcases both with ⟨packets, middle, payloads, transmits, delivers⟩ |
    ⟨payloads, middle, packets, delivers, transmits⟩
  · exact delivers.invariant same delivering (transmits.invariant same transmitting rfl)
  · exact transmits.invariant same transmitting (delivers.invariant same delivering rfl)

/-- A connection that has been drained and is not closed stays silent until its deadline:
at every earlier instant the timers and both drains produce nothing, and the public state
stays. -/
theorem no_missed_wakeup {history : List ((Session × Instant) × Input)} {s : Session}
    {clock : Instant} (run : (timedMachine P).Run history (s, clock)) (later : clock ≤ now)
    (unclosed : forall reason, s.conn.connState ≠ .closed reason) {final : Connection}
    (drains : DrainsBoth now s.conn final) (between : now ≤ t)
    (ahead : forall deadline, final.nextDeadline now = some deadline -> t < deadline) :
    Exists fun unsent => Exists fun undelivered =>
      Drains (fun c => c.pollTransmit t) (final.handleTimer t) [] unsent ∧
        Drains (fun c => c.pollDeliver t) unsent [] undelivered ∧
        (final.handleTimer t).connState = final.connState ∧
        undelivered.connState = final.connState := by
  rcases timed_run run with ⟨ready, dated⟩
  rcases drains.drained ready with ⟨_, drained⟩
  rw [← drains.keeps connState (pollTransmit_connState · now) (pollDeliver_connState · now)]
    at unclosed
  rw [← drains.keeps lastData (pollTransmit_lastData · now) (pollDeliver_lastData · now)] at dated
  have silent : final.Silent t := by
    rcases state : final.state with ⟨hs, pendingSend, earlyData⟩ | ⟨sender, receiver, crypto⟩ |
      ⟨reason, kept⟩
    · exact silent_connecting state drained.queue ahead
    · exact @silent_established final now t { sender, receiver, crypto } state drained between
        (le_trans dated (le_trans later between)) ahead
    · refine absurd ?_ (unclosed reason)
      unfold connState
      rw [state]
      rfl
  have undue := pollTransmit_keeps (final.handleTimer t) t silent.delivers
  refine ⟨_, _, .done silent.transmits, .done (pollDeliver_of_spent undue), silent.connState, ?_⟩
  exact (pollDeliver_connState _ t).trans ((pollTransmit_connState _ t).trans silent.connState)

/-- The sample caller once it is established, with the clock. -/
def sampleEstablished : Session × Instant :=
  (timedMachine .sample).exec (sampleCaller, 0) sampleResponses

/-- The same, drained. -/
def sampleDrained : Connection :=
  ((sampleEstablished.1.conn.pollTransmit 5000).1.pollDeliver 5000).1

/-- An established caller wakes up for its next full ACK, and not a nanosecond before. -/
theorem no_missed_wakeup_sample :
    sampleDrained.connState = .established ∧
      sampleDrained.nextDeadline 5000 = some 10003000 ∧
      Exists fun unsent => Exists fun undelivered =>
        Drains (fun c => c.pollTransmit 10002999) (sampleDrained.handleTimer 10002999) [] unsent ∧
          Drains (fun c => c.pollDeliver 10002999) unsent [] undelivered ∧
          undelivered.connState = .established := by
  have run := Machine.run_exec (M := timedMachine .sample) ⟨sampleCaller_opening, rfl⟩
    (by decide +kernel : (timedMachine .sample).Allowed (sampleCaller, 0) sampleResponses)
  have earlier : sampleEstablished.2 ≤ 5000 := by decide +kernel
  have established : sampleEstablished.1.conn.connState = .established := by decide +kernel
  have unsent : (sampleEstablished.1.conn.pollTransmit 5000).2 = none := by decide +kernel
  have undelivered : ((sampleEstablished.1.conn.pollTransmit 5000).1.pollDeliver 5000).2 = none := by
    decide +kernel
  have still : sampleDrained.connState = .established := by decide +kernel
  have deadline : sampleDrained.nextDeadline 5000 = some 10003000 := by decide +kernel
  change (timedMachine .sample).Run _ sampleEstablished at run
  unfold sampleDrained at still deadline ⊢
  -- The state is large, so only these facts about it are used from here on.
  generalize sampleEstablished = reached
    at run earlier established unsent undelivered still deadline ⊢
  rcases reached with ⟨session, clock⟩
  have drains : DrainsBoth 5000 session.conn ((session.conn.pollTransmit 5000).1.pollDeliver 5000).1 :=
    Or.inl ⟨[], _, [], .done unsent, .done undelivered⟩
  have unclosed (reason : CloseReason) : session.conn.connState ≠ .closed reason := by
    intro closed
    rw [established] at closed
    cases closed
  have ahead (wake : Instant)
      (named : ((session.conn.pollTransmit 5000).1.pollDeliver 5000).1.nextDeadline 5000 = some wake) :
      10002999 < wake := by
    rw [deadline] at named
    cases named
    decide
  rcases no_missed_wakeup run earlier unclosed drains (by decide) ahead with
    ⟨rest, final, transmits, delivers, _, same⟩
  exact ⟨still, deadline, rest, final, transmits, delivers, same.trans still⟩

end Connection

end Rsrt

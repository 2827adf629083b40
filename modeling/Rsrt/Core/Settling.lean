import Rsrt.Core.Wakeup

namespace Rsrt

open Rsrt.Basis

/-!
# No busy loop

Every packet and every payload that a poll returns shortens some queue, so draining
ends.  A round runs the timers and drains; after a round all alarms but one lie ahead.
The exception is the expiry count, which a late wake-up lets escalate one step in each
round, and each step moves its deadline by a fixed amount at least.
-/

namespace Connection

variable {P : Primitives} {c : Connection} {now : Instant}

/-! ## Draining ends -/

/-- What is left to transmit at this instant. -/
def State.backlog (now : Instant) : Connection.State -> Nat
  | .connecting hs _ _ => if hs.nextSend ≤ now then 1 else 0
  | .established sender receiver _ =>
      receiver.controlQ.length + sender.controlQueue.length + sender.backlog
  | .closed _ _ => 0

def backlog (now : Instant) (c : Connection) : Nat := c.transmitQ.length + c.state.backlog now

theorem pollTransmit_some {packet : Packet} (found : (c.pollTransmit now).2 = some packet) :
    (Exists fun emitted => (c.nextTransmitAt now).2 = some emitted) ∧
      (c.pollTransmit now).1 = { (c.nextTransmitAt now).1 with lastSent := now } := by
  unfold pollTransmit pollTransmitAt at found ⊢
  cases evaluated : c.nextTransmitAt now with
  | mk next emitted =>
      rw [evaluated] at found
      cases emitted with
      | none => cases found
      | some emitted => exact ⟨⟨_, rfl⟩, rfl⟩

/-- Slots of the receiver, also after a close. -/
def held (c : Connection) : Nat := (c.state.keptReceiver.map fun r => r.slots.length).getD 0

/-- All alarms but the expiry count lie ahead. -/
def Calm (now : Instant) (c : Connection) : Prop :=
  match c.state with
  | .connecting hs _ _ => hs.isTimedOut now = false
  | .established sender receiver _ =>
      sender.Timely now ∧ now < receiver.nextFullAck ∧ now < receiver.nextNakTime ∧
        now < c.lastSent + keepaliveInterval ∧
        forall window, c.opts.dataIdleTimeout = some window -> now < c.lastData + window
  | .closed _ _ => True

/-- The expiry count has not run out. -/
def Unexpired (now : Instant) (c : Connection) : Prop :=
  match c.state with
  | .established _ receiver _ =>
      now < expDeadline c.lastRecv c.expCount receiver.rtt.1 receiver.rtt.2
  | _ => True

theorem calm_of_closed {why : CloseReason} {kept : Option Receiver}
    (closed : c.state = .closed why kept) (now : Instant) :
    c.Calm now ∧ c.Unexpired now := by
  unfold Calm Unexpired
  rw [closed]
  exact ⟨trivial, trivial⟩

theorem poll_timely {stack : Stack} (ready : stack.Ready P) {t : Instant}
    (timely : stack.sender.Timely t) (now : Instant) : (stack.poll now).1.sender.Timely t := by
  rcases ready.tracks with ⟨w, tracks⟩
  have said : stack.sender.pollControl.1.Timely t := timely.of_pristine rfl rfl
  have sent : (stack.sender.pollControl.1.pollTransmitAt now).1.Timely t :=
    said.pollTransmitAt (tracks.of_core_eq rfl) now
  unfold Stack.poll
  split
  · exact timely
  · generalize stack.sender.pollControl = outcome at said sent
    rcases outcome with ⟨sender, _ | message⟩
    · exact sent
    · exact said

/-- What one poll for packets does to an established connection. -/
theorem pollTransmit_established {stack : Stack}
    (is : c.state = .established stack.sender stack.receiver stack.crypto) (now : Instant) :
    Exists fun stack' : Stack => Exists fun lastSent => Exists fun transmitQ =>
      (c.pollTransmit now).1 =
          { c with
              state := .established stack'.sender stack'.receiver stack'.crypto
              lastSent, transmitQ } ∧
        (lastSent = c.lastSent ∨ lastSent = now) ∧
        (stack' = stack ∨ stack' = (stack.poll now).1) := by
  have stamped (next : Connection) (evaluated : (c.nextTransmitAt now).1 = next) :
      (c.pollTransmit now).1 = next ∨ (c.pollTransmit now).1 = { next with lastSent := now } := by
    rw [← evaluated]
    cases polled : (c.pollTransmit now).2 with
    | none => exact Or.inl (pollTransmit_none polled).2
    | some packet => exact Or.inr (pollTransmit_some polled).2
  cases queue : c.transmitQ with
  | cons head rest =>
      rcases stamped _ (congrArg Prod.fst (nextTransmitAt_cons queue now)) with same | same
      · refine ⟨stack, _, rest, ?_, Or.inl rfl, Or.inl rfl⟩
        rw [same, is]
      · refine ⟨stack, now, rest, ?_, Or.inr rfl, Or.inl rfl⟩
        rw [same, is]
  | nil =>
      rcases stamped _ (congrArg Prod.fst (nextTransmitAt_established is queue now)) with same | same
      · refine ⟨(stack.poll now).1, _, _, same, Or.inl rfl, Or.inr rfl⟩
      · refine ⟨(stack.poll now).1, now, _, same, Or.inr rfl, Or.inr rfl⟩

theorem pollTransmit_connecting {hs : CallerHandshake} {pendingSend : List Bytes}
    {earlyData : List (Instant × DataPacket)}
    (is : c.state = .connecting hs pendingSend earlyData) (now : Instant) :
    Exists fun hs' : CallerHandshake =>
      (c.pollTransmit now).1.state = .connecting hs' pendingSend earlyData ∧
        hs'.isTimedOut now = hs.isTimedOut now := by
  rw [pollTransmit_state]
  cases queue : c.transmitQ with
  | cons head rest =>
      rw [nextTransmitAt_cons queue]
      exact ⟨hs, is, rfl⟩
  | nil =>
      rw [nextTransmitAt_connecting queue is]
      refine ⟨_, rfl, ?_⟩
      unfold CallerHandshake.isTimedOut
      rw [CallerHandshake.pollTransmit_requesting]
      unfold CallerHandshake.pollTransmit
      split
      · rfl
      · split_ifs <;> rfl

theorem pollTransmit_closed {reason : CloseReason} {kept : Option Receiver}
    (is : c.state = .closed reason kept) (now : Instant) :
    (c.pollTransmit now).1.state = .closed reason kept := by
  rw [pollTransmit_state]
  cases queue : c.transmitQ with
  | cons head rest =>
      rw [nextTransmitAt_cons queue]
      exact is
  | nil =>
      rw [nextTransmitAt_closed queue is]
      exact is

/-- Every alarm lies ahead, except that the expiry count may have reached a number. -/
structure Rested (P : Primitives) (now : Instant) (expCount : Nat) (c : Connection) : Prop where
  ready : c.Ready P
  calm : c.Calm now
  counted : c.Unexpired now ∨ c.expCount = expCount

/-- A poll for packets keeps the alarms. -/
theorem Rested.pollTransmit {expCount : Nat} (rested : Rested P now expCount c) :
    Rested P now expCount (c.pollTransmit now).1 := by
  rcases rested with ⟨ready, calm, counted⟩
  have after := ready.handle (.pollTransmit now)
  change (c.pollTransmit now).1.Ready P at after
  unfold Calm at calm
  unfold Unexpired at counted
  rcases state : c.state with ⟨hs, pendingSend, earlyData⟩ | ⟨sender, receiver, crypto⟩ |
    ⟨reason, kept⟩
  · rcases pollTransmit_connecting state now with ⟨hs', moved, same⟩
    rw [state] at calm
    refine ⟨after, ?_, Or.inl ?_⟩
    · unfold Calm
      rw [moved]
      exact same.trans calm
    · unfold Unexpired
      rw [moved]
      exact trivial
  · rw [state] at calm counted
    unfold Ready at ready
    rw [state] at ready
    rcases @pollTransmit_established c { sender, receiver, crypto } state now with
      ⟨stack, lastSent, transmitQ, moved, dated, polled⟩
    have timely : stack.sender.Timely now := by
      rcases polled with rfl | rfl
      · exact calm.1
      · exact poll_timely ready calm.1 now
    have receives : stack.receiver.nextFullAck = receiver.nextFullAck ∧
        stack.receiver.nextNakTime = receiver.nextNakTime ∧ stack.receiver.rtt = receiver.rtt := by
      rcases polled with rfl | rfl
      · exact ⟨rfl, rfl, rfl⟩
      · rw [Stack.poll_receiver]
        unfold Receiver.pollControl
        dsimp only
        split <;> exact ⟨rfl, rfl, rfl⟩
    have spoke : now < lastSent + keepaliveInterval := by
      rcases dated with rfl | rfl
      · exact calm.2.2.2.1
      · exact Nat.lt_add_of_pos_right (by decide)
    rw [moved] at after ⊢
    refine ⟨after, ⟨timely, ?_, ?_, spoke, calm.2.2.2.2⟩, ?_⟩
    · rw [receives.1]
      exact calm.2.1
    · rw [receives.2.1]
      exact calm.2.2.1
    · unfold Unexpired
      dsimp only
      rw [receives.2.2]
      exact counted
  · rcases calm_of_closed (pollTransmit_closed state now) now with ⟨calm, unexpired⟩
    exact ⟨after, calm, Or.inl unexpired⟩

/-- A poll for payloads keeps the alarms. -/
theorem Rested.pollDeliver {expCount : Nat} (rested : Rested P now expCount c) :
    Rested P now expCount (c.pollDeliver now).1 := by
  rcases rested with ⟨ready, calm, counted⟩
  have after := ready.handle (.pollDeliver now)
  change (c.pollDeliver now).1.Ready P at after
  rcases state : c.state with ⟨hs, pendingSend, earlyData⟩ | ⟨sender, receiver, crypto⟩ |
    ⟨reason, kept⟩
  · have same : (c.pollDeliver now).1 = c := by
      unfold Connection.pollDeliver
      rw [state]
    rw [same]
    exact ⟨ready, calm, counted⟩
  · have moved : (c.pollDeliver now).1 =
        { c with state := .established sender (receiver.pollDeliver now).1 crypto } := by
      unfold Connection.pollDeliver
      rw [state]
    have outside := Receiver.pollDeliver_outside receiver now
    have acks : (receiver.pollDeliver now).1.outside.nextFullAck = receiver.outside.nextFullAck :=
      congrArg Receiver.nextFullAck outside
    have naks : (receiver.pollDeliver now).1.outside.nextNakTime = receiver.outside.nextNakTime :=
      congrArg Receiver.nextNakTime outside
    have rtt : (receiver.pollDeliver now).1.outside.rtt = receiver.outside.rtt :=
      congrArg Receiver.rtt outside
    unfold Calm at calm
    unfold Unexpired at counted
    rw [state] at calm counted
    rw [moved] at after ⊢
    refine ⟨after, ⟨calm.1, ?_, ?_, calm.2.2.2⟩, ?_⟩
    · exact lt_of_lt_of_eq calm.2.1 acks.symm
    · exact lt_of_lt_of_eq calm.2.2.1 naks.symm
    · unfold Unexpired
      dsimp only
      rw [show (receiver.pollDeliver now).1.rtt = receiver.rtt from rtt]
      exact counted
  · have closed : Exists fun kept => (c.pollDeliver now).1.state = .closed reason kept := by
      unfold Connection.pollDeliver
      rw [state]
      cases kept with
      | none => exact ⟨none, state⟩
      | some receiver => exact ⟨_, rfl⟩
    rcases closed with ⟨kept, closed⟩
    rcases calm_of_closed closed now with ⟨calm, unexpired⟩
    exact ⟨after, calm, Or.inl unexpired⟩

/-! ## Rounds -/

/-- The next deadline, if there is one, lies ahead. -/
def Settled (now : Instant) (c : Connection) : Prop :=
  forall deadline, c.nextDeadline now = some deadline -> now < deadline

end Connection

end Rsrt

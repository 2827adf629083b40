import Rsrt.Core.ReceiverPolling
import Rsrt.Core.SenderPolling
import Rsrt.Core.StackLog

namespace Rsrt

open Rsrt.Basis

/-!
# Draining a connection

The driver of a connection polls it for packets and for payloads until both polls
return nothing.  What a drain leaves is described for each component: the queues are
empty, the sender is spent and no payload is due.  One drain does not undo the other,
so after both, in either order, both descriptions hold.
-/

/-! ## The components -/

theorem Sender.pollControl_of_empty {s : Sender} (empty : s.controlQueue = []) :
    s.pollControl = (s, none) := by
  cases s
  cases empty
  rfl

/-- The invariant of the components that polling rests on: the sender's indices are those
of a window, and loss reports are paced. -/
structure Stack.Ready (P : Primitives) (stack : Stack) : Prop where
  window : Exists fun log => Exists fun w => Stack.Session.Sealed P { stack, log } w
  paced : 0 < stack.receiver.nakInterval

namespace Stack

variable {P : Primitives} {stack : Stack} {now : Instant}

theorem Ready.tracks (ready : stack.Ready P) : Exists fun w => Sender.Tracks w stack.sender := by
  rcases ready.window with ⟨log, w, sealed⟩
  exact ⟨w, sealed.tracks⟩

theorem Ready.placed (ready : stack.Ready P) : stack.sender.Placed := by
  rcases ready.tracks with ⟨w, tracks⟩
  exact tracks.placed

theorem pollControl_paced {r : Receiver} (paced : 0 < r.nakInterval) (now : Instant) :
    0 < (r.pollControl now).1.nakInterval := by
  unfold Receiver.pollControl
  split
  · exact paced
  · exact paced

theorem Ready.call (ready : stack.Ready P) (call : Call) : (stack.call P call).Ready P := by
  have paced := ready.paced
  refine ⟨?_, ?_⟩
  · rcases ready.window with ⟨log, w, sealed⟩
    exact ⟨stack.note log call, sealed.step call⟩
  · cases call with
    | push now payload =>
        unfold Stack.call
        dsimp only
        split
        · exact paced
        · exact paced
    | data now packet =>
        rcases Connection.ingestData_arrives P now stack.receiver stack.crypto packet with
          ⟨pkt, lost, _, _, same⟩
        change 0 < (Connection.ingestData P now stack.receiver stack.crypto packet).1.nakInterval
        rw [same]
        exact Receiver.ingest_nakInterval paced now pkt lost
    | ack now ackNumber cif fresh =>
        unfold Stack.call
        dsimp only
        split
        · exact paced
        · exact paced
    | nak now ranges => exact paced
    | ackAck now ackNumber ts =>
        change 0 < (stack.receiver.handleAckack now ackNumber ts).nakInterval
        rw [Receiver.handleAckack_keeps Receiver.nakInterval fun _ _ _ _ _ _ _ _ _ => rfl]
        exact paced
    | dropRequest now msgNumber first last =>
        have same := Receiver.nakInterval_of_outside_eq
          (Receiver.handleDropreq_outside stack.receiver now msgNumber first last)
        exact same ▸ paced
    | kmReq payload => exact paced
    | kmRsp payload => exact paced
    | timer now => exact Receiver.onTimer_nakInterval paced now
    | anchor instant ts =>
        change 0 < (stack.receiver.setHsAnchor instant ts).nakInterval
        unfold Receiver.setHsAnchor
        split
        · exact paced
        · exact paced
    | transmit now =>
        change 0 < (stack.poll now).1.receiver.nakInterval
        rw [poll_receiver]
        exact pollControl_paced paced now
    | deliver now =>
        have same := Receiver.nakInterval_of_outside_eq
          (Receiver.pollDeliver_outside stack.receiver now)
        exact same ▸ paced

/-- No message waits, and the sender is spent. -/
structure Spent (stack : Stack) (now : Instant) : Prop where
  heard : stack.receiver.controlQ = []
  said : stack.sender.controlQueue = []
  sent : stack.sender.Spent now

/-- Without messages a poll is a poll of the sender. -/
theorem poll_of_silent (heard : stack.receiver.controlQ = [])
    (said : stack.sender.controlQueue = []) (now : Instant) :
    stack.poll now =
      ({ stack with sender := (stack.sender.pollTransmitAt now).1 },
        (stack.sender.pollTransmitAt now).2.map fun (index, packet) =>
          (some index, .data packet)) := by
  unfold poll Receiver.pollControl
  rw [heard]
  dsimp only
  rw [Sender.pollControl_of_empty said]

/-- A poll that returns nothing found no messages. -/
theorem silent_of_poll_none (nothing : (stack.poll now).2 = none) :
    stack.receiver.controlQ = [] ∧ stack.sender.controlQueue = [] := by
  unfold poll Receiver.pollControl at nothing
  cases heard : stack.receiver.controlQ with
  | cons message rest =>
      rw [heard] at nothing
      cases nothing
  | nil =>
      rw [heard] at nothing
      cases said : stack.sender.controlQueue with
      | cons message rest =>
          unfold Sender.pollControl at nothing
          rw [said] at nothing
          cases nothing
      | nil => exact ⟨rfl, rfl⟩

theorem poll_spent (placed : stack.sender.Placed) (nothing : (stack.poll now).2 = none) :
    (stack.poll now).1.Spent now := by
  rcases silent_of_poll_none nothing with ⟨heard, said⟩
  rw [poll_of_silent heard said] at nothing ⊢
  have unsent : (stack.sender.pollTransmitAt now).2 = none := Option.map_eq_none_iff.mp nothing
  refine ⟨heard, ?_, Sender.pollTransmitAt_spent placed unsent⟩
  exact (congrArg Sender.Labels.controlQueue (Sender.pollTransmitAt_labels stack.sender now)).trans
    said

end Stack

/-! ## The connection -/

theorem CallerHandshake.request_isSome (hs : CallerHandshake) :
    hs.request.isSome = hs.requesting := by
  unfold request requesting
  cases hs.state <;> rfl

/-- A handshake that returns no request has none, or waits. -/
theorem CallerHandshake.pollTransmit_idle {hs : CallerHandshake} {now : Instant}
    (nothing : (hs.pollTransmit now).2 = none) (requesting : hs.requesting) :
    (hs.isTimedOut now ∨ now < hs.nextSend) ∧ (hs.pollTransmit now).1 = hs := by
  rw [← hs.request_isSome] at requesting
  rcases Option.isSome_iff_exists.mp requesting with ⟨cif, made⟩
  unfold CallerHandshake.pollTransmit at nothing ⊢
  rw [made] at nothing ⊢
  dsimp only at nothing ⊢
  split_ifs at nothing ⊢ with waits
  exact ⟨waits, rfl⟩

theorem CallerHandshake.pollTransmit_requesting (hs : CallerHandshake) (now : Instant) :
    (hs.pollTransmit now).1.requesting = hs.requesting := by
  unfold CallerHandshake.pollTransmit
  split
  · rfl
  · split_ifs <;> rfl

namespace Connection

variable {P : Primitives} {c : Connection} {now t : Instant}

/-- The components of an established connection are ready. -/
def Ready (P : Primitives) (c : Connection) : Prop :=
  Retains (fun t => t.stack.Ready P) (fun _ _ => True) {} c.state

theorem ready_opening (now : Instant) (negotiated : Negotiated) (opts : SrtOptions)
    (timebase : Timebase) :
    Stack.Ready P
      { sender := (transmissionPair now negotiated opts timebase).1
        receiver := (transmissionPair now negotiated opts timebase).2
        crypto := negotiated.crypto } where
  window := by
    refine ⟨{}, SendWindow.start, Sender.tracks_new _, rfl, ?_⟩
    intro i entry found
    cases found
  paced := by
    change 0 < nakInitialInterval
    decide

theorem Opening.ready {s : Session} (opening : Opening P s) : s.conn.Ready P := by
  cases opening with
  | caller => exact trivial
  | listener => exact ready_opening _ _ _ _

theorem Ready.handle (ready : c.Ready P) (input : Input) : (c.handle P input).Ready P := by
  have next := Retains.next (s := { conn := c }) ready
    (fun t call before => before.call call) (fun _ _ => trivial) (fun _ _ _ _ => trivial) input
    (fun now hsTs negotiated _ => ready_opening now negotiated c.opts c.timebase)
  unfold Ready
  change Retains _ _ _ (c.handle P input).state at next
  generalize (c.handle P input).state = after at next
  cases after with
  | connecting => exact trivial
  | established => exact next
  | closed reason kept => cases kept <;> exact trivial

theorem nextTransmitAt_connecting {hs : CallerHandshake} {pendingSend : List Bytes}
    {earlyData : List (Instant × DataPacket)} (queue : c.transmitQ = [])
    (state : c.state = .connecting hs pendingSend earlyData) (now : Instant) :
    c.nextTransmitAt now =
      ({ c with state := .connecting (hs.pollTransmit now).1 pendingSend earlyData },
        (hs.pollTransmit now).2.map fun packet => (none, packet)) := by
  unfold nextTransmitAt
  rw [queue, state]

/-- A packet is stamped only if there is one. -/
theorem pollTransmit_none (nothing : (c.pollTransmit now).2 = none) :
    (c.nextTransmitAt now).2 = none ∧ (c.pollTransmit now).1 = (c.nextTransmitAt now).1 := by
  unfold pollTransmit pollTransmitAt at nothing ⊢
  cases evaluated : c.nextTransmitAt now with
  | mk next emitted =>
      rw [evaluated] at nothing
      cases emitted with
      | none => exact ⟨rfl, rfl⟩
      | some emitted => cases nothing

theorem pollTransmit_of_none (nothing : (c.nextTransmitAt now).2 = none) :
    (c.pollTransmit now).2 = none := by
  unfold pollTransmit pollTransmitAt
  cases evaluated : c.nextTransmitAt now with
  | mk next emitted =>
      rw [evaluated] at nothing
      cases nothing
      rfl

/-! ### What a drain leaves -/

/-- Nothing is left to transmit. -/
def State.TransmitSpent (now : Instant) : Connection.State -> Prop
  | .connecting hs _ _ => hs.requesting -> hs.isTimedOut now ∨ now < hs.nextSend
  | .established sender receiver crypto => Stack.Spent { sender, receiver, crypto } now
  | .closed _ _ => True

/-- No payload is due. -/
def State.DeliverSpent (now : Instant) : Connection.State -> Prop
  | .established _ receiver _ => receiver.NothingDue now
  | .closed _ (some receiver) => receiver.NothingDue now
  | _ => True

/-- Both polls have returned nothing. -/
structure Drained (c : Connection) (now : Instant) : Prop where
  queue : c.transmitQ = []
  transmit : c.state.TransmitSpent now
  deliver : c.state.DeliverSpent now

/-- A poll that returns nothing leaves nothing to transmit. -/
theorem pollTransmit_spent (ready : c.Ready P) (nothing : (c.pollTransmit now).2 = none) :
    (c.pollTransmit now).1.transmitQ = [] ∧ (c.pollTransmit now).1.state.TransmitSpent now := by
  rcases pollTransmit_none nothing with ⟨unsent, same⟩
  rw [same]
  cases queue : c.transmitQ with
  | cons head rest =>
      rw [nextTransmitAt_cons queue] at unsent
      cases unsent
  | nil =>
      rcases state : c.state with ⟨hs, pendingSend, earlyData⟩ | ⟨sender, receiver, crypto⟩ |
        ⟨reason, kept⟩
      · rw [nextTransmitAt_connecting queue state] at unsent ⊢
        refine ⟨queue, ?_⟩
        intro requesting
        rw [CallerHandshake.pollTransmit_requesting] at requesting
        rcases CallerHandshake.pollTransmit_idle (Option.map_eq_none_iff.mp unsent) requesting with
          ⟨waits, unchanged⟩
        rw [unchanged]
        exact waits
      · rw [@nextTransmitAt_established c { sender, receiver, crypto } state queue now] at unsent ⊢
        unfold Ready at ready
        rw [state] at ready
        exact ⟨queue, Stack.poll_spent ready.placed unsent⟩
      · rw [nextTransmitAt_closed queue state, state]
        exact ⟨queue, trivial⟩

/-- A poll that returns nothing leaves no payload due. -/
theorem pollDeliver_spent (nothing : (c.pollDeliver now).2 = none) :
    (c.pollDeliver now).1.state.DeliverSpent now := by
  unfold pollDeliver at nothing ⊢
  rcases state : c.state with ⟨hs, pendingSend, earlyData⟩ | ⟨sender, receiver, crypto⟩ |
    ⟨reason, _ | receiver⟩
  · dsimp only
    rw [state]
    exact trivial
  · rw [state] at nothing
    exact Receiver.pollDeliver_nothingDue nothing
  · dsimp only
    rw [state]
    exact trivial
  · rw [state] at nothing
    exact Receiver.pollDeliver_nothingDue nothing

/-- Delivery leaves the transmit side alone. -/
theorem pollDeliver_keeps (c : Connection) (t : Instant) :
    (c.pollDeliver t).1.transmitQ = c.transmitQ ∧
      (c.state.TransmitSpent now -> (c.pollDeliver t).1.state.TransmitSpent now) := by
  unfold pollDeliver
  rcases state : c.state with ⟨hs, pendingSend, earlyData⟩ | ⟨sender, receiver, crypto⟩ |
    ⟨reason, _ | receiver⟩
  · dsimp only
    rw [state]
    exact ⟨rfl, id⟩
  · refine ⟨rfl, ?_⟩
    intro spent
    have outside := Receiver.pollDeliver_outside receiver t
    have heard : (receiver.pollDeliver t).1.outside.controlQ = receiver.outside.controlQ :=
      congrArg Receiver.controlQ outside
    exact ⟨heard.trans spent.heard, spent.said, spent.sent⟩
  · dsimp only
    rw [state]
    exact ⟨rfl, id⟩
  · exact ⟨rfl, id⟩

/-- Transmission leaves the delivery side alone. -/
theorem pollTransmit_keeps (c : Connection) (t : Instant) (spent : c.state.DeliverSpent now) :
    (c.pollTransmit t).1.state.DeliverSpent now := by
  rw [pollTransmit_state]
  cases queue : c.transmitQ with
  | cons head rest =>
      rw [nextTransmitAt_cons queue]
      exact spent
  | nil =>
      rcases state : c.state with ⟨hs, pendingSend, earlyData⟩ | ⟨sender, receiver, crypto⟩ |
        ⟨reason, kept⟩
      · rw [nextTransmitAt_connecting queue state]
        exact trivial
      · rw [@nextTransmitAt_established c { sender, receiver, crypto } state queue t]
        rw [state] at spent
        change (Stack.poll { sender, receiver, crypto } t).1.receiver.NothingDue now
        rw [Stack.poll_receiver]
        unfold Receiver.pollControl
        dsimp only
        split
        · exact spent
        · exact spent
      · rw [nextTransmitAt_closed queue state]
        exact spent

/-- Draining packets and payloads, in either order. -/
def DrainsBoth (now : Instant) (c final : Connection) : Prop :=
  (Exists fun packets => Exists fun middle => Exists fun payloads =>
    Drains (fun c => c.pollTransmit now) c packets middle ∧
      Drains (fun c => c.pollDeliver now) middle payloads final) ∨
  (Exists fun payloads => Exists fun middle => Exists fun packets =>
    Drains (fun c => c.pollDeliver now) c payloads middle ∧
      Drains (fun c => c.pollTransmit now) middle packets final)

theorem drained_transmit (ready : c.Ready P) {packets : List Packet} {final : Connection}
    (drains : Drains (fun c => c.pollTransmit now) c packets final) :
    final.Ready P ∧ final.transmitQ = [] ∧ final.state.TransmitSpent now := by
  rcases drains.last (fun c => c.Ready P) (fun c ready => ready.handle (.pollTransmit now)) ready with
    ⟨after, before, held, nothing, rfl⟩
  exact ⟨after, pollTransmit_spent held nothing⟩

theorem drained_deliver (ready : c.Ready P) {payloads : List Bytes} {final : Connection}
    (drains : Drains (fun c => c.pollDeliver now) c payloads final) :
    final.Ready P ∧ final.state.DeliverSpent now := by
  rcases drains.last (fun c => c.Ready P) (fun c ready => ready.handle (.pollDeliver now)) ready with
    ⟨after, before, held, nothing, rfl⟩
  exact ⟨after, pollDeliver_spent nothing⟩

theorem DrainsBoth.drained {final : Connection} (both : DrainsBoth now c final)
    (ready : c.Ready P) : final.Ready P ∧ final.Drained now := by
  rcases both with ⟨packets, middle, payloads, transmits, delivers⟩ |
    ⟨payloads, middle, packets, delivers, transmits⟩
  · rcases drained_transmit ready transmits with ⟨readied, queue, spent⟩
    rcases drained_deliver readied delivers with ⟨kept, unowed⟩
    rcases delivers.invariant (fun c => c.transmitQ = [] ∧ c.state.TransmitSpent now)
      (fun c holds => ⟨(@pollDeliver_keeps now c _).1.trans holds.1,
        (pollDeliver_keeps c _).2 holds.2⟩) ⟨queue, spent⟩ with ⟨queue, spent⟩
    exact ⟨kept, queue, spent, unowed⟩
  · rcases drained_deliver ready delivers with ⟨readied, unowed⟩
    rcases drained_transmit readied transmits with ⟨readied, queue, spent⟩
    have kept := transmits.invariant (fun c => c.state.DeliverSpent now)
      (fun c holds => pollTransmit_keeps c _ holds) unowed
    exact ⟨readied, queue, spent, kept⟩

end Connection

end Rsrt

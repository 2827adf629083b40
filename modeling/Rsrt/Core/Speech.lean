import Rsrt.Core.Enforcement
import Rsrt.Core.Traffic

namespace Rsrt

/-!
# What a connection says

Apart from the packets that a connection owes, an established connection sends the reports of
its two halves and data.  An accepted connection therefore sends no handshake but its stored
reply.
-/

namespace Stack

variable {P : Primitives} {stack : Stack}

/-- Both halves queue nothing but reports. -/
structure Reporting (stack : Stack) : Prop where
  receiver : stack.receiver.Reporting
  sender : stack.sender.Reporting

theorem Reporting.push (reporting : stack.Reporting) (now : Instant) (payload : Bytes) :
    (stack.call P (.push now payload)).Reporting := by
  unfold Stack.call
  dsimp only
  split
  case h_1 ok =>
    rcases Sender.push_ok ok with ⟨_, flags, wirePayload, rfl, _⟩
    exact ⟨reporting.receiver, reporting.sender.push now flags payload wirePayload⟩
  case h_2 => exact reporting

theorem Reporting.data (reporting : stack.Reporting) (now : Instant) (packet : DataPacket) :
    (stack.call P (.data now packet)).Reporting := by
  refine ⟨?_, reporting.sender⟩
  rcases Connection.ingestData_arrives P now stack.receiver stack.crypto packet with
    ⟨pkt, lost, _, _, same⟩
  change (Connection.ingestData P now stack.receiver stack.crypto packet).1.Reporting
  rw [same]
  exact reporting.receiver.ingest now pkt lost

theorem Reporting.ack (reporting : stack.Reporting) (now : Instant) (ackNumber : Nat)
    (cif : AckCif) (fresh : SecretKey) :
    (stack.call P (.ack now ackNumber cif fresh)).Reporting := by
  have kept := reporting.sender.of_labels_eq (Sender.handleAck_labels stack.sender now ackNumber cif)
  unfold Stack.call
  dsimp only
  generalize stack.sender.handleAck now ackNumber cif = outcome at kept
  rcases outcome with ⟨sender, err | reply⟩
  · exact ⟨reporting.receiver, kept⟩
  · exact ⟨reporting.receiver, kept⟩

/-- The next packet is a report or data. -/
theorem Reporting.poll (reporting : stack.Reporting) (now : Instant) :
    (stack.poll now).1.Reporting ∧
      forall index packet, (stack.poll now).2 = some (index, packet) ->
        (Exists fun message => packet = control message ∧ message.isReport) ∨
          Exists fun data => packet = .data data := by
  have heard := reporting.receiver.pollControl now
  have said := reporting.sender.pollControl
  unfold Stack.poll
  generalize stack.receiver.pollControl now = first at heard
  rcases first with ⟨receiver, _ | message⟩
  · dsimp only
    generalize stack.sender.pollControl = second at said
    rcases second with ⟨sender, _ | message⟩
    · have labels := Sender.pollTransmitAt_labels sender now
      dsimp only
      generalize sender.pollTransmitAt now = third at labels
      rcases third with ⟨after, emitted⟩
      refine ⟨⟨heard.1, said.1.of_labels_eq labels⟩, ?_⟩
      intro index packet found
      rcases Option.map_eq_some_iff.mp found with ⟨⟨place, data⟩, _, same⟩
      cases same
      exact Or.inr ⟨data, rfl⟩
    · refine ⟨⟨heard.1, said.1⟩, ?_⟩
      intro index packet found
      cases found
      exact Or.inl ⟨message, rfl, said.2 message rfl⟩
  · refine ⟨⟨heard.1, reporting.sender⟩, ?_⟩
    intro index packet found
    cases found
    exact Or.inl ⟨message, rfl, heard.2 message rfl⟩

theorem Reporting.call (reporting : stack.Reporting) (call : Call) :
    (stack.call P call).Reporting := by
  cases call with
  | push now payload => exact reporting.push now payload
  | data now packet => exact reporting.data now packet
  | ack now ackNumber cif fresh => exact reporting.ack now ackNumber cif fresh
  | nak now ranges => exact ⟨reporting.receiver, reporting.sender.handleNak now ranges⟩
  | ackAck now ackNumber ts =>
      exact ⟨reporting.receiver.of_controlQ_eq (Receiver.handleAckack_controlQ _ now ackNumber ts),
        reporting.sender⟩
  | dropRequest now msgNumber first last =>
      have outside := Receiver.handleDropreq_outside stack.receiver now msgNumber first last
      have queue := congrArg Receiver.controlQ outside
      exact ⟨reporting.receiver.of_controlQ_eq queue, reporting.sender⟩
  | kmReq payload => exact ⟨reporting.receiver, reporting.sender⟩
  | kmRsp payload => exact ⟨reporting.receiver, reporting.sender⟩
  | timer now =>
      exact ⟨reporting.receiver.of_queues (Receiver.onTimer_queues _ now),
        reporting.sender.onTimer now⟩
  | anchor instant ts =>
      exact ⟨reporting.receiver.of_controlQ_eq (Receiver.setHsAnchor_controlQ _ instant ts),
        reporting.sender⟩
  | transmit now => exact (reporting.poll now).1
  | deliver now =>
      have outside := Receiver.pollDeliver_outside stack.receiver now
      have queue := congrArg Receiver.controlQ outside
      exact ⟨reporting.receiver.of_controlQ_eq queue, reporting.sender⟩

theorem Reporting.run (reporting : stack.Reporting) (calls : List Call) :
    (calls.foldl (Stack.call P) stack).Reporting := by
  induction calls generalizing stack with
  | nil => exact reporting
  | cons first rest ih => exact ih (reporting.call first)

end Stack

namespace Connection

variable {P : Primitives} {c : Connection}

/-- A connection past its handshake that owes its peer the stored reply, reports and nothing
that could be taken for another handshake. -/
structure Spoken (c : Connection) : Prop where
  opened : forall hs pendingSend earlyData, c.state ≠ .connecting hs pendingSend earlyData
  halves : forall sender receiver crypto, c.state = .established sender receiver crypto ->
    Stack.Reporting { sender, receiver, crypto }
  queue : forall packet, packet ∈ c.transmitQ -> packet ∈ c.hsReply ∨
    Exists fun message => packet = control message ∧ forall cif, message ≠ .handshake cif

theorem Spoken.handle (spoken : c.Spoken) (input : Input) : (c.handle P input).Spoken := by
  have frame := handle_frame (P := P) c input
  have queue (packet : Packet) (member : packet ∈ (c.handle P input).transmitQ) :
      packet ∈ (c.handle P input).hsReply ∨
        Exists fun message => packet = control message ∧ forall cif, message ≠ .handshake cif := by
    rw [frame.hsReply]
    rcases frame.queue packet member with old | reply | owed
    · exact spoken.queue packet old
    · exact Or.inl reply
    · exact Or.inr owed
  rcases state : c.state with ⟨hs, pendingSend, earlyData⟩ | ⟨sender, receiver, crypto⟩ |
    ⟨reason, kept⟩
  · exact absurd state (spoken.opened _ _ _)
  · have halves := (spoken.halves _ _ _ state).run (P := P) (c.calls input)
    have shows := @handle_shows P c { sender, receiver, crypto } state input
    generalize (c.calls input).foldl (Stack.call P) { sender, receiver, crypto } = after at shows halves
    refine ⟨?_, ?_, queue⟩
    · intro hs pendingSend earlyData connecting
      rw [connecting] at shows
      cases shows
    · intro sender' receiver' crypto' established
      rw [established] at shows
      cases shows
      exact halves
  · refine ⟨?_, ?_, queue⟩
    all_goals
      intro _ _ _ other
      rcases @handle_closed P c reason kept state input with same | ⟨_, _, _, polled⟩
      · rw [same] at other
        cases other
      · rw [polled] at other
        cases other

/-- A handshake that such a connection sends is its reply. -/
theorem Spoken.handshake (spoken : c.Spoken) {now : Instant} {sent : ControlPacket}
    (emits : (c.pollTransmit now).2 = some (.control sent)) {cif : HandshakeCif}
    (message : sent.controlType = .handshake cif) :
    Exists fun reply : ControlPacket => c.hsReply = some (.control reply) ∧
      reply.controlType = .handshake cif := by
  have polled : Exists fun index => (c.pollTransmitAt now).2 = some (index, .control sent) := by
    rcases Option.map_eq_some_iff.mp emits with ⟨⟨index, packet⟩, found, same⟩
    cases same
    exact ⟨index, found⟩
  rcases polled with ⟨index, polled⟩
  unfold pollTransmitAt at polled
  split at polled
  case h_1 => cases polled
  case h_2 next place packet evaluated =>
    -- Stamping leaves the message alone.
    have stamped : Exists fun inner : ControlPacket => packet = .control inner ∧
        inner.controlType = .handshake cif := by
      cases packet with
      | data data => cases polled
      | control inner =>
          cases polled
          exact ⟨inner, rfl, message⟩
    rcases stamped with ⟨inner, rfl, said⟩
    have plain {message : ControlType} (same : Packet.control inner = control message) :
        message = .handshake cif := by
      cases same
      exact said
    cases queue : c.transmitQ with
    | cons head rest =>
        rw [nextTransmitAt_cons queue] at evaluated
        cases evaluated
        rcases spoken.queue _ (queue ▸ List.mem_cons_self) with reply | ⟨message, same, other⟩
        · exact ⟨inner, reply, said⟩
        · exact absurd (plain same) (other cif)
    | nil =>
        rcases state : c.state with ⟨hs, pendingSend, earlyData⟩ | ⟨sender, receiver, crypto⟩ |
          ⟨reason, kept⟩
        · exact absurd state (spoken.opened _ _ _)
        · have halves := (spoken.halves _ _ _ state).poll now
          rw [@nextTransmitAt_established c { sender, receiver, crypto } state queue now] at evaluated
          rcases halves.2 place (.control inner) (congrArg Prod.snd evaluated) with
            ⟨message, same, report⟩ | ⟨data, same⟩
          · rw [plain same] at report
            cases report
          · cases same
        · rw [nextTransmitAt_closed queue state] at evaluated
          cases evaluated

end Connection

end Rsrt

import Rsrt.Core.StackLog

namespace Rsrt

open Rsrt.Basis

/-!
# What a sender does not look at

A sender buffers payloads as they go on the wire, but no decision of its depends on their
bytes or on their KK bits: only the lengths count.  The veiled sender has blank payloads of
the same lengths, and every operation commutes with the veil.  So two senders that look the
same behind the veil, one with an engine and one without, go on looking the same.
-/

def BufEntry.veiled (entry : BufEntry) : BufEntry :=
  { entry with encryption := .none, payload := List.replicate entry.payload.length 0 }

def DataPacket.veiled (packet : DataPacket) : DataPacket :=
  { packet with encryption := .none, payload := List.replicate packet.payload.length 0 }

def Packet.veiled : Packet -> Packet
  | .data packet => .data packet.veiled
  | .control packet => .control packet

namespace Sender

def veiled (s : Sender) : Sender := { s with buffer := s.buffer.map BufEntry.veiled }

section Drops

variable (s : Sender)

theorem veiled_dropFront (n : Nat) (announce : Bool) :
    s.veiled.dropFront n announce = (s.dropFront n announce).veiled := by
  unfold dropFront veiled
  rw [List.map_drop]
  rfl

theorem veiled_tlpktdropCount (now : Instant) :
    s.veiled.tlpktdropCount now = s.tlpktdropCount now := by
  unfold tlpktdropCount veiled
  dsimp only
  rw [List.head?_map, List.getLast?_map, List.takeWhile_map, List.length_map]
  cases s.buffer.head? <;> cases s.buffer.getLast? <;> rfl

theorem veiled_checkTlpktdrop (now : Instant) :
    s.veiled.checkTlpktdrop now = (s.checkTlpktdrop now).veiled := by
  unfold checkTlpktdrop
  rw [veiled_tlpktdropCount]
  split_ifs
  · exact s.veiled_dropFront _ _
  · rfl

theorem veiled_dropWhile {full : Sender -> Bool} (blind : forall s : Sender, full s.veiled = full s)
    (fuel : Nat) : dropWhile full fuel s.veiled = (dropWhile full fuel s).veiled := by
  induction fuel generalizing s with
  | zero => rfl
  | succ fuel ih =>
      unfold dropWhile
      have empty : s.veiled.buffer ≠ [] ↔ s.buffer ≠ [] := by
        unfold veiled
        simp
      rw [blind]
      by_cases more : s.buffer ≠ [] ∧ full s
      · rw [if_pos more, if_pos ⟨empty.mpr more.1, more.2⟩, veiled_dropFront]
        exact ih _
      · rw [if_neg more, if_neg fun held => more ⟨empty.mp held.1, held.2⟩]

theorem veiled_buffer_length : s.veiled.buffer.length = s.buffer.length :=
  List.length_map _

theorem veiled_makeRoom (now : Instant) (payloadLen : Nat) :
    s.veiled.makeRoom now payloadLen = (s.makeRoom now payloadLen).veiled := by
  have capacity (s : Sender) : s.veiled.bufferFull = s.bufferFull := by
    unfold bufferFull
    rw [veiled_buffer_length]
    rfl
  have within : s.veiled.withinCapacity now payloadLen =
      (s.withinCapacity now payloadLen).veiled := by
    have fed : s.veiled.feedPacer now payloadLen = (s.feedPacer now payloadLen).veiled := rfl
    unfold withinCapacity
    rw [fed, veiled_checkTlpktdrop]
    dsimp only
    rw [veiled_buffer_length, veiled_dropWhile _ capacity]
  unfold makeRoom
  rw [within]
  dsimp only
  rw [veiled_buffer_length, veiled_dropWhile _ fun _ => rfl]

end Drops

section Submission

variable {P : Primitives} {s : Sender}

theorem veiled_append (now : Instant) (encryption : EncryptionFlags) (payload : Bytes) :
    (s.append now encryption payload).veiled =
      s.veiled.append now .none (List.replicate payload.length 0) := by
  unfold append veiled
  rw [List.map_append]
  rfl

theorem sealPayload_length (crypto : Option Crypto) (seq : SeqNumber) (payload : Bytes) :
    (sealPayload P crypto seq payload).2.2.length = payload.length := by
  unfold sealPayload
  cases crypto with
  | none => rfl
  | some engine =>
      dsimp only
      split_ifs
      · rfl
      · exact CtrCipher.applyKeystream_length _ _ _ _ _

/-- A submission looks the same whatever seals it. -/
theorem push_veiled (now : Instant) (payload : Bytes) (crypto : Option Crypto) :
    (s.push P now payload crypto).map (fun pushed => pushed.1.veiled) =
      if s.cfg.maxPayload < payload.length then .error (.payloadTooLarge payload.length)
      else .ok ((s.veiled.makeRoom now payload.length).append now .none
        (List.replicate payload.length 0)) := by
  unfold push
  split_ifs
  · rfl
  · have length := @sealPayload_length P crypto
      ((s.makeRoom now payload.length).seqAt ((s.makeRoom now payload.length).baseIndex +
        (s.makeRoom now payload.length).buffer.length)) payload
    dsimp only [Except.map]
    rw [veiled_append, length, veiled_makeRoom]

end Submission

section Reports

variable (s : Sender)

theorem veiled_release (ackExt : Int) : s.veiled.release ackExt = (s.release ackExt).veiled := by
  have length := s.veiled_buffer_length
  unfold release
  dsimp only
  rw [length]
  by_cases beyond : (s.baseIndex : Int) < ackExt
  · have veiledBeyond : (s.veiled.baseIndex : Int) < ackExt := beyond
    rw [if_pos beyond, if_pos veiledBeyond]
    unfold veiled
    dsimp only
    rw [List.map_drop]
  · have veiledWithin : ¬ (s.veiled.baseIndex : Int) < ackExt := beyond
    rw [if_neg beyond, if_neg veiledWithin]

theorem veiled_consumeCredit (ackExt : Int) :
    s.veiled.consumeCredit ackExt = (s.consumeCredit ackExt).veiled := by
  have acked : s.veiled.lastAckIndex = s.lastAckIndex := rfl
  unfold consumeCredit
  rw [acked]
  split_ifs <;> rfl

theorem veiled_adoptRtt (cif : AckCif) : s.veiled.adoptRtt cif = (s.adoptRtt cif).veiled := by
  have adopted : s.veiled.rttAdopted = s.rttAdopted := rfl
  unfold adoptRtt
  rw [adopted]
  split
  · split_ifs <;> rfl
  · rfl

theorem veiled_replyAckack (now : Instant) (ackNumber : Nat) :
    s.veiled.replyAckack now ackNumber =
      ((s.replyAckack now ackNumber).1.veiled, (s.replyAckack now ackNumber).2) := by
  have time : s.veiled.lastAckackTime = s.lastAckackTime := rfl
  have number : s.veiled.lastAckackNumber = s.lastAckackNumber := rfl
  unfold replyAckack
  rw [time, number]
  split_ifs <;> rfl

theorem veiled_adoptWindow (ackExt : Int) (avail : Option Nat) :
    s.veiled.adoptWindow ackExt avail = (s.adoptWindow ackExt avail).veiled := by
  have acked : s.veiled.lastAckIndex = s.lastAckIndex := rfl
  unfold adoptWindow
  rw [acked]
  split_ifs <;> rfl

theorem veiled_handleAck (now : Instant) (ackNumber : Nat) (cif : AckCif) :
    s.veiled.handleAck now ackNumber cif =
      ((s.handleAck now ackNumber cif).1.veiled, (s.handleAck now ackNumber cif).2) := by
  have position : s.veiled.extOf cif.lastAckSeq = s.extOf cif.lastAckSeq := rfl
  have sent : s.veiled.nextSendIndex = s.nextSendIndex := rfl
  unfold handleAck
  dsimp only
  rw [position, sent]
  split_ifs
  · rfl
  · rw [veiled_release, veiled_consumeCredit]
  · rw [veiled_release, veiled_adoptRtt, veiled_replyAckack]
    dsimp only
    rw [veiled_adoptWindow]
    rfl

theorem veiled_nakRange (range : LossRange) :
    s.veiled.nakRange range = (s.nakRange range).map veiled := by
  have first : s.veiled.extOf range.first = s.extOf range.first := rfl
  have last : s.veiled.extOf range.last = s.extOf range.last := rfl
  have sent : s.veiled.nextSendIndex = s.nextSendIndex := rfl
  have acked : s.veiled.lastAckIndex = s.lastAckIndex := rfl
  unfold nakRange
  dsimp only
  rw [first, last, sent, acked]
  split_ifs <;> rfl

theorem veiled_nakRanges (ranges : List LossRange) :
    s.veiled.nakRanges ranges = (s.nakRanges ranges).veiled := by
  induction ranges generalizing s with
  | nil => rfl
  | cons range rest ih =>
      unfold nakRanges
      rw [veiled_nakRange]
      cases s.nakRange range with
      | none => rfl
      | some next => exact ih next

theorem veiled_onTimer (now : Instant) : s.veiled.onTimer now = (s.onTimer now).veiled := by
  unfold onTimer
  rw [veiled_checkTlpktdrop]
  rfl

end Reports

section Transmission

variable (s : Sender)

/-- A transmission behind the veil. -/
def veiledEmission (emitted : Option (Nat × DataPacket)) : Option (Nat × DataPacket) :=
  emitted.map fun (index, packet) => (index, packet.veiled)

theorem veiled_packetAt (index : Nat) (retransmitted : Bool) :
    s.veiled.packetAt index retransmitted =
      (s.packetAt index retransmitted).map DataPacket.veiled := by
  unfold packetAt veiled
  dsimp only
  rw [List.getElem?_map, Option.map_map, Option.map_map]
  rfl

theorem veiled_passesOver (now : Instant) (index : Nat) :
    s.veiled.passesOver now index = s.passesOver now index := by
  unfold passesOver veiled
  dsimp only
  rw [List.getElem?_map, Option.any_map]
  rfl

theorem veiled_nextLoss (now : Instant) (fuel : Nat) (losses : Finset Nat) :
    s.veiled.nextLoss now fuel losses = s.nextLoss now fuel losses := by
  induction fuel generalizing losses with
  | zero => rfl
  | succ fuel ih =>
      unfold nextLoss
      cases losses.min with
      | top => rfl
      | coe index =>
          dsimp only
          rw [veiled_passesOver, ih]

theorem veiled_booked (now : Instant) (pkt : DataPacket) (probe : Bool) :
    s.veiled.booked now pkt.veiled probe = (s.booked now pkt probe).veiled := by
  have length : pkt.veiled.payload.length = pkt.payload.length := List.length_replicate
  unfold booked
  rw [length]
  rfl

theorem veiled_retransmit (now : Instant) (index : Nat) :
    s.veiled.retransmit now index =
      ((s.retransmit now index).1.veiled, veiledEmission (s.retransmit now index).2) := by
  have stamped : ({ s.veiled with
        buffer := s.veiled.buffer.modify (index - s.veiled.baseIndex) fun entry =>
          { entry with lastRexmit := some now } } : Sender) =
      ({ s with
        buffer := s.buffer.modify (index - s.baseIndex) fun entry =>
          { entry with lastRexmit := some now } } : Sender).veiled := by
    have modified : (s.buffer.map BufEntry.veiled).modify (index - s.baseIndex) (fun entry =>
          { entry with lastRexmit := some now }) =
        (s.buffer.modify (index - s.baseIndex) fun entry =>
          { entry with lastRexmit := some now }).map BufEntry.veiled := by
      apply List.ext_getElem?
      intro place
      rw [List.getElem?_modify, List.getElem?_map, List.getElem?_map, List.getElem?_modify]
      split_ifs <;> cases s.buffer[place]? <;> rfl
    unfold veiled
    dsimp only
    rw [modified]
  unfold retransmit
  dsimp only
  rw [stamped, veiled_packetAt]
  generalize ({ s with
    buffer := s.buffer.modify (index - s.baseIndex) fun entry =>
      { entry with lastRexmit := some now } } : Sender) = next
  cases next.packetAt index true with
  | none => rfl
  | some pkt =>
      change ((next.veiled.booked now pkt.veiled false), _) = _
      rw [veiled_booked]
      rfl

theorem veiled_transmit (now : Instant) :
    s.veiled.transmit now =
      ((s.transmit now).1.veiled, veiledEmission (s.transmit now).2) := by
  have sent : ({ s.veiled with nextSendIndex := s.veiled.nextSendIndex + 1 } : Sender) =
      ({ s with nextSendIndex := s.nextSendIndex + 1 } : Sender).veiled := rfl
  unfold transmit
  dsimp only
  rw [sent, veiled_packetAt]
  have index : s.veiled.nextSendIndex = s.nextSendIndex := rfl
  rw [index]
  generalize ({ s with nextSendIndex := s.nextSendIndex + 1 } : Sender) = next
  cases next.packetAt s.nextSendIndex false with
  | none => rfl
  | some pkt =>
      change ((next.veiled.booked now pkt.veiled (pkt.seq.value % 16 = 0)), _) = _
      rw [veiled_booked]
      rfl

theorem veiled_transmitNew (now : Instant) :
    s.veiled.transmitNew now =
      ((s.transmitNew now).1.veiled, veiledEmission (s.transmitNew now).2) := by
  have index : s.veiled.nextSendIndex = s.nextSendIndex := rfl
  have base : s.veiled.baseIndex = s.baseIndex := rfl
  have flying : s.veiled.flight = s.flight := rfl
  have window : s.veiled.effectiveWindow = s.effectiveWindow := rfl
  unfold transmitNew
  rw [index, base, flying, window, veiled_buffer_length]
  split_ifs
  · exact s.veiled_transmit now
  · rfl

theorem veiled_pollDue (now : Instant) :
    s.veiled.pollDue now = ((s.pollDue now).1.veiled, veiledEmission (s.pollDue now).2) := by
  have losses : s.veiled.lossList = s.lossList := rfl
  unfold pollDue
  rw [losses, veiled_nextLoss]
  rcases s.nextLoss now s.lossList.card s.lossList with ⟨_ | index, rest⟩
  · exact veiled_transmitNew { s with lossList := rest } now
  · exact veiled_retransmit { s with lossList := rest } now index

theorem veiled_pollTransmitAt (now : Instant) :
    s.veiled.pollTransmitAt now =
      ((s.pollTransmitAt now).1.veiled, veiledEmission (s.pollTransmitAt now).2) := by
  have gated : s.veiled.gate now = (s.gate now).map veiled := by
    have paced : s.veiled.pacer = s.pacer := rfl
    unfold gate
    rw [paced]
    cases s.pacer with
    | none => rfl
    | some p =>
        dsimp only
        rw [Option.map_map]
        rfl
  unfold pollTransmitAt
  rw [gated]
  cases s.gate now with
  | none => rfl
  | some due => exact due.veiled_pollDue now

end Transmission

end Sender

namespace Stack

/-- Components with an engine and components without one that do the same. -/
structure Mirrors (secret clear : Stack) : Prop where
  sender : secret.sender.veiled = clear.sender.veiled
  receiver : secret.receiver = clear.receiver
  bare : clear.crypto = none

section Mirrors

variable {P : Primitives} {secret clear : Stack}

theorem Mirrors.handleAck (mirrors : secret.Mirrors clear) (now : Instant) (ackNumber : Nat)
    (cif : AckCif) :
    (secret.sender.handleAck now ackNumber cif).1.veiled =
        (clear.sender.handleAck now ackNumber cif).1.veiled ∧
      (secret.sender.handleAck now ackNumber cif).2 =
        (clear.sender.handleAck now ackNumber cif).2 := by
  have same := secret.sender.veiled_handleAck now ackNumber cif
  rw [mirrors.sender, Sender.veiled_handleAck] at same
  exact ⟨(congrArg Prod.fst same).symm, (congrArg Prod.snd same).symm⟩

theorem Mirrors.ack (mirrors : secret.Mirrors clear) (now : Instant) (ackNumber : Nat)
    (cif : AckCif) (fresh : SecretKey) :
    (secret.call P (.ack now ackNumber cif fresh)).Mirrors
      (clear.call P (.ack now ackNumber cif fresh)) := by
  have same := mirrors.handleAck now ackNumber cif
  unfold Stack.call
  dsimp only
  generalize secret.sender.handleAck now ackNumber cif = left at same ⊢
  generalize clear.sender.handleAck now ackNumber cif = right at same ⊢
  rcases left with ⟨sender, outcome⟩
  rcases right with ⟨sender', outcome'⟩
  rcases same with ⟨veiled, rfl⟩
  cases outcome with
  | error err => exact ⟨veiled, mirrors.receiver, mirrors.bare⟩
  | ok reply =>
      refine ⟨veiled, mirrors.receiver, ?_⟩
      dsimp only
      rw [mirrors.bare]
      rfl

/-- Both accept a submission, or neither. -/
theorem Mirrors.push (mirrors : secret.Mirrors clear) (now : Instant) (payload : Bytes) :
    (secret.sender.push P now payload secret.crypto).isOk =
        (clear.sender.push P now payload clear.crypto).isOk ∧
      (secret.call P (.push now payload)).Mirrors (clear.call P (.push now payload)) := by
  have limit : secret.sender.veiled.cfg = clear.sender.veiled.cfg :=
    congrArg Sender.cfg mirrors.sender
  change secret.sender.cfg = clear.sender.cfg at limit
  have left := @Sender.push_veiled P secret.sender now payload secret.crypto
  have right := @Sender.push_veiled P clear.sender now payload clear.crypto
  rw [mirrors.sender, limit, ← right] at left
  have unsealed {sender : Sender} {crypto : Option Crypto}
      (ok : clear.sender.push P now payload clear.crypto = .ok (sender, crypto)) :
      crypto = none := by
    rcases Sender.push_ok ok with ⟨_, flags, wirePayload, _, sealing⟩
    rw [mirrors.bare] at sealing
    exact (congrArg Prod.fst sealing).symm
  unfold Stack.call
  dsimp only
  generalize secret.sender.push P now payload secret.crypto = first at left ⊢
  generalize clear.sender.push P now payload clear.crypto = second at left unsealed ⊢
  rcases first with err | ⟨sender, crypto⟩
  · rcases second with err' | ⟨sender', crypto'⟩
    · exact ⟨rfl, mirrors⟩
    · cases left
  · rcases second with err' | ⟨sender', crypto'⟩
    · cases left
    · exact ⟨rfl, Except.ok.inj left, mirrors.receiver, unsealed rfl⟩

/-- Data that the engine reads arrives as it would without an engine. -/
theorem Mirrors.data (mirrors : secret.Mirrors clear) (now : Instant) {packet : DataPacket}
    {engine engine' : Crypto} {payload : Bytes} (present : secret.crypto = some engine)
    (reads : engine.decrypt P packet.seq packet.encryption packet.payload = (engine', .ok payload)) :
    (secret.call P (.data now packet)).Mirrors
      (clear.call P (.data now { packet with encryption := .none, payload })) := by
  unfold Stack.call Connection.ingestData
  dsimp only
  rw [present, mirrors.bare]
  dsimp only
  rw [reads, if_pos rfl]
  refine ⟨mirrors.sender, ?_, rfl⟩
  rw [mirrors.receiver]

/-- The packet that a poll emits, behind the veil. -/
def veiledFlying (emitted : Option (Option Nat × Packet)) : Option (Option Nat × Packet) :=
  emitted.map fun (index, packet) => (index, packet.veiled)

theorem Mirrors.poll (mirrors : secret.Mirrors clear) (now : Instant) :
    (secret.poll now).1.Mirrors (clear.poll now).1 ∧
      veiledFlying (secret.poll now).2 = veiledFlying (clear.poll now).2 := by
  have said : secret.sender.veiled.controlQueue = clear.sender.veiled.controlQueue :=
    congrArg Sender.controlQueue mirrors.sender
  have spoken : secret.sender.pollControl.1.veiled = clear.sender.pollControl.1.veiled := by
    change secret.sender.veiled.pollControl.1 = clear.sender.veiled.pollControl.1
    rw [mirrors.sender]
  have message : secret.sender.pollControl.2 = clear.sender.pollControl.2 :=
    congrArg List.head? said
  unfold Stack.poll
  rw [mirrors.receiver]
  generalize clear.receiver.pollControl now = reported
  generalize secret.sender.pollControl = left at spoken message ⊢
  generalize clear.sender.pollControl = right at spoken message ⊢
  rcases reported with ⟨receiver, _ | report⟩
  · rcases left with ⟨sender, said⟩
    rcases right with ⟨sender', said'⟩
    cases message
    cases said with
    | some message => exact ⟨⟨spoken, rfl, mirrors.bare⟩, rfl⟩
    | none =>
        have sent := sender.veiled_pollTransmitAt now
        change sender.veiled = sender'.veiled at spoken
        rw [spoken, Sender.veiled_pollTransmitAt] at sent
        dsimp only
        generalize sender.pollTransmitAt now = first at sent ⊢
        generalize sender'.pollTransmitAt now = second at sent ⊢
        rcases first with ⟨sender, emitted⟩
        rcases second with ⟨sender', emitted'⟩
        refine ⟨⟨(congrArg Prod.fst sent).symm, rfl, mirrors.bare⟩, ?_⟩
        have same : Sender.veiledEmission emitted' = Sender.veiledEmission emitted :=
          congrArg Prod.snd sent
        have lifted := congrArg (Option.map fun emission : Nat × DataPacket =>
          (some emission.1, Packet.data emission.2)) same
        unfold Sender.veiledEmission at lifted
        unfold veiledFlying
        rw [Option.map_map, Option.map_map] at lifted ⊢
        exact lifted.symm
  · exact ⟨⟨mirrors.sender, rfl, mirrors.bare⟩, rfl⟩

/-- Every other call does the same on both sides. -/
theorem Mirrors.call (mirrors : secret.Mirrors clear) {call : Call}
    (other : forall now packet, call ≠ .data now packet) :
    (secret.call P call).Mirrors (clear.call P call) := by
  have bare := mirrors.bare
  cases call with
  | push now payload => exact (mirrors.push now payload).2
  | data now packet => exact absurd rfl (other now packet)
  | ack now ackNumber cif fresh => exact mirrors.ack now ackNumber cif fresh
  | nak now ranges =>
      refine ⟨?_, mirrors.receiver, bare⟩
      change (secret.sender.nakRanges ranges).veiled = (clear.sender.nakRanges ranges).veiled
      rw [← Sender.veiled_nakRanges, mirrors.sender, Sender.veiled_nakRanges]
  | ackAck now ackNumber ts =>
      exact ⟨mirrors.sender, congrArg (Receiver.handleAckack · now ackNumber ts) mirrors.receiver,
        bare⟩
  | dropRequest now msgNumber first last =>
      exact ⟨mirrors.sender,
        congrArg (Receiver.handleDropreq · now msgNumber first last) mirrors.receiver, bare⟩
  | kmReq payload =>
      refine ⟨mirrors.sender, mirrors.receiver, ?_⟩
      change clear.crypto.map _ = none
      rw [bare, Option.map_none]
  | kmRsp payload =>
      refine ⟨mirrors.sender, mirrors.receiver, ?_⟩
      change clear.crypto.map _ = none
      rw [bare, Option.map_none]
  | timer now =>
      refine ⟨?_, congrArg (Receiver.onTimer · now) mirrors.receiver, bare⟩
      change (secret.sender.onTimer now).veiled = (clear.sender.onTimer now).veiled
      rw [← Sender.veiled_onTimer, mirrors.sender, Sender.veiled_onTimer]
  | anchor instant ts =>
      exact ⟨mirrors.sender, congrArg (Receiver.setHsAnchor · instant ts) mirrors.receiver, bare⟩
  | transmit now => exact (mirrors.poll now).1
  | deliver now =>
      exact ⟨mirrors.sender, congrArg (fun r => (Receiver.pollDeliver r now).1) mirrors.receiver,
        bare⟩

end Mirrors

end Stack

end Rsrt

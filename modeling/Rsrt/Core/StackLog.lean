import Rsrt.Core.ConnectionSession
import Rsrt.Core.SenderReports
import Rsrt.Core.SenderSession
import Rsrt.Core.ReceiverWindow

namespace Rsrt

open Rsrt.Basis SeqNumber

/-!
# What comes out of a connection was put in

The sender's entry at an index is what sealing made of the submission at the same
place of the log, and a packet that the receiver will deliver is what opening made of
a reception.  Both hold after any calls, so the log explains every data packet that a
connection emits and every payload that it delivers.
-/

/-! ## Submissions -/

/-- The window of the sender holds the sealed submissions, in their order. -/
structure Stack.Session.Sealed (P : Primitives) (t : Stack.Session) (w : SendWindow BufEntry) :
    Prop where
  tracks : Sender.Tracks w t.stack.sender
  count : t.log.submitted.length = w.stream.length
  entries : forall (i : Nat) (entry : BufEntry), w.stream[i]? = some entry ->
    Exists fun sub => t.log.submitted[i]? = some sub ∧
      sub.seq = wire t.stack.sender.cfg.initialSeq i ∧
      (Sender.sealPayload P sub.engine sub.seq sub.payload).2 = (entry.encryption, entry.payload)

namespace Stack

variable {P : Primitives} {t : Session} {w w' : SendWindow BufEntry}

/-- Calls that submit nothing keep the stream. -/
theorem Session.Sealed.of_stream_eq (sealed : t.Sealed P w) {t' : Session}
    (tracks : Sender.Tracks w' t'.stack.sender) (stream : w'.stream = w.stream)
    (cfg : t'.stack.sender.cfg = t.stack.sender.cfg)
    (submitted : t'.log.submitted = t.log.submitted) : t'.Sealed P w' where
  tracks := tracks
  count := by rw [submitted, stream, sealed.count]
  entries := by
    rw [stream, submitted, cfg]
    exact sealed.entries

/-- What an accepted push records: the payload under the first sequence that was not used. -/
theorem Session.Sealed.records (sealed : t.Sealed P w) {payload : Bytes}
    (fits : payload.length ≤ t.stack.sender.cfg.maxPayload) (now : Instant) :
    t.stack.submission now payload =
      some ⟨wire t.stack.sender.cfg.initialSeq t.log.submitted.length, payload, t.stack.crypto⟩ := by
  rcases sealed.tracks.makeRoom now payload.length with ⟨room, advanced, _, tracks⟩
  have config := (Sender.makeRoom_numbering t.stack.sender now payload.length).1
  have index : (t.stack.sender.makeRoom now payload.length).baseIndex +
      (t.stack.sender.makeRoom now payload.length).buffer.length = t.log.submitted.length := by
    rw [tracks.base, tracks.length, advanced.stream, sealed.count]
  unfold Stack.submission
  rw [if_neg (not_lt.mpr fits)]
  dsimp only
  rw [index, Sender.seqAt_eq, config]

/-- An accepted push releases what it must and adds one sealed entry. -/
theorem push_window {stack : Stack} (tracks : Sender.Tracks w stack.sender) {now : Instant}
    {payload : Bytes} {sender : Sender} {crypto : Option Crypto}
    (ok : stack.sender.push P now payload stack.crypto = .ok (sender, crypto)) :
    Exists fun room : SendWindow BufEntry => Exists fun entry : BufEntry =>
      room.stream = w.stream ∧ w.base ≤ room.base ∧ Sender.Tracks (room.submit entry) sender ∧ sender.cfg = stack.sender.cfg ∧
      Sender.sealPayload P stack.crypto (wire stack.sender.cfg.initialSeq w.stream.length) payload =
        (crypto, entry.encryption, entry.payload) := by
  rcases Sender.push_ok ok with ⟨_, flags, wirePayload, rfl, sealing⟩
  rcases tracks.makeRoom now payload.length with ⟨room, advanced, _, tracks'⟩
  have config := (Sender.makeRoom_numbering stack.sender now payload.length).1
  rw [tracks'.base, tracks'.length, advanced.stream, Sender.seqAt_eq, config] at sealing
  exact ⟨room, _, advanced.stream, advanced.base_le, tracks'.append now flags wirePayload, config,
    sealing⟩

/-- An accepted push seals one entry and records it. -/
theorem Session.Sealed.push (sealed : t.Sealed P w) {now : Instant} {payload : Bytes}
    {sender : Sender} {crypto : Option Crypto}
    (ok : t.stack.sender.push P now payload t.stack.crypto = .ok (sender, crypto)) :
    Exists fun w' => (t.step P (.push now payload)).Sealed P w' := by
  rcases push_window sealed.tracks ok with ⟨room, entry, stream, _, tracks, config, sealing⟩
  have moved : (t.step P (.push now payload)).stack = { t.stack with sender, crypto } := by
    change t.stack.call P (.push now payload) = _
    unfold call
    dsimp only
    rw [ok]
  have recorded := sealed.records (Sender.push_ok ok).1 now
  rw [sealed.count] at recorded
  have noted : (t.step P (.push now payload)).log.submitted = t.log.submitted ++
      [⟨wire t.stack.sender.cfg.initialSeq w.stream.length, payload, t.stack.crypto⟩] := by
    change t.log.submitted ++ (t.stack.submission now payload).toList = _
    rw [recorded]
    rfl
  refine ⟨room.submit entry, ?_, ?_, ?_⟩
  · rw [moved]
    exact tracks
  · rw [noted, List.length_append, sealed.count]
    change _ = (room.stream ++ [_]).length
    rw [List.length_append, stream]
    rfl
  · intro i found there
    rw [noted, moved]
    change (room.stream ++ [_])[i]? = some found at there
    change Exists fun sub : Submission => _ ∧ sub.seq = wire sender.cfg.initialSeq i ∧ _
    rw [stream] at there
    rw [config]
    by_cases old : i < w.stream.length
    · rw [List.getElem?_append_left old] at there
      rw [List.getElem?_append_left (sealed.count ▸ old)]
      exact sealed.entries i found there
    · have last : i = w.stream.length := by
        have bound := (List.getElem?_eq_some_iff.mp there).1
        rw [List.length_append, List.length_singleton] at bound
        omega
      subst last
      rw [List.getElem?_concat_length] at there
      cases there
      rw [← sealed.count, List.getElem?_concat_length, sealed.count]
      exact ⟨_, rfl, rfl, congrArg Prod.snd sealing⟩

/-- A poll sends nothing that was not submitted. -/
theorem poll_tracks {stack : Stack} (tracks : Sender.Tracks w stack.sender) (now : Instant) :
    Exists fun w' => w'.stream = w.stream ∧ w'.base = w.base ∧
      Sender.Tracks w' (stack.poll now).1.sender ∧
      (stack.poll now).1.sender.cfg = stack.sender.cfg := by
  unfold Stack.poll
  split
  · exact ⟨w, rfl, rfl, tracks, rfl⟩
  · split
    case h_1 sender message said =>
      have moved : stack.sender.pollControl.1 = sender := congrArg Prod.fst said
      subst moved
      exact ⟨w, rfl, rfl, tracks.of_core_eq rfl, rfl⟩
    case h_2 sender said =>
      have moved : stack.sender.pollControl.1 = sender := congrArg Prod.fst said
      subst moved
      have polled : Sender.Tracks w stack.sender.pollControl.1 := tracks.of_core_eq rfl
      have labels := Sender.pollTransmitAt_labels stack.sender.pollControl.1 now
      rcases polled.pollTransmitAt now with ⟨w', after, emits⟩
      exact ⟨w', emits.stream_eq, emits.base_eq.1, after, congrArg Sender.Labels.cfg labels⟩

/-- A data packet shows a buffered entry. -/
theorem poll_emits {stack : Stack} (tracks : Sender.Tracks w stack.sender) {now : Instant}
    {index : Option Nat} {pkt : DataPacket}
    (emits : (stack.poll now).2 = some (index, .data pkt)) :
    Exists fun i => Exists fun entry => Exists fun again => index = some i ∧ w.base ≤ i ∧
      w.stream[i]? = some entry ∧
      pkt = entry.packet (wire stack.sender.cfg.initialSeq i) again := by
  unfold Stack.poll at emits
  split at emits
  · cases emits
  · split at emits
    · cases emits
    case h_2 sender said =>
      have moved : stack.sender.pollControl.1 = sender := congrArg Prod.fst said
      subst moved
      have polled : Sender.Tracks w stack.sender.pollControl.1 := tracks.of_core_eq rfl
      rcases polled.pollTransmitAt now with ⟨w', _, window⟩
      dsimp only at emits
      rcases shown : (stack.sender.pollControl.1.pollTransmitAt now).2 with _ | ⟨i, packet⟩
      · rw [shown] at emits
        cases emits
      · rw [shown] at emits window
        cases emits
        cases window with
        | again _ entry _ inFlight buffered =>
            exact ⟨i, entry, true, rfl, inFlight.1, buffered, rfl⟩
        | first entry _ _ _ buffered => exact ⟨w.next, entry, false, rfl, w.base_le, buffered, rfl⟩

/-- Every call but a submission keeps the stream and at most releases its front. -/
theorem call_window {stack : Stack} (tracks : Sender.Tracks w stack.sender) {call : Call}
    (quiet : forall now payload, call ≠ .push now payload) :
    Exists fun w' => w'.stream = w.stream ∧ w.base ≤ w'.base ∧
      Sender.Tracks w' (stack.call P call).sender ∧
      (stack.call P call).sender.cfg = stack.sender.cfg := by
  cases call with
  | push now payload => exact absurd rfl (quiet now payload)
  | ack now ackNumber cif fresh =>
      have cfg := congrArg Sender.Labels.cfg (Sender.handleAck_labels stack.sender now ackNumber cif)
      rw [Stack.call_ack_sender]
      rcases tracks.acknowledge now ackNumber cif with ⟨w', advanced, tracks'⟩
      exact ⟨w', advanced.stream, advanced.base_le, tracks', cfg⟩
  | nak now ranges =>
      rcases tracks.handleNak now ranges with ⟨w', rewanted, tracks'⟩
      exact ⟨w', rewanted.stream, rewanted.base.ge, tracks',
        (Sender.handleNak_numbering stack.sender now ranges).1⟩
  | timer now =>
      rcases tracks.onTimer now with ⟨w', advanced, _, tracks'⟩
      exact ⟨w', advanced.stream, advanced.base_le, tracks',
        (Sender.checkTlpktdrop_numbering stack.sender now).1⟩
  | transmit now =>
      rcases poll_tracks tracks now with ⟨w', stream, base, tracks', cfg⟩
      exact ⟨w', stream, base.ge, tracks', cfg⟩
  | data now packet => exact ⟨w, rfl, le_refl _, tracks, rfl⟩
  | ackAck now ackNumber ts => exact ⟨w, rfl, le_refl _, tracks, rfl⟩
  | dropRequest now msgNumber first last => exact ⟨w, rfl, le_refl _, tracks, rfl⟩
  | kmReq payload => exact ⟨w, rfl, le_refl _, tracks, rfl⟩
  | kmRsp payload => exact ⟨w, rfl, le_refl _, tracks, rfl⟩
  | anchor instant ts => exact ⟨w, rfl, le_refl _, tracks, rfl⟩
  | deliver now => exact ⟨w, rfl, le_refl _, tracks, rfl⟩

theorem Session.Sealed.step (sealed : t.Sealed P w) (call : Call) :
    Exists fun w' => (t.step P call).Sealed P w' := by
  by_cases pushes : Exists fun now => Exists fun payload => call = .push now payload
  · rcases pushes with ⟨now, payload, rfl⟩
    cases outcome : t.stack.sender.push P now payload t.stack.crypto with
    | ok result => exact sealed.push outcome
    | error err =>
        have large : t.stack.sender.cfg.maxPayload < payload.length := by
          unfold Sender.push at outcome
          split_ifs at outcome with large
          exact large
        have same : (t.step P (.push now payload)).stack = t.stack := by
          change t.stack.call P (.push now payload) = _
          unfold Stack.call
          dsimp only
          rw [outcome]
        refine ⟨w, sealed.of_stream_eq (same ▸ sealed.tracks) rfl (by rw [same]) ?_⟩
        change t.log.submitted ++ (t.stack.submission now payload).toList = _
        unfold submission
        rw [if_pos large]
        exact List.append_nil _
  · have quiet : forall now payload, call ≠ .push now payload :=
      fun now payload same => pushes ⟨now, payload, same⟩
    have silent : (t.step P call).log.submitted = t.log.submitted := by
      cases call with
      | push now payload => exact absurd rfl (quiet now payload)
      | _ => rfl
    rcases call_window (P := P) sealed.tracks quiet with ⟨w', stream, _, tracks, cfg⟩
    exact ⟨w', sealed.of_stream_eq tracks stream cfg silent⟩

/-- Every data packet that a poll emits shows a submission as it was sealed. -/
theorem Session.Sealed.emitted (sealed : t.Sealed P w) {now : Instant} {index : Option Nat}
    {pkt : DataPacket} (emits : (t.stack.poll now).2 = some (index, .data pkt)) :
    Exists fun sub => sub ∈ t.log.submitted ∧ pkt.seq = sub.seq ∧
      (Sender.sealPayload P sub.engine sub.seq sub.payload).2 = (pkt.encryption, pkt.payload) := by
  rcases poll_emits sealed.tracks emits with ⟨i, entry, again, _, _, found, rfl⟩
  rcases sealed.entries i entry found with ⟨sub, recorded, seq, sealing⟩
  exact ⟨sub, List.mem_of_getElem? recorded, seq.symm, sealing⟩

end Stack

/-! ## Receptions -/

namespace Receiver

theorem mem_resizeSlots {slots : List (Option Slot)} {size : Nat} {slot : Slot}
    (member : some slot ∈ resizeSlots slots size) : some slot ∈ slots := by
  unfold resizeSlots at member
  split_ifs at member
  · rcases List.mem_append.mp member with old | hole
    · exact old
    · cases (List.mem_replicate.mp hole).2
  · exact member

/-- A buffered packet was buffered before, or has just arrived. -/
theorem mem_ingest_slots {r : Receiver} {now : Instant} {pkt : DataPacket} {undecryptable : Bool}
    {slot : Slot} (member : some slot ∈ (r.ingest now pkt undecryptable).slots) :
    some slot ∈ r.slots ∨ slot.payload = pkt.payload ∧ slot.undecryptable = undecryptable := by
  unfold ingest at member
  split_ifs at member
  · exact Or.inl member
  · have clocked (s : Receiver) : s.selfClock.slots = s.slots :=
      congrArg Buffer.slots (selfClock_buffer s)
    have observed : ((r.countArrival pkt).observeTimestamp now pkt.timestamp).1.slots = r.slots := rfl
    dsimp only at member
    rw [clocked] at member
    rw [← observed]
    generalize ((r.countArrival pkt).observeTimestamp now pkt.timestamp).1 = s at member ⊢
    unfold storeData at member
    dsimp only at member
    split_ifs at member
    · exact Or.inl member
    · exact Or.inl member
    · exact Or.inl member
    · exact Or.inl (mem_resizeSlots member)
    · unfold occupy at member
      dsimp only at member
      rw [(noteArrival_detectGap _ _ _).1] at member
      rcases List.mem_or_eq_of_mem_set member with old | new
      · exact Or.inl (mem_resizeSlots old)
      · cases new
        exact Or.inr ⟨rfl, rfl⟩

theorem mem_handleDropreq_slots {r : Receiver} (now : Instant) {msgNumber : MsgNumber}
    {first last : SeqNumber} {slot : Slot}
    (member : some slot ∈ (r.handleDropreq now msgNumber first last).slots) :
    some slot ∈ r.slots := by
  have dropped {lo hi : Int} {slots : List (Option Slot)}
      (member : some slot ∈ dropMessage msgNumber lo hi slots) : some slot ∈ slots := by
    rcases List.mem_iff_getElem?.mp member with ⟨index, found⟩
    unfold dropMessage at found
    rw [List.getElem?_mapIdx] at found
    rcases Option.map_eq_some_iff.mp found with ⟨entry, before, kept⟩
    cases entry with
    | none => cases kept
    | some old =>
        dsimp only at kept
        split_ifs at kept
        cases kept
        exact List.mem_of_getElem? before
  unfold handleDropreq at member
  dsimp only at member
  split_ifs at member
  · exact member
  · exact member
  · exact member
  · exact dropped member
  · exact dropped member

theorem mem_popSlot_slots {r : Receiver} {first : Nat} {slot : Slot}
    (member : some slot ∈ (r.popSlot first).slots) : some slot ∈ r.slots := by
  unfold popSlot skipHole at member
  split_ifs at member
  · exact List.mem_of_mem_drop (List.mem_of_mem_drop member)
  · exact List.mem_of_mem_drop member

/-- Delivery removes packets, and what it returns was buffered and decryptable. -/
theorem deliverLoop_slots (anchor : Anchor) (now : Instant) (turns : Nat) (r : Receiver) :
    (forall slot, some slot ∈ (deliverLoop anchor now turns r).1.slots -> some slot ∈ r.slots) ∧
      forall payload, (deliverLoop anchor now turns r).2 = some payload ->
        Exists fun slot => some slot ∈ r.slots ∧ slot.undecryptable = false ∧
          slot.payload = payload := by
  induction turns generalizing r with
  | zero => exact ⟨fun _ member => member, fun _ returned => by cases returned⟩
  | succ turns ih =>
      unfold deliverLoop
      split
      · exact ⟨fun _ member => member, fun _ returned => by cases returned⟩
      case h_2 first found =>
        dsimp only
        split
        · exact ⟨fun _ member => member, fun _ returned => by cases returned⟩
        case h_2 slot content =>
          have present : some slot ∈ r.slots := by
            unfold slotAt at content
            rw [Option.join_eq_some_iff] at content
            exact List.mem_of_getElem? content
          split_ifs with early undecryptable
          · exact ⟨fun _ member => member, fun _ returned => by cases returned⟩
          · have rest := ih ((({ r with scanHint := first } : Receiver).popSlot first).countDropped)
            have popped (other : Slot)
                (member : some other ∈
                  (({ r with scanHint := first } : Receiver).popSlot first).countDropped.slots) :
                some other ∈ r.slots :=
              mem_popSlot_slots (r := { r with scanHint := first }) member
            constructor
            · intro other member
              exact popped other (rest.1 other member)
            · intro payload returned
              rcases rest.2 payload returned with ⟨other, member, facts⟩
              exact ⟨other, popped other member, facts⟩
          · constructor
            · intro other member
              exact mem_popSlot_slots (r := { r with scanHint := first }) member
            · intro payload returned
              cases returned
              exact ⟨slot, present, Bool.eq_false_iff.mpr undecryptable, rfl⟩

theorem pollDeliver_slots (r : Receiver) (now : Instant) :
    (forall slot, some slot ∈ (r.pollDeliver now).1.slots -> some slot ∈ r.slots) ∧
      forall payload, (r.pollDeliver now).2 = some payload ->
        Exists fun slot => some slot ∈ r.slots ∧ slot.undecryptable = false ∧
          slot.payload = payload := by
  unfold pollDeliver
  split
  · exact ⟨fun _ member => member, nofun⟩
  · exact deliverLoop_slots _ now _ r

end Receiver

/-- The payload that opening a reception yields. -/
def Reception.Yields (P : Primitives) (reception : Reception) (payload : Bytes) : Prop :=
  match reception.engine with
  | some engine =>
      (engine.decrypt P reception.packet.seq reception.packet.encryption
        reception.packet.payload).2 = .ok payload
  | none => reception.packet.encryption = .none ∧ reception.packet.payload = payload

/-- Every packet that will be delivered is the yield of a reception. -/
def Log.Explains (P : Primitives) (log : Log) (receiver : Receiver) : Prop :=
  forall slot, some slot ∈ receiver.slots -> slot.undecryptable = false ->
    Exists fun reception => reception ∈ log.received ∧ reception.Yields P slot.payload

section Explains

variable {P : Primitives} {log : Log} {r : Receiver}

theorem Log.Explains.of_slots (explains : log.Explains P r) {r' : Receiver} {log' : Log}
    (slots : forall slot, some slot ∈ r'.slots -> some slot ∈ r.slots)
    (received : forall reception, reception ∈ log.received -> reception ∈ log'.received) :
    log'.Explains P r' := by
  intro slot member decryptable
  rcases explains slot (slots slot member) decryptable with ⟨reception, recorded, yields⟩
  exact ⟨reception, received reception recorded, yields⟩

theorem Log.Explains.of_buffer_eq (explains : log.Explains P r) {r' : Receiver}
    (same : r'.buffer = r.buffer) {log' : Log} (received : log'.received = log.received) :
    log'.Explains P r' := by
  have slots : r'.slots = r.slots := congrArg Receiver.Buffer.slots same
  exact explains.of_slots (fun slot member => slots ▸ member) (fun _ member => received ▸ member)

theorem Log.Explains.pollDeliver (explains : log.Explains P r) (now : Instant) :
    log.Explains P (r.pollDeliver now).1 :=
  explains.of_slots (r.pollDeliver_slots now).1 fun _ member => member

/-- A packet that has just been opened is explained by the reception that is recorded. -/
theorem Log.Explains.ingestData (explains : log.Explains P r) (now : Instant)
    (crypto : Option Crypto) (packet : DataPacket) :
    ({ log with received := log.received ++ [⟨packet, crypto⟩] } : Log).Explains P
      (Connection.ingestData P now r crypto packet).1 := by
  have arrives (pkt : DataPacket) (undecryptable : Bool)
      (yields : undecryptable = false -> Reception.Yields P ⟨packet, crypto⟩ pkt.payload) :
      ({ log with received := log.received ++ [⟨packet, crypto⟩] } : Log).Explains P
        (r.ingest now pkt undecryptable) := by
    intro slot member decryptable
    rcases Receiver.mem_ingest_slots member with old | ⟨payload, kind⟩
    · rcases explains slot old decryptable with ⟨reception, recorded, opened⟩
      exact ⟨reception, List.mem_append_left _ recorded, opened⟩
    · refine ⟨⟨packet, crypto⟩, List.mem_append_right _ (List.mem_singleton.mpr rfl), ?_⟩
      rw [payload]
      exact yields (kind.symm.trans decryptable)
  unfold Connection.ingestData
  cases crypto with
  | none =>
      dsimp only
      split_ifs with clear
      · exact arrives _ false fun _ => ⟨clear, rfl⟩
      · exact arrives _ true nofun
  | some engine =>
      dsimp only
      split
      case h_1 after payload opened =>
        exact arrives _ false fun _ => congrArg Prod.snd opened
      case h_2 => exact arrives _ true nofun

end Explains

/-- Every call keeps the log an explanation. -/
theorem Stack.Session.step_explains {P : Primitives} {t : Stack.Session}
    (explains : t.log.Explains P t.stack.receiver) (call : Stack.Call) :
    (t.step P call).log.Explains P (t.step P call).stack.receiver := by
  cases call with
  | push now payload =>
      refine explains.of_buffer_eq ?_ rfl
      exact congrArg Receiver.buffer (Stack.call_push_receiver P t.stack now payload)
  | data now packet => exact explains.ingestData now t.stack.crypto packet
  | ack now ackNumber cif fresh =>
      refine explains.of_buffer_eq ?_ rfl
      exact congrArg Receiver.buffer (Stack.call_ack_receiver P t.stack now ackNumber cif fresh)
  | nak now ranges => exact explains
  | ackAck now ackNumber ts =>
      exact explains.of_buffer_eq (Receiver.handleAckack_buffer _ _ _ _) rfl
  | dropRequest now msgNumber first last =>
      exact explains.of_slots (fun slot member => Receiver.mem_handleDropreq_slots now member)
        fun _ member => member
  | kmReq payload => exact explains
  | kmRsp payload => exact explains
  | timer now => exact explains.of_buffer_eq (Receiver.onTimer_buffer _ _) rfl
  | anchor instant ts => exact explains.of_buffer_eq (Receiver.setHsAnchor_buffer _ _ _) rfl
  | transmit now =>
      have polled := Receiver.pollControl_buffer t.stack.receiver now
      rw [← Stack.poll_receiver] at polled
      exact explains.of_buffer_eq polled rfl
  | deliver now => exact explains.pollDeliver now

end Rsrt

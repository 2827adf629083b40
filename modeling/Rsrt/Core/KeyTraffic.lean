import Rsrt.Basis.Pipeline
import Rsrt.Core.Duplex
import Rsrt.Core.Outbox
import Rsrt.Core.Speech

namespace Rsrt

open Rsrt.Basis SeqNumber

/-!
# Keys and data on their way

What a packet in flight means for the peer's receiving slots: a KMREQ replaces them, every
other message leaves them alone, and data must be readable with the slots that the peer
has when the packet arrives.

A payload is encrypted when it is submitted and may wait in the buffer for long, while a
KMREQ waits for nothing.  So the packets in the buffer must be readable with the slots that
the peer will have after every message that is already on its way.  A refresh keeps this
unless a buffered packet uses the slot that it overwrites.
-/

/-- How a packet in flight changes the receiving slots; `accepted` are the payloads that
its sender took. -/
inductive Taken (P : Primitives) (a : Agreement) (accepted : List Bytes) :
    SlotPair CtrCipher -> Flying -> SlotPair CtrCipher -> Prop
  | keys {index : Option Nat} {packet : ControlPacket} {keys : SekSlot -> SecretKey}
      (slots : SlotPair CtrCipher)
      (message : packet.controlType = .kmReq (a.carrying P keys).encode) (sized : a.Sized keys) :
      Taken P a accepted slots (index, .control packet) (Agreement.held keys)
  | plain {index : Option Nat} {packet : ControlPacket} (slots : SlotPair CtrCipher)
      (message : packet.controlType.plain) :
      Taken P a accepted slots (index, .control packet) slots
  | data {index : Nat} {packet : DataPacket} {clear : Bytes} (slots : SlotPair CtrCipher)
      (submitted : accepted[index]? = some clear)
      (readable : clear ≠ [] ->
        Crypto.Opens P a.salt slots packet.seq packet.encryption packet.payload clear) :
      Taken P a accepted slots (some index, .data packet) slots

/-- The calls that the peer and the application make on the components, and how they
change the receiving slots.  A fresh key has the agreed length. -/
inductive Stack.Hears (P : Primitives) (a : Agreement) :
    SlotPair CtrCipher -> Call -> SlotPair CtrCipher -> Prop
  | keys {keys : SekSlot -> SecretKey} (slots : SlotPair CtrCipher) (sized : a.Sized keys) :
      Hears P a slots (.kmReq (a.carrying P keys).encode) (Agreement.held keys)
  | echo {payload : Bytes} (slots : SlotPair CtrCipher) (long : 4 < payload.length) :
      Hears P a slots (.kmRsp payload) slots
  | ack {now : Instant} {ackNumber : Nat} {cif : AckCif} {fresh : SecretKey}
      (slots : SlotPair CtrCipher) (sized : fresh.bytes.length = a.keyLen.bytes) :
      Hears P a slots (.ack now ackNumber cif fresh) slots
  | push (slots : SlotPair CtrCipher) (now : Instant) (payload : Bytes) :
      Hears P a slots (.push now payload) slots
  | data (slots : SlotPair CtrCipher) (now : Instant) (packet : DataPacket) :
      Hears P a slots (.data now packet) slots
  | nak (slots : SlotPair CtrCipher) (now : Instant) (ranges : List LossRange) :
      Hears P a slots (.nak now ranges) slots
  | ackAck (slots : SlotPair CtrCipher) (now : Instant) (ackNumber : Nat) (ts : Timestamp) :
      Hears P a slots (.ackAck now ackNumber ts) slots
  | dropRequest (slots : SlotPair CtrCipher) (now : Instant) (msgNumber : MsgNumber)
      (first last : SeqNumber) : Hears P a slots (.dropRequest now msgNumber first last) slots
  | timer (slots : SlotPair CtrCipher) (now : Instant) : Hears P a slots (.timer now) slots
  | anchor (slots : SlotPair CtrCipher) (instant : Instant) (ts : Timestamp) :
      Hears P a slots (.anchor instant ts) slots
  | transmit (slots : SlotPair CtrCipher) (now : Instant) : Hears P a slots (.transmit now) slots
  | deliver (slots : SlotPair CtrCipher) (now : Instant) : Hears P a slots (.deliver now) slots

section Arrivals

variable {P : Primitives} {a : Agreement} {accepted : List Bytes}
  {slots slots' : SlotPair CtrCipher}

theorem Taken.mono (payload : Bytes) {flying : Flying} (taken : Taken P a accepted slots flying slots') :
    Taken P a (accepted ++ [payload]) slots flying slots' := by
  cases taken with
  | keys _ message sized => exact .keys _ message sized
  | plain _ message => exact .plain _ message
  | data _ submitted readable =>
      refine .data _ ?_ readable
      rw [List.getElem?_append_left (List.getElem?_eq_some_iff.mp submitted).1]
      exact submitted

/-- Stamping leaves the contents alone. -/
theorem Taken.stamp {index : Option Nat} {packet : Packet}
    (taken : Taken P a accepted slots (index, packet) slots') (c : Connection) (now : Instant) :
    Taken P a accepted slots (index, c.stamp now packet) slots' := by
  cases taken with
  | keys _ message sized => exact .keys _ message sized
  | plain _ message => exact .plain _ message
  | data _ submitted readable => exact .data _ submitted readable

/-- What the arrival of a packet makes of the slots. -/
theorem Taken.heard {index : Option Nat} {packet : Packet}
    (taken : Taken P a accepted slots (index, packet) slots') (now : Instant) {draw : Draw}
    (sized : draw.key.bytes.length = a.keyLen.bytes) :
    Carries (Stack.Hears P a) slots (Connection.packetCalls now draw packet) slots' := by
  cases taken with
  | @keys _ packet _ _ message keysSized =>
      unfold Connection.packetCalls Connection.controlCalls
      dsimp only
      rw [message]
      exact .single (.keys _ keysSized)
  | data _ submitted readable => exact .single (.data _ _ _)
  | @plain _ packet _ message =>
      rcases packet with ⟨ts, dst, controlType⟩
      cases controlType with
      | kmReq payload => exact message.elim
      | kmRsp payload => exact .single (.echo _ message)
      | ack ackNumber cif => exact .single (.ack _ sized)
      | nak ranges => exact .single (.nak _ _ _)
      | ackAck ackNumber => exact .single (.ackAck _ _ _ _)
      | dropRequest msgNumber first last => exact .single (.dropRequest _ _ _ _ _)
      | handshake cif => exact .done _
      | shutdown => exact .done _
      | keepAlive => exact .done _
      | congestionWarning => exact .done _
      | peerError code => exact .done _

end Arrivals

theorem Crypto.Agrees.outstanding {a : Agreement} {c : Crypto} (agrees : c.Agrees a)
    (out : Option OutstandingKmReq) : ({ c with outstanding := out } : Crypto).Agrees a := by
  rcases agrees with ⟨salt, kek, keyLen, rxSalt, rxKek, secured, keys⟩
  exact ⟨salt, kek, keyLen, rxSalt, rxKek, secured, keys⟩

/-- An acknowledgement keeps to the agreement and to the receiving slots. -/
theorem Crypto.Agrees.acked {P : Primitives} {a : Agreement} {c : Crypto} (agrees : c.Agrees a)
    (now : Instant) (srttUs : Nat) {fresh : SecretKey}
    (sized : fresh.bytes.length = a.keyLen.bytes) :
    (c.onAck P now srttUs fresh).1.Agrees a ∧ (c.onAck P now srttUs fresh).1.rx = c.rx := by
  rcases @onAck_cases P c now srttUs fresh with ⟨_, out, acked⟩ | ⟨_, c', out, acked, moved⟩
  · rw [acked]
    exact ⟨(agrees.announce sized).outstanding out, rfl⟩
  · rw [acked]
    rcases moved with ⟨rfl, _⟩ | ticks
    · exact ⟨agrees.outstanding out, rfl⟩
    · exact ⟨(ticks.keeps.agrees agrees).outstanding out, ticks.keeps.rx⟩

namespace Stack

variable {P : Primitives} {a : Agreement} {slots slots' view : SlotPair CtrCipher}
  {accepted : List Bytes} {stack : Stack}

/-! ## The engine -/

/-- Components with an engine that kept to the agreement and holds the given receiving
slots. -/
structure Agreed (a : Agreement) (slots : SlotPair CtrCipher) (stack : Stack) : Prop where
  engine : Exists fun engine => stack.crypto = some engine ∧ engine.Agrees a ∧ engine.rx = slots
  reporting : stack.Reporting

/-- Sealing only counts. -/
theorem sealPayload_keeps {engine : Crypto} {seq : SeqNumber} {payload wirePayload : Bytes}
    {crypto : Option Crypto} {flags : EncryptionFlags}
    (sealing : Sender.sealPayload P (some engine) seq payload = (crypto, flags, wirePayload)) :
    Exists fun engine' => crypto = some engine' ∧ Crypto.Keeps engine engine' := by
  unfold Sender.sealPayload at sealing
  dsimp only at sealing
  split_ifs at sealing
  · cases sealing
    exact ⟨engine, rfl, .refl engine⟩
  · cases sealing
    exact ⟨_, rfl, Crypto.encrypt_keeps engine seq payload⟩

theorem Agreed.of_keeps {stack' : Stack} {engine engine' : Crypto}
    (keeps : Crypto.Keeps engine engine') (agrees : engine.Agrees a) (rx : engine.rx = slots)
    (crypto : stack'.crypto = some engine') (reporting : stack'.Reporting) :
    stack'.Agreed a slots :=
  ⟨⟨engine', crypto, keeps.agrees agrees, keeps.rx.trans rx⟩, reporting⟩

theorem Agreed.push (agreed : stack.Agreed a slots) (now : Instant) (payload : Bytes) :
    (stack.call P (.push now payload)).Agreed a slots := by
  have reporting : (stack.call P (.push now payload)).Reporting := agreed.reporting.push now payload
  rcases agreed.engine with ⟨engine, crypto, agrees, rx⟩
  revert reporting
  unfold Stack.call
  dsimp only
  split
  case h_1 ok =>
    rcases Sender.push_ok ok with ⟨_, flags, wirePayload, _, sealing⟩
    rw [crypto] at sealing
    rcases sealPayload_keeps sealing with ⟨engine', made, keeps⟩
    exact fun reporting => .of_keeps keeps agrees rx made reporting
  case h_2 => exact fun _ => agreed

/-- Reception leaves an engine alone that is secured. -/
theorem Agreed.data_crypto (agreed : stack.Agreed a slots) (now : Instant) (packet : DataPacket) :
    (stack.call P (.data now packet)).crypto = stack.crypto := by
  rcases agreed.engine with ⟨engine, crypto, agrees, rx⟩
  have same := @Crypto.decrypt_of_secured P engine agrees.secured packet.seq packet.encryption
    packet.payload
  change (Connection.ingestData P now stack.receiver stack.crypto packet).2 = _
  rw [Connection.ingestData_crypto, crypto, Option.map_some, same]

theorem Agreed.ack (agreed : stack.Agreed a slots) (now : Instant) (ackNumber : Nat) (cif : AckCif)
    {fresh : SecretKey} (sized : fresh.bytes.length = a.keyLen.bytes) :
    (stack.call P (.ack now ackNumber cif fresh)).Agreed a slots := by
  refine ⟨?_, agreed.reporting.ack now ackNumber cif fresh⟩
  rcases agreed.engine with ⟨engine, crypto, agrees, rx⟩
  unfold Stack.call
  dsimp only
  generalize stack.sender.handleAck now ackNumber cif = outcome
  rcases outcome with ⟨sender, err | reply⟩
  · exact ⟨engine, crypto, agrees, rx⟩
  · have acked := @Crypto.Agrees.acked P a engine agrees now sender.rtt.1 fresh sized
    refine ⟨(engine.onAck P now sender.rtt.1 fresh).1, ?_, acked.1, acked.2.trans rx⟩
    change (Connection.refreshKeys P stack.crypto now sender.rtt.1 fresh).1 = _
    rw [crypto]
    rfl

theorem Agreed.call (ideal : P.Ideal) (agreed : stack.Agreed a slots) {call : Call}
    (hears : Hears P a slots call slots') : (stack.call P call).Agreed a slots' := by
  have reporting := agreed.reporting.call (P := P) call
  have engine := agreed.engine
  cases hears with
  | @keys keys _ sized =>
      rcases engine with ⟨engine, crypto, agrees, rx⟩
      have installed := agrees.handleKmreq ideal sized
      refine ⟨⟨{ engine with rx := Agreement.held keys }, ?_, ?_, rfl⟩, reporting⟩
      · change stack.crypto.map
          (fun engine => (engine.handleKmreq P (a.carrying P keys).encode).1) = _
        rw [crypto, Option.map_some, installed]
      · rcases agrees with ⟨salt, kek, keyLen, rxSalt, rxKek, secured, keys⟩
        exact ⟨salt, kek, keyLen, rxSalt, rxKek, secured, keys⟩
  | @echo payload _ long =>
      rcases engine with ⟨engine, crypto, agrees, rx⟩
      have heard := @Crypto.Agrees.handleKmrsp P a engine agrees payload long
      refine ⟨⟨(engine.handleKmrsp payload).1, ?_, heard.1, heard.2.1.trans rx⟩, reporting⟩
      change stack.crypto.map (fun engine => (engine.handleKmrsp payload).1) = _
      rw [crypto]
      rfl
  | ack _ sized => exact agreed.ack _ _ _ sized
  | push _ now payload => exact agreed.push now payload
  | data _ now packet =>
      rcases engine with ⟨engine, crypto, agrees, rx⟩
      exact ⟨⟨engine, (agreed.data_crypto now packet).trans crypto, agrees, rx⟩, reporting⟩
  | nak _ now ranges => exact ⟨engine, reporting⟩
  | ackAck _ now ackNumber ts => exact ⟨engine, reporting⟩
  | dropRequest _ now msgNumber first last => exact ⟨engine, reporting⟩
  | timer _ now => exact ⟨engine, reporting⟩
  | anchor _ instant ts => exact ⟨engine, reporting⟩
  | transmit _ now =>
      rcases engine with ⟨engine, crypto, agrees, rx⟩
      exact ⟨⟨engine, (stack.poll_crypto now).trans crypto, agrees, rx⟩, reporting⟩
  | deliver _ now => exact ⟨engine, reporting⟩

theorem Agreed.calls (ideal : P.Ideal) (agreed : stack.Agreed a slots) {calls : List Call}
    (hears : Carries (Hears P a) slots calls slots') :
    (calls.foldl (Stack.call P) stack).Agreed a slots' := by
  induction hears generalizing stack with
  | done slots => exact agreed
  | more heard further ih => exact ih (agreed.call ideal heard)

/-! ## The buffer -/

/-- The window has one entry for each accepted payload, and those that are still buffered
suit their payloads. -/
structure Holds (Suits : Nat -> BufEntry -> Bytes -> Prop) (accepted : List Bytes)
    (w : SendWindow BufEntry) : Prop where
  count : w.stream.length = accepted.length
  entries : forall i entry clear, w.base ≤ i -> w.stream[i]? = some entry ->
    accepted[i]? = some clear -> Suits i entry clear

/-- The peer can read the buffered packets once it has the given slots. -/
abbrev Readable (P : Primitives) (a : Agreement) (accepted : List Bytes)
    (view : SlotPair CtrCipher) (initialSeq : SeqNumber) (w : SendWindow BufEntry) : Prop :=
  Holds (fun i entry clear => clear ≠ [] ->
    Crypto.Opens P a.salt view (wire initialSeq i) entry.encryption entry.payload clear) accepted w

/-- The peer will hold the sending keys and be able to read the buffer. -/
structure Sends (P : Primitives) (a : Agreement) (accepted : List Bytes)
    (view : SlotPair CtrCipher) (stack : Stack) : Prop where
  keys : forall engine, stack.crypto = some engine -> engine.Matches P a view
  window : Exists fun w => Sender.Tracks w stack.sender ∧
    Readable P a accepted view stack.sender.cfg.initialSeq w

/-- An acknowledgement that makes the engine announce a fresh key leaves no packet in the
buffer whose KK bits select the slot of that key. -/
def Careful (self : Stack) : Call -> Prop
  | .ack now ackNumber cif _ =>
      match self.sender.handleAck now ackNumber cif, self.crypto with
      | (sender, .ok _), some engine =>
          engine.announcing -> forall entry, entry ∈ sender.buffer ->
            Crypto.rxSlot entry.encryption ≠ some engine.active.other
      | _, _ => True
  | _ => True

instance (self : Stack) : (call : Call) -> Decidable (self.Careful call)
  | .ack now ackNumber cif _ =>
      match outcome : self.sender.handleAck now ackNumber cif, crypto : self.crypto with
      | (sender, .ok _), some engine =>
          decidable_of_iff (engine.announcing -> forall entry, entry ∈ sender.buffer ->
            Crypto.rxSlot entry.encryption ≠ some engine.active.other)
            (by simp only [Careful, outcome, crypto])
      | (_, .error _), _ => .isTrue (by simp only [Careful, outcome])
      | (_, .ok _), none => .isTrue (by simp only [Careful, outcome, crypto])
  | .push .. | .data .. | .nak .. | .ackAck .. | .dropRequest .. | .kmReq _ | .kmRsp _ | .timer _ |
    .anchor .. | .transmit _ | .deliver _ => .isTrue trivial

section Buffer

variable {initialSeq : SeqNumber} {w w' : SendWindow BufEntry}

theorem Holds.of_stream_eq {Suits : Nat -> BufEntry -> Bytes -> Prop}
    (holds : Holds Suits accepted w) (stream : w'.stream = w.stream) (later : w.base ≤ w'.base) :
    Holds Suits accepted w' where
  count := by rw [stream, holds.count]
  entries := by
    rw [stream]
    intro i entry clear above
    exact holds.entries i entry clear (le_trans later above)

/-- A submission adds the entry of its payload. -/
theorem Holds.submit {Suits : Nat -> BufEntry -> Bytes -> Prop} (holds : Holds Suits accepted w)
    {entry : BufEntry} {payload : Bytes} (suits : Suits w.stream.length entry payload) :
    Holds Suits (accepted ++ [payload]) (w.submit entry) where
  count := by
    change (w.stream ++ [entry]).length = _
    rw [List.length_append, List.length_append, holds.count]
    rfl
  entries := by
    intro i found clear above there submitted
    change (w.stream ++ [entry])[i]? = some found at there
    by_cases old : i < w.stream.length
    · rw [List.getElem?_append_left old] at there
      rw [List.getElem?_append_left (holds.count ▸ old)] at submitted
      exact holds.entries i found clear above there submitted
    · have last : i = w.stream.length := by
        have bound := (List.getElem?_eq_some_iff.mp there).1
        rw [List.length_append, List.length_singleton] at bound
        omega
      subst last
      rw [List.getElem?_concat_length] at there
      rw [holds.count, List.getElem?_concat_length] at submitted
      cases there
      cases submitted
      exact suits

/-- Other slots serve as well as long as every buffered packet finds its key there. -/
theorem Readable.of_slots (readable : Readable P a accepted view initialSeq w)
    {view' : SlotPair CtrCipher}
    (same : forall i entry slot, w.base ≤ i -> w.stream[i]? = some entry ->
      Crypto.rxSlot entry.encryption = some slot -> view'.get slot = view.get slot) :
    Readable P a accepted view' initialSeq w where
  count := readable.count
  entries := by
    intro i entry clear above there submitted content
    rcases readable.entries i entry clear above there submitted content with
      ⟨slot, cipher, selected, present, opens⟩
    exact ⟨slot, cipher, selected, (same i entry slot above there selected).trans present, opens⟩

end Buffer

section Sending

/-- Calls that submit nothing and leave the sending keys alone. -/
theorem Sends.of_call (sends : stack.Sends P a accepted view) {call : Call}
    (quiet : forall now payload, call ≠ .push now payload)
    (keys : forall engine', (stack.call P call).crypto = some engine' ->
      Exists fun engine => stack.crypto = some engine ∧
        (engine.Matches P a view -> engine'.Matches P a view)) :
    (stack.call P call).Sends P a accepted view := by
  constructor
  · intro engine' found
    rcases keys engine' found with ⟨engine, present, kept⟩
    exact kept (sends.keys engine present)
  · rcases sends.window with ⟨w, tracks, readable⟩
    rcases call_window (P := P) tracks quiet with ⟨w', stream, later, tracks', cfg⟩
    exact ⟨w', tracks', cfg ▸ readable.of_stream_eq stream later⟩

/-- What the engine seals now can be read with its keys. -/
theorem opens_sealed {engine : Crypto} (holds : engine.Matches P a view) (agrees : engine.Agrees a)
    {seq : SeqNumber} {payload wirePayload : Bytes} {crypto : Option Crypto}
    {flags : EncryptionFlags} (content : payload ≠ [])
    (sealing : Sender.sealPayload P (some engine) seq payload = (crypto, flags, wirePayload)) :
    Crypto.Opens P a.salt view seq flags wirePayload payload := by
  have opens := holds.opens_encrypt agrees seq payload
  unfold Sender.sealPayload at sealing
  dsimp only at sealing
  rw [if_neg (fun empty => content (List.isEmpty_iff.mp empty))] at sealing
  cases sealing
  exact opens

theorem Sends.push (sends : stack.Sends P a accepted view) (agreed : stack.Agreed a slots)
    {now : Instant} {payload : Bytes} {sender : Sender} {crypto : Option Crypto}
    (ok : stack.sender.push P now payload stack.crypto = .ok (sender, crypto)) :
    Sends P a (accepted ++ [payload]) view { stack with sender, crypto } := by
  rcases agreed.engine with ⟨engine, present, agrees, _⟩
  rcases sends.window with ⟨w, tracks, readable⟩
  rcases push_window tracks ok with ⟨room, entry, stream, later, tracks', cfg, sealing⟩
  have holds := sends.keys engine present
  rw [present] at sealing
  constructor
  · intro engine' made
    rcases sealPayload_keeps sealing with ⟨sealed, made', keeps⟩
    cases made.symm.trans made'
    exact keeps.matches holds
  · refine ⟨_, tracks', ?_⟩
    change Readable P a _ view sender.cfg.initialSeq _
    rw [cfg]
    have roomy := readable.of_stream_eq stream later
    rw [← stream] at sealing
    exact roomy.submit fun content => opens_sealed holds agrees content sealing

theorem Sends.ack (sends : stack.Sends P a accepted view) (agreed : stack.Agreed a slots)
    {now : Instant} {ackNumber : Nat} {cif : AckCif} {fresh : SecretKey}
    (sized : fresh.bytes.length = a.keyLen.bytes)
    (careful : stack.Careful (.ack now ackNumber cif fresh)) :
    Exists fun view' => a.Leads P view (stack.asks P (.ack now ackNumber cif fresh)) view' ∧
      (stack.call P (.ack now ackNumber cif fresh)).Sends P a accepted view' := by
  rcases agreed.engine with ⟨engine, present, agrees, _⟩
  rcases sends.window with ⟨w, tracks, readable⟩
  have cfg := congrArg Sender.Labels.cfg (Sender.handleAck_labels stack.sender now ackNumber cif)
  rcases tracks.acknowledge now ackNumber cif with ⟨w', advanced, tracks'⟩
  have later := readable.of_stream_eq advanced.stream advanced.base_le
  unfold Careful at careful
  unfold asks Stack.call
  dsimp only at careful ⊢
  rw [present] at careful ⊢
  generalize stack.sender.handleAck now ackNumber cif = outcome at careful cfg tracks' ⊢
  rcases outcome with ⟨sender, err | reply⟩
  · change sender.cfg = stack.sender.cfg at cfg
    refine ⟨view, .done view, ⟨fun other found => sends.keys other (present.trans found), ?_⟩⟩
    refine ⟨w', tracks', ?_⟩
    change Readable P a accepted view sender.cfg.initialSeq w'
    rw [cfg]
    exact later
  · change sender.cfg = stack.sender.cfg at cfg
    rcases agrees.onAck (sends.keys engine present) now sender.rtt.1 sized with
      ⟨_, _, view', leads, holds, same⟩
    refine ⟨view', leads, ⟨?_, w', tracks', ?_⟩⟩
    · intro engine' made
      cases made
      exact holds
    · change Readable P a accepted view' sender.cfg.initialSeq w'
      rw [cfg]
      apply Readable.of_slots later
      intro i entry slot above there selected
      apply same
      by_cases announces : engine.announcing
      -- The entry is in the buffer, so it does not use the slot that is overwritten.
      · rw [← tracks'.entry above] at there
        rcases Option.map_eq_some_iff.mp there with ⟨raw, buffered, rfl⟩
        have elsewhere := careful announces raw (List.mem_of_getElem? buffered)
        rcases slot.eq_or_eq_other engine.active with rfl | rfl
        · exact Or.inl rfl
        · exact absurd selected elsewhere
      · exact Or.inr announces

/-- The keys are not touched. -/
theorem kept_keys {stack' : Stack} (same : stack'.crypto = stack.crypto) :
    forall engine', stack'.crypto = some engine' ->
      Exists fun engine => stack.crypto = some engine ∧
        (engine.Matches P a view -> engine'.Matches P a view) :=
  fun engine' found => ⟨engine', same ▸ found, id⟩

theorem Sends.transmit (sends : stack.Sends P a accepted view) (now : Instant) :
    (stack.call P (.transmit now)).Sends P a accepted view :=
  sends.of_call (fun _ _ same => by cases same) (kept_keys (stack.poll_crypto now))

/-- What a poll emits suits the slots for which the buffer is readable. -/
theorem Sends.emits (sends : stack.Sends P a accepted view) (reporting : stack.Reporting)
    {now : Instant} {flying : Flying} (emits : (stack.poll now).2 = some flying) :
    Taken P a accepted view flying view := by
  rcases flying with ⟨index, packet⟩
  rcases (reporting.poll now).2 index packet emits with ⟨message, rfl, report⟩ | ⟨data, rfl⟩
  · exact .plain _ (ControlType.plain_of_isReport report)
  · rcases sends.window with ⟨w, tracks, readable⟩
    rcases poll_emits tracks emits with ⟨i, entry, again, rfl, above, found, rfl⟩
    have inside : i < accepted.length := readable.count ▸ (List.getElem?_eq_some_iff.mp found).1
    have submitted : accepted[i]? = some accepted[i] := List.getElem?_eq_getElem inside
    refine .data _ submitted fun content => ?_
    exact readable.entries i entry _ above found submitted content

/-- Every call but a submission keeps the buffer readable, with the slots that the peer
will have after the requests of the call. -/
theorem Sends.call (ideal : P.Ideal) (sends : stack.Sends P a accepted view)
    (agreed : stack.Agreed a slots) {call : Call} (hears : Hears P a slots call slots')
    (careful : stack.Careful call) (quiet : forall now payload, call ≠ .push now payload) :
    Exists fun view' => a.Leads P view (stack.asks P call) view' ∧
      (stack.call P call).Sends P a accepted view' := by
  have idle (crypto : (stack.call P call).crypto = stack.crypto) :
      (stack.call P call).Sends P a accepted view :=
    sends.of_call quiet (kept_keys crypto)
  cases hears with
  | push _ now payload => exact absurd rfl (quiet now payload)
  | ack _ sized => exact sends.ack agreed sized careful
  | @keys keys _ sized =>
      rcases agreed.engine with ⟨engine, crypto, agrees, rx⟩
      have installed := agrees.handleKmreq ideal sized
      refine ⟨view, .done view, sends.of_call quiet ?_⟩
      intro engine' made
      change stack.crypto.map (fun engine => (engine.handleKmreq P (a.carrying P keys).encode).1) = _
        at made
      rw [crypto, Option.map_some, installed] at made
      cases made
      exact ⟨engine, crypto, fun holds => ⟨holds.slots, holds.resends⟩⟩
  | @echo payload _ long =>
      rcases agreed.engine with ⟨engine, crypto, agrees, rx⟩
      have heard := @Crypto.Agrees.handleKmrsp P a engine agrees payload long
      refine ⟨view, .done view, sends.of_call quiet ?_⟩
      intro engine' made
      change stack.crypto.map (fun engine => (engine.handleKmrsp payload).1) = _ at made
      rw [crypto, Option.map_some] at made
      cases made
      exact ⟨engine, crypto, heard.2.2 view⟩
  | data _ now packet => exact ⟨view, .done view, idle (agreed.data_crypto now packet)⟩
  | nak _ now ranges => exact ⟨view, .done view, idle rfl⟩
  | ackAck _ now ackNumber ts => exact ⟨view, .done view, idle rfl⟩
  | dropRequest _ now msgNumber first last => exact ⟨view, .done view, idle rfl⟩
  | timer _ now => exact ⟨view, .done view, idle rfl⟩
  | anchor _ instant ts => exact ⟨view, .done view, idle rfl⟩
  | transmit _ now => exact ⟨view, .done view, sends.transmit now⟩
  | deliver _ now => exact ⟨view, .done view, idle rfl⟩

end Sending

end Stack

end Rsrt

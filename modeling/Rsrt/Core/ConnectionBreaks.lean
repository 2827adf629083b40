import Rsrt.Core.ConnectionSession
import Rsrt.Core.LinkFlow

namespace Rsrt

open Rsrt.Basis

/-!
# Links that cannot go on

A receiver that sees a sequence beyond anything it can buffer, and a sender that is
told of packets it never sent, raise a flag.  The connection looks at the flags on the
paths that can raise them and closes.  The replay of the data that arrived before the
handshake completed can raise one as well, and there nothing looks.
-/

/-! ## How the flag of the receiver is raised -/

namespace Receiver

variable {r : Receiver} {raised empty : Bool}

/-- Whether the flag is raised, and whether the scan of the whole ring finds no packet. -/
def Flags (r : Receiver) (raised empty : Bool) : Prop :=
  r.scanHint = 0 ∧ r.discrepancy = raised ∧ r.nothingBuffered = empty

theorem nothingBuffered_eq_false (zero : r.scanHint = 0) (index : Nat)
    (occupied : (slotAt r.slots index).isSome) : r.nothingBuffered = false := by
  by_contra nothing
  have vacant := slotAt_eq_none_of_nothingBuffered
    (fun before below => absurd (zero ▸ below) (Nat.not_lt_zero before))
    (Bool.eq_true_of_not_eq_false nothing) index
  rw [vacant] at occupied
  cases occupied

/-- Beyond the capacity a packet raises the flag of an empty ring; within it, it is stored. -/
theorem Flags.storeData (flags : r.Flags raised empty) (pkt : DataPacket) (extUs : Nat)
    (undecryptable : Bool) :
    if pkt.seq.diff r.baseSeq < 0 then (r.storeData pkt extUs undecryptable).Flags raised empty
    else if r.cfg.bufferPkts ≤ (pkt.seq.diff r.baseSeq).toNat then
      (r.storeData pkt extUs undecryptable).Flags (raised || empty) empty
    else (r.storeData pkt extUs undecryptable).Flags raised false := by
  have ⟨zero, flag, scan⟩ := flags
  unfold Receiver.storeData
  dsimp only
  split_ifs with belated beyond nothing occupied
  · exact flags
  · exact ⟨zero, by rw [← scan, nothing, Bool.or_true], scan⟩
  · exact ⟨zero, by rw [← scan, Bool.eq_false_iff.mpr nothing, Bool.or_false, flag], scan⟩
  · exact ⟨zero, flag, nothingBuffered_eq_false zero _ occupied⟩
  · generalize resized : { r with slots := resizeSlots r.slots _ } = r₁
    have ⟨slots, hint, kept⟩ := noteArrival_detectGap r₁ pkt.seq undecryptable
    have still : min ((r₁.detectGap pkt.seq undecryptable).noteArrival pkt.seq).scanHint
        (pkt.seq.diff r.baseSeq).toNat = 0 := by
      rw [hint, ← resized]
      exact Nat.min_eq_zero_iff.mpr (Or.inl zero)
    refine ⟨still, kept.trans (resized ▸ flag), nothingBuffered_eq_false still
      (pkt.seq.diff r.baseSeq).toNat ?_⟩
    rw [slotAt_occupy]
    · rfl
    · rw [slots, ← resized, length_resizeSlots]
      omega

theorem Flags.selfClock (flags : r.Flags raised empty) : r.selfClock.Flags raised empty := by
  unfold Receiver.selfClock queueLightAck
  dsimp only
  split_ifs <;> exact flags

/-- A packet that is too large or belated is left out. -/
theorem Flags.ingest (flags : r.Flags raised empty) (now : Instant) (pkt : DataPacket)
    (undecryptable : Bool) :
    if pkt.payload.length ≤ r.maxPayload ∧ 0 ≤ pkt.seq.diff r.baseSeq then
      if pkt.seq.diff r.baseSeq < r.cfg.bufferPkts then
        (r.ingest now pkt undecryptable).Flags raised false
      else (r.ingest now pkt undecryptable).Flags (raised || empty) empty
    else (r.ingest now pkt undecryptable).Flags raised empty := by
  have stored := Flags.storeData
    (r := ((r.countArrival pkt).observeTimestamp now pkt.timestamp).1) flags pkt
    (r.extender.extend pkt.timestamp now).2 undecryptable
  change if pkt.seq.diff r.baseSeq < 0 then _ else
    if r.cfg.bufferPkts ≤ (pkt.seq.diff r.baseSeq).toNat then _ else _ at stored
  unfold Receiver.ingest
  by_cases large : r.maxPayload < pkt.payload.length
  · rw [if_pos large, if_neg (by omega)]
    exact flags
  · rw [if_neg large]
    split_ifs at stored ⊢
    all_goals first | omega | exact stored.selfClock

end Receiver

/-- Neither component has raised its flag. -/
def Stack.Clean (stack : Stack) : Prop :=
  stack.receiver.sequenceDiscrepancy = false ∧ stack.sender.protocolViolation = false

instance (stack : Stack) : Decidable stack.Clean := inferInstanceAs (Decidable (_ ∧ _))

section Flags

variable {P : Primitives} {stack : Stack}

theorem Sender.push_violation {s next : Sender} {now : Instant} {payload : Bytes}
    {crypto crypto' : Option Crypto} (ok : s.push P now payload crypto = .ok (next, crypto')) :
    next.protocolViolation = s.protocolViolation := by
  rcases Sender.push_ok ok with ⟨_, flags, wirePayload, rfl, _⟩
  have same := congrArg Sender.protocolViolation (Sender.makeRoom_outside s now payload.length)
  exact same

theorem Sender.handleAck_violation (s : Sender) (now : Instant) (ackNumber : Nat) (cif : AckCif)
    {reply : Option Nat} (accepted : (s.handleAck now ackNumber cif).2 = .ok reply) :
    (s.handleAck now ackNumber cif).1.protocolViolation = s.protocolViolation := by
  by_cases sent : s.extOf cif.lastAckSeq ≤ s.nextSendIndex
  · exact congrArg Sender.Terms.protocolViolation (Sender.handleAck_terms now ackNumber sent)
  · rw [Sender.handleAck_of_beyond now ackNumber (not_le.mp sent)] at accepted
    cases accepted

/-- The calls that cannot raise a flag. -/
def Stack.Call.quiet : Stack.Call -> Bool
  | .data _ _ => false
  | .ack _ _ _ _ => false
  | .nak _ _ => false
  | _ => true

theorem Stack.Clean.poll (clean : stack.Clean) (now : Instant) : (stack.poll now).1.Clean := by
  have heard : (stack.receiver.pollControl now).1.sequenceDiscrepancy = false :=
    (@Receiver.call_discrepancy stack.receiver (.pollControl now) rfl).trans clean.1
  unfold Stack.poll
  split
  case h_1 evaluated =>
    rw [evaluated] at heard
    exact ⟨heard, clean.2⟩
  case h_2 evaluated =>
    rw [evaluated] at heard
    have sent (s : Sender) : (s.pollTransmitAt now).1.protocolViolation = s.protocolViolation :=
      congrArg Sender.Terms.protocolViolation (Sender.pollTransmitAt_terms s now)
    have said (next : Sender) (message : Option ControlType)
        (evaluated : stack.sender.pollControl = (next, message)) :
        next.protocolViolation = false := by
      have moved : stack.sender.pollControl.1 = next := congrArg Prod.fst evaluated
      rw [← moved]
      exact clean.2
    split
    case h_1 evaluated => exact ⟨heard, said _ _ evaluated⟩
    case h_2 evaluated => exact ⟨heard, (sent _).trans (said _ _ evaluated)⟩

theorem Stack.Clean.call (clean : stack.Clean) {call : Stack.Call} (quiet : call.quiet) :
    (stack.call P call).Clean := by
  have unraised (c : Receiver.Call) (dataless : c.arrives = false) :
      (stack.receiver.call c).1.sequenceDiscrepancy = false :=
    (Receiver.call_discrepancy stack.receiver dataless).trans clean.1
  cases call with
  | push now payload =>
      unfold Stack.call
      dsimp only
      split
      case h_1 ok => exact ⟨clean.1, (Sender.push_violation ok).trans clean.2⟩
      case h_2 => exact clean
  | data now packet => cases quiet
  | ack now ackNumber cif fresh => cases quiet
  | nak now ranges => cases quiet
  | ackAck now ackNumber ts => exact ⟨unraised (.handleAckack now ackNumber ts) rfl, clean.2⟩
  | dropRequest now msgNumber first last =>
      exact ⟨unraised (.handleDropreq now msgNumber first last) rfl, clean.2⟩
  | kmReq payload => exact clean
  | kmRsp payload => exact clean
  | timer now =>
      have same := congrArg Sender.protocolViolation (Sender.checkTlpktdrop_outside stack.sender now)
      exact ⟨unraised (.onTimer now) rfl, same.trans clean.2⟩
  | anchor instant ts => exact ⟨unraised (.setHsAnchor instant ts) rfl, clean.2⟩
  | transmit now => exact clean.poll now
  | deliver now => exact ⟨unraised (.pollDeliver now) rfl, clean.2⟩

theorem Stack.Clean.calls (clean : stack.Clean) {calls : List Stack.Call}
    (quiet : forall call, call ∈ calls -> call.quiet) : (calls.foldl (Stack.call P) stack).Clean := by
  induction calls generalizing stack with
  | nil => exact clean
  | cons call rest ih =>
      apply ih (clean.call (quiet call List.mem_cons_self))
      intro later member
      exact quiet later (List.mem_cons_of_mem call member)

end Flags

namespace Connection

/-- An established state has no flag raised. -/
def State.Unbroken : Connection.State -> Prop
  | .established sender receiver crypto => Stack.Clean { sender, receiver, crypto }
  | _ => True

instance : (state : Connection.State) -> Decidable state.Unbroken
  | .established sender receiver crypto =>
      inferInstanceAs (Decidable (Stack.Clean { sender, receiver, crypto }))
  | .connecting .. | .closed .. => .isTrue trivial

/-- The receiver's discrepancy flag and the sender's violation flag are down, if the
connection is established. -/
def Unbroken (self : Connection) : Prop := self.state.Unbroken

instance (self : Connection) : Decidable self.Unbroken :=
  inferInstanceAs (Decidable self.state.Unbroken)

section Inputs

variable {P : Primitives} {c : Connection} {stack : Stack}

theorem Shows.unbroken {state : Connection.State} (shows : Shows stack state)
    (clean : stack.Clean) : state.Unbroken := by
  cases shows with
  | established => exact clean
  | closed reason => exact trivial

theorem closeWith_unbroken (c : Connection) (now : Instant) (reason : CloseReason)
    (sendShutdown : Bool) : (c.closeWith now reason sendShutdown).Unbroken := by
  rcases c with ⟨state⟩
  unfold closeWith
  cases state <;> cases sendShutdown <;> exact trivial

theorem handleDataPacket_unbroken
    (is : c.state = .established stack.sender stack.receiver stack.crypto) (clean : stack.Clean)
    (now : Instant) (data : DataPacket) : (c.handleDataPacket P now data).Unbroken := by
  unfold handleDataPacket
  rw [is]
  dsimp only
  split_ifs with raised
  · exact closeWith_unbroken _ now _ _
  · exact ⟨Bool.eq_false_iff.mpr raised, clean.2⟩

theorem handleAck_unbroken (clean : stack.Clean) (now : Instant) (ackNumber : Nat) (cif : AckCif)
    (fresh : SecretKey) :
    (c.handleAck P stack.sender stack.receiver stack.crypto now ackNumber cif fresh).Unbroken := by
  have kept (reply : Option Nat) :=
    @Sender.handleAck_violation stack.sender now ackNumber cif reply
  unfold handleAck
  generalize stack.sender.handleAck now ackNumber cif = outcome at kept
  rcases outcome with ⟨sender, err | reply⟩
  · exact closeWith_unbroken _ now _ _
  · exact ⟨clean.1, (kept reply rfl).trans clean.2⟩

theorem handleNak_unbroken (clean : stack.Clean) (now : Instant) (ranges : List LossRange) :
    (c.handleNak stack.sender stack.receiver stack.crypto now ranges).Unbroken := by
  unfold handleNak
  dsimp only
  split_ifs with raised
  · exact closeWith_unbroken _ now _ _
  · exact ⟨clean.1, Bool.eq_false_iff.mpr raised⟩

theorem handleControlPacket_unbroken
    (is : c.state = .established stack.sender stack.receiver stack.crypto) (clean : stack.Clean)
    (now : Instant) (packet : ControlPacket) (draw : Draw) :
    (c.handleControlPacket P now packet draw).Unbroken := by
  have unraised (quiet : forall call, call ∈ controlCalls now packet draw -> call.quiet) :=
    (@handleControlPacket_shows P c stack is now packet draw).unbroken (clean.calls quiet)
  rcases packet with ⟨ts, dst, message⟩
  cases message with
  | ack ackNumber cif =>
      change (c.handleTransmissionControl P now ts _ draw.key).Unbroken
      unfold handleTransmissionControl
      rw [is]
      exact handleAck_unbroken clean now ackNumber cif draw.key
  | nak ranges =>
      change (c.handleTransmissionControl P now ts _ draw.key).Unbroken
      unfold handleTransmissionControl
      rw [is]
      exact handleNak_unbroken clean now ranges
  | handshake cif => exact unraised (List.forall_mem_nil _)
  | shutdown => exact unraised (List.forall_mem_nil _)
  | keepAlive => exact unraised (List.forall_mem_nil _)
  | congestionWarning => exact unraised (List.forall_mem_nil _)
  | peerError code => exact unraised (List.forall_mem_nil _)
  | kmReq payload => exact unraised (List.forall_mem_singleton.mpr rfl)
  | kmRsp payload => exact unraised (List.forall_mem_singleton.mpr rfl)
  | ackAck ackNumber => exact unraised (List.forall_mem_singleton.mpr rfl)
  | dropRequest msgNumber first last => exact unraised (List.forall_mem_singleton.mpr rfl)

/-- An established connection looks at the flags wherever they can be raised. -/
theorem handle_unbroken (is : c.state = .established stack.sender stack.receiver stack.crypto)
    (clean : stack.Clean) (input : Input) : (c.handle P input).Unbroken := by
  have unraised (quiet : forall call, call ∈ c.calls input -> call.quiet) :=
    (@handle_shows P c stack is input).unbroken (clean.calls quiet)
  cases input with
  | datagram now datagram draw =>
      cases datagram with
      | packet packet =>
          have touched : (c.touch now).state =
            .established stack.sender stack.receiver stack.crypto := is
          change (c.handlePacket P now packet draw).Unbroken
          unfold handlePacket
          rw [is]
          dsimp only
          split_ifs
          · unfold Unbroken
            rw [is]
            exact clean
          · cases packet with
            | data data => exact handleDataPacket_unbroken touched clean now data
            | control packet => exact handleControlPacket_unbroken touched clean now packet draw
      | unknownControlType => exact unraised (List.forall_mem_nil _)
      | undecodable => exact unraised (List.forall_mem_nil _)
  | timer now => exact unraised (List.forall_mem_singleton.mpr rfl)
  | send now payload => exact unraised (List.forall_mem_singleton.mpr rfl)
  | close now => exact unraised (List.forall_mem_nil _)
  | setHsAnchor instant ts => exact unraised (List.forall_mem_singleton.mpr rfl)
  | pollTransmit now =>
      apply unraised
      unfold calls
      dsimp only
      split_ifs
      · exact List.forall_mem_singleton.mpr rfl
      · exact List.forall_mem_nil _
  | pollDeliver now => exact unraised (List.forall_mem_singleton.mpr rfl)

/-- The first early packet that is neither too large nor behind the initial sequence, if there
is one, lies within the receive buffer. -/
def earlyFits (initialSeq : SeqNumber) (bufferPkts maxPayload : Nat) :
    List (Instant × DataPacket) -> Bool
  | [] => true
  | (_, data) :: rest =>
      if data.payload.length ≤ maxPayload ∧ 0 ≤ data.seq.diff initialSeq then
        data.seq.diff initialSeq < (bufferPkts : Int)
      else earlyFits initialSeq bufferPkts maxPayload rest

/-- If the input completes the handshake, then the early data fits what was negotiated. -/
def EarlyFits (P : Primitives) (s : Session) (input : Input) : Prop :=
  (match s.conn.completes P input, s.conn.state with
    | some (_, _, negotiated), .connecting _ _ earlyData =>
        earlyFits negotiated.recvInitialSeq (scaledRecvBuffer s.conn.opts negotiated.rcvLatency)
          (negotiatedPayload negotiated s.conn.opts) earlyData
    | _, _ => true) = true

instance (P : Primitives) (s : Session) (input : Input) : Decidable (EarlyFits P s input) :=
  inferInstanceAs (Decidable (_ = true))

/-- The replay raises the flag of an empty receiver exactly if the early data does not fit. -/
theorem replayEarly_discrepancy {r : Receiver} {raised empty : Bool}
    (flags : r.Flags raised empty) (crypto : Option Crypto)
    (earlyData : List (Instant × DataPacket)) :
    (replayEarly P r crypto earlyData).1.discrepancy =
      (raised || empty && !earlyFits r.baseSeq r.cfg.bufferPkts r.maxPayload earlyData) := by
  induction earlyData generalizing r crypto raised empty with
  | nil => rw [replayEarly, earlyFits, flags.2.1, Bool.not_true, Bool.and_false, Bool.or_false]
  | cons early rest ih =>
      rcases ingestData_arrives P early.1 r crypto early.2 with
        ⟨pkt, lost, seq, size, same⟩
      have arrives := flags.ingest early.1 pkt lost
      have frame := Receiver.ingest_arrivalFrame r early.1 pkt lost
      rw [← same, seq, size] at arrives
      rw [← same] at frame
      rw [replayEarly, earlyFits]
      dsimp only
      generalize ingestData P early.1 r crypto early.2 = after at arrives frame ⊢
      have base := congrArg Receiver.baseSeq frame
      have cfg := congrArg Receiver.cfg frame
      have limit := congrArg Receiver.maxPayload frame
      unfold Receiver.arrivalFrame at base cfg limit
      dsimp only at base cfg limit
      rw [← base, ← cfg, ← limit] at arrives ⊢
      split_ifs at arrives ⊢ with counts fits
      · rw [ih arrives, decide_eq_true fits]
        cases raised <;> cases empty <;> rfl
      · rw [ih arrives, decide_eq_false fits]
        cases raised <;> cases empty <;> rfl
      · exact ih arrives _

theorem flushPending_violation (now : Instant) (sender : Sender) (crypto : Option Crypto)
    (pendingSend : List Bytes) :
    (flushPending P now sender crypto pendingSend).1.protocolViolation =
      sender.protocolViolation := by
  induction pendingSend generalizing sender crypto with
  | nil => rfl
  | cons payload rest ih =>
      rw [flushPending]
      split
      case h_1 ok => exact (ih _ _).trans (Sender.push_violation ok)
      case h_2 => exact ih _ _

/-- Establishment raises no flag exactly if the early data fits. -/
theorem handle_completes_unbroken {input : Input} {now : Instant} {hsTs : Timestamp}
    {negotiated : Negotiated} (completed : c.completes P input = some (now, hsTs, negotiated))
    {hs : CallerHandshake} {pendingSend : List Bytes} {earlyData : List (Instant × DataPacket)}
    (connecting : c.state = .connecting hs pendingSend earlyData) :
    (c.handle P input).Unbroken ↔
      earlyFits negotiated.recvInitialSeq (scaledRecvBuffer c.opts negotiated.rcvLatency)
        (negotiatedPayload negotiated c.opts) earlyData := by
  have opened := handle_completes connecting completed rfl
  unfold openingCalls at opened
  rw [List.foldl_cons, List.foldl_append, replayEarly_eq, flushPending_eq] at opened
  have flags : ((c.opening now negotiated).call P (.anchor now hsTs)).receiver.Flags false true :=
    ⟨rfl, rfl, rfl⟩
  have replayed := replayEarly_discrepancy (P := P) flags negotiated.crypto earlyData
  unfold Unbroken
  rw [opened]
  refine (and_iff_left (flushPending_violation now _ _ pendingSend)).trans ?_
  change (replayEarly P _ negotiated.crypto earlyData).1.discrepancy = false ↔ _
  rw [replayed, Bool.false_or, Bool.true_and, Bool.not_eq_false']
  rfl

/-- One input keeps an unbroken connection unbroken exactly if the early data fits. -/
theorem next_unbroken {s : Session} (unbroken : s.conn.Unbroken) (input : Input) :
    (s.next P input).conn.Unbroken ↔ EarlyFits P s input := by
  change (s.conn.handle P input).Unbroken ↔ _
  unfold EarlyFits
  rcases completed : s.conn.completes P input with _ | ⟨now, hsTs, negotiated⟩
  · refine iff_of_true ?_ rfl
    rcases state : s.conn.state with ⟨hs, pendingSend, earlyData⟩ | ⟨sender, receiver, crypto⟩ |
      ⟨reason, kept⟩
    · have goes_on := handle_goesOn state completed
      unfold Unbroken
      generalize (s.conn.handle P input).state = after at goes_on
      cases goes_on <;> exact trivial
    · unfold Unbroken at unbroken
      rw [state] at unbroken
      exact @handle_unbroken P s.conn { sender, receiver, crypto } state unbroken input
    · unfold Unbroken
      rcases @handle_closed P s.conn reason kept state input with same | ⟨_, receiver, _, polled⟩
      · rw [same]
        exact trivial
      · rw [polled]
        exact trivial
  · rcases connecting_of_completes completed with ⟨hs, pendingSend, earlyData, connecting⟩
    rw [connecting]
    exact handle_completes_unbroken completed connecting

theorem Opening.unbroken {s : Session} (opening : Opening P s) : s.conn.Unbroken := by
  cases opening with
  | caller => exact trivial
  | listener => exact ⟨rfl, rfl⟩

end Inputs

/-- In every run in which the early data fits, an established connection has no flag raised, and
the next input keeps it that way exactly if the early data fits. -/
theorem broken_links_closed {P : Primitives} {history : List (Session × Input)} {s : Session}
    (run : ((machine P).restrict (EarlyFits P)).Run history s) :
    s.conn.Unbroken ∧
      forall input, (s.next P input).conn.Unbroken ↔ EarlyFits P s input := by
  have unbroken : s.conn.Unbroken := by
    refine run.invariant (fun s => s.conn.Unbroken) (fun s opening => opening.unbroken) ?_
    intro s input before allowed
    exact (next_unbroken before input).mpr allowed.2
  exact ⟨unbroken, next_unbroken unbroken⟩

/-! ## A packet that races far ahead of the response -/

/-- A data packet for the caller. -/
def sampleData (seq : Nat) : Packet :=
  .data { plainPacket (.new seq) 0 [1] with dstSocketId := ⟨1⟩ }

/-- A caller that gets a data packet between the two responses of the handshake. -/
def racingInputs (seq : Nat) : List Input :=
  [sampleInduced, .datagram 2000 (.packet (sampleData seq)) sampleDraw, sampleConcluded []]

/-- The packet is beyond the receive buffer, and the connection is established all the same. -/
theorem established_beyond_buffer :
    Exists fun history => Exists fun s => (machine .sample).Run history s ∧
      s.conn.connState = .established ∧ ¬s.conn.Unbroken :=
  ⟨_, _, Machine.run_exec sampleCaller_opening
      (by decide +kernel : (machine .sample).Allowed sampleCaller (racingInputs 9000)),
    by decide +kernel, by decide +kernel⟩

theorem broken_links_closed_racing :
    let s := (machine .sample).exec sampleCaller (racingInputs 3)
    s.conn.connState = .established ∧ s.conn.Unbroken :=
  ⟨by decide +kernel,
    (broken_links_closed (Machine.run_exec (M := (machine .sample).restrict (EarlyFits .sample))
      sampleCaller_opening (by decide +kernel :
        ((machine .sample).restrict (EarlyFits .sample)).Allowed sampleCaller
          (racingInputs 3)))).1⟩

end Connection

end Rsrt

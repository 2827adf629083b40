import Rsrt.Core.Link
import Rsrt.Core.ReceiverAcks
import Rsrt.Core.SenderSession

namespace Rsrt

open Rsrt.Basis SeqNumber

/-!
# The joint invariant of a link

The sender stands for a send window and the receiver for a receive window, over
the same unwrapped positions.  The invariant ties the two windows together through
what is on the network: every packet in flight tells the truth about the sender's
stream, nothing on the way names a position that the sender has not passed, and
what the receiver holds or has handed out is what was pushed.
-/

namespace Receiver

theorem arrivalWindow_top_le (r : Receiver) (w : ReceiveWindow Slot) (now : Instant)
    (pkt : DataPacket) (point : Int) (undecryptable : Bool) :
    (arrivalWindow r w now pkt point undecryptable).top ≤ max w.top point := by
  unfold arrivalWindow ReceiveWindow.accept
  split_ifs
  · exact le_max_left _ _
  · exact le_refl _
  · exact le_max_left _ _

theorem dropWindow_top_le (w : ReceiveWindow Slot) (msgNumber : MsgNumber) (lo hi : Int) :
    (dropWindow w msgNumber lo hi).top ≤ max w.top hi := by
  unfold dropWindow
  split_ifs
  · change (if _ ∧ _ then _ else _) ≤ _
    split_ifs
    · exact le_max_right _ _
    · exact le_max_left _ _
  · exact le_max_left _ _

end Receiver

namespace Link

/-- What a control message on the network may say, given that the sender's next
first transmission is `limit`. -/
inductive Truthful (origin : SeqNumber) (limit : Int) : Carried -> Prop
  | ack (ackNumber : Nat) {cif : AckCif} {position : Int}
      (seq : cif.lastAckSeq = wire origin position) (sent : position ≤ limit) :
      Truthful origin limit ⟨.ack ackNumber cif, [position]⟩
  | nak (spans : List (Int × Int))
      (sent : forall span, span ∈ spans -> span.1 ≤ span.2 ∧ span.2 < limit) :
      Truthful origin limit
        ⟨.nak (spans.map (Receiver.wireRange origin)), spans.flatMap fun span => [span.1, span.2]⟩
  | dropRequest {lo hi : Int} (ordered : lo ≤ hi) (passed : hi < limit) :
      Truthful origin limit
        ⟨.dropRequest (MsgNumber.new 0) (wire origin lo) (wire origin hi), [lo, hi]⟩
  | ackAck (ackNumber : Nat) : Truthful origin limit ⟨.ackAck ackNumber, []⟩

theorem Truthful.mono {origin : SeqNumber} {limit limit' : Int} {sent : Carried}
    (truthful : Truthful origin limit sent) (grows : limit ≤ limit') :
    Truthful origin limit' sent := by
  cases truthful with
  | ack ackNumber seq sent => exact .ack ackNumber seq (le_trans sent grows)
  | nak spans sent =>
      exact .nak spans fun span member =>
        ⟨(sent span member).1, lt_of_lt_of_le (sent span member).2 grows⟩
  | dropRequest ordered passed => exact .dropRequest ordered (lt_of_lt_of_le passed grows)
  | ackAck ackNumber => exact .ackAck ackNumber

/-- The data packet is a transmission of this stream position. -/
def Transmits (origin : SeqNumber) (stream : List BufEntry) (index : Nat) (pkt : DataPacket) :
    Prop :=
  Exists fun entry => Exists fun retransmitted => stream[index]? = some entry ∧
    pkt = entry.packet (wire origin index) retransmitted

/-- What was handed out is what was pushed at strictly increasing indices, all
below `limit`. -/
def Delivers (pushed delivered : List Bytes) (limit : Int) : Prop :=
  Exists fun indices : List Nat => indices.Pairwise (· < ·) ∧
    (forall i, i ∈ indices -> (i : Int) < limit) ∧
    delivered.map some = indices.map fun i => pushed[i]?

theorem Delivers.mono {pushed pushed' delivered : List Bytes} {limit limit' : Int}
    (delivers : Delivers pushed delivered limit) (longer : pushed <+: pushed')
    (grows : limit ≤ limit') : Delivers pushed' delivered limit' := by
  rcases delivers with ⟨indices, increasing, below, same⟩
  refine ⟨indices, increasing, fun i member => lt_of_lt_of_le (below i member) grows, ?_⟩
  rw [same]
  apply List.map_congr_left
  intro i member
  have found : pushed[i]? ∈ delivered.map some := by
    rw [same]
    exact List.mem_map_of_mem member
  rcases List.mem_map.mp found with ⟨payload, _, equal⟩
  rcases longer with ⟨rest, rfl⟩
  rw [← equal, List.getElem?_append_left (List.getElem?_eq_some_iff.mp equal.symm).1, equal]

theorem Delivers.snoc {pushed delivered : List Bytes} {limit : Int} {index : Nat}
    {payload : Bytes} (delivers : Delivers pushed delivered limit) (ahead : limit ≤ index)
    (found : pushed[index]? = some payload) :
    Delivers pushed (delivered ++ [payload]) (index + 1) := by
  rcases delivers with ⟨indices, increasing, below, same⟩
  refine ⟨indices ++ [index], ?_, ?_, ?_⟩
  · refine List.pairwise_append.mpr ⟨increasing, List.pairwise_singleton _ _, ?_⟩
    intro i left j right
    have old := below i left
    rw [List.mem_singleton.mp right]
    omega
  · intro i member
    rcases List.mem_append.mp member with old | new
    · have := below i old
      omega
    · rw [List.mem_singleton.mp new]
      omega
  · rw [List.map_append, List.map_append, same]
    simp only [List.map_cons, List.map_nil, found]

structure Tracked (l : Link) (ws : SendWindow BufEntry) (wr : ReceiveWindow Slot) : Prop where
  sender : Sender.Tracks ws l.sender
  receiver : l.session.Tracked wr
  origin : l.session.receiver.cfg.initialSeq = l.sender.cfg.initialSeq
  stream : ws.stream.map BufEntry.payload = l.pushed
  data : forall index pkt, (index, pkt) ∈ l.data ->
    index < ws.next ∧ Transmits l.sender.cfg.initialSeq ws.stream index pkt
  forward : forall sent, sent ∈ l.forward -> Truthful l.sender.cfg.initialSeq ws.next sent
  backward : forall sent, sent ∈ l.backward -> Truthful l.sender.cfg.initialSeq ws.next sent
  /-- The receiver has heard of nothing that the sender has not passed. -/
  top : wr.top < ws.next
  held : forall point slot, wr.held point = some slot ->
    l.pushed[point.toNat]? = some slot.payload
  delivers : Delivers l.pushed l.delivered wr.base
  honest : l.sender.protocolViolation = false

theorem tracked_new (now : Instant) {sender : SenderConfig} {receiver : ReceiverConfig}
    (same : receiver.initialSeq = sender.initialSeq) :
    (new now sender receiver).Tracked SendWindow.start (ReceiveWindow.start 0) where
  sender := Sender.tracks_new sender
  receiver := Receiver.start_tracked (Receiver.start_new now receiver)
  origin := same
  stream := rfl
  data := fun _ _ member => absurd member List.not_mem_nil
  forward := fun _ member => absurd member List.not_mem_nil
  backward := fun _ member => absurd member List.not_mem_nil
  top := by
    change (0 : Int) - 1 < ((0 : Nat) : Int)
    decide
  held := fun _ _ impossible => absurd impossible (by simp [ReceiveWindow.start])
  delivers := ⟨[], List.Pairwise.nil, fun _ member => absurd member List.not_mem_nil, rfl⟩
  honest := rfl

section Steps

variable {l : Link} {ws : SendWindow BufEntry} {wr : ReceiveWindow Slot}

theorem Tracked.base_nonneg (tracked : l.Tracked ws wr) : 0 ≤ wr.base := by
  have conserved := tracked.receiver.conserved
  omega

/-! ## Steps of the sender -/

/-- A step of the sender extends the stream and the network, and leaves the
receiver alone. -/
theorem Tracked.of_sender (tracked : l.Tracked ws wr) {l' : Link} {ws' : SendWindow BufEntry}
    (session : l'.session = l.session) (backward : l'.backward = l.backward)
    (tracks : Sender.Tracks ws' l'.sender) (later : SendWindow.Later ws ws')
    (cfg : l'.sender.cfg = l.sender.cfg) (honest : l'.sender.protocolViolation = false)
    (stream : ws'.stream.map BufEntry.payload = l'.pushed)
    (data : forall index pkt, (index, pkt) ∈ l'.data -> (index, pkt) ∈ l.data ∨
      index < ws'.next ∧ Transmits l.sender.cfg.initialSeq ws'.stream index pkt)
    (forward : forall sent, sent ∈ l'.forward -> sent ∈ l.forward ∨
      Truthful l.sender.cfg.initialSeq ws'.next sent) :
    l'.Tracked ws' wr := by
  have grows : (ws.next : Int) ≤ ws'.next := Int.ofNat_le.mpr later.next_le
  have longer : l.pushed <+: l'.pushed := by
    rw [← tracked.stream, ← stream]
    exact later.isPrefix.map BufEntry.payload
  constructor
  · exact tracks
  · rw [session]
    exact tracked.receiver
  · rw [session, cfg]
    exact tracked.origin
  · exact stream
  · intro index pkt member
    rw [cfg]
    rcases data index pkt member with old | new
    · rcases tracked.data index pkt old with ⟨below, entry, retransmitted, found, same⟩
      exact ⟨lt_of_lt_of_le below later.next_le, entry, retransmitted, later.getElem? found, same⟩
    · exact new
  · intro sent member
    rw [cfg]
    rcases forward sent member with old | new
    · exact (tracked.forward sent old).mono grows
    · exact new
  · intro sent member
    rw [cfg]
    rw [backward] at member
    exact (tracked.backward sent member).mono grows
  · exact lt_of_lt_of_le tracked.top grows
  · intro point slot present
    have found := tracked.held point slot present
    rcases longer with ⟨rest, equal⟩
    rw [← equal, List.getElem?_append_left (List.getElem?_eq_some_iff.mp found).1]
    exact found
  · unfold delivered
    rw [session]
    exact tracked.delivers.mono longer (le_refl _)
  · exact honest

/-- What `sends` puts on the network is what the new sender has queued. -/
theorem mem_sends_forward {sender : Sender} {locate : ControlType -> List Int}
    {news : List ControlType} (queue : sender.controlQueue = l.sender.controlQueue ++ news)
    {sent : Carried} (member : sent ∈ (l.sends sender locate).forward) :
    sent ∈ l.forward ∨ Exists fun message => message ∈ news ∧
      sent = ⟨message, locate message⟩ := by
  change sent ∈ l.forward ++ _ at member
  rw [queue, List.drop_left] at member
  rcases List.mem_append.mp member with old | new
  · exact Or.inl old
  · rcases List.mem_map.mp new with ⟨message, present, same⟩
    exact Or.inr ⟨message, present, same.symm⟩

/-- The request of a too-late drop names positions that have left the window. -/
theorem Tracked.lateRequest (tracked : l.Tracked ws wr) {now : Instant} {message : ControlType}
    (member : message ∈ l.sender.lateRequest now) {limit : Int}
    (passed : ((ws.base + l.sender.tlpktdropCount now : Nat) : Int) ≤ limit) :
    Truthful l.sender.cfg.initialSeq limit ⟨message, lateSpan l.sender now message⟩ := by
  have base := tracked.sender.base
  unfold Sender.lateRequest at member
  split_ifs at member with some
  · have last : ((l.sender.baseIndex + l.sender.tlpktdropCount now - 1 : Nat) : Int) =
        (l.sender.baseIndex : Int) + l.sender.tlpktdropCount now - 1 := by omega
    rw [List.mem_singleton.mp member, Sender.seqAt_eq, Sender.seqAt_eq, last]
    exact .dropRequest (by omega) (by omega)
  · exact absurd member List.not_mem_nil

theorem Tracked.push (tracked : l.Tracked ws wr) {P : Primitives} {now : Instant}
    {payload : Bytes} {sender : Sender} {crypto : Option Crypto}
    (ok : l.sender.push P now payload none = .ok (sender, crypto)) :
    Exists fun room => Exists fun entry => SendWindow.Advanced ws room ∧
      Sender.Tracks room (l.sender.makeRoom now payload.length) ∧
      ws.base + l.sender.tlpktdropCount now ≤ room.base ∧
      Tracked { l.sends sender (lateSpan l.sender now) with pushed := l.pushed ++ [payload] }
        (room.submit entry) wr := by
  rcases Sender.push_ok ok with ⟨_, flags, wirePayload, rfl, sealing⟩
  have unchanged : wirePayload = payload := (congrArg (fun out => out.2.2) sealing).symm
  rcases tracked.sender.makeRoom now payload.length with ⟨room, advanced, late, tracks⟩
  have terms := Sender.terms_of_outside_eq
    (Sender.makeRoom_outside l.sender now payload.length)
  have queue := Sender.makeRoom_controlQueue l.sender now payload.length
  refine ⟨room, (l.sender.makeRoom now payload.length).submitted now flags wirePayload, advanced,
    tracks, late, ?_⟩
  refine tracked.of_sender rfl rfl (tracks.append now flags wirePayload)
    (advanced.later.trans (room.later_submit _)) (congrArg Sender.Terms.cfg terms)
    ((congrArg Sender.Terms.protocolViolation terms).trans tracked.honest) ?_ ?_ ?_
  · change (room.stream ++ [_]).map BufEntry.payload = l.pushed ++ [payload]
    rw [List.map_append, advanced.stream, tracked.stream, ← unchanged]
    rfl
  · exact fun index pkt member => Or.inl member
  · intro sent member
    rcases mem_sends_forward queue member with old | ⟨message, new, rfl⟩
    · exact Or.inl old
    · apply Or.inr
      apply tracked.lateRequest new
      exact Int.ofNat_le.mpr (le_trans late room.base_le)

theorem Tracked.senderOnTimer (tracked : l.Tracked ws wr) (now : Instant) :
    Exists fun ws' => SendWindow.Advanced ws ws' ∧
      ws'.base = ws.base + l.sender.tlpktdropCount now ∧
      Tracked (l.sends (l.sender.onTimer now) (lateSpan l.sender now)) ws' wr := by
  rcases tracked.sender.onTimer now with ⟨ws', advanced, base, tracks⟩
  have terms := Sender.terms_of_outside_eq (Sender.checkTlpktdrop_outside l.sender now)
  have queue := Sender.onTimer_controlQueue l.sender now
  refine ⟨ws', advanced, base, ?_⟩
  refine tracked.of_sender rfl rfl tracks advanced.later (congrArg Sender.Terms.cfg terms)
    ((congrArg Sender.Terms.protocolViolation terms).trans tracked.honest) ?_
    (fun _ _ member => Or.inl member) ?_
  · rw [advanced.stream]
    exact tracked.stream
  · intro sent member
    rcases mem_sends_forward queue member with old | ⟨message, new, rfl⟩
    · exact Or.inl old
    · apply Or.inr
      apply tracked.lateRequest new
      rw [← base]
      exact Int.ofNat_le.mpr ws'.base_le

theorem Tracked.pollTransmit (tracked : l.Tracked ws wr) (now : Instant) :
    Exists fun ws' =>
      Sender.Emits l.sender.cfg.initialSeq ws ws' (l.sender.pollTransmitAt now).2 ∧
      Tracked { l with
        sender := (l.sender.pollTransmitAt now).1
        data := l.data ++ (l.sender.pollTransmitAt now).2.toList } ws' wr := by
  rcases tracked.sender.pollTransmitAt now with ⟨ws', tracks, emits⟩
  have terms := Sender.pollTransmitAt_terms l.sender now
  have later := emits.later
  refine ⟨ws', emits, ?_⟩
  refine tracked.of_sender rfl rfl tracks later (congrArg Sender.Terms.cfg terms)
    ((congrArg Sender.Terms.protocolViolation terms).trans tracked.honest) ?_ ?_
    (fun _ member => Or.inl member)
  · rw [emits.stream_eq]
    exact tracked.stream
  · intro index pkt member
    rcases List.mem_append.mp member with old | new
    · exact Or.inl old
    · apply Or.inr
      rw [Option.mem_toList] at new
      generalize (l.sender.pollTransmitAt now).2 = emitted at emits new
      cases emits with
      | nothing => cases new
      | again i entry rewanted inFlight buffered =>
          cases new
          rw [rewanted.next, rewanted.stream]
          exact ⟨inFlight.2, entry, true, buffered, rfl⟩
      | first entry stream base next buffered =>
          cases new
          rw [next, stream]
          exact ⟨Nat.lt_succ_self _, entry, false, buffered, rfl⟩

theorem Tracked.senderPollControl (tracked : l.Tracked ws wr) :
    Tracked { l with sender := l.sender.pollControl.1 } ws wr :=
  tracked.of_sender rfl rfl (tracked.sender.of_core_eq rfl) (.refl ws) rfl tracked.honest
    tracked.stream (fun _ _ member => Or.inl member) (fun _ member => Or.inl member)

/-- An ACK from the network is resolved to its true position, which was sent. -/
theorem Tracked.extOf_ack (tracked : l.Tracked ws wr) {now : Instant} {ackNumber : Nat}
    {cif : AckCif} {position : Int}
    (admissible : l.Admissible (.handleAck now ackNumber cif position)) :
    l.sender.extOf cif.lastAckSeq = position ∧ position ≤ ws.next := by
  rcases admissible with ⟨member, low, high⟩
  cases tracked.backward _ member with
  | ack _ seq sent =>
      rw [seq]
      exact ⟨Sender.extOf_wire l.sender (by omega) (by omega), sent⟩

theorem Tracked.handleAck (tracked : l.Tracked ws wr) {now : Instant} {ackNumber : Nat}
    {cif : AckCif} {position : Int}
    (admissible : l.Admissible (.handleAck now ackNumber cif position)) :
    Exists fun ws' => SendWindow.Advanced ws ws' ∧ ws'.base = max ws.base position.toNat ∧
      Tracked { l with
        sender := (l.sender.handleAck now ackNumber cif).1
        forward := l.forward ++ ackackOf (l.sender.handleAck now ackNumber cif).2 } ws' wr := by
  rcases tracked.extOf_ack admissible with ⟨resolved, sent⟩
  rw [← resolved] at sent ⊢
  rcases tracked.sender.handleAck now ackNumber sent with ⟨ws', advanced, base, tracks⟩
  have terms := @Sender.handleAck_terms l.sender now ackNumber cif (tracked.sender.next ▸ sent)
  refine ⟨ws', advanced, base, ?_⟩
  refine tracked.of_sender rfl rfl tracks advanced.later (congrArg Sender.Terms.cfg terms)
    ((congrArg Sender.Terms.protocolViolation terms).trans tracked.honest) ?_
    (fun _ _ member => Or.inl member) ?_
  · rw [advanced.stream]
    exact tracked.stream
  · intro echoed member
    rcases List.mem_append.mp member with old | new
    · exact Or.inl old
    · apply Or.inr
      unfold ackackOf at new
      split at new
      · rw [List.mem_singleton.mp new]
        exact .ackAck _
      · exact absurd new List.not_mem_nil

/-- A loss report from the network is honest in every range. -/
theorem Tracked.honestRanges (tracked : l.Tracked ws wr) {now : Instant}
    {ranges : List LossRange} {positions : List Int}
    (admissible : l.Admissible (.handleNak now ranges positions)) :
    forall range, range ∈ ranges -> Exists fun lo => Exists fun hi =>
      Sender.HonestRange l.sender range lo hi := by
  rcases admissible with ⟨member, near⟩
  intro range listed
  cases tracked.backward _ member with
  | nak spans sent =>
      rcases List.mem_map.mp listed with ⟨span, present, rfl⟩
      have bounds := sent span present
      have low := near span.1 (List.mem_flatMap.mpr ⟨span, present, by simp⟩)
      have high := near span.2 (List.mem_flatMap.mpr ⟨span, present, by simp⟩)
      rw [← tracked.sender.next] at bounds
      exact ⟨span.1, span.2, rfl, rfl, low, high, bounds.1, bounds.2⟩

theorem Tracked.handleNak (tracked : l.Tracked ws wr) {now : Instant} {ranges : List LossRange}
    {positions : List Int} (admissible : l.Admissible (.handleNak now ranges positions)) :
    Exists fun ws' => SendWindow.Rewanted ws ws' ∧
      Sender.Answers l.sender (l.sender.handleNak now ranges) ranges ∧
      Tracked (l.sends (l.sender.handleNak now ranges) fun message =>
        message.sequences.map l.sender.extOf) ws' wr := by
  have honest := tracked.honestRanges admissible
  have answers := Sender.handleNak_answers now honest
  rcases tracked.sender.handleNak now ranges with ⟨ws', rewanted, tracks⟩
  rcases answers.queue with ⟨news, queue, answered⟩
  refine ⟨ws', rewanted, answers, ?_⟩
  refine tracked.of_sender rfl rfl tracks rewanted.later
    (congrArg Sender.Terms.cfg answers.terms)
    ((congrArg Sender.Terms.protocolViolation answers.terms).trans tracked.honest) ?_
    (fun _ _ member => Or.inl member) ?_
  · rw [rewanted.stream]
    exact tracked.stream
  · intro sent member
    rcases mem_sends_forward queue member with old | ⟨message, new, rfl⟩
    · exact Or.inl old
    · apply Or.inr
      rcases answered message new with ⟨range, listed, rfl, _⟩
      rcases honest range listed with ⟨lo, hi, here⟩
      have resolved := here.extOf
      have below := here.sent
      rw [tracked.sender.next, ← rewanted.next] at below
      change Truthful _ _ ⟨_, [l.sender.extOf range.first, l.sender.extOf range.last]⟩
      rw [resolved.1, resolved.2, here.first, here.last]
      exact .dropRequest here.ordered below

/-! ## Steps of the receiver -/

/-- A call hands over only what the network carries. -/
def Backed (l : Link) (ws : SendWindow BufEntry) : Receiver.Call -> Prop
  | .handleData _ pkt => Exists fun index : Nat => CloseTo l.session.position index ∧
      index < ws.next ∧ Transmits l.sender.cfg.initialSeq ws.stream index pkt
  | .handleUndecryptable _ _ => False
  | .handleDropreq _ msgNumber first last => Exists fun lo => Exists fun hi =>
      CloseTo l.session.position lo ∧ CloseTo l.session.position hi ∧
      msgNumber = MsgNumber.new 0 ∧ first = wire l.sender.cfg.initialSeq lo ∧
      last = wire l.sender.cfg.initialSeq hi ∧ lo ≤ hi ∧ hi < ws.next
  | _ => True

theorem Tracked.unwrap_wire (tracked : l.Tracked ws wr) {point : Int}
    (near : CloseTo l.session.position point) :
    Receiver.Within l.session.receiver.baseSeq (wire l.sender.cfg.initialSeq point) ∧
      l.session.unwrap (wire l.sender.cfg.initialSeq point) = point := by
  have position := tracked.receiver.position
  unfold CloseTo at near
  rw [← tracked.origin]
  refine ⟨?_, tracked.receiver.unwrap_wire (by omega) (by omega)⟩
  unfold Receiver.Within
  rw [tracked.receiver.tracks.diff_base (by omega) (by omega)]
  omega

theorem Backed.near {call : Receiver.Call} (backed : l.Backed ws call)
    (tracked : l.Tracked ws wr) : Receiver.Near l.session.receiver.baseSeq call := by
  cases call with
  | handleData now pkt =>
      rcases backed with ⟨index, close, _, entry, retransmitted, _, rfl⟩
      exact (tracked.unwrap_wire close).1
  | handleUndecryptable now pkt => exact backed.elim
  | handleDropreq now msgNumber first last =>
      rcases backed with ⟨lo, hi, low, high, _, rfl, rfl, _⟩
      exact ⟨(tracked.unwrap_wire low).1, (tracked.unwrap_wire high).1⟩
  | setHsAnchor => trivial
  | setMaxPayload => trivial
  | handleAckack => trivial
  | onTimer => trivial
  | pollControl => trivial
  | pollDeliver => trivial

/-- Everything that a backed call makes the receiver report is true. -/
theorem Tracked.queued (tracked : l.Tracked ws wr) {call : Receiver.Call}
    (near : Receiver.Near l.session.receiver.baseSeq call) {wr' : ReceiveWindow Slot}
    (moved : (l.session.step call).Tracked wr') (top : wr'.top < ws.next)
    {message : ControlType} (member : message ∈ Receiver.queued (l.session, call)) :
    Truthful l.sender.cfg.initialSeq ws.next
      ⟨message, message.sequences.map (l.session.step call).unwrap⟩ := by
  have cfg : (l.session.step call).receiver.cfg = l.session.receiver.cfg :=
    Receiver.call_cfg l.session.receiver call
  have reports := Receiver.queued_reports tracked.receiver near member
  have span := moved.tracks.span
  rw [← tracked.origin, ← cfg]
  cases message with
  | ack ackNumber cif =>
      have low := wr'.base_le_frontier
      have high := wr'.frontier_le
      have seq := reports.1.trans moved.tracks.ackValue_eq
      have resolved := moved.unwrap_wire (by omega : wr'.base - 2 ^ 29 ≤ wr'.frontier) (by omega)
      change Truthful _ _ ⟨_, [(l.session.step call).unwrap cif.lastAckSeq]⟩
      rw [seq, resolved]
      exact .ack ackNumber seq (by omega)
  | nak ranges =>
      let spans := ranges.map fun range =>
        ((l.session.step call).unwrap range.first, (l.session.step call).unwrap range.last)
      have shape : ranges =
          spans.map (Receiver.wireRange (l.session.step call).receiver.cfg.initialSeq) := by
        rw [List.map_map]
        refine (List.map_id ranges).symm.trans ?_
        apply List.map_congr_left
        intro range _
        simp only [Function.comp_apply, Receiver.wireRange, moved.wire_unwrap, id]
      have positions : (ControlType.nak ranges).sequences.map (l.session.step call).unwrap =
          spans.flatMap fun span => [span.1, span.2] := by
        simp only [ControlType.sequences, spans, List.map_flatMap, List.flatMap_map, List.map_cons,
          List.map_nil]
      rw [positions, shape]
      apply Truthful.nak spans
      intro span listed
      rcases List.mem_map.mp listed with ⟨range, present, rfl⟩
      have lost := reports range present
      rw [moved.tracks.loss] at lost
      rcases List.mem_map.mp lost with ⟨missing, awaited, rfl⟩
      have inside := moved.tracks.missing_inside missing awaited
      have below := wr'.inside missing.2 ⟨missing, awaited, inside.2.1, le_refl _⟩
      have first := moved.unwrap_wire (by omega : wr'.base - 2 ^ 29 ≤ missing.1) (by omega)
      have last := moved.unwrap_wire (by omega : wr'.base - 2 ^ 29 ≤ missing.2) (by omega)
      simp only [Receiver.wireRange, first, last]
      omega
  | _ => exact reports.elim

/-- A backed call does not make the receiver hear of anything unsent. -/
theorem Backed.top_lt {call : Receiver.Call} (backed : l.Backed ws call)
    (tracked : l.Tracked ws wr) {returned : Option Bytes} {wr' : ReceiveWindow Slot}
    (moves : Receiver.Moves l.session wr call returned wr') : wr'.top < ws.next := by
  have top := tracked.top
  cases moves with
  | arrives now pkt undecryptable isCall window _ =>
      rw [isCall] at backed
      cases undecryptable with
      | true => exact backed.elim
      | false =>
          rcases backed with ⟨index, close, below, entry, retransmitted, _, rfl⟩
          have bound := Receiver.arrivalWindow_top_le l.session.receiver wr now
            (entry.packet (wire l.sender.cfg.initialSeq index) retransmitted)
            (l.session.unwrap (wire l.sender.cfg.initialSeq index)) false
          change wr' = Receiver.arrivalWindow _ _ _ _
            (l.session.unwrap (wire l.sender.cfg.initialSeq index)) _ at window
          rw [← window, (tracked.unwrap_wire close).2] at bound
          omega
  | drops now msgNumber first last isCall window _ =>
      rw [isCall] at backed
      rcases backed with ⟨lo, hi, low, high, _, rfl, rfl, _, below⟩
      have bound := Receiver.dropWindow_top_le wr msgNumber lo hi
      rw [(tracked.unwrap_wire low).2, (tracked.unwrap_wire high).2] at window
      rw [← window] at bound
      omega
  | releases _ _ _ _ _ _ released =>
      rw [released.top_eq]
      exact top
  | rests window _ =>
      rw [window]
      exact top

theorem Tracked.receives (tracked : l.Tracked ws wr) {call : Receiver.Call}
    (backed : l.Backed ws call) :
    Exists fun wr' =>
      Receiver.Moves l.session wr call (l.session.receiver.call call).2 wr' ∧
      (l.receives call).Tracked ws wr' := by
  have near := backed.near tracked
  rcases tracked.receiver.step near with ⟨wr', moved, moves⟩
  have top := backed.top_lt tracked moves
  have cfg : (l.session.step call).receiver.cfg = l.session.receiver.cfg :=
    Receiver.call_cfg l.session.receiver call
  refine ⟨wr', moves, tracked.sender, moved, ?_, tracked.stream, tracked.data, tracked.forward,
    ?_, top, ?_, ?_, tracked.honest⟩
  · change (l.session.step call).receiver.cfg.initialSeq = l.sender.cfg.initialSeq
    rw [cfg]
    exact tracked.origin
  · intro sent member
    rcases List.mem_append.mp member with old | new
    · exact tracked.backward sent old
    · rcases List.mem_map.mp new with ⟨message, listed, rfl⟩
      exact tracked.queued near moved top listed
  · intro point slot present
    rcases Receiver.Moves.held_or_stored tracked.receiver moved moves present with kept | stored
    · exact tracked.held point slot kept
    · rcases stored with ⟨now, pkt, undecryptable, isCall, here, same, _⟩
      dsimp only at isCall here
      rw [isCall] at backed
      cases undecryptable with
      | true => exact backed.elim
      | false =>
          rcases backed with ⟨index, close, _, entry, retransmitted, found, rfl⟩
          change l.session.unwrap (wire l.sender.cfg.initialSeq index) = point at here
          rw [(tracked.unwrap_wire close).2] at here
          change l.pushed[point.toNat]? = _
          rw [← here, same, Int.toNat_natCast, ← tracked.stream, List.getElem?_map, found]
          rfl
  · change Delivers l.pushed (l.session.delivered ++ (l.session.receiver.call call).2.toList) _
    cases returned : (l.session.receiver.call call).2 with
    | none =>
        rw [Option.toList_none, List.append_nil]
        exact tracked.delivers.mono (List.prefix_refl _) moves.base_le
    | some payload =>
        have delivered : Receiver.DeliveredAt (l.session, call) (wr'.base - 1) payload := by
          refine ⟨returned, ?_⟩
          change (l.session.step call).position = _
          rw [moved.position]
          omega
        rcases delivered.held moved moves with ⟨_, _, slot, _, _, present, same, _⟩
        have bounds := wr.bounded _ _ present
        have nonneg := tracked.base_nonneg
        have pushed := tracked.held _ _ present
        rw [same] at pushed
        have further := tracked.delivers.snoc (by omega) pushed
        have limit : ((wr'.base - 1).toNat : Int) + 1 = wr'.base := by omega
        rw [limit] at further
        exact further

end Steps

end Link
end Rsrt

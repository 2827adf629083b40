import Rsrt.Core.LinkInvariant

namespace Rsrt
namespace Link

open Rsrt.Basis SeqNumber

/-!
# End-to-end delivery between honest endpoints

Every admissible event keeps the joint invariant of the link.  Two contracts
follow for all interleavings: what the receiver hands out is a subsequence of what
was pushed, and neither endpoint ever accuses the other of a violation.
-/

section Admissible

variable {l : Link} {ws : SendWindow BufEntry} {wr : ReceiveWindow Slot}

theorem Tracked.backed_handleData (tracked : l.Tracked ws wr) {now : Instant} {index : Nat}
    {pkt : DataPacket} (admissible : l.Admissible (.handleData now index pkt)) :
    l.Backed ws (.handleData now pkt) := by
  rcases tracked.data index pkt admissible.1 with ⟨below, transmits⟩
  exact ⟨index, admissible.2, below, transmits⟩

theorem Tracked.backed_handleDropreq (tracked : l.Tracked ws wr) {now : Instant}
    {msgNumber : MsgNumber} {first last : SeqNumber} {positions : List Int}
    (admissible : l.Admissible (.handleDropreq now msgNumber first last positions)) :
    l.Backed ws (.handleDropreq now msgNumber first last) := by
  rcases admissible with ⟨member, near⟩
  cases tracked.forward _ member with
  | @dropRequest lo hi ordered passed =>
      have low := near lo (by simp)
      have high := near hi (by simp)
      exact ⟨lo, hi, low, high, rfl, rfl, rfl, ordered, passed⟩

/-- Every admissible event keeps the link on a pair of windows. -/
theorem Tracked.step (tracked : l.Tracked ws wr) (P : Primitives) {event : Event}
    (admissible : l.Admissible event) :
    Exists fun ws' => Exists fun wr' => (l.next P event).Tracked ws' wr' := by
  have receiving {call : Receiver.Call} (backed : l.Backed ws call) :
      Exists fun ws' => Exists fun wr' => (l.receives call).Tracked ws' wr' := by
    rcases tracked.receives backed with ⟨wr', _, final⟩
    exact ⟨ws, wr', final⟩
  cases event with
  | push now payload =>
      unfold next
      dsimp only
      split
      case h_1 sender crypto ok =>
        rcases tracked.push ok with ⟨room, entry, _, _, _, final⟩
        exact ⟨_, wr, final⟩
      · exact ⟨ws, wr, tracked⟩
  | pollTransmit now =>
      rcases tracked.pollTransmit now with ⟨ws', _, final⟩
      exact ⟨ws', wr, final⟩
  | senderOnTimer now =>
      rcases tracked.senderOnTimer now with ⟨ws', _, _, final⟩
      exact ⟨ws', wr, final⟩
  | senderPollControl => exact ⟨ws, wr, tracked.senderPollControl⟩
  | handleAck now ackNumber cif position =>
      rcases tracked.handleAck admissible with ⟨ws', _, _, final⟩
      exact ⟨ws', wr, final⟩
  | handleNak now ranges positions =>
      rcases tracked.handleNak admissible with ⟨ws', _, _, final⟩
      exact ⟨ws', wr, final⟩
  | handleData now index pkt => exact receiving (tracked.backed_handleData admissible)
  | handleDropreq now msgNumber first last positions =>
      exact receiving (tracked.backed_handleDropreq admissible)
  | setHsAnchor instant ts => exact @receiving (.setHsAnchor instant ts) trivial
  | setMaxPayload bytes => exact @receiving (.setMaxPayload bytes) trivial
  | handleAckack now ackNumber ts => exact @receiving (.handleAckack now ackNumber ts) trivial
  | receiverOnTimer now => exact @receiving (.onTimer now) trivial
  | receiverPollControl now => exact @receiving (.pollControl now) trivial
  | pollDeliver now => exact @receiving (.pollDeliver now) trivial

end Admissible

theorem reachable_tracked {P : Primitives} {l : Link} (reachable : (machine P).Reachable l) :
    Exists fun ws => Exists fun wr => l.Tracked ws wr := by
  refine reachable.invariant (fun l => Exists fun ws => Exists fun wr => l.Tracked ws wr) ?_ ?_
  · rintro l ⟨now, sender, receiver, same, rfl⟩
    exact ⟨_, _, tracked_new now same⟩
  · rintro l event ⟨ws, wr, tracked⟩ admissible
    exact tracked.step P admissible

/-! ## Delivery -/

/-- Over any interleaving, the payloads handed out are the payloads of the
accepted pushes at some strictly increasing list of push indices. -/
theorem delivered_subsequence {P : Primitives} {l : Link} (reachable : (machine P).Reachable l) :
    Exists fun indices : List Nat => indices.Pairwise (· < ·) ∧
      l.delivered.map some = indices.map fun i => l.pushed[i]? := by
  rcases reachable_tracked reachable with ⟨ws, wr, tracked⟩
  rcases tracked.delivers with ⟨indices, increasing, _, same⟩
  exact ⟨indices, increasing, same⟩

/-- A link whose third sequence number lies past the wrap. -/
def wrapLink : Link :=
  new 0 (Sender.liveConfig 0x7FFFFFFE)
    ⟨SeqNumber.new 0x7FFFFFFE, Duration.fromMillis 120, 8192⟩

/-- The packet that the sender of `wrapLink` makes of a push at instant zero. -/
def wrapPacket (index : Nat) (payload : Bytes) : DataPacket :=
  { plainPacket (.new (0x7FFFFFFE + index)) 0 payload with
    msgNumber := MsgNumber.new (index + 1)
    dstSocketId := ⟨0⟩ }

/-- Three packets are sent.  The last one arrives first, the first one arrives
twice, and the one in between is lost and skipped. -/
def wrapEvents : List Event :=
  [.push 0 [1], .push 0 [2], .push 0 [3], .pollTransmit 0, .pollTransmit 0, .pollTransmit 0,
    .handleData 1000 2 (wrapPacket 2 [3]), .handleData 2000 0 (wrapPacket 0 [1]),
    .handleData 3000 0 (wrapPacket 0 [1]), .receiverOnTimer 20000000, .pollDeliver 200000000,
    .pollDeliver 200000000]

theorem delivered_subsequence_wrapEvents :
    let l := (machine .sample).exec wrapLink wrapEvents
    l.delivered = [[1], [3]] ∧
      Exists fun indices : List Nat => indices.Pairwise (· < ·) ∧
        l.delivered.map some = indices.map fun i => l.pushed[i]? :=
  ⟨by decide +kernel,
    delivered_subsequence ⟨_, Machine.run_exec (start_new _ 0 rfl) (by decide +kernel)⟩⟩

/-! ## Honest peers -/

/-- Over any interleaving, no ACK on the network is ahead of the next first
transmission and no NAK names a position at or past it, so the sender accepts
every ACK that reaches it and never sees a violation. -/
theorem honest_peers {P : Primitives} {l : Link} (reachable : (machine P).Reachable l) :
    l.sender.protocolViolation = false ∧
    (forall ackNumber cif positions, ⟨.ack ackNumber cif, positions⟩ ∈ l.backward ->
      Exists fun position : Int => positions = [position] ∧
        cif.lastAckSeq = wire l.sender.cfg.initialSeq position ∧
        position ≤ l.sender.nextSendIndex) ∧
    (forall ranges positions, ⟨.nak ranges, positions⟩ ∈ l.backward ->
      (ControlType.nak ranges).sequences = positions.map (wire l.sender.cfg.initialSeq) ∧
        forall position : Int, position ∈ positions -> position < l.sender.nextSendIndex) ∧
    (forall now ackNumber cif position, l.Admissible (.handleAck now ackNumber cif position) ->
      Exists fun reply => (l.sender.handleAck now ackNumber cif).2 = .ok reply) := by
  rcases reachable_tracked reachable with ⟨ws, wr, tracked⟩
  have next := tracked.sender.next
  refine ⟨tracked.honest, ?_, ?_, ?_⟩
  · intro ackNumber cif positions member
    cases tracked.backward _ member with
    | ack _ seq sent =>
        rw [next]
        exact ⟨_, rfl, seq, sent⟩
  · intro ranges positions member
    cases tracked.backward _ member with
    | nak spans sent =>
        constructor
        · simp only [ControlType.sequences, Receiver.wireRange, List.flatMap_map, List.map_flatMap,
            List.map_cons, List.map_nil]
        · intro position listed
          rcases List.mem_flatMap.mp listed with ⟨span, present, inside⟩
          have bounds := sent span present
          simp only [List.mem_cons, List.not_mem_nil, or_false] at inside
          omega
  · intro now ackNumber cif position admissible
    rcases tracked.extOf_ack admissible with ⟨resolved, sent⟩
    apply Sender.handleAck_ok
    rw [resolved, next]
    exact sent

/-- The first full ACK of the run `wrapEvents`. -/
def wrapAck : AckCif where
  lastAckSeq := SeqNumber.new 0x7FFFFFFF
  rttUs := some 100000
  rttVarUs := some 50000
  availBufPkts := some 8191
  recvRatePkts := some 0
  linkCapacityPkts := some 0
  recvRateBytes := some 0

/-- The run of `wrapEvents`, with its first loss report arriving at the end. -/
def reportEvents : List Event :=
  wrapEvents ++ [.handleNak 30000000
    [{ first := SeqNumber.new 0x7FFFFFFE, last := SeqNumber.new 0x7FFFFFFF }] [0, 1]]

theorem honest_peers_reportEvents :
    let l := (machine .sample).exec wrapLink reportEvents
    l.sender.lossList = {0, 1} ∧ l.sender.protocolViolation = false ∧
      Exists fun reply => (l.sender.handleAck 40000000 1 wrapAck).2 = .ok reply := by
  have run := Machine.run_exec (start_new .sample 0 rfl)
    (by decide +kernel : (machine .sample).Allowed wrapLink reportEvents)
  have honest := honest_peers ⟨_, run⟩
  exact ⟨by decide +kernel, honest.1, honest.2.2.2 40000000 1 wrapAck 1 (by decide +kernel)⟩

end Link
end Rsrt

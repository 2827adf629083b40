import Rsrt.Core.SenderInvariant

namespace Rsrt
namespace Sender

open Rsrt.Basis SeqNumber

/-!
# What a sender puts on the wire

Every emission of an index shows the same packet, whatever happened in between:
the entry is written when its payload is submitted and its payload, timestamp and
key flags are never touched again.  First emissions happen in order and once for
each index; only what was emitted and is still buffered is retransmitted.
-/

/-- The packets that a history puts on the wire, with their indices. -/
def emissions (history : List (Session × Call)) : List (Nat × DataPacket) :=
  history.filterMap fun entry =>
    match entry.2 with
    | .pollTransmit now => (entry.1.sender.pollTransmitAt now).2
    | _ => none

/-- The indices of the emissions without the R flag. -/
def firsts (emitted : List (Nat × DataPacket)) : List Nat :=
  (emitted.filter fun emission => !emission.2.retransmitted).map Prod.fst

theorem emissions_append (history later : List (Session × Call)) :
    emissions (history ++ later) = emissions history ++ emissions later :=
  List.filterMap_append

theorem firsts_append (emitted later : List (Nat × DataPacket)) :
    firsts (emitted ++ later) = firsts emitted ++ firsts later := by
  unfold firsts
  rw [List.filter_append, List.map_append]

/-- The emissions show the entries of the window, and the first ones cover what is
in flight. -/
structure Imaged (w : SendWindow BufEntry) (s : Sender) (emitted : List (Nat × DataPacket)) :
    Prop where
  counter : s.nextMsg.value ≠ 0
  numbered : forall entry, entry ∈ w.stream -> entry.msg.value ≠ 0
  image : forall emission, emission ∈ emitted ->
    Exists fun entry => w.stream[emission.1]? = some entry ∧
      emission.2 = entry.packet (wire s.cfg.initialSeq emission.1) emission.2.retransmitted
  ordered : (firsts emitted).Pairwise (· < ·)
  below : forall i, i ∈ firsts emitted -> i < w.next
  covered : forall i, w.base ≤ i -> i < w.next -> i ∈ firsts emitted

section Stepping

variable {w w' : SendWindow BufEntry} {s s' : Sender} {emitted : List (Nat × DataPacket)}

/-- Whatever only takes positions from the window, or adds behind it. -/
theorem Imaged.of_later (imaged : Imaged w s emitted) (later : SendWindow.Later w w')
    (cfg : s'.cfg = s.cfg) (counter : s'.nextMsg.value ≠ 0)
    (numbered : forall entry, entry ∈ w'.stream -> entry.msg.value ≠ 0)
    (flight : forall i, w'.base ≤ i -> i < w'.next -> w.base ≤ i ∧ i < w.next) :
    Imaged w' s' emitted where
  counter := counter
  numbered := numbered
  image := by
    intro emission member
    rcases imaged.image emission member with ⟨entry, found, shown⟩
    rw [cfg]
    exact ⟨entry, later.getElem? found, shown⟩
  ordered := imaged.ordered
  below := fun i member => lt_of_lt_of_le (imaged.below i member) later.next_le
  covered := by
    intro i above inside
    have old := flight i above inside
    exact imaged.covered i old.1 old.2

theorem Imaged.of_advanced (imaged : Imaged w s emitted) (advanced : SendWindow.Advanced w w')
    (cfg : s'.cfg = s.cfg) (msg : s'.nextMsg = s.nextMsg) : Imaged w' s' emitted := by
  apply imaged.of_later advanced.later cfg
  · rw [msg]
    exact imaged.counter
  · rw [advanced.stream]
    exact imaged.numbered
  · intro i above inside
    rw [advanced.next] at inside
    have forward := advanced.base_le
    omega

theorem Imaged.of_rewanted (imaged : Imaged w s emitted) (rewanted : SendWindow.Rewanted w w')
    (cfg : s'.cfg = s.cfg) (msg : s'.nextMsg = s.nextMsg) : Imaged w' s' emitted := by
  apply imaged.of_later rewanted.later cfg
  · rw [msg]
    exact imaged.counter
  · rw [rewanted.stream]
    exact imaged.numbered
  · intro i above inside
    rw [rewanted.base] at above
    rw [rewanted.next] at inside
    exact ⟨above, inside⟩

/-- The message counter skips zero when it wraps. -/
theorem append_nextMsg (s : Sender) (now : Instant) (flags : EncryptionFlags) (payload : Bytes) :
    (s.append now flags payload).nextMsg.value ≠ 0 := by
  change (if s.nextMsg.next.value = 0 then MsgNumber.new 1 else s.nextMsg.next).value ≠ 0
  split_ifs with wrapped
  · decide
  · exact wrapped

theorem Imaged.append (imaged : Imaged w s emitted) (now : Instant) (flags : EncryptionFlags)
    (payload : Bytes) :
    Imaged (w.submit (s.submitted now flags payload)) (s.append now flags payload) emitted := by
  refine imaged.of_later (w.later_submit _) ?_ (append_nextMsg s now flags payload) ?_ ?_
  · rfl
  · intro entry member
    rcases List.mem_append.mp member with old | new
    · exact imaged.numbered entry old
    · rw [List.mem_singleton.mp new]
      exact imaged.counter
  · exact fun i above inside => ⟨above, inside⟩

theorem Imaged.of_emits (imaged : Imaged w s emitted) {result : Option (Nat × DataPacket)}
    (emits : Emits s.cfg.initialSeq w w' result) (cfg : s'.cfg = s.cfg)
    (msg : s'.nextMsg = s.nextMsg) : Imaged w' s' (emitted ++ result.toList) := by
  have numbered : forall entry, entry ∈ w'.stream -> entry.msg.value ≠ 0 := by
    rw [emits.stream_eq]
    exact imaged.numbered
  have counter : s'.nextMsg.value ≠ 0 := by
    rw [msg]
    exact imaged.counter
  cases emits with
  | nothing rewanted =>
      rw [Option.toList_none, List.append_nil]
      exact imaged.of_rewanted rewanted cfg msg
  | again index entry rewanted inFlight buffered =>
      have same := imaged.of_rewanted rewanted cfg msg
      have unchanged : firsts (emitted ++ [(index, entry.packet (wire s.cfg.initialSeq index) true)]) =
          firsts emitted := by
        rw [firsts_append]
        exact List.append_nil _
      rw [Option.toList_some]
      refine ⟨counter, numbered, ?_, ?_, ?_, ?_⟩
      · intro emission member
        rcases List.mem_append.mp member with old | new
        · exact same.image emission old
        · rw [List.mem_singleton.mp new, rewanted.stream, cfg]
          exact ⟨entry, buffered, rfl⟩
      · rw [unchanged]
        exact imaged.ordered
      · rw [unchanged]
        exact same.below
      · rw [unchanged]
        exact same.covered
  | first entry stream base next buffered =>
      have grown : firsts (emitted ++
          [(w.next, entry.packet (wire s.cfg.initialSeq w.next) false)]) =
          firsts emitted ++ [w.next] := by
        rw [firsts_append]
        rfl
      rw [Option.toList_some]
      refine ⟨counter, numbered, ?_, ?_, ?_, ?_⟩
      · intro emission member
        rw [stream, cfg]
        rcases List.mem_append.mp member with old | new
        · exact imaged.image emission old
        · rw [List.mem_singleton.mp new]
          exact ⟨entry, buffered, rfl⟩
      · rw [grown, List.pairwise_append]
        refine ⟨imaged.ordered, List.pairwise_singleton _ _, ?_⟩
        intro i member j newest
        rw [List.mem_singleton.mp newest]
        exact imaged.below i member
      · intro i member
        rw [grown] at member
        rcases List.mem_append.mp member with old | new
        · have bound := imaged.below i old
          omega
        · rw [List.mem_singleton.mp new]
          omega
      · intro i above inside
        rw [grown]
        apply List.mem_append.mpr
        by_cases newest : i = w.next
        · exact Or.inr (List.mem_singleton.mpr newest)
        · exact Or.inl (imaged.covered i (base ▸ above) (by omega))

end Stepping

section Running

variable {P : Primitives} {s : Session} {history : List (Session × Call)}

theorem Imaged.step {w : SendWindow BufEntry} {emitted : List (Nat × DataPacket)}
    (imaged : Imaged w s.sender emitted) (tracked : s.Tracked w) (c : Call) :
    Exists fun w' => (s.step P c).Tracked w' ∧
      Imaged w' (s.step P c).sender (emitted ++ emissions [(s, c)]) := by
  have quiet (silent : emissions [(s, c)] = []) : emitted ++ emissions [(s, c)] = emitted := by
    rw [silent, List.append_nil]
  rcases tracked.moves c with ⟨w', after, moves⟩
  refine ⟨w', after, ?_⟩
  cases moves with
  | @refuses now payload crypto err refused =>
      have same : (s.step P (.push now payload crypto)).sender = s.sender := by
        unfold Session.step Sender.submit
        dsimp only
        rw [refused]
      rw [quiet rfl, same]
      exact imaged
  | @submits now payload crypto crypto' flags wirePayload room pushed advanced late tracks =>
      have labels := makeRoom_numbering s.sender now payload.length
      have grown : (s.step P (.push now payload crypto)).sender =
          (s.sender.makeRoom now payload.length).append now flags wirePayload := by
        unfold Session.step Sender.submit
        dsimp only
        rw [pushed]
      rw [quiet rfl, grown]
      exact (imaged.of_advanced advanced labels.1 labels.2).append now flags wirePayload
  | @acknowledges now ackNumber cif _ advanced =>
      have labels := handleAck_labels s.sender now ackNumber cif
      rw [quiet rfl]
      exact imaged.of_advanced advanced (congrArg Labels.cfg labels) (congrArg Labels.nextMsg labels)
  | @requests now ranges _ rewanted =>
      have labels := handleNak_numbering s.sender now ranges
      rw [quiet rfl]
      exact imaged.of_rewanted rewanted labels.1 labels.2
  | @expires now _ advanced late =>
      have labels := checkTlpktdrop_numbering s.sender now
      rw [quiet rfl]
      exact imaged.of_advanced advanced labels.1 labels.2
  | @transmits now _ emits =>
      have labels := pollTransmitAt_labels s.sender now
      have appended : emissions [(s, .pollTransmit now)] =
          (s.sender.pollTransmitAt now).2.toList := by
        unfold emissions
        rw [List.filterMap_cons]
        dsimp only
        cases (s.sender.pollTransmitAt now).2 <;> rfl
      rw [appended]
      exact imaged.of_emits emits (congrArg Labels.cfg labels) (congrArg Labels.nextMsg labels)
  | reports =>
      rw [quiet rfl]
      exact imaged.of_rewanted (.refl w) rfl rfl

theorem run_imaged (run : (machine P).Run history s) :
    Exists fun w => s.Tracked w ∧ Imaged w s.sender (emissions history) := by
  refine run.induct (fun history s => Exists fun w => s.Tracked w ∧
    Imaged w s.sender (emissions history)) ?_ ?_
  · rintro s ⟨cfg, rfl⟩
    have counter : (MsgNumber.new 1).value ≠ 0 := by decide
    refine ⟨SendWindow.start, ⟨tracks_new cfg, ?_, ?_⟩, counter, ?_, ?_, .nil, ?_, ?_⟩
    · intro i _ below
      exact absurd below (Nat.not_lt_zero i)
    · intro i member
      cases member
    · intro entry member
      cases member
    · intro emission member
      cases member
    · intro i member
      cases member
    · intro i _ below
      exact absurd below (Nat.not_lt_zero i)
  · rintro history s c _ ⟨w, tracked, imaged⟩ _
    rw [emissions_append]
    exact imaged.step tracked c

/-- In every run, first emissions come in the order of the submissions and once
for each, a retransmission shows an index that was emitted and is still buffered,
and all emissions of an index show the same packet under the sequence that belongs
to it. -/
theorem wire_image_stable (run : (machine P).Run history s) :
    (firsts (emissions history)).Pairwise (· < ·) ∧
    (forall earlier later before now index pkt,
      history = earlier ++ (before, Call.pollTransmit now) :: later ->
      (before.sender.pollTransmitAt now).2 = some (index, pkt) -> pkt.retransmitted = true ->
      index ∈ firsts (emissions earlier) ∧ before.sender.baseIndex ≤ index ∧
        index < before.sender.baseIndex + before.sender.buffer.length) ∧
    (forall index pkt, (index, pkt) ∈ emissions history ->
      pkt.seq.value = (s.sender.cfg.initialSeq.value + index) % 2 ^ 31 ∧
        pkt.msgNumber.value ≠ 0) ∧
    (forall index pkt pkt', (index, pkt) ∈ emissions history ->
      (index, pkt') ∈ emissions history ->
      pkt' = { pkt with retransmitted := pkt'.retransmitted }) := by
  rcases run_imaged run with ⟨w, tracked, imaged⟩
  refine ⟨imaged.ordered, ?_, ?_, ?_⟩
  · rintro earlier later before now index pkt rfl emission again
    rcases run_imaged run.at_entry.1 with ⟨old, tracked, imaged⟩
    rcases tracked.tracks.pollTransmitAt now with ⟨_, _, emits⟩
    rw [emission] at emits
    rw [tracked.tracks.base, tracked.tracks.length]
    cases emits with
    | again _ _ _ inFlight =>
        exact ⟨imaged.covered index inFlight.1 inFlight.2, inFlight.1,
          lt_of_lt_of_le inFlight.2 old.next_le⟩
    | first => cases again
  · intro index pkt member
    rcases imaged.image _ member with ⟨entry, found, shown⟩
    change pkt = entry.packet (wire s.sender.cfg.initialSeq index) pkt.retransmitted at shown
    rw [shown]
    refine ⟨?_, imaged.numbered entry (List.mem_of_getElem? found)⟩
    change (wire s.sender.cfg.initialSeq index).value = _
    unfold wire
    dsimp only
    omega
  · intro index pkt pkt' member member'
    rcases imaged.image _ member with ⟨entry, found, shown⟩
    rcases imaged.image _ member' with ⟨entry', found', shown'⟩
    have same : entry' = entry := Option.some_inj.mp (found'.symm.trans found)
    change pkt = entry.packet (wire s.sender.cfg.initialSeq index) pkt.retransmitted at shown
    change pkt' = entry'.packet (wire s.sender.cfg.initialSeq index) pkt'.retransmitted at shown'
    rw [shown', same, shown]
    rfl

end Running

/-- Two packets under two different keys, the first one sent again after the second
was submitted, and a third that fills the buffer of a sender that lost them. -/
def imageCalls : List Call :=
  let engine (key : UInt8) : Crypto :=
    Crypto.newInitiator .sample ⟨[1], .aes128, 10, 1⟩ (.uniform 0)
      ⟨List.replicate 16 key⟩
  [.push 0 [1] (some (engine 7)), .pollTransmit 0, .push 0 [2] (some (engine 9)),
    .handleNak 0 [{ first := SeqNumber.new 0x7FFFFFFE, last := SeqNumber.new 0x7FFFFFFE }],
    .pollTransmit 0, .pollTransmit 0, .handleAck 0 1 { lastAckSeq := SeqNumber.new 0x7FFFFFFF },
    .push 0 [3] none, .pollTransmit 0]

def imageHistory : List (Session × Call) :=
  (machine .sample).trace ⟨Sender.new hostileConfig, []⟩ imageCalls

theorem wire_image_stable_imageCalls :
    (emissions imageHistory).map (fun emission => (emission.1, emission.2.retransmitted)) =
        [(0, false), (0, true), (1, false), (2, false)] ∧
      (firsts (emissions imageHistory)).Pairwise (· < ·) ∧
      forall pkt pkt', (0, pkt) ∈ emissions imageHistory -> (0, pkt') ∈ emissions imageHistory ->
        pkt' = { pkt with retransmitted := pkt'.retransmitted } := by
  have allowed : (machine .sample).Allowed ⟨Sender.new hostileConfig, []⟩
      imageCalls := by
    simp only [imageCalls, Machine.Allowed, machine, and_true]
  have image := wire_image_stable (Machine.run_exec (start_new _ hostileConfig) allowed)
  exact ⟨by decide +kernel, image.1, image.2.2.2 0⟩

end Sender
end Rsrt

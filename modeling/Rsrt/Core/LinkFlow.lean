import Rsrt.Core.LinkDelivery
import Rsrt.Core.ReceiverDropRequest

namespace Rsrt

open Rsrt.Basis SeqNumber

/-!
# Flow control between honest endpoints

While the sender drops nothing, the windows that full ACKs advertise, light ACKs
consume and stale ACKs leave alone never let the sender run past the receiver's
buffer by more than the two packets that every advertisement grants.  The invariant
is a horizon: the end of the receiver's buffer, or two packets past the ACK
position if that is farther.  The horizon never moves back, so an advertisement
that was within it when it was issued stays within it however long it travels.
-/

namespace Receiver

/-! ## When the discrepancy flag is raised -/

theorem storeData_discrepancy {r : Receiver} {pkt : DataPacket} {extUs : Nat}
    {undecryptable : Bool} (clean : r.discrepancy = false)
    (raised : (r.storeData pkt extUs undecryptable).discrepancy = true) :
    0 ≤ pkt.seq.diff r.baseSeq ∧ r.cfg.bufferPkts ≤ (pkt.seq.diff r.baseSeq).toNat ∧
      r.nothingBuffered = true := by
  unfold storeData at raised
  dsimp only at raised
  split_ifs at raised with belated beyond empty occupied
  · exact absurd (clean.symm.trans raised) (by decide)
  · exact ⟨not_lt.mp belated, beyond, empty⟩
  · exact absurd (clean.symm.trans raised) (by decide)
  · exact absurd (clean.symm.trans raised) (by decide)
  · have kept := (noteArrival_detectGap _ pkt.seq undecryptable).2.2.symm.trans raised
    exact absurd (clean.symm.trans kept) (by decide)

/-- Data raises the flag only beyond the capacity of an empty buffer. -/
theorem Tracks.handleData_discrepancy {origin : SeqNumber} {w : ReceiveWindow Slot} {r : Receiver}
    (tracks : Tracks origin w r) (clean : r.discrepancy = false) {now : Instant}
    {pkt : DataPacket} (raised : (r.handleData now pkt).discrepancy = true) :
    (r.cfg.bufferPkts : Int) ≤ pkt.seq.diff r.baseSeq ∧ forall point, w.held point = none := by
  unfold handleData Receiver.ingest at raised
  split_ifs at raised with large
  · exact absurd (clean.symm.trans raised) (by decide)
  · rw [selfClock_discrepancy] at raised
    have flag : ((r.countArrival pkt).observeTimestamp now pkt.timestamp).1.discrepancy = false :=
      clean
    have parts := storeData_discrepancy flag raised
    change 0 ≤ pkt.seq.diff r.baseSeq ∧ r.cfg.bufferPkts ≤ (pkt.seq.diff r.baseSeq).toNat ∧
      r.nothingBuffered = true at parts
    refine ⟨by omega, ?_⟩
    intro point
    apply tracks.held_eq_none_of_slots
    exact slotAt_eq_none_of_nothingBuffered tracks.hint_empty parts.2.2

theorem onTimer_discrepancy (r : Receiver) (now : Instant) :
    (r.onTimer now).discrepancy = r.discrepancy := by
  have nakked (s : Receiver) : (s.nakTimer now).discrepancy = s.discrepancy := by
    unfold nakTimer queueNak
    dsimp only
    split_ifs <;> rfl
  have acked : (r.ackTimer now).discrepancy = r.discrepancy := by
    unfold ackTimer
    split
    · change (r.queueFullAck now).discrepancy = r.discrepancy
      rcases queueFullAck_cases r now with same | ⟨_, same | same⟩
      · rw [same]
      · rw [same]
      · rw [same]
        rfl
    · rfl
  exact (nakked _).trans acked

/-- The call brings a data packet. -/
def Call.arrives : Call -> Bool
  | .handleData _ _ => true
  | .handleUndecryptable _ _ => true
  | _ => false

/-- Only data can raise the flag. -/
theorem call_discrepancy (r : Receiver) {c : Call} (dataless : c.arrives = false) :
    (r.call c).1.discrepancy = r.discrepancy := by
  cases c with
  | setHsAnchor instant ts =>
      change (r.setHsAnchor instant ts).discrepancy = r.discrepancy
      unfold setHsAnchor
      split <;> rfl
  | setMaxPayload bytes => rfl
  | handleData now pkt => cases dataless
  | handleUndecryptable now pkt => cases dataless
  | handleAckack now number ts =>
      exact handleAckack_keeps discrepancy (fun _ _ _ _ _ _ _ _ _ => rfl) r now number ts
  | handleDropreq now msgNumber first last =>
      have same := congrArg Receiver.discrepancy (handleDropreq_outside r now msgNumber first last)
      exact same
  | onTimer now => exact onTimer_discrepancy r now
  | pollControl now =>
      change (r.pollControl now).1.discrepancy = r.discrepancy
      unfold pollControl
      split <;> rfl
  | pollDeliver now =>
      have same := congrArg Receiver.discrepancy (pollDeliver_outside r now)
      exact same

/-- A full ACK advertises the free buffer behind its position, and two packets at
least. -/
theorem Tracks.availBufPkts_le {origin : SeqNumber} {w : ReceiveWindow Slot} {r : Receiver}
    (tracks : Tracks origin w r) (recorded : r.rcvLastAck = r.ackValue) :
    w.frontier + r.availBufPkts ≤ max (w.base + r.cfg.bufferPkts) (w.frontier + 2) := by
  have low := w.base_le_frontier
  have high := w.frontier_le
  have span := tracks.span
  have distance : r.rcvLastAck.diff r.baseSeq = w.frontier - w.base := by
    rw [recorded, tracks.ackValue_eq]
    exact tracks.diff_base (by omega) (by omega)
  have bound : r.availBufPkts ≤ max (r.cfg.bufferPkts - (w.frontier - w.base).toNat) 2 := by
    unfold availBufPkts
    rw [distance, max_eq_left (by omega)]
    exact Nat.mod_le _ _
  omega

end Receiver

namespace Link

/-! ## The horizon -/

/-- How far the receiver lets the sender go. -/
def horizon (l : Link) (wr : ReceiveWindow Slot) : Int :=
  max (wr.base + l.session.receiver.cfg.bufferPkts) (wr.frontier + 2)

/-- The ACK is not ahead of the receiver, and a full one advertises no more than
the horizon. -/
def Granted (frontier horizon : Int) : Carried -> Prop
  | ⟨.ack _ cif, positions⟩ => forall position : Int, position ∈ positions ->
      position ≤ frontier ∧ (cif.rttUs = none ∨ Exists fun avail : Nat =>
        cif.availBufPkts = some avail ∧ position + avail ≤ horizon)
  | _ => True

theorem Granted.mono {frontier frontier' horizon horizon' : Int} {sent : Carried}
    (granted : Granted frontier horizon sent) (ahead : frontier ≤ frontier')
    (farther : horizon ≤ horizon') : Granted frontier' horizon' sent := by
  rcases sent with ⟨message, positions⟩
  cases message with
  | ack ackNumber cif =>
      intro position listed
      rcases granted position listed with ⟨behind, light | ⟨avail, carried, within⟩⟩
      · exact ⟨le_trans behind ahead, Or.inl light⟩
      · exact ⟨le_trans behind ahead, Or.inr ⟨avail, carried, le_trans within farther⟩⟩
  | _ => trivial

/-- The request concerns only positions below `base`. -/
def Settled (base : Int) : Carried -> Prop
  | ⟨.dropRequest _ _ _, positions⟩ => forall position : Int, position ∈ positions ->
      position < base
  | _ => True

theorem Settled.mono {base base' : Int} {sent : Carried} (settled : Settled base sent)
    (ahead : base ≤ base') : Settled base' sent := by
  rcases sent with ⟨message, positions⟩
  cases message with
  | dropRequest msgNumber first last =>
      exact fun position listed => lt_of_lt_of_le (settled position listed) ahead
  | _ => trivial

/-- Flow control of a link whose sender has dropped nothing. -/
structure Flow (l : Link) (ws : SendWindow BufEntry) (wr : ReceiveWindow Slot) : Prop where
  complete : wr.Complete
  buffered : wr.top < wr.base + l.session.receiver.cfg.bufferPkts
  acked : (ws.base : Int) ≤ wr.frontier
  credit : (ws.base : Int) + l.sender.advertisedWindow ≤ l.horizon wr
  sent : (ws.next : Int) ≤ l.horizon wr
  backward : forall sent, sent ∈ l.backward -> Granted wr.frontier (l.horizon wr) sent
  forward : forall sent, sent ∈ l.forward -> Settled ws.base sent
  clean : l.session.receiver.discrepancy = false

/-- The sizes under which flow control is safe. -/
def Sized (l : Link) : Prop :=
  l.sender.cfg.flowWindow ≤ l.session.receiver.cfg.bufferPkts ∧
    2 ≤ l.session.receiver.cfg.bufferPkts

theorem flow_new (now : Instant) {sender : SenderConfig} {receiver : ReceiverConfig}
    (sized : (new now sender receiver).Sized) :
    (new now sender receiver).Flow SendWindow.start (ReceiveWindow.start 0) := by
  have window : sender.flowWindow ≤ receiver.bufferPkts := sized.1
  have room : 2 ≤ receiver.bufferPkts := sized.2
  have reach : (new now sender receiver).horizon (ReceiveWindow.start 0) =
      max (0 + (receiver.bufferPkts : Int)) (0 - 1 + 1 + 2) := rfl
  refine ⟨ReceiveWindow.complete_start 0, ?_, le_refl _, ?_, ?_,
    fun _ member => absurd member List.not_mem_nil,
    fun _ member => absurd member List.not_mem_nil, rfl⟩
  · change (0 : Int) - 1 < 0 + (receiver.bufferPkts : Int)
    omega
  · rw [reach]
    change ((0 : Nat) : Int) + (sender.flowWindow : Int) ≤ _
    omega
  · rw [reach]
    change ((0 : Nat) : Int) ≤ _
    omega

section Steps

variable {l : Link} {ws : SendWindow BufEntry} {wr : ReceiveWindow Slot}

/-! ## Steps of the sender -/

theorem Flow.of_sender (flow : l.Flow ws wr) {l' : Link} {ws' : SendWindow BufEntry}
    (session : l'.session = l.session) (backward : l'.backward = l.backward)
    (base : ws.base ≤ ws'.base) (acked : (ws'.base : Int) ≤ wr.frontier)
    (credit : (ws'.base : Int) + l'.sender.advertisedWindow ≤ l.horizon wr)
    (sent : (ws'.next : Int) ≤ l.horizon wr)
    (forward : forall sent, sent ∈ l'.forward -> sent ∈ l.forward ∨ Settled ws'.base sent) :
    l'.Flow ws' wr := by
  have reach : l'.horizon wr = l.horizon wr := by
    unfold horizon
    rw [session]
  refine ⟨flow.complete, ?_, acked, ?_, ?_, ?_, ?_, ?_⟩
  · rw [session]
    exact flow.buffered
  · rw [reach]
    exact credit
  · rw [reach]
    exact sent
  · rw [backward, reach]
    exact flow.backward
  · intro request member
    rcases forward request member with old | new
    · exact (flow.forward request old).mono (Int.ofNat_le.mpr base)
    · exact new
  · rw [session]
    exact flow.clean

/-- Without a drop the base stays, and the window only grows at its end. -/
theorem CountsDrops.base_eq {s s' : Sender} (counts : Sender.CountsDrops s s')
    {w w' : SendWindow BufEntry} (tracks : Sender.Tracks w s) (tracks' : Sender.Tracks w' s')
    (advanced : SendWindow.Advanced w w') :
    s.stats.pktsDropped ≤ s'.stats.pktsDropped ∧
      (s'.stats.pktsDropped = 0 -> w'.base = w.base ∧ w'.next = w.next) := by
  have base := advanced.base_le
  have next := advanced.next
  have bounded := w.base_le
  unfold Sender.CountsDrops at counts
  rw [tracks.base, tracks'.base] at counts
  refine ⟨by omega, ?_⟩
  intro undropped
  omega

theorem Flow.push (flow : l.Flow ws wr) (tracked : l.Tracked ws wr) {P : Primitives}
    {now : Instant} {payload : Bytes} {sender : Sender} {crypto : Option Crypto}
    (ok : l.sender.push P now payload none = .ok (sender, crypto))
    (undropped : sender.stats.pktsDropped = 0) :
    Exists fun ws' =>
      let l' := { l.sends sender (lateSpan l.sender now) with pushed := l.pushed ++ [payload] }
      l'.Tracked ws' wr ∧ l'.Flow ws' wr := by
  rcases tracked.push ok with ⟨room, entry, advanced, tracks, late, final⟩
  rcases Sender.push_ok ok with ⟨_, flags, wirePayload, rfl, _⟩
  have steady := (CountsDrops.base_eq (Sender.makeRoom_countsDrops l.sender now payload.length)
    tracked.sender tracks advanced).2 undropped
  have terms := Sender.terms_of_outside_eq
    (Sender.makeRoom_outside l.sender now payload.length)
  have window : (l.sender.makeRoom now payload.length).advertisedWindow =
      l.sender.advertisedWindow := congrArg Sender.Terms.advertisedWindow terms
  have quiet : (l.sender.makeRoom now payload.length).controlQueue =
      l.sender.controlQueue ++ [] := by
    rw [Sender.makeRoom_controlQueue, Sender.lateRequest, if_neg (by omega)]
  refine ⟨_, final, flow.of_sender rfl rfl steady.1.ge ?_ ?_ ?_ ?_⟩
  · change (room.base : Int) ≤ _
    rw [steady.1]
    exact flow.acked
  · change (room.base : Int) + ((l.sender.makeRoom now payload.length).advertisedWindow : Int) ≤ _
    rw [steady.1, window]
    exact flow.credit
  · change (room.next : Int) ≤ _
    rw [steady.2]
    exact flow.sent
  · intro request member
    rcases mem_sends_forward quiet member with old | ⟨_, new, _⟩
    · exact Or.inl old
    · exact absurd new List.not_mem_nil

theorem Flow.senderOnTimer (flow : l.Flow ws wr) (tracked : l.Tracked ws wr) (now : Instant)
    (undropped : (l.sender.onTimer now).stats.pktsDropped = 0) :
    Exists fun ws' =>
      let l' := l.sends (l.sender.onTimer now) (lateSpan l.sender now)
      l'.Tracked ws' wr ∧ l'.Flow ws' wr := by
  rcases tracked.senderOnTimer now with ⟨ws', advanced, base, final⟩
  have steady := (CountsDrops.base_eq (Sender.checkTlpktdrop_countsDrops l.sender now)
    tracked.sender (final.sender.of_core_eq rfl) advanced).2 undropped
  have terms := Sender.terms_of_outside_eq (Sender.checkTlpktdrop_outside l.sender now)
  have window : (l.sender.checkTlpktdrop now).advertisedWindow = l.sender.advertisedWindow :=
    congrArg Sender.Terms.advertisedWindow terms
  have quiet : (l.sender.onTimer now).controlQueue = l.sender.controlQueue ++ [] := by
    rw [Sender.onTimer_controlQueue, Sender.lateRequest, if_neg (by omega)]
  refine ⟨ws', final, flow.of_sender rfl rfl steady.1.ge ?_ ?_ ?_ ?_⟩
  · rw [steady.1]
    exact flow.acked
  · change (ws'.base : Int) + ((l.sender.checkTlpktdrop now).advertisedWindow : Int) ≤ _
    rw [steady.1, window]
    exact flow.credit
  · rw [steady.2]
    exact flow.sent
  · intro request member
    rcases mem_sends_forward quiet member with old | ⟨_, new, _⟩
    · exact Or.inl old
    · exact absurd new List.not_mem_nil

/-- A first transmission fits the advertised window, which lies within the
horizon. -/
theorem Flow.pollTransmit (flow : l.Flow ws wr) (tracked : l.Tracked ws wr) (now : Instant) :
    Exists fun ws' =>
      let l' : Link := { l with
        sender := (l.sender.pollTransmitAt now).1
        data := l.data ++ (l.sender.pollTransmitAt now).2.toList }
      l'.Tracked ws' wr ∧ l'.Flow ws' wr := by
  rcases tracked.pollTransmit now with ⟨ws', emits, final⟩
  have terms := Sender.pollTransmitAt_terms l.sender now
  have window : (l.sender.pollTransmitAt now).1.advertisedWindow = l.sender.advertisedWindow :=
    congrArg Sender.Terms.advertisedWindow terms
  have moved := emits.base_eq
  have reached : (ws'.next : Int) ≤ l.horizon wr := by
    have sent := flow.sent
    have credit := flow.credit
    have counted := final.sender.next
    rcases Sender.pollTransmitAt_window l.sender now with same | room
    · change (l.sender.pollTransmitAt now).1.nextSendIndex = ws'.next at counted
      rw [← counted, same, tracked.sender.next]
      exact sent
    · unfold Sender.flight Sender.effectiveWindow at room
      rw [tracked.sender.next, tracked.sender.acked] at room
      have limit := Nat.min_le_right l.sender.cfg.flowWindow l.sender.advertisedWindow
      omega
  refine ⟨ws', final, flow.of_sender rfl rfl moved.1.ge ?_ ?_ reached
    (fun _ member => Or.inl member)⟩
  · rw [moved.1]
    exact flow.acked
  · change (ws'.base : Int) + ((l.sender.pollTransmitAt now).1.advertisedWindow : Int) ≤ _
    rw [moved.1, window]
    exact flow.credit

theorem Flow.senderPollControl (flow : l.Flow ws wr) :
    Flow { l with sender := l.sender.pollControl.1 } ws wr :=
  flow.of_sender rfl rfl (le_refl _) flow.acked flow.credit flow.sent
    (fun _ member => Or.inl member)

/-- An ACK moves the base to a position that the receiver has acknowledged, and
leaves a window that still ends within the horizon. -/
theorem Flow.handleAck (flow : l.Flow ws wr) (tracked : l.Tracked ws wr) {now : Instant}
    {ackNumber : Nat} {cif : AckCif} {position : Int}
    (admissible : l.Admissible (.handleAck now ackNumber cif position)) :
    Exists fun ws' =>
      let l' : Link := { l with
        sender := (l.sender.handleAck now ackNumber cif).1
        forward := l.forward ++ ackackOf (l.sender.handleAck now ackNumber cif).2 }
      l'.Tracked ws' wr ∧ l'.Flow ws' wr := by
  rcases tracked.handleAck admissible with ⟨ws', advanced, base, final⟩
  rcases tracked.extOf_ack admissible with ⟨resolved, sent⟩
  rcases flow.backward _ admissible.1 position (List.mem_singleton_self _) with ⟨behind, grant⟩
  have close := admissible.2
  have ordered := ws.base_le
  have next := advanced.next
  have acked := flow.acked
  have credit := flow.credit
  have reach : wr.frontier ≤ l.horizon wr := by
    unfold horizon
    omega
  have terms := @Sender.handleAck_terms l.sender now ackNumber cif
    (by rw [resolved, tracked.sender.next]; exact sent)
  have window : (l.sender.handleAck now ackNumber cif).1.advertisedWindow =
      l.sender.windowAfter cif position := by
    rw [resolved] at terms
    exact congrArg Sender.Terms.advertisedWindow terms
  refine ⟨ws', final, flow.of_sender rfl rfl advanced.base_le (by omega) ?_ ?_ ?_⟩
  · change (ws'.base : Int) + ((l.sender.handleAck now ackNumber cif).1.advertisedWindow : Int) ≤ _
    rw [window]
    unfold Sender.windowAfter
    unfold CloseTo at close
    rw [tracked.sender.acked]
    rw [tracked.sender.base] at close
    split_ifs with current light
    · omega
    · rcases grant with lightly | ⟨avail, carried, within⟩
      · exact absurd lightly light
      · rw [carried, Option.getD_some]
        omega
    · omega
  · have reached := flow.sent
    omega
  · intro request member
    rcases List.mem_append.mp member with old | new
    · exact Or.inl old
    · apply Or.inr
      unfold ackackOf at new
      split at new
      · rw [List.mem_singleton.mp new]
        trivial
      · exact absurd new List.not_mem_nil

theorem Flow.handleNak (flow : l.Flow ws wr) (tracked : l.Tracked ws wr) {now : Instant}
    {ranges : List LossRange} {positions : List Int}
    (admissible : l.Admissible (.handleNak now ranges positions)) :
    Exists fun ws' =>
      let l' := l.sends (l.sender.handleNak now ranges) fun message =>
        message.sequences.map l.sender.extOf
      l'.Tracked ws' wr ∧ l'.Flow ws' wr := by
  rcases tracked.handleNak admissible with ⟨ws', rewanted, answers, final⟩
  have honest := tracked.honestRanges admissible
  have window : (l.sender.handleNak now ranges).advertisedWindow = l.sender.advertisedWindow :=
    congrArg Sender.Terms.advertisedWindow answers.terms
  rcases answers.queue with ⟨news, queue, answered⟩
  refine ⟨ws', final, flow.of_sender rfl rfl rewanted.base.ge ?_ ?_ ?_ ?_⟩
  · rw [rewanted.base]
    exact flow.acked
  · change (ws'.base : Int) + ((l.sender.handleNak now ranges).advertisedWindow : Int) ≤ _
    rw [rewanted.base, window]
    exact flow.credit
  · rw [rewanted.next]
    exact flow.sent
  · intro request member
    rcases mem_sends_forward queue member with old | ⟨message, new, rfl⟩
    · exact Or.inl old
    · apply Or.inr
      rcases answered message new with ⟨range, listed, rfl, below⟩
      rcases honest range listed with ⟨lo, hi, here⟩
      have resolved := here.extOf
      have ordered := here.ordered
      rw [tracked.sender.acked, resolved.2] at below
      intro position named
      change position ∈ [l.sender.extOf range.first, l.sender.extOf range.last] at named
      rw [resolved.1, resolved.2] at named
      rw [rewanted.base]
      simp only [List.mem_cons, List.not_mem_nil, or_false] at named
      omega

/-! ## Steps of the receiver -/

/-- Nothing that reaches the receiver makes it give up a position or buffer past
its capacity. -/
theorem Flow.complete_buffered (flow : l.Flow ws wr) {call : Receiver.Call}
    (backed : l.Backed ws call)
    (settled : forall now msgNumber first last,
      call = .handleDropreq now msgNumber first last -> l.session.unwrap last < ws.base)
    {returned : Option Bytes} {wr' : ReceiveWindow Slot}
    (moves : Receiver.Moves l.session wr call returned wr') :
    wr'.Complete ∧ wr'.top < wr'.base + l.session.receiver.cfg.bufferPkts := by
  have buffered := flow.buffered
  cases moves with
  | arrives now pkt undecryptable isCall window _ =>
      rw [isCall] at backed
      cases undecryptable with
      | true => exact backed.elim
      | false =>
          unfold Receiver.arrivalWindow at window
          split at window
          · rw [window]
            exact ⟨flow.complete, buffered⟩
          · rw [window]
            refine ⟨flow.complete.accept _ _ _, ?_⟩
            unfold ReceiveWindow.accept
            split_ifs with fits
            · exact max_lt buffered fits.2.1
            · exact buffered
  | drops now msgNumber first last isCall window _ =>
      have acked := flow.acked
      have below := settled now msgNumber first last isCall
      rw [isCall] at backed
      rcases backed with ⟨_, _, _, _, rfl, _⟩
      rw [window]
      unfold Receiver.dropWindow
      split_ifs with valid
      · rcases flow.complete.withdraw valid (by omega) with ⟨complete, top⟩
        refine ⟨complete.discard ?_, ?_⟩
        · intro point slot
          exact decide_eq_false fun parts => parts.1 rfl
        · change (wr.withdraw _ _ valid).top < wr.base + _
          rw [top]
          exact buffered
      · exact ⟨flow.complete, buffered⟩
  | releases _ _ _ _ _ _ released =>
      have base := released.base_le
      refine ⟨flow.complete.released released, ?_⟩
      rw [released.top_eq]
      omega
  | rests window _ =>
      rw [window]
      exact ⟨flow.complete, buffered⟩

/-- Every ACK that a call queues is at the ACK position, and grants no more than
the horizon. -/
theorem Tracked.queued_granted (tracked : l.Tracked ws wr) {call : Receiver.Call}
    (near : Receiver.Near l.session.receiver.baseSeq call) {wr' : ReceiveWindow Slot}
    (final : (l.receives call).Tracked ws wr') {message : ControlType}
    (member : message ∈ Receiver.queued (l.session, call)) :
    Granted wr'.frontier ((l.receives call).horizon wr')
      ⟨message, message.sequences.map (l.session.step call).unwrap⟩ := by
  have reports := Receiver.queued_reports tracked.receiver near member
  have moved : (l.session.step call).Tracked wr' := final.receiver
  cases message with
  | ack ackNumber cif =>
      have low := wr'.base_le_frontier
      have high := wr'.frontier_le
      have span := moved.tracks.span
      have resolved : (l.session.step call).unwrap cif.lastAckSeq = wr'.frontier := by
        rw [reports.1, moved.tracks.ackValue_eq]
        exact moved.unwrap_wire (by omega) (by omega)
      intro position listed
      rw [List.mem_singleton.mp listed, resolved]
      refine ⟨le_refl _, ?_⟩
      rcases reports.2 with light | ⟨avail, recorded⟩
      · exact Or.inl light
      · exact Or.inr ⟨_, avail, moved.tracks.availBufPkts_le recorded⟩
  | _ => trivial

/-- Where a data packet on the network lands: less than two past the capacity,
and within the capacity of an empty buffer. -/
theorem Flow.offset_lt (flow : l.Flow ws wr) (sized : l.Sized) {index : Nat}
    (sent : index < ws.next) :
    (index : Int) - wr.base < l.session.receiver.cfg.bufferPkts + 2 ∧
      ((forall point, wr.held point = none) ->
        (index : Int) - wr.base < l.session.receiver.cfg.bufferPkts) := by
  have reached := flow.sent
  have buffered := flow.buffered
  have seen := wr.frontier_le
  have room := sized.2
  unfold horizon at reached
  refine ⟨by omega, ?_⟩
  intro empty
  have front := flow.complete.frontier_eq_base empty
  omega

theorem Flow.clean_receives (flow : l.Flow ws wr) (tracked : l.Tracked ws wr) (sized : l.Sized)
    {call : Receiver.Call} (backed : l.Backed ws call) :
    (l.session.receiver.call call).1.discrepancy = false := by
  by_cases data : Exists fun now => Exists fun pkt => call = .handleData now pkt
  · rcases data with ⟨now, pkt, rfl⟩
    rcases backed with ⟨index, close, sent, entry, retransmitted, _, rfl⟩
    apply Bool.eq_false_iff.mpr
    intro raised
    rcases tracked.receiver.tracks.handleData_discrepancy flow.clean raised with ⟨beyond, empty⟩
    have within := (flow.offset_lt sized sent).2 empty
    have resolved := (tracked.unwrap_wire close).2
    have position := tracked.receiver.position
    unfold Receiver.Session.unwrap at resolved
    change _ ≤ (wire l.sender.cfg.initialSeq index).diff l.session.receiver.baseSeq at beyond
    omega
  · refine (Receiver.call_discrepancy _ ?_).trans flow.clean
    cases call with
    | handleData now pkt => exact absurd ⟨now, pkt, rfl⟩ data
    | handleUndecryptable now pkt => exact backed.elim
    | _ => rfl

theorem Flow.receives (flow : l.Flow ws wr) (tracked : l.Tracked ws wr) (sized : l.Sized)
    {call : Receiver.Call} (backed : l.Backed ws call)
    (settled : forall now msgNumber first last,
      call = .handleDropreq now msgNumber first last -> l.session.unwrap last < ws.base) :
    Exists fun wr' => (l.receives call).Tracked ws wr' ∧ (l.receives call).Flow ws wr' := by
  rcases tracked.receives backed with ⟨wr', moves, final⟩
  have base := moves.base_le
  have front := moves.frontier_le
  have cfg : (l.receives call).session.receiver.cfg = l.session.receiver.cfg :=
    Receiver.call_cfg l.session.receiver call
  have farther : l.horizon wr ≤ (l.receives call).horizon wr' := by
    unfold horizon
    rw [cfg]
    omega
  rcases flow.complete_buffered backed settled moves with ⟨complete, buffered⟩
  refine ⟨wr', final, complete, ?_, le_trans flow.acked front, le_trans flow.credit farther,
    le_trans flow.sent farther, ?_, flow.forward, flow.clean_receives tracked sized backed⟩
  · rw [cfg]
    exact buffered
  · intro sent member
    rcases List.mem_append.mp member with old | new
    · exact (flow.backward sent old).mono front farther
    · rcases List.mem_map.mp new with ⟨message, listed, rfl⟩
      exact tracked.queued_granted (backed.near tracked) final listed

/-! ## All events -/

/-- The sizes never change, and the drop count never falls. -/
theorem Tracked.next_terms (tracked : l.Tracked ws wr) (P : Primitives) {event : Event}
    (admissible : l.Admissible event) :
    (l.next P event).sender.cfg = l.sender.cfg ∧
      (l.next P event).session.receiver.cfg = l.session.receiver.cfg ∧
      l.sender.stats.pktsDropped ≤ (l.next P event).sender.stats.pktsDropped := by
  have receiving (call : Receiver.Call) : (l.receives call).sender.cfg = l.sender.cfg ∧
      (l.receives call).session.receiver.cfg = l.session.receiver.cfg ∧
      l.sender.stats.pktsDropped ≤ (l.receives call).sender.stats.pktsDropped :=
    ⟨rfl, Receiver.call_cfg l.session.receiver call, le_refl _⟩
  have keeping {sender : Sender} (terms : sender.terms = l.sender.terms) :
      sender.cfg = l.sender.cfg ∧ l.session.receiver.cfg = l.session.receiver.cfg ∧
        l.sender.stats.pktsDropped ≤ sender.stats.pktsDropped :=
    ⟨congrArg Sender.Terms.cfg terms, rfl, (congrArg Sender.Terms.pktsDropped terms).ge⟩
  cases event with
  | push now payload =>
      unfold next
      dsimp only
      split
      case h_1 sender crypto ok =>
        rcases tracked.push ok with ⟨room, entry, advanced, tracks, _, _⟩
        rcases Sender.push_ok ok with ⟨_, flags, wirePayload, rfl, _⟩
        have counts := CountsDrops.base_eq
          (Sender.makeRoom_countsDrops l.sender now payload.length) tracked.sender tracks advanced
        have terms := Sender.terms_of_outside_eq
          (Sender.makeRoom_outside l.sender now payload.length)
        exact ⟨congrArg Sender.Terms.cfg terms, rfl, counts.1⟩
      · exact ⟨rfl, rfl, le_refl _⟩
  | pollTransmit now => exact keeping (Sender.pollTransmitAt_terms l.sender now)
  | senderOnTimer now =>
      rcases tracked.senderOnTimer now with ⟨ws', advanced, _, final⟩
      have counts := CountsDrops.base_eq (Sender.checkTlpktdrop_countsDrops l.sender now)
        tracked.sender (final.sender.of_core_eq rfl) advanced
      have terms := Sender.terms_of_outside_eq (Sender.checkTlpktdrop_outside l.sender now)
      exact ⟨congrArg Sender.Terms.cfg terms, rfl, counts.1⟩
  | senderPollControl => exact ⟨rfl, rfl, le_refl _⟩
  | handleAck now ackNumber cif position =>
      rcases tracked.extOf_ack admissible with ⟨resolved, sent⟩
      have terms := @Sender.handleAck_terms l.sender now ackNumber cif
        (by rw [resolved, tracked.sender.next]; exact sent)
      exact ⟨congrArg Sender.Terms.cfg terms, rfl, (congrArg Sender.Terms.pktsDropped terms).ge⟩
  | handleNak now ranges positions =>
      rcases tracked.handleNak admissible with ⟨_, _, answers, _⟩
      exact keeping answers.terms
  | handleData now index pkt => exact receiving (.handleData now pkt)
  | handleDropreq now msgNumber first last positions =>
      exact receiving (.handleDropreq now msgNumber first last)
  | setHsAnchor instant ts => exact receiving (.setHsAnchor instant ts)
  | setMaxPayload bytes => exact receiving (.setMaxPayload bytes)
  | handleAckack now ackNumber ts => exact receiving (.handleAckack now ackNumber ts)
  | receiverOnTimer now => exact receiving (.onTimer now)
  | receiverPollControl now => exact receiving (.pollControl now)
  | pollDeliver now => exact receiving (.pollDeliver now)

/-- Flow control survives every admissible event that drops nothing. -/
theorem Flow.step (flow : l.Flow ws wr) (tracked : l.Tracked ws wr) (sized : l.Sized)
    {P : Primitives} {event : Event} (admissible : l.Admissible event)
    (undropped : (l.next P event).sender.stats.pktsDropped = 0) :
    Exists fun ws' => Exists fun wr' =>
      (l.next P event).Tracked ws' wr' ∧ (l.next P event).Flow ws' wr' := by
  have receiving {call : Receiver.Call} (backed : l.Backed ws call)
      (settled : forall now msgNumber first last,
        call = .handleDropreq now msgNumber first last -> l.session.unwrap last < ws.base) :
      Exists fun ws' => Exists fun wr' =>
        (l.receives call).Tracked ws' wr' ∧ (l.receives call).Flow ws' wr' := by
    rcases flow.receives tracked sized backed settled with ⟨wr', final⟩
    exact ⟨ws, wr', final⟩
  cases event with
  | push now payload =>
      unfold next at undropped ⊢
      dsimp only at undropped ⊢
      split at undropped
      case h_1 sender crypto ok =>
        rcases flow.push tracked ok undropped with ⟨ws', final⟩
        exact ⟨ws', wr, final⟩
      · exact ⟨ws, wr, tracked, flow⟩
  | pollTransmit now =>
      rcases flow.pollTransmit tracked now with ⟨ws', final⟩
      exact ⟨ws', wr, final⟩
  | senderOnTimer now =>
      rcases flow.senderOnTimer tracked now undropped with ⟨ws', final⟩
      exact ⟨ws', wr, final⟩
  | senderPollControl => exact ⟨ws, wr, tracked.senderPollControl, flow.senderPollControl⟩
  | handleAck now ackNumber cif position =>
      rcases flow.handleAck tracked admissible with ⟨ws', final⟩
      exact ⟨ws', wr, final⟩
  | handleNak now ranges positions =>
      rcases flow.handleNak tracked admissible with ⟨ws', final⟩
      exact ⟨ws', wr, final⟩
  | handleData now index pkt =>
      exact receiving (tracked.backed_handleData admissible) nofun
  | handleDropreq now msgNumber first last positions =>
      apply receiving (tracked.backed_handleDropreq admissible)
      intro now' msgNumber' first' last' same
      cases same
      rcases admissible with ⟨member, near⟩
      have settled := flow.forward _ member
      cases tracked.forward _ member with
      | @dropRequest lo hi ordered passed =>
          rw [(tracked.unwrap_wire (near hi (by simp))).2]
          exact settled hi (by simp)
  | setHsAnchor instant ts => exact @receiving (.setHsAnchor instant ts) trivial nofun
  | setMaxPayload bytes => exact @receiving (.setMaxPayload bytes) trivial nofun
  | handleAckack now ackNumber ts =>
      exact @receiving (.handleAckack now ackNumber ts) trivial nofun
  | receiverOnTimer now => exact @receiving (.onTimer now) trivial nofun
  | receiverPollControl now => exact @receiving (.pollControl now) trivial nofun
  | pollDeliver now => exact @receiving (.pollDeliver now) trivial nofun

end Steps

/-- Flow control over a whole run, and where the data packets of the run have
landed. -/
theorem run_flow {P : Primitives} {history : List (Link × Event)} {l : Link}
    (run : (machine P).Run history l) (sized : l.Sized) (undropped : l.sender.stats.pktsDropped = 0) :
    (Exists fun ws => Exists fun wr => l.Tracked ws wr ∧ l.Flow ws wr) ∧
      forall state now index pkt, (state, Event.handleData now index pkt) ∈ history ->
        pkt.seq.diff state.session.receiver.baseSeq <
          l.session.receiver.cfg.bufferPkts + 2 := by
  revert sized undropped
  refine run.induct (fun history l => l.Sized -> l.sender.stats.pktsDropped = 0 ->
    (Exists fun ws => Exists fun wr => l.Tracked ws wr ∧ l.Flow ws wr) ∧
      forall state now index pkt, (state, Event.handleData now index pkt) ∈ history ->
        pkt.seq.diff state.session.receiver.baseSeq <
          l.session.receiver.cfg.bufferPkts + 2) ?_ ?_
  · rintro l ⟨now, sender, receiver, same, rfl⟩ sized _
    exact ⟨⟨_, _, tracked_new now same, flow_new now sized⟩,
      fun _ _ _ _ member => absurd member List.not_mem_nil⟩
  · intro history l event before earlier admissible sized undropped
    rcases reachable_tracked ⟨history, before⟩ with ⟨_, _, known⟩
    rcases known.next_terms P admissible with ⟨sendCfg, recvCfg, counted⟩
    change ((l.next P event).sender.cfg.flowWindow ≤ (l.next P event).session.receiver.cfg.bufferPkts
      ∧ 2 ≤ (l.next P event).session.receiver.cfg.bufferPkts) at sized
    change (l.next P event).sender.stats.pktsDropped = 0 at undropped
    rw [sendCfg, recvCfg] at sized
    rcases earlier sized (by omega) with ⟨⟨ws, wr, tracked, flow⟩, landed⟩
    refine ⟨flow.step tracked sized admissible undropped, ?_⟩
    intro state now index pkt member
    change _ < ((l.next P event).session.receiver.cfg.bufferPkts : Int) + 2
    rw [recvCfg]
    rcases List.mem_append.mp member with old | new
    · exact landed state now index pkt old
    · cases List.mem_singleton.mp new
      change l.Admissible (.handleData now index pkt) at admissible
      rcases tracked.backed_handleData admissible with
        ⟨position, close, sent, entry, retransmitted, _, rfl⟩
      have within := (flow.offset_lt sized sent).1
      have resolved := (tracked.unwrap_wire close).2
      have base := tracked.receiver.position
      unfold Receiver.Session.unwrap at resolved
      change (wire l.sender.cfg.initialSeq position).diff l.session.receiver.baseSeq < _
      omega

/-- If the flow window fits the receive buffer of at least two packets and the
sender never drops a packet, then in every run every data packet reaches the
receiver less than two packets past its capacity, and the receiver never reports a
sequence discrepancy. -/
theorem flow_control_safe {P : Primitives} {history : List (Link × Event)} {l : Link}
    (run : (machine P).Run history l)
    (window : l.sender.cfg.flowWindow ≤ l.session.receiver.cfg.bufferPkts)
    (room : 2 ≤ l.session.receiver.cfg.bufferPkts)
    (lossless : l.sender.stats.pktsDropped = 0) :
    l.session.receiver.sequenceDiscrepancy = false ∧
      forall state now index pkt, (state, Event.handleData now index pkt) ∈ history ->
        pkt.seq.diff state.session.receiver.baseSeq <
          l.session.receiver.cfg.bufferPkts + 2 := by
  rcases run_flow run ⟨window, room⟩ lossless with ⟨⟨ws, wr, _, flow⟩, landed⟩
  exact ⟨flow.clean, landed⟩

/-- A link with room for two packets at each end. -/
def narrowLink : Link :=
  new 0 { Sender.liveConfig 0x7FFFFFFE with flowWindow := 2 }
    ⟨SeqNumber.new 0x7FFFFFFE, Duration.fromMillis 120, 2⟩

/-- Two packets fill the receive buffer.  The full ACK for them advertises two
more packets, and the second of those arrives. -/
def narrowEvents : List Event :=
  [.push 0 [1], .push 0 [2], .pollTransmit 0, .pollTransmit 0, .handleData 1000 0 (wrapPacket 0 [1]),
    .handleData 2000 1 (wrapPacket 1 [2]), .receiverOnTimer 10000000,
    .handleAck 11000000 1 { wrapAck with lastAckSeq := SeqNumber.new 0, availBufPkts := some 2 } 2,
    .push 0 [3], .push 0 [4], .pollTransmit 12000000, .pollTransmit 12000000,
    .handleData 13000000 3 (wrapPacket 3 [4])]

theorem flow_control_safe_narrowEvents :
    let l := (machine .sample).exec narrowLink narrowEvents
    let before := (machine .sample).exec narrowLink (narrowEvents.take 12)
    (wrapPacket 3 [4]).seq.diff before.session.receiver.baseSeq = 3 ∧
      l.session.receiver.sequenceDiscrepancy = false ∧
      (wrapPacket 3 [4]).seq.diff before.session.receiver.baseSeq <
        l.session.receiver.cfg.bufferPkts + 2 := by
  have run := Machine.run_exec (start_new .sample 0 rfl)
    (by decide +kernel : (machine .sample).Allowed narrowLink narrowEvents)
  have safe := flow_control_safe run (by decide +kernel) (by decide +kernel) (by decide +kernel)
  exact ⟨by decide +kernel, safe.1, safe.2 _ 13000000 3 _ (by decide +kernel)⟩

end Link

end Rsrt

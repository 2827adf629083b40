import Rsrt.Core.SenderSession

namespace Rsrt
namespace Sender

open Rsrt.Basis

/-!
# What a submission discards

A submission to a full in-flight window drops packets from the front of the
buffer until the window has room.  As long as the window is open at all, the
front packet is in flight whenever the window is full, so that each drop is of a
packet that was transmitted and takes one packet out of flight.  A window that is
closed, because the peer advertised nothing or light acknowledgements consumed
all of its credit, is full with nothing in flight: the loop then empties the
buffer.
-/

/-- The states in which `dropWhile` drops a packet, in order. -/
def dropTrace (full : Sender -> Bool) : Nat -> Sender -> List Sender
  | 0, _ => []
  | fuel + 1, s =>
      if s.buffer ≠ [] ∧ full s then s :: dropTrace full fuel (s.dropFront 1 false) else []

/-- The states in which a submission drops a packet because the in-flight window
is full. -/
def windowDrops (s : Sender) (now : Instant) (payload : Bytes) : List Sender :=
  if s.cfg.maxPayload < payload.length then []
  else
    let room := s.withinCapacity now payload.length
    dropTrace windowFull room.buffer.length room

/-- A submission gives up only packets in flight to a full window: what it drops
there was transmitted, and each drop takes a packet out of flight.  A packet that
was never transmitted leaves only by the too-late drop or from a buffer at its
capacity. -/
structure DropsInFlight (P : Primitives) (s : Session) (now : Instant) (payload : Bytes)
    (crypto : Option Crypto) : Prop where
  transmitted : forall d, d ∈ s.sender.windowDrops now payload -> d.baseIndex ∈ s.sent
  decreasing : forall d, d ∈ s.sender.windowDrops now payload ->
    (d.dropFront 1 false).flight < d.flight
  spared : forall i, s.sender.baseIndex ≤ i ->
    i < (s.sender.submit P now payload crypto).baseIndex -> i ∉ s.sent ->
      i < (s.sender.withinCapacity now payload.length).baseIndex

/-- The in-flight window is open, or nothing that was never transmitted can be in
the way. -/
def Spares (s : Sender) (now : Instant) (payload : Bytes) : Prop :=
  s.cfg.maxPayload < payload.length ∨ 0 < s.effectiveWindow ∨
    s.nextSendIndex = s.baseIndex + s.buffer.length ∨
      s.tlpktdropCount now = s.buffer.length ∨ s.cfg.bufferPkts ≤ 1

section Loop

variable {w : SendWindow BufEntry} {s : Sender}

/-- Every drop happens in a state of the same window, moved forward, with a packet
to drop. -/
theorem Tracks.dropTrace (tracks : Tracks w s) (full : Sender -> Bool) (fuel : Nat) {d : Sender}
    (dropped : d ∈ Sender.dropTrace full fuel s) :
    Exists fun w' => SendWindow.Advanced w w' ∧ Tracks w' d ∧ d.buffer ≠ [] ∧ full d ∧
      d.outside = s.outside := by
  induction fuel generalizing w s with
  | zero => cases dropped
  | succ fuel ih =>
      unfold Sender.dropTrace at dropped
      split_ifs at dropped with continues
      · rcases List.mem_cons.mp dropped with same | later
        · subst same
          exact ⟨w, .refl w, tracks, continues.1, continues.2, rfl⟩
        · have enough : 1 ≤ s.buffer.length := List.length_pos_iff.mpr continues.1
          rcases tracks.dropFront enough false with ⟨middle, first, _, moved⟩
          rcases ih moved later with ⟨w', rest, facts⟩
          exact ⟨w', first.trans rest, facts⟩
      · cases dropped

/-- Every position that the loop gives up is the front of a state in which it
drops. -/
theorem exists_dropTrace (full : Sender -> Bool) (fuel : Nat) (s : Sender) {i : Nat}
    (above : s.baseIndex ≤ i) (below : i < (dropWhile full fuel s).baseIndex) :
    Exists fun d => d ∈ dropTrace full fuel s ∧ d.baseIndex = i := by
  induction fuel generalizing s with
  | zero => exact absurd below (not_lt.mpr above)
  | succ fuel ih =>
      unfold dropWhile at below
      unfold dropTrace
      split_ifs at below ⊢ with continues
      · rcases Nat.eq_or_lt_of_le above with front | later
        · exact ⟨s, List.mem_cons_self, front⟩
        · rcases ih (s.dropFront 1 false) later below with ⟨d, member, base⟩
          exact ⟨d, List.mem_cons_of_mem _ member, base⟩
      · exact absurd below (not_lt.mpr above)

/-- A condition that never fails empties the buffer: the loop reaches the last
packet. -/
theorem exists_last_of_always (full : Sender -> Bool)
    (always : forall d : Sender, d.outside = s.outside -> full d) {fuel : Nat}
    (length : s.buffer.length = fuel + 1) :
    Exists fun d => d ∈ dropTrace full (fuel + 1) s ∧
      d.baseIndex + 1 = s.baseIndex + s.buffer.length := by
  induction fuel generalizing s with
  | zero =>
      have continues : s.buffer ≠ [] ∧ full s :=
        ⟨List.length_pos_iff.mp (by omega), always s rfl⟩
      unfold dropTrace
      rw [if_pos continues]
      exact ⟨s, List.mem_cons_self, by omega⟩
  | succ fuel ih =>
      have continues : s.buffer ≠ [] ∧ full s :=
        ⟨List.length_pos_iff.mp (by omega), always s rfl⟩
      have shorter : (s.dropFront 1 false).buffer.length = fuel + 1 := by
        change (s.buffer.drop 1).length = fuel + 1
        rw [List.length_drop]
        omega
      rcases ih (s := s.dropFront 1 false)
        (fun d same => always d (same.trans (dropFront_outside _ _ _))) shorter with
        ⟨d, member, base⟩
      unfold dropTrace
      rw [if_pos continues]
      refine ⟨d, List.mem_cons_of_mem _ member, ?_⟩
      rw [base, shorter]
      change s.baseIndex + 1 + (fuel + 1) = s.baseIndex + s.buffer.length
      omega

/-- A capacity of two or more never empties the buffer. -/
theorem dropWhile_bufferFull_nonempty (fuel : Nat) {s : Sender} (capacity : 2 ≤ s.cfg.bufferPkts)
    (some : s.buffer ≠ []) : (dropWhile bufferFull fuel s).buffer ≠ [] := by
  induction fuel generalizing s with
  | zero => exact some
  | succ fuel ih =>
      unfold dropWhile
      split_ifs with continues
      · apply ih (s := s.dropFront 1 false) capacity
        have many : s.cfg.bufferPkts ≤ s.buffer.length := by simpa [bufferFull] using continues.2
        apply List.length_pos_iff.mp
        change 0 < (s.buffer.drop 1).length
        rw [List.length_drop]
        omega
      · exact some

/-- A capacity of at most one packet empties the buffer. -/
theorem dropWhile_bufferFull_empty {fuel : Nat} {s : Sender} (capacity : s.cfg.bufferPkts ≤ 1)
    (enough : s.buffer.length ≤ fuel) : (dropWhile bufferFull fuel s).buffer = [] := by
  induction fuel generalizing s with
  | zero => exact List.length_eq_zero_iff.mp (Nat.le_zero.mp enough)
  | succ fuel ih =>
      unfold dropWhile
      split_ifs with continues
      · apply ih (s := s.dropFront 1 false) capacity
        change (s.buffer.drop 1).length ≤ fuel
        rw [List.length_drop]
        omega
      · by_contra some
        apply continues
        refine ⟨some, ?_⟩
        have positive := List.length_pos_iff.mpr some
        simp only [bufferFull, decide_eq_true_eq]
        omega

theorem flight_eq (tracks : Tracks w s) : s.flight = w.next - w.base := by
  unfold flight
  rw [tracks.next, tracks.acked]

/-- Dropping a packet in flight takes it out of flight. -/
theorem Tracks.flight_dropFront (tracks : Tracks w s) (inFlight : w.base < w.next) :
    (s.dropFront 1 false).flight < s.flight := by
  rw [flight_eq tracks]
  change max s.nextSendIndex (s.baseIndex + 1) - max s.lastAckIndex (s.baseIndex + 1) < _
  rw [tracks.next, tracks.base, tracks.acked]
  omega

theorem effectiveWindow_of_outside_eq {s s' : Sender} (same : s'.outside = s.outside) :
    s'.effectiveWindow = s.effectiveWindow := by
  have cfg := congrArg Sender.cfg same
  have advertised := congrArg Sender.advertisedWindow same
  change s'.cfg = s.cfg at cfg
  change s'.advertisedWindow = s.advertisedWindow at advertised
  unfold effectiveWindow
  rw [cfg, advertised]

end Loop

section Submission

variable {P : Primitives} {s : Session} {w : SendWindow BufEntry}

theorem windowDrops_eq {s : Sender} {payload : Bytes} (fits : payload.length ≤ s.cfg.maxPayload)
    (now : Instant) :
    s.windowDrops now payload = dropTrace windowFull
      (s.withinCapacity now payload.length).buffer.length (s.withinCapacity now payload.length) := by
  unfold windowDrops
  rw [if_neg (not_lt.mpr fits)]

theorem submit_baseIndex (s : Sender) (now : Instant) (payload : Bytes) (crypto : Option Crypto) :
    (s.submit P now payload crypto).baseIndex =
      if s.cfg.maxPayload < payload.length then s.baseIndex
      else (s.makeRoom now payload.length).baseIndex := by
  unfold submit push
  split_ifs <;> rfl

/-- If the window drops spare what was never transmitted, so does the submission. -/
theorem spared_of_transmitted {now : Instant} {payload : Bytes} (crypto : Option Crypto)
    (transmitted : forall d, d ∈ s.sender.windowDrops now payload -> d.baseIndex ∈ s.sent)
    {i : Nat} (above : s.sender.baseIndex ≤ i)
    (below : i < (s.sender.submit P now payload crypto).baseIndex) (unsent : i ∉ s.sent) :
    i < (s.sender.withinCapacity now payload.length).baseIndex := by
  rw [submit_baseIndex] at below
  split_ifs at below with large
  · exact absurd below (not_lt.mpr above)
  · by_contra ahead
    rcases exists_dropTrace windowFull _ _ (not_lt.mp ahead) below with ⟨d, member, base⟩
    rw [← windowDrops_eq (not_lt.mp large)] at member
    exact unsent (base ▸ transmitted d member)

theorem withinCapacity_empty {now : Instant} {payloadLen : Nat} {s : Sender} (tracks : Tracks w s)
    (empties : s.tlpktdropCount now = s.buffer.length ∨ s.cfg.bufferPkts ≤ 1) :
    (s.withinCapacity now payloadLen).buffer = [] := by
  rcases empties with late | small
  · rcases tracks.withinCapacity now payloadLen with ⟨w', advanced, reached, within⟩
    have length := tracks.length
    have remaining := within.length
    rw [advanced.stream] at remaining
    apply List.length_eq_zero_iff.mp
    omega
  · have cfg := congrArg Sender.cfg
      (checkTlpktdrop_outside (s.feedPacer now payloadLen) now)
    change ((s.feedPacer now payloadLen).checkTlpktdrop now).cfg = s.cfg at cfg
    exact dropWhile_bufferFull_empty (by rw [cfg]; exact small) (le_refl _)

theorem withinCapacity_nonempty {now : Instant} {payloadLen : Nat} {s : Sender}
    (tracks : Tracks w s) (timely : s.tlpktdropCount now ≠ s.buffer.length)
    (capacity : ¬s.cfg.bufferPkts ≤ 1) : (s.withinCapacity now payloadLen).buffer ≠ [] := by
  have fed : Tracks w (s.feedPacer now payloadLen) := tracks.of_core_eq rfl
  have cfg := congrArg Sender.cfg (checkTlpktdrop_outside (s.feedPacer now payloadLen) now)
  change ((s.feedPacer now payloadLen).checkTlpktdrop now).cfg = s.cfg at cfg
  rcases fed.checkTlpktdrop now with ⟨w', advanced, base, checked⟩
  have count : (s.feedPacer now payloadLen).tlpktdropCount now = s.tlpktdropCount now := rfl
  have bound := tlpktdropCount_le s now
  have length := tracks.length
  have remaining := checked.length
  rw [advanced.stream] at remaining
  apply dropWhile_bufferFull_nonempty
  · rw [cfg]
    omega
  · apply List.length_pos_iff.mp
    omega

/-- With `Spares`, the front packet of every state in which the loop drops is in
flight. -/
theorem inFlight_of_spares {now : Instant} {payload : Bytes} (tracked : s.Tracked w)
    (spares : Spares s.sender now payload) {d : Sender}
    (dropped : d ∈ s.sender.windowDrops now payload) :
    Exists fun w' => Tracks w' d ∧ w.base ≤ w'.base ∧ w'.base < w.next ∧ w.next ≤ w'.next := by
  have tracks := tracked.tracks
  have fits : payload.length ≤ s.sender.cfg.maxPayload := by
    by_contra large
    unfold windowDrops at dropped
    rw [if_pos (not_le.mp large)] at dropped
    cases dropped
  rw [windowDrops_eq fits] at dropped
  rcases tracks.withinCapacity now payload.length with ⟨middle, first, _, within⟩
  rcases within.dropTrace windowFull _ dropped with ⟨w', rest, moved, some, full, outside⟩
  have advanced := first.trans rest
  refine ⟨w', moved, advanced.base_le, ?_, advanced.later.next_le⟩
  have next := advanced.next
  have positive := List.length_pos_iff.mpr some
  have length := moved.length
  rw [advanced.stream] at length
  rcases spares with large | opened | allSent | emptied
  · omega
  · have window := effectiveWindow_of_outside_eq (outside.trans (withinCapacity_outside _ _ _))
    simp only [windowFull, decide_eq_true_eq, flight_eq moved, window] at full
    omega
  · have total := tracks.length
    rw [tracks.next, tracks.base] at allSent
    omega
  · rw [withinCapacity_empty tracks emptied] at dropped
    cases dropped

theorem spares_of_transmitted {now : Instant} {payload : Bytes} (tracked : s.Tracked w)
    (transmitted : forall d, d ∈ s.sender.windowDrops now payload -> d.baseIndex ∈ s.sent) :
    Spares s.sender now payload := by
  have tracks := tracked.tracks
  by_contra closed
  simp only [Spares, not_or, not_lt] at closed
  rcases closed with ⟨fits, shut, unsent, timely, capacity⟩
  rw [windowDrops_eq fits] at transmitted
  rcases tracks.withinCapacity now payload.length with ⟨w', advanced, _, within⟩
  have some : (s.sender.withinCapacity now payload.length).buffer ≠ [] :=
    withinCapacity_nonempty tracks timely capacity
  have always : forall d : Sender,
      d.outside = (s.sender.withinCapacity now payload.length).outside -> windowFull d := by
    intro d same
    have window := effectiveWindow_of_outside_eq (same.trans (withinCapacity_outside _ _ _))
    simp only [windowFull, decide_eq_true_eq]
    omega
  rcases Nat.exists_eq_succ_of_ne_zero (Nat.pos_iff_ne_zero.mp (List.length_pos_iff.mpr some)) with
    ⟨fuel, length⟩
  rcases exists_last_of_always windowFull always length with ⟨d, member, last⟩
  rw [length] at transmitted
  have logged := tracked.bounded _ (transmitted d member)
  have total := tracks.length
  have remaining := within.length
  have base := within.base
  rw [advanced.stream] at remaining
  rw [tracks.next, tracks.base] at unsent
  have upper := w.next_le
  omega

/-- A submission to any reachable sender discards only packets in flight to a full
window exactly when `Spares` holds. -/
theorem push_dropsInFlight_iff {s : Session} (reachable : (machine P).Reachable s) (now : Instant)
    (payload : Bytes) (crypto : Option Crypto) :
    DropsInFlight P s now payload crypto ↔ Spares s.sender now payload := by
  rcases reachable_tracked reachable with ⟨w, tracked⟩
  constructor
  · intro drops
    exact spares_of_transmitted tracked drops.transmitted
  · intro spares
    have transmitted : forall d, d ∈ s.sender.windowDrops now payload -> d.baseIndex ∈ s.sent := by
      intro d dropped
      rcases inFlight_of_spares tracked spares dropped with ⟨w', moved, above, below, _⟩
      rw [moved.base]
      exact tracked.logged _ above below
    refine ⟨transmitted, ?_, ?_⟩
    · intro d dropped
      rcases inFlight_of_spares tracked spares dropped with ⟨w', moved, _, below, later⟩
      exact moved.flight_dropFront (Nat.lt_of_lt_of_le below later)
    · intro i above below unsent
      exact spared_of_transmitted crypto transmitted above below unsent

end Submission

/-- A window of one packet, with that packet in flight. -/
def fullSession : Session :=
  (machine .sample).exec ⟨Sender.new { liveConfig 100 with flowWindow := 1 }, []⟩
    [.push 0 [1] none, .pollTransmit 0]

theorem push_dropsInFlight_iff_full :
    (fullSession.sender.windowDrops 0 [2]).map (fun d =>
        (d.baseIndex, d.flight, (d.dropFront 1 false).flight)) = [(0, 1, 0)] ∧
      DropsInFlight .sample fullSession 0 [2] none := by
  refine ⟨by decide +kernel, (push_dropsInFlight_iff ⟨_, Machine.run_exec (start_new _ _) ?_⟩ 0 [2]
    none).mpr (Or.inr (Or.inl (by decide +kernel)))⟩
  exact ⟨trivial, trivial, trivial⟩

/-- Three packets are submitted and two of them sent.  A full acknowledgement
advertises two packets, and a light one that acknowledges both consumes them. -/
def creditCalls : List Call :=
  [.push 0 [1] none, .push 0 [2] none, .push 0 [3] none, .pollTransmit 0, .pollTransmit 0,
    .handleAck 0 1
      { lastAckSeq := SeqNumber.new 100
        rttUs := some 20000
        rttVarUs := some 1000
        availBufPkts := some 2 },
    .handleAck 0 0 { lastAckSeq := SeqNumber.new 102 }]

def creditSession : Session :=
  (machine .sample).exec ⟨Sender.new (liveConfig 100), []⟩ creditCalls

theorem creditSession_reachable : (machine .sample).Reachable creditSession := by
  refine ⟨_, Machine.run_exec (start_new _ _) ?_⟩
  simp only [creditCalls, Machine.Allowed, machine, and_true]

/-- The window is closed with nothing in flight.  The next submission then drops
the third packet, which was never transmitted and is neither late nor in the way
of a full buffer; the drop takes nothing out of flight. -/
theorem closed_window_drops_unsent :
    (machine .sample).Reachable creditSession ∧
      creditSession.sent = [0, 1] ∧ creditSession.sender.effectiveWindow = 0 ∧
      creditSession.sender.baseIndex = 2 ∧
      (creditSession.sender.withinCapacity 0 [4].length).baseIndex = 2 ∧
      (creditSession.sender.submit .sample 0 [4] none).baseIndex = 3 ∧
      (creditSession.sender.windowDrops 0 [4]).map (fun d =>
        (d.baseIndex, d.flight, (d.dropFront 1 false).flight)) = [(2, 0, 0)] ∧
      ¬DropsInFlight .sample creditSession 0 [4] none := by
  refine ⟨creditSession_reachable, by decide +kernel, by decide +kernel, by decide +kernel,
    by decide +kernel, by decide +kernel, by decide +kernel, ?_⟩
  intro drops
  have spared := drops.spared 2 (by decide +kernel) (by decide +kernel) (by decide +kernel)
  exact absurd spared (by decide +kernel)

end Sender
end Rsrt

import Rsrt.Core.SenderInvariant
import Rsrt.Core.SenderReports
import Rsrt.Basis.Polling

namespace Rsrt

open Rsrt.Basis

/-!
# Draining the sender

A poll of the transmit path that returns nothing leaves the sender spent: either the
pacing gate is closed and opens at a known instant, or nothing is left to send and the
gate is disarmed.  A spent sender stays silent until its own deadline.  Every packet
that a poll returns shortens what is left to send, so draining ends.
-/

namespace Sender

/-- There is new data, and the window lets it out. -/
def Sendable (s : Sender) : Prop :=
  s.nextSendIndex < s.baseIndex + s.buffer.length ∧ s.flight < s.effectiveWindow

/-- Nothing more goes out at this instant. -/
def Spent (s : Sender) (now : Instant) : Prop :=
  match s.pacer.bind Pacer.deadline with
  | some due => now < due
  | none => s.lossList = ∅ ∧ ¬s.Sendable

/-- What is left to send: retransmissions and new data. -/
def backlog (s : Sender) : Nat :=
  s.lossList.card + (s.baseIndex + s.buffer.length - s.nextSendIndex)

section Losses

variable {s : Sender} {now : Instant} {fuel : Nat} {losses rest : Finset Nat}

theorem card_erase_of_min {index : Nat} (least : losses.min = some index) :
    (losses.erase index).card + 1 = losses.card :=
  Finset.card_erase_add_one (Finset.mem_of_min least)

/-- A scan of the whole loss list that finds nothing empties it. -/
theorem nextLoss_none (whole : losses.card ≤ fuel)
    (scanned : s.nextLoss now fuel losses = (none, rest)) : rest = ∅ := by
  induction fuel generalizing losses with
  | zero =>
      cases scanned
      exact Finset.card_eq_zero.mp (Nat.le_zero.mp whole)
  | succ fuel ih =>
      rw [nextLoss] at scanned
      split at scanned
      case h_1 absent =>
        cases scanned
        exact Finset.min_eq_top.mp absent
      case h_2 index least =>
        have smaller := card_erase_of_min least
        split_ifs at scanned
        · exact ih (by omega) scanned
        · cases scanned

/-- A loss that is taken leaves the list. -/
theorem nextLoss_some {index : Nat} (scanned : s.nextLoss now fuel losses = (some index, rest)) :
    rest.card < losses.card := by
  induction fuel generalizing losses with
  | zero => cases scanned
  | succ fuel ih =>
      rw [nextLoss] at scanned
      split at scanned
      case h_1 => cases scanned
      case h_2 first least =>
        have smaller := card_erase_of_min least
        split_ifs at scanned
        · have lower := ih scanned
          omega
        · cases scanned
          omega

end Losses

section Polls

variable {w : SendWindow BufEntry} {s : Sender} {now : Instant}

/-- The gate is closed exactly while its deadline lies ahead. -/
theorem gate_none (closed : s.gate now = none) : s.Spent now := by
  unfold gate at closed
  unfold Spent
  split at closed
  case h_1 => cases closed
  case h_2 p present =>
    have blocked : p.gate now = none := Option.map_eq_none_iff.mp closed
    rw [present]
    unfold Pacer.gate at blocked
    change match p.nextSendTime with
      | some due => now < due
      | none => _
    cases scheduled : p.nextSendTime with
    | none =>
        rw [scheduled] at blocked
        cases blocked
    | some due =>
        rw [scheduled] at blocked
        dsimp only at blocked
        split_ifs at blocked with ahead
        exact ahead

theorem gate_of_ahead {due : Instant} (scheduled : s.pacer.bind Pacer.deadline = some due)
    (ahead : now < due) : s.gate now = none := by
  rcases Option.bind_eq_some_iff.mp scheduled with ⟨p, present, deadline⟩
  have blocked : p.gate now = none := by
    unfold Pacer.gate
    rw [show p.nextSendTime = some due from deadline]
    exact if_pos ahead
  unfold gate
  rw [present]
  dsimp only
  rw [blocked]
  rfl

/-- The next transmission is within the buffer or at its end. -/
def Placed (s : Sender) : Prop :=
  s.baseIndex ≤ s.nextSendIndex ∧ s.nextSendIndex ≤ s.baseIndex + s.buffer.length

theorem Tracks.placed (tracks : Tracks w s) : s.Placed := by
  unfold Placed
  rw [tracks.base, tracks.next, tracks.length]
  exact ⟨w.base_le, w.next_le⟩

theorem packetAt_isSome {index : Nat} (above : s.baseIndex ≤ index)
    (below : index < s.baseIndex + s.buffer.length) (retransmitted : Bool) :
    Exists fun pkt => s.packetAt index retransmitted = some pkt := by
  have bound : index - s.baseIndex < s.buffer.length := by omega
  unfold packetAt
  rw [List.getElem?_eq_getElem bound]
  exact ⟨_, rfl⟩

theorem packetAt_retransmitted {index : Nat} {retransmitted : Bool} {pkt : DataPacket}
    (found : s.packetAt index retransmitted = some pkt) : pkt.retransmitted = retransmitted := by
  rcases Option.map_eq_some_iff.mp found with ⟨entry, _, rfl⟩
  rfl

theorem retransmit_eq {index : Nat} (above : s.baseIndex ≤ index)
    (below : index < s.baseIndex + s.buffer.length) (now : Instant) :
    Exists fun pkt => pkt.retransmitted = true ∧
      s.retransmit now index =
        ({ s with
            buffer := s.buffer.modify (index - s.baseIndex) fun entry =>
              { entry with lastRexmit := some now } }.booked now pkt false,
          some (index, pkt)) := by
  let stamped : Sender := { s with
    buffer := s.buffer.modify (index - s.baseIndex) fun entry =>
      { entry with lastRexmit := some now } }
  have length : stamped.buffer.length = s.buffer.length := List.length_modify _ _ _
  rcases @packetAt_isSome stamped index above (by
    rw [length]
    exact below) true with ⟨pkt, found⟩
  refine ⟨pkt, packetAt_retransmitted found, ?_⟩
  unfold retransmit
  dsimp only
  rw [found]

theorem transmit_eq (placed : s.Placed) (more : s.nextSendIndex < s.baseIndex + s.buffer.length)
    (now : Instant) :
    Exists fun pkt => pkt.retransmitted = false ∧
      s.transmit now =
        ({ s with nextSendIndex := s.nextSendIndex + 1 }.booked now pkt
          (pkt.seq.value % 16 = 0 :), some (s.nextSendIndex, pkt)) := by
  let sent : Sender := { s with nextSendIndex := s.nextSendIndex + 1 }
  rcases @packetAt_isSome sent s.nextSendIndex placed.1 more false with ⟨pkt, found⟩
  refine ⟨pkt, packetAt_retransmitted found, ?_⟩
  unfold transmit
  dsimp only
  rw [found]

/-- A retransmission keeps the list that it was taken from. -/
theorem retransmit_backlog {index : Nat} (above : s.baseIndex ≤ index)
    (below : index < s.baseIndex + s.buffer.length) (now : Instant) :
    (Exists fun emitted => (s.retransmit now index).2 = some emitted) ∧
      (s.retransmit now index).1.backlog = s.backlog := by
  rcases retransmit_eq above below now with ⟨pkt, _, result⟩
  rw [result]
  refine ⟨⟨_, rfl⟩, ?_⟩
  change s.lossList.card +
    (s.baseIndex + (s.buffer.modify _ _).length - s.nextSendIndex) = s.backlog
  rw [List.length_modify]
  rfl

/-- A first transmission shortens the unsent tail. -/
theorem transmit_backlog (placed : s.Placed)
    (more : s.nextSendIndex < s.baseIndex + s.buffer.length) (now : Instant) :
    (Exists fun emitted => (s.transmit now).2 = some emitted) ∧
      (s.transmit now).1.backlog < s.backlog := by
  rcases transmit_eq placed more now with ⟨pkt, _, result⟩
  rw [result]
  refine ⟨⟨_, rfl⟩, ?_⟩
  change s.lossList.card + (s.baseIndex + s.buffer.length - (s.nextSendIndex + 1)) <
    s.lossList.card + (s.baseIndex + s.buffer.length - s.nextSendIndex)
  omega

/-- What a poll leaves: it returns nothing and the sender is spent, or it returns a packet
and the backlog is shorter. -/
def Polled (s : Sender) (now : Instant) (result : Sender × Option (Nat × DataPacket)) : Prop :=
  (result.2 = none ∧ result.1.Spent now) ∨
    (Exists fun emitted => result.2 = some emitted) ∧ result.1.backlog < s.backlog

theorem transmitNew_polled (placed : s.Placed) (empty : s.lossList = ∅) (now : Instant) :
    s.Polled now (s.transmitNew now) := by
  unfold transmitNew
  split_ifs with room
  · exact Or.inr (transmit_backlog placed room.1 now)
  · refine Or.inl ⟨rfl, ?_⟩
    have disarmed : (s.pacer.map Pacer.onNothingToSend).bind Pacer.deadline = none := by
      cases s.pacer <;> rfl
    unfold Spent
    dsimp only
    rw [disarmed]
    exact ⟨empty, room⟩

theorem pollDue_polled (placed : s.Placed) (now : Instant) : s.Polled now (s.pollDue now) := by
  unfold pollDue
  split
  case h_1 index rest scanned =>
    have bounds := (nextLoss_due s now _ _ (congrArg Prod.fst scanned)).2
    have upper := placed.2
    rcases @retransmit_backlog { s with lossList := rest } index bounds.1
      (lt_of_lt_of_le bounds.2 upper) now with ⟨emitted, same⟩
    refine Or.inr ⟨emitted, ?_⟩
    rw [same]
    have fewer := nextLoss_some scanned
    unfold backlog
    dsimp only
    omega
  case h_2 rest scanned =>
    have empty := nextLoss_none (le_refl _) scanned
    rcases @transmitNew_polled { s with lossList := rest } placed empty now with spent | ⟨emitted, lower⟩
    · exact Or.inl spent
    · refine Or.inr ⟨emitted, lt_of_lt_of_le lower ?_⟩
      unfold backlog
      dsimp only
      rw [empty, Finset.card_empty]
      omega

theorem pollTransmitAt_polled (placed : s.Placed) (now : Instant) :
    s.Polled now (s.pollTransmitAt now) := by
  unfold pollTransmitAt
  cases opened : s.gate now with
  | none => exact Or.inl ⟨rfl, gate_none opened⟩
  | some due =>
      have core := gate_core opened
      have placed' : due.Placed := by
        unfold Placed
        rw [show due.baseIndex = s.baseIndex from congrArg Core.baseIndex core,
          show due.nextSendIndex = s.nextSendIndex from congrArg Core.nextSendIndex core,
          show due.buffer = s.buffer from congrArg Core.buffer core]
        exact placed
      have same : due.backlog = s.backlog := by
        unfold backlog
        rw [show due.lossList = s.lossList from congrArg Core.lossList core,
          show due.baseIndex = s.baseIndex from congrArg Core.baseIndex core,
          show due.nextSendIndex = s.nextSendIndex from congrArg Core.nextSendIndex core,
          show due.buffer = s.buffer from congrArg Core.buffer core]
      have polled := pollDue_polled placed' now
      unfold Polled at polled ⊢
      rw [← same]
      exact polled

theorem pollTransmitAt_spent (placed : s.Placed) (nothing : (s.pollTransmitAt now).2 = none) :
    (s.pollTransmitAt now).1.Spent now := by
  rcases pollTransmitAt_polled placed now with ⟨_, spent⟩ | ⟨⟨emitted, found⟩, _⟩
  · exact spent
  · rw [nothing] at found
    cases found

end Polls

/-! ## Timers -/

section Timers

variable {w w' : SendWindow BufEntry} {s s' : Sender} {now t : Instant}

/-- The packet at the front is not late yet, if the buffered timespan calls for drops. -/
def Timely (s : Sender) (now : Instant) : Prop :=
  forall front back, s.buffer.head? = some front -> s.buffer.getLast? = some back ->
    s.dropThreshold < back.origin - front.origin -> now < front.origin + s.dropThreshold

theorem dropThreshold_pos (s : Sender) : 0 < s.dropThreshold := by
  have reaction : 0 < tlpktdropReaction := by decide
  exact Nat.lt_of_lt_of_le reaction (Nat.le_add_left _ _)

/-- The instant at which the front of the buffer is late. -/
def dropDeadline (s : Sender) : Option Instant :=
  match s.buffer.head?, s.buffer.getLast? with
  | some front, some back =>
      if s.dropThreshold < back.origin - front.origin then some (front.origin + s.dropThreshold)
      else none
  | _, _ => none

theorem nextDeadline_eq (s : Sender) :
    s.nextDeadline =
      match s.dropDeadline, s.pacer.bind Pacer.deadline with
      | some d, some p => some (min d p)
      | d, p => d.or p := rfl

theorem dropDeadline_ahead (s : Sender) (t : Instant) :
    (forall deadline, s.dropDeadline = some deadline -> t < deadline) ↔ s.Timely t := by
  unfold dropDeadline Timely
  constructor
  · intro ahead front back first last wide
    apply ahead
    rw [first, last]
    exact if_pos wide
  · intro timely deadline found
    split at found
    case h_1 front back first last =>
      split_ifs at found with wide
      cases found
      exact timely front back first last wide
    case h_2 => cases found

/-- The deadline of the sender lies ahead exactly if both of its timers do. -/
theorem nextDeadline_ahead (s : Sender) (t : Instant) :
    (forall deadline, s.nextDeadline = some deadline -> t < deadline) ↔
      s.Timely t ∧ forall due, s.pacer.bind Pacer.deadline = some due -> t < due := by
  rw [nextDeadline_eq, ← dropDeadline_ahead]
  cases s.dropDeadline with
  | none => cases s.pacer.bind Pacer.deadline <;> simp
  | some d => cases s.pacer.bind Pacer.deadline <;> simp

/-- Refreshing the rate leaves the schedule alone. -/
theorem refresh_nextSendTime (p : Pacer) : p.refresh.nextSendTime = p.nextSendTime := by
  -- The constructor is exposed, so that the periods are never compared.
  rcases p with ⟨mode, maxBw, avgPayload, period, nextSendTime, credit⟩
  cases mode <;> rfl

theorem refreshPacer_deadline (s : Sender) :
    s.refreshPacer.pacer.bind Pacer.deadline = s.pacer.bind Pacer.deadline := by
  unfold refreshPacer
  dsimp only
  cases s.pacer with
  | none => rfl
  | some p =>
      rw [Option.map_some, Option.bind_some, Option.bind_some]
      exact refresh_nextSendTime p

/-- A packet is late from its submission plus the threshold on. -/
theorem late_iff (s : Sender) (entry : BufEntry) (now : Instant) :
    s.dropThreshold ≤ now - entry.origin ↔ entry.origin + s.dropThreshold ≤ now :=
  Duration.elapsed_iff s.dropThreshold_pos

/-- With a wide timespan everything late at the front is dropped. -/
theorem tlpktdropCount_of_wide {front back : BufEntry} (first : s.buffer.head? = some front)
    (last : s.buffer.getLast? = some back) (wide : s.dropThreshold < back.origin - front.origin)
    (now : Instant) :
    s.tlpktdropCount now =
      (s.buffer.takeWhile fun e => s.dropThreshold ≤ now - e.origin).length := by
  unfold tlpktdropCount
  rw [first, last]
  exact if_neg (not_le.mpr wide)

theorem tlpktdropCount_of_late (late : 0 < s.tlpktdropCount now) :
    s.tlpktdropCount now =
      (s.buffer.takeWhile fun e => s.dropThreshold ≤ now - e.origin).length := by
  unfold tlpktdropCount at late ⊢
  split at late
  · split_ifs at late ⊢
    · exact absurd late (lt_irrefl 0)
    · rfl
  · exact absurd late (lt_irrefl 0)

/-- Dropping what is late leaves a front that is not. -/
theorem checkTlpktdrop_timely (s : Sender) (now : Instant) : (s.checkTlpktdrop now).Timely now := by
  intro front back first last wide
  unfold checkTlpktdrop at first last wide ⊢
  split_ifs at first last wide ⊢ with late
  · change (s.buffer.drop (s.tlpktdropCount now)).head? = some front at first
    have rest : s.buffer.drop (s.tlpktdropCount now) =
        s.buffer.dropWhile fun e => s.dropThreshold ≤ now - e.origin := by
      rw [tlpktdropCount_of_late late]
      nth_rewrite 2 [← List.takeWhile_append_dropWhile
        (p := fun e : BufEntry => decide (s.dropThreshold ≤ now - e.origin)) (l := s.buffer)]
      exact List.drop_left
    have fresh := List.head?_dropWhile_not
      (fun e : BufEntry => decide (s.dropThreshold ≤ now - e.origin)) s.buffer
    rw [← rest, first] at fresh
    dsimp only at fresh
    rw [decide_eq_false_iff_not, late_iff] at fresh
    exact not_le.mp fresh
  · have none : s.tlpktdropCount now = 0 := Nat.eq_zero_of_not_pos late
    rw [tlpktdropCount_of_wide first last wide, List.length_eq_zero_iff] at none
    by_contra due
    have entry := (late_iff s front now).mpr (not_lt.mp due)
    cases buffer : s.buffer with
    | nil =>
        rw [buffer] at first
        cases first
    | cons head tail =>
        rw [buffer] at first none
        cases first
        rw [List.takeWhile_cons, if_pos (decide_eq_true entry)] at none
        cases none

/-- Before its deadline the timer only refreshes the pacer. -/
theorem onTimer_of_timely (timely : s.Timely t) : s.onTimer t = s.refreshPacer := by
  have none : s.tlpktdropCount t = 0 := by
    unfold tlpktdropCount
    split
    case h_2 => rfl
    case h_1 front back first last =>
      split_ifs with narrow
      · rfl
      · have early := timely front back first last (not_le.mp narrow)
        rw [← not_le, ← late_iff] at early
        cases buffer : s.buffer with
        | nil => rfl
        | cons head tail =>
            rw [buffer] at first
            cases first
            rw [List.takeWhile_cons, decide_eq_false early]
            rfl
  unfold onTimer checkTlpktdrop
  rw [none, if_neg (lt_irrefl 0)]

theorem pollDue_silent (empty : s.lossList = ∅) (blocked : ¬s.Sendable) (now : Instant) :
    (s.pollDue now).2 = none := by
  unfold pollDue
  rw [empty, Finset.card_empty, nextLoss]
  dsimp only
  unfold transmitNew
  split_ifs with room
  · exact absurd room blocked
  · rfl

/-- A spent sender says nothing before its deadline. -/
theorem Spent.silent (spent : s.Spent now)
    (ahead : forall deadline, s.nextDeadline = some deadline -> t < deadline) :
    ((s.onTimer t).pollTransmitAt t).2 = none := by
  rcases (nextDeadline_ahead s t).mp ahead with ⟨timely, paced⟩
  rw [onTimer_of_timely timely]
  have deadline := refreshPacer_deadline s
  unfold Spent at spent
  unfold Sender.pollTransmitAt
  cases scheduled : s.pacer.bind Pacer.deadline with
  | some due =>
      rw [scheduled] at deadline
      rw [gate_of_ahead deadline (paced due scheduled)]
  | none =>
      rw [scheduled] at spent
      cases opened : s.refreshPacer.gate t with
      | none => rfl
      | some due =>
          rcases gate_eq opened with ⟨pacer, rfl⟩
          exact pollDue_silent (s := { s.refreshPacer with pacer }) spent.1 spent.2 t

theorem Timely.of_pristine (timely : s.Timely t) (cfg : s'.cfg = s.cfg)
    (buffer : s'.buffer.map BufEntry.pristine = s.buffer.map BufEntry.pristine) : s'.Timely t := by
  have threshold : s'.dropThreshold = s.dropThreshold := by
    unfold dropThreshold
    rw [cfg]
  intro front back first last wide
  have firsts := congrArg List.head? buffer
  have lasts := congrArg List.getLast? buffer
  rw [List.head?_map, List.head?_map, first, Option.map_some] at firsts
  rw [List.getLast?_map, List.getLast?_map, last, Option.map_some] at lasts
  rcases Option.map_eq_some_iff.mp firsts.symm with ⟨front', first', same⟩
  rcases Option.map_eq_some_iff.mp lasts.symm with ⟨back', last', same'⟩
  have originOf {a b : BufEntry} (same : a.pristine = b.pristine) : a.origin = b.origin := by
    have origins := congrArg BufEntry.origin same
    exact origins
  have origin := originOf same
  have origin' := originOf same'
  rw [threshold, ← origin, ← origin'] at wide
  rw [threshold, ← origin]
  exact timely front' back' first' last' wide

/-- A poll keeps the front of the buffer as timely as it was. -/
theorem Timely.pollTransmitAt (timely : s.Timely t) (tracks : Tracks w s) (now : Instant) :
    (s.pollTransmitAt now).1.Timely t := by
  rcases tracks.pollTransmitAt now with ⟨w', after, emits⟩
  refine timely.of_pristine ?_ ?_
  · exact congrArg Terms.cfg (pollTransmitAt_terms s now)
  · rw [after.buffer, tracks.buffer, emits.stream_eq, emits.base_eq.1]

end Timers

end Sender

end Rsrt

import Mathlib.Data.List.TakeWhile
import Rsrt.Core.SenderInvariant
import Rsrt.Core.SenderPolling

namespace Rsrt
namespace Sender

open Rsrt.Basis SeqNumber

/-!
# Too-late drops

A timer and every submission first look for packets that are too late.  In a run whose
clock does not go back the buffer is sorted by submission time, so that the packets taken
from its front are exactly the late ones.  The ranges announced to the peer account for
them, one range after the other.
-/

/-- The too-late check of a call: the sender that it runs on, and when. -/
def lateCheck (s : Sender) : Call -> Option (Sender × Instant)
  | .push now payload _ =>
      if payload.length ≤ s.cfg.maxPayload then some (s.feedPacer now payload.length, now)
      else none
  | .onTimer now => some (s, now)
  | _ => none

/-- The indices that the check of a call discards. -/
def discards (s : Sender) (c : Call) : Finset Nat :=
  match s.lateCheck c with
  | some (t, now) => Finset.Ico t.baseIndex (t.checkTlpktdrop now).baseIndex
  | none => ∅

/-- The requests that the check of a call queues. -/
def announces (s : Sender) (c : Call) : List ControlType :=
  match s.lateCheck c with
  | some (t, now) => (t.checkTlpktdrop now).controlQueue.drop t.controlQueue.length
  | none => []

/-- First and last index of the drop that the check of a call makes. -/
def lateRange (s : Sender) (c : Call) : Option (Nat × Nat) :=
  match s.lateCheck c with
  | some (t, now) =>
      if 0 < t.tlpktdropCount now then
        some (t.baseIndex, t.baseIndex + t.tlpktdropCount now - 1)
      else none
  | none => none

/-- A drop request for a range of indices. -/
def rangeRequest (initialSeq : SeqNumber) (range : Nat × Nat) : ControlType :=
  .dropRequest (MsgNumber.new 0) (wire initialSeq range.1) (wire initialSeq range.2)

/-- Nothing late is left: the buffered timespan is within the threshold, or no packet in the
buffer is as old as the threshold. -/
def Clear (s : Sender) (now : Instant) : Prop :=
  (forall front back, s.buffer.head? = some front -> s.buffer.getLast? = some back ->
    back.origin - front.origin ≤ s.dropThreshold) ∨
  forall entry, entry ∈ s.buffer -> now - entry.origin < s.dropThreshold

section Checks

variable {s t : Sender} {now : Instant} {c : Call}

/-- The check runs on the sender as the call finds it, up to the pacer. -/
theorem lateCheck_core (checks : s.lateCheck c = some (t, now)) :
    t.core = s.core ∧ t.controlQueue = s.controlQueue ∧ c.instant = some now := by
  cases c with
  | push now' payload crypto =>
      unfold lateCheck at checks
      dsimp only at checks
      split_ifs at checks
      cases checks
      exact ⟨rfl, rfl, rfl⟩
  | onTimer now' =>
      cases checks
      exact ⟨rfl, rfl, rfl⟩
  | handleAck now' ackNumber cif => cases checks
  | handleNak now' ranges => cases checks
  | pollTransmit now' => cases checks
  | pollControl => cases checks

theorem tlpktdropCount_of_core_eq (same : t.core = s.core) :
    t.tlpktdropCount now = s.tlpktdropCount now := by
  have buffer : t.buffer = s.buffer := congrArg Core.buffer same
  have cfg : t.cfg = s.cfg := congrArg Core.cfg same
  unfold tlpktdropCount dropThreshold
  rw [buffer, cfg]

theorem checkTlpktdrop_baseIndex (s : Sender) (now : Instant) :
    (s.checkTlpktdrop now).baseIndex = s.baseIndex + s.tlpktdropCount now := by
  unfold checkTlpktdrop
  split_ifs with some
  · rfl
  · rw [Nat.eq_zero_of_not_pos some]
    rfl

/-- A range starts at the base and counts what is late. -/
theorem lateRange_bounds {range : Nat × Nat} (found : s.lateRange c = some range) :
    Exists fun now => c.instant = some now ∧ range.1 = s.baseIndex ∧
      range.2 + 1 = s.baseIndex + s.tlpktdropCount now ∧ range.1 ≤ range.2 := by
  unfold lateRange at found
  cases checks : s.lateCheck c with
  | none =>
      rw [checks] at found
      cases found
  | some check =>
      rcases check with ⟨t, now⟩
      rw [checks] at found
      dsimp only at found
      split_ifs at found with some
      cases found
      rcases lateCheck_core checks with ⟨core, _, instant⟩
      have base : t.baseIndex = s.baseIndex := congrArg Core.baseIndex core
      rw [tlpktdropCount_of_core_eq core] at some ⊢
      refine ⟨now, instant, base, ?_, ?_⟩
      · dsimp only
        omega
      · dsimp only
        omega

theorem announces_eq (s : Sender) (c : Call) :
    s.announces c = (s.lateRange c).toList.map (rangeRequest s.cfg.initialSeq) := by
  unfold announces lateRange
  cases checks : s.lateCheck c with
  | none => rfl
  | some check =>
      rcases check with ⟨t, now⟩
      have cfg : t.cfg = s.cfg := congrArg Core.cfg (lateCheck_core checks).1
      dsimp only
      rw [checkTlpktdrop_controlQueue, List.drop_left]
      unfold lateRequest
      split_ifs
      · rw [seqAt_eq, seqAt_eq, cfg]
        rfl
      · rfl

theorem mem_discards {i : Nat} :
    i ∈ s.discards c ↔
      Exists fun range => s.lateRange c = some range ∧ range.1 ≤ i ∧ i ≤ range.2 := by
  unfold discards lateRange
  cases checks : s.lateCheck c with
  | none => simp
  | some check =>
      rcases check with ⟨t, now⟩
      dsimp only
      rw [Finset.mem_Ico, checkTlpktdrop_baseIndex]
      constructor
      · intro inside
        have some : 0 < t.tlpktdropCount now := by omega
        refine ⟨_, if_pos some, inside.1, ?_⟩
        change i ≤ t.baseIndex + t.tlpktdropCount now - 1
        omega
      · rintro ⟨range, found, above, below⟩
        split_ifs at found with some
        cases found
        dsimp only at above below
        omega

/-- What is dropped is late. -/
theorem late_of_dropped {i : Nat} (dropped : i < s.tlpktdropCount now) :
    Exists fun entry => s.buffer[i]? = some entry ∧ entry.origin + s.dropThreshold ≤ now := by
  rw [tlpktdropCount_of_late (Nat.zero_lt_of_lt dropped)] at dropped
  have taken := List.getElem?_eq_getElem dropped
  have late := List.mem_takeWhile_imp (List.mem_of_getElem? taken)
  rcases List.takeWhile_prefix (l := s.buffer)
    (fun e : BufEntry => decide (s.dropThreshold ≤ now - e.origin)) with ⟨rest, whole⟩
  refine ⟨_, ?_, (late_iff s _ now).mp (of_decide_eq_true late)⟩
  nth_rewrite 1 [← whole]
  rw [List.getElem?_append_left dropped]
  exact taken

/-- After the check nothing late is left, if the buffer is sorted. -/
theorem checkTlpktdrop_clear (sorted : (s.buffer.map BufEntry.origin).Pairwise (· ≤ ·))
    (now : Instant) : (s.checkTlpktdrop now).Clear now := by
  have sorted' : ((s.checkTlpktdrop now).buffer.map BufEntry.origin).Pairwise (· ≤ ·) := by
    unfold checkTlpktdrop
    split_ifs
    · change ((s.buffer.drop _).map _).Pairwise _
      rw [List.map_drop]
      exact sorted.drop
    · exact sorted
  have timely := checkTlpktdrop_timely s now
  generalize s.checkTlpktdrop now = checked at sorted' timely
  by_cases narrow : forall front back, checked.buffer.head? = some front ->
      checked.buffer.getLast? = some back -> back.origin - front.origin ≤ checked.dropThreshold
  · exact Or.inl narrow
  · push Not at narrow
    rcases narrow with ⟨front, back, first, last, wide⟩
    have fresh := timely front back first last wide
    refine Or.inr ?_
    intro entry member
    rw [← not_le, late_iff, not_le]
    refine lt_of_lt_of_le fresh (Nat.add_le_add_right ?_ _)
    rcases List.head?_eq_some_iff.mp first with ⟨rest, buffer⟩
    rw [buffer] at member sorted'
    rcases List.mem_cons.mp member with rfl | later
    · exact le_refl _
    · rw [List.map_cons, List.pairwise_cons] at sorted'
      exact sorted'.1 _ (List.mem_map_of_mem later)

end Checks

/-! ## Runs -/

section Runs

variable (P : Primitives)

/-- The instant of a submission that the sender takes. -/
def pushedAt (s : Sender) (c : Call) : Option Instant :=
  if s.accepts P c then c.instant else none

/-- When each index was submitted. -/
def pushTimes (history : List ((Session × Instant) × Call)) : List Instant :=
  history.filterMap fun entry => entry.1.1.sender.pushedAt P entry.2

/-- The ranges that the checks of a history dropped. -/
def lateRanges (history : List ((Session × Instant) × Call)) : List (Nat × Nat) :=
  history.filterMap fun entry => entry.1.1.sender.lateRange entry.2

/-- The requests that the checks of a history queued. -/
def lateRequests (history : List ((Session × Instant) × Call)) : List ControlType :=
  history.flatMap fun entry => entry.1.1.sender.announces entry.2

variable {P} {s : Session} {w : SendWindow BufEntry}

/-- What a call does to the window, as far as the late drops are concerned: only an accepted
submission adds an entry, and what the check takes has left. -/
structure Dated (s : Session) (c : Call) (w w' : SendWindow BufEntry) : Prop where
  origins : w'.stream.map BufEntry.origin =
    w.stream.map BufEntry.origin ++ (s.sender.pushedAt P c).toList
  base_le : w.base ≤ w'.base
  dropped : forall now, c.instant = some now -> forall range, s.sender.lateRange c = some range ->
    w.base + s.sender.tlpktdropCount now ≤ w'.base

theorem Session.Tracked.dated (tracked : s.Tracked w) (c : Call) :
    Exists fun w' => (s.step P c).Tracked w' ∧ Dated (P := P) s c w w' := by
  have quiet (w' : SendWindow BufEntry) (stream : w'.stream = w.stream)
      (silent : s.sender.accepts P c = false) :
      w'.stream.map BufEntry.origin =
        w.stream.map BufEntry.origin ++ (s.sender.pushedAt P c).toList := by
    unfold pushedAt
    rw [stream, silent, if_neg Bool.false_ne_true, Option.toList_none, List.append_nil]
  rcases tracked.moves c with ⟨w', after, moves⟩
  refine ⟨w', after, ?_⟩
  cases moves with
  | refuses refused =>
      refine ⟨quiet w rfl (accepts_of_error refused), le_refl _, ?_⟩
      intro instant _ range found
      unfold push at refused
      split_ifs at refused with large
      unfold lateRange lateCheck at found
      dsimp only at found
      rw [if_neg (not_le.mpr large)] at found
      cases found
  | @submits now payload crypto crypto' flags wirePayload room pushed advanced late tracks =>
      have taken : s.sender.pushedAt P (.push now payload crypto) = some now :=
        if_pos (accepts_of_ok pushed)
      refine ⟨?_, advanced.base_le, ?_⟩
      · change (room.stream ++ [_]).map BufEntry.origin = _
        rw [List.map_append, advanced.stream, taken]
        rfl
      · intro instant dated range _
        cases dated
        exact late
  | acknowledges advanced => exact ⟨quiet w' advanced.stream rfl, advanced.base_le, nofun⟩
  | requests rewanted => exact ⟨quiet w' rewanted.stream rfl, rewanted.later.base_le, nofun⟩
  | expires advanced late =>
      refine ⟨quiet w' advanced.stream rfl, advanced.base_le, ?_⟩
      intro instant dated range _
      cases dated
      exact le_of_eq late.symm
  | transmits emits => exact ⟨quiet w' emits.stream_eq rfl, emits.later.base_le, nofun⟩
  | reports => exact ⟨quiet w rfl rfl, le_refl _, nofun⟩

/-- A run up to an instant: the entries are as old as their submissions, which are sorted, and
the drops lie one after the other below the base. -/
structure Accounted (history : List ((Session × Instant) × Call)) (clock : Instant)
    (w : SendWindow BufEntry) : Prop where
  origins : w.stream.map BufEntry.origin = pushTimes P history
  sorted : (pushTimes P history).Pairwise (· ≤ ·)
  past : forall t, t ∈ pushTimes P history -> t ≤ clock
  ordered : (lateRanges history).Pairwise fun range range' => range.2 < range'.1
  below : forall range, range ∈ lateRanges history -> range.1 ≤ range.2 ∧ range.2 < w.base

variable {history : List ((Session × Instant) × Call)} {clock : Instant}

theorem pushTimes_append (c : Call) :
    pushTimes P (history ++ [((s, clock), c)]) =
      pushTimes P history ++ (s.sender.pushedAt P c).toList := by
  unfold pushTimes
  rw [List.filterMap_append]
  congr 1

theorem lateRanges_append (c : Call) :
    lateRanges (history ++ [((s, clock), c)]) =
      lateRanges history ++ (s.sender.lateRange c).toList := by
  unfold lateRanges
  rw [List.filterMap_append]
  congr 1

theorem pushedAt_instant {c : Call} {t : Instant} (pushed : t ∈ s.sender.pushedAt P c) :
    c.instant = some t := by
  unfold pushedAt at pushed
  split_ifs at pushed
  · exact pushed
  · cases pushed

theorem Accounted.step {w' : SendWindow BufEntry} (tracked : s.Tracked w)
    (accounted : Accounted (P := P) history clock w) {c : Call}
    (allowed : (timedMachine P).guard (s, clock) c) (dated : Dated (P := P) s c w w') :
    Accounted (P := P) (history ++ [((s, clock), c)]) (c.instant.getD clock) w' := by
  have passed : clock ≤ c.instant.getD clock := by
    cases timed : c.instant with
    | none => exact le_refl clock
    | some now => exact allowed.2 now timed
  refine ⟨?_, ?_, ?_, ?_, ?_⟩
  · rw [pushTimes_append, dated.origins, accounted.origins]
  · rw [pushTimes_append]
    refine List.pairwise_append.mpr ⟨accounted.sorted, ?_, ?_⟩
    · cases s.sender.pushedAt P c with
      | none => exact .nil
      | some t => exact List.pairwise_singleton _ t
    · intro t member t' member'
      have pushed := pushedAt_instant (Option.mem_toList.mp member')
      exact le_trans (accounted.past t member) (allowed.2 t' pushed)
  · intro t member
    rw [pushTimes_append] at member
    rcases List.mem_append.mp member with old | new
    · exact le_trans (accounted.past t old) passed
    · rw [pushedAt_instant (Option.mem_toList.mp new)]
      exact le_refl t
  · rw [lateRanges_append]
    refine List.pairwise_append.mpr ⟨accounted.ordered, ?_, ?_⟩
    · cases s.sender.lateRange c with
      | none => exact .nil
      | some range => exact List.pairwise_singleton _ range
    · intro range member range' member'
      rcases lateRange_bounds (Option.mem_toList.mp member') with ⟨now, _, first, _⟩
      rw [first, tracked.tracks.base]
      exact (accounted.below range member).2
  · intro range member
    rw [lateRanges_append] at member
    rcases List.mem_append.mp member with old | new
    · have before := accounted.below range old
      exact ⟨before.1, lt_of_lt_of_le before.2 dated.base_le⟩
    · have found := Option.mem_toList.mp new
      rcases lateRange_bounds found with ⟨now, instant, _, last, nonempty⟩
      have left := dated.dropped now instant range found
      rw [tracked.tracks.base] at last
      exact ⟨nonempty, by omega⟩

theorem timed_accounted (run : (timedMachine P).Run history (s, clock)) :
    Exists fun w => s.Tracked w ∧ Accounted (P := P) history clock w := by
  refine run.induct (fun history state => Exists fun w => state.1.Tracked w ∧
    Accounted (P := P) history state.2 w) ?_ ?_
  · rintro ⟨s, clock⟩ ⟨⟨cfg, started⟩, began⟩
    cases started
    refine ⟨SendWindow.start, ⟨tracks_new cfg, ?_, nofun⟩, rfl, .nil, nofun, .nil, nofun⟩
    intro i _ below
    exact absurd below (Nat.not_lt_zero i)
  · rintro history ⟨s, clock⟩ c _ ⟨w, tracked, accounted⟩ allowed
    rcases tracked.dated (P := P) c with ⟨w', tracked', dated⟩
    exact ⟨w', tracked', accounted.step tracked allowed dated⟩

/-! ## The drops of a run -/

/-- What the check of a call takes was submitted at least the threshold before. -/
theorem Accounted.old (accounted : Accounted (P := P) history clock w) (tracked : s.Tracked w)
    {c : Call} {i : Nat} (discarded : i ∈ s.sender.discards c) :
    Exists fun pushed => Exists fun now => (pushTimes P history)[i]? = some pushed ∧
      c.instant = some now ∧ pushed + s.sender.dropThreshold ≤ now := by
  rcases mem_discards.mp discarded with ⟨range, found, above, below⟩
  rcases lateRange_bounds found with ⟨now, instant, first, last, _⟩
  have dropped : i - s.sender.baseIndex < s.sender.tlpktdropCount now := by omega
  rcases late_of_dropped dropped with ⟨entry, buffered, late⟩
  have position : w.base ≤ i := by
    rw [← tracked.tracks.base, ← first]
    exact above
  have entered := tracked.tracks.entry position
  rw [buffered, Option.map_some] at entered
  refine ⟨entry.origin, now, ?_, instant, late⟩
  rw [← accounted.origins, List.getElem?_map, ← entered]
  rfl

theorem Accounted.buffer_sorted (accounted : Accounted (P := P) history clock w)
    (tracked : s.Tracked w) : (s.sender.buffer.map BufEntry.origin).Pairwise (· ≤ ·) := by
  have origins : s.sender.buffer.map BufEntry.origin =
      (s.sender.buffer.map BufEntry.pristine).map BufEntry.origin := by
    rw [List.map_map]
    rfl
  rw [origins, tracked.tracks.buffer, List.map_drop, accounted.origins]
  exact accounted.sorted.drop

/-- The requests announce the ranges. -/
theorem lateRequests_eq (run : (timedMachine P).Run history (s, clock)) :
    lateRequests history =
      (lateRanges history).map (rangeRequest s.sender.cfg.initialSeq) := by
  refine run.induct (fun history state => lateRequests history =
    (lateRanges history).map (rangeRequest state.1.sender.cfg.initialSeq)) ?_ ?_
  · intro state _
    rfl
  · rintro history ⟨s, clock⟩ c _ same _
    change _ = (lateRanges _).map (rangeRequest (s.step P c).sender.cfg.initialSeq)
    have appended : lateRequests (history ++ [((s, clock), c)]) =
        lateRequests history ++ s.sender.announces c := by
      unfold lateRequests
      rw [List.flatMap_append, List.flatMap_singleton]
    rw [appended, lateRanges_append, List.map_append, step_cfg, same, announces_eq]

theorem baseIndex_le_next (run : (timedMachine P).Run history (s, clock)) (c : Call) :
    s.sender.baseIndex ≤ (s.step P c).sender.baseIndex := by
  rcases timed_accounted run with ⟨w, tracked, _⟩
  rcases tracked.dated (P := P) c with ⟨w', tracked', dated⟩
  rw [tracked.tracks.base, tracked'.tracks.base]
  exact dated.base_le

/-- The base is beyond everything that a check took. -/
theorem discarded_lt_base (run : (timedMachine P).Run history (s, clock)) {c : Call} {i : Nat}
    (discarded : i ∈ s.sender.discards c) : i < (s.step P c).sender.baseIndex := by
  rcases timed_accounted run with ⟨w, tracked, _⟩
  rcases tracked.dated (P := P) c with ⟨w', tracked', dated⟩
  rcases mem_discards.mp discarded with ⟨range, found, _, below⟩
  rcases lateRange_bounds found with ⟨now, instant, _, last, _⟩
  have left := dated.dropped now instant range found
  rw [tracked.tracks.base] at last
  rw [tracked'.tracks.base]
  omega

/-- No poll shows an index below the base. -/
theorem baseIndex_le_of_emitted (run : (timedMachine P).Run history (s, clock)) {now : Instant}
    {i : Nat} {pkt : DataPacket} (emitted : (s.sender.pollTransmitAt now).2 = some (i, pkt)) :
    s.sender.baseIndex ≤ i := by
  rcases timed_accounted run with ⟨w, tracked, _⟩
  rcases tracked.tracks.pollTransmitAt now with ⟨_, _, emits⟩
  rw [emitted] at emits
  rw [tracked.tracks.base]
  cases emits with
  | again _ _ _ inFlight => exact inFlight.1
  | first => exact w.base_le

theorem not_emitted_of_discarded {final : Session × Instant}
    {earlier later : List ((Session × Instant) × Call)} {c : Call}
    (run : (timedMachine P).Run (earlier ++ ((s, clock), c) :: later) final) {i : Nat}
    (discarded : i ∈ s.sender.discards c) {entry : (Session × Instant) × Call}
    (member : entry ∈ later) (now : Instant) (pkt : DataPacket) :
    (entry.1.1.sender.pollTransmitAt now).2 ≠ some (i, pkt) := by
  intro emitted
  have passed := (run.le_later (fun state => state.1.sender.baseIndex)
    (fun _ state event before _ => baseIndex_le_next before event)).2 entry member
  change (s.step P c).sender.baseIndex ≤ entry.1.1.sender.baseIndex at passed
  have gone := discarded_lt_base run.at_entry.1 discarded
  rcases List.append_of_mem member with ⟨between, after, split⟩
  rw [split, ← List.cons_append, ← List.append_assoc] at run
  have shown := baseIndex_le_of_emitted run.at_entry.1 emitted
  exact absurd (lt_of_lt_of_le gone passed) (not_lt.mpr shown)

/-- The too-late drops of a run whose clock does not go back.  Every packet that a check
takes was submitted at least the threshold before; after the check of a timer or of a
submission nothing late is left; the requests announce ranges that follow one another and
hold exactly the indices taken; and no such index is emitted later. -/
theorem late_drops_exact (run : (timedMachine P).Run history (s, clock)) :
    (forall c i, i ∈ s.sender.discards c ->
      Exists fun pushed => Exists fun now => (pushTimes P history)[i]? = some pushed ∧
        c.instant = some now ∧ pushed + s.sender.dropThreshold ≤ now) ∧
    (forall now, (s.sender.onTimer now).Clear now) ∧
    (forall c t now, s.sender.lateCheck c = some (t, now) -> (t.checkTlpktdrop now).Clear now) ∧
    lateRequests history = (lateRanges history).map (rangeRequest s.sender.cfg.initialSeq) ∧
    (lateRanges history).Pairwise (fun range range' => range.2 < range'.1) ∧
    (forall i, (Exists fun range => range ∈ lateRanges history ∧ range.1 ≤ i ∧ i ≤ range.2) ↔
      Exists fun entry => entry ∈ history ∧ i ∈ entry.1.1.sender.discards entry.2) ∧
    forall earlier before c later, history = earlier ++ (before, c) :: later ->
      forall i, i ∈ before.1.sender.discards c -> forall entry, entry ∈ later ->
        forall now pkt, entry.2 = .pollTransmit now ->
          (entry.1.1.sender.pollTransmitAt now).2 ≠ some (i, pkt) := by
  rcases timed_accounted run with ⟨w, tracked, accounted⟩
  have sorted := accounted.buffer_sorted tracked
  refine ⟨?_, ?_, ?_, ?_, accounted.ordered, ?_, ?_⟩
  · intro c i discarded
    exact accounted.old tracked discarded
  · intro now
    exact checkTlpktdrop_clear sorted now
  · intro c t now checks
    have buffer : t.buffer = s.sender.buffer := congrArg Core.buffer (lateCheck_core checks).1
    apply checkTlpktdrop_clear
    rw [buffer]
    exact sorted
  · exact lateRequests_eq run
  · intro i
    constructor
    · rintro ⟨range, member, inside⟩
      rcases List.mem_filterMap.mp member with ⟨entry, taken, found⟩
      exact ⟨entry, taken, mem_discards.mpr ⟨range, found, inside⟩⟩
    · rintro ⟨entry, taken, discarded⟩
      rcases mem_discards.mp discarded with ⟨range, found, inside⟩
      exact ⟨range, List.mem_filterMap.mpr ⟨entry, taken, found⟩, inside⟩
  · rintro earlier ⟨before, instant⟩ c later rfl i discarded entry member now pkt _
    exact not_emitted_of_discarded run discarded member now pkt

end Runs

/-- Sequences that wrap after the second packet. -/
def lateConfig : SenderConfig := liveConfig 0x7FFFFFFE

/-- A timer finds two packets too late, and a submission a third one. -/
def lateCalls : List Call :=
  [.push 0 [1] none, .push (Duration.fromMillis 500) [2] none,
    .pollTransmit (Duration.fromMillis 500), .push (Duration.fromMillis 1600) [3] none,
    .onTimer (Duration.fromMillis 1700), .push (Duration.fromMillis 2700) [4] none,
    .push (Duration.fromMillis 3000) [5] none, .pollTransmit (Duration.fromMillis 3000)]

def lateHistory : List ((Session × Instant) × Call) :=
  (timedMachine .sample).trace ({ sender := Sender.new lateConfig }, 0) lateCalls

theorem late_drops_exact_lateCalls :
    lateRanges lateHistory = [(0, 1), (2, 2)] ∧
      lateRequests lateHistory =
        (lateRanges lateHistory).map (rangeRequest lateConfig.initialSeq) ∧
      (lateRanges lateHistory).Pairwise (fun range range' => range.2 < range'.1) := by
  have run := Machine.run_exec (timedMachine_start .sample lateConfig)
    (by decide +kernel : (timedMachine .sample).Allowed _ lateCalls)
  have drops := late_drops_exact run
  exact ⟨by decide +kernel, drops.2.2.2.1, drops.2.2.2.2.1⟩

end Sender
end Rsrt

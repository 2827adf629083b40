import Rsrt.Core.ReceiverReports

namespace Rsrt
namespace Receiver

open Rsrt.Basis Rsrt.Basis.Intervals SeqNumber

/-!
# Loss reports after a drop request

A drop request takes its range out of the loss list, and moves the highest
received sequence over the range if that reaches the next expected packet.  From
then on no loss report names the range.  A range that lies further ahead is only
taken out of the loss list, in which it cannot be yet: the next arrival behind it
records the whole gap as lost, the dropped range included.
-/

/-- A loss report that asks for the position, seen from the session. -/
def AsksFor (s : Session) (message : ControlType) (point : Int) : Prop :=
  match message with
  | .nak ranges => Exists fun range : LossRange => range ∈ ranges ∧
      s.unwrap range.first ≤ point ∧ point ≤ s.unwrap range.last
  | _ => False

section Stepping

variable {s : Session} {w : ReceiveWindow Slot} {c : Call}

theorem Moves.excludes {returned : Option Bytes} {final : ReceiveWindow Slot}
    (moves : Moves s w c returned final) {lo hi : Int} (excludes : w.Excludes lo hi) :
    final.Excludes lo hi := by
  cases moves with
  | arrives now pkt undecryptable _ window _ =>
      rw [window, arrivalWindow]
      split_ifs
      · exact excludes
      · exact excludes.accept _ _ _ _
  | drops now msgNumber first last _ window _ =>
      rw [window, dropWindow]
      split_ifs with valid
      · exact (excludes.withdraw valid).discard _
      · exact excludes
  | releases _ _ _ _ _ _ released => exact excludes.released released
  | rests window _ =>
      rw [window]
      exact excludes

/-- Some window of the session has the range behind it. -/
def Session.Behind (s : Session) (lo hi : Int) : Prop :=
  Exists fun w => s.Tracked w ∧ w.Excludes lo hi

theorem Session.Behind.step {lo hi : Int} (behind : s.Behind lo hi)
    (near : Near s.receiver.baseSeq c) : (s.step c).Behind lo hi := by
  rcases behind with ⟨w, tracked, excludes⟩
  rcases tracked.step near with ⟨final, moved, moves⟩
  exact ⟨final, moved, moves.excludes excludes⟩

/-- A report never asks for what is behind the session. -/
theorem Session.Behind.not_asksFor {lo hi : Int} (behind : (s.step c).Behind lo hi)
    {message : ControlType} (reports : Reports (s.step c).receiver message) {point : Int}
    (above : lo ≤ point) (below : point ≤ hi) : ¬AsksFor (s.step c) message point := by
  rcases behind with ⟨w, tracked, excludes⟩
  intro asks
  cases message with
  | nak ranges =>
      rcases asks with ⟨range, listed, first, last⟩
      have lost := reports range listed
      rw [tracked.tracks.loss] at lost
      rcases List.mem_map.mp lost with ⟨span, member, rfl⟩
      have inside := tracked.tracks.missing_inside span member
      change (s.step c).unwrap (wire _ span.1) ≤ point at first
      change point ≤ (s.step c).unwrap (wire _ span.2) at last
      rw [tracked.unwrap_wire (by omega) (by omega)] at first last
      exact excludes.settled point above below ⟨span, member, first, last⟩
  | _ => exact asks

/-- A drop request that reaches the next expected packet puts its range behind the
session. -/
theorem Session.Tracked.handleDropreq_behind (tracked : s.Tracked w) {now : Instant}
    {msgNumber : MsgNumber} {first last : SeqNumber}
    (near : Near s.receiver.baseSeq (.handleDropreq now msgNumber first last))
    (ordered : s.unwrap first ≤ s.unwrap last)
    (reaches : first.diff s.receiver.rcvCurrSeq.next ≤ 0) :
    (s.step (.handleDropreq now msgNumber first last)).Behind (s.unwrap first)
      (s.unwrap last) := by
  have low := tracked.unwrap_near near.1
  have span := tracked.tracks.span
  have bottom := w.base_le
  have expected : s.unwrap first ≤ w.top + 1 := by
    by_contra ahead
    rw [← tracked.wire_unwrap first, tracked.tracks.rcvCurrSeq, next_wire,
      diff_wire _ (by omega) (by omega)] at reaches
    omega
  refine ⟨_, tracked.handleDropreq near, ?_⟩
  rw [dropWindow, dif_pos ordered]
  exact (w.withdraw_excludes ordered expected).discard _

end Stepping

/-- In every run, once a drop request has been processed that reaches the next
expected packet, no loss report queued later asks for any position of its range. -/
theorem dropped_never_nakked {earlier later : List (Session × Call)} {s final : Session}
    {now : Instant} {msgNumber : MsgNumber} {first last : SeqNumber}
    (run : machine.Run (earlier ++ (s, .handleDropreq now msgNumber first last) :: later) final)
    (reaches : first.diff s.receiver.rcvCurrSeq.next ≤ 0)
    {entry : Session × Call} (after : entry ∈ later) {message : ControlType}
    (sent : message ∈ queued entry) {point : Int} (above : s.unwrap first ≤ point)
    (below : point ≤ s.unwrap last) : ¬AsksFor (entry.1.step entry.2) message point := by
  rcases run.at_entry with ⟨before, near⟩
  rcases reachable_tracked ⟨_, before⟩ with ⟨w, tracked⟩
  change Near s.receiver.baseSeq (.handleDropreq now msgNumber first last) at near
  have behind := tracked.handleDropreq_behind near (le_trans above below) reaches
  -- Being behind is monotone along the run, as implication between propositions.
  have grows : forall history state event, machine.Run history state ->
      machine.guard state event ->
      state.Behind (s.unwrap first) (s.unwrap last) ≤
        (machine.next state event).Behind (s.unwrap first) (s.unwrap last) :=
    fun _ _ _ _ near kept => kept.step near
  have kept := (run.le_later _ grows).2 entry after behind
  rcases List.append_of_mem after with ⟨between, rest, rfl⟩
  rw [← List.cons_append, ← List.append_assoc] at run
  rcases run.at_entry with ⟨before', near'⟩
  rcases reachable_tracked ⟨_, before'⟩ with ⟨w', tracked'⟩
  exact (kept.step near').not_asksFor (queued_reports tracked' near' sent) above below

/-- The first packet arrives, and a request drops the two packets after the next
expected one. -/
def aheadCalls : List Call :=
  [.handleData 0 (plainPacket (SeqNumber.new 100) 0 [1]),
    .handleDropreq 1000 (MsgNumber.new 0) (SeqNumber.new 102) (SeqNumber.new 103)]

/-- The next packet then arrives behind the dropped range, and the loss report of
that arrival asks for the range. -/
theorem dropped_ahead_nakked :
    let start := Session.new 0 ⟨SeqNumber.new 100, Duration.fromMillis 120, 8192⟩
    let s := machine.exec start aheadCalls
    let c : Call := .handleData 2000 (plainPacket (SeqNumber.new 104) 40 [5])
    machine.Allowed start (aheadCalls ++ [c]) ∧
      queued (s, c) =
        [.nak [{ first := SeqNumber.new 101, last := SeqNumber.new 103 }]] ∧
      (forall message, message ∈ queued (s, c) -> AsksFor (s.step c) message 2 ∧
        AsksFor (s.step c) message 3) := by
  have report : queued (machine.exec
      (Session.new 0 ⟨SeqNumber.new 100, Duration.fromMillis 120, 8192⟩) aheadCalls,
      .handleData 2000 (plainPacket (SeqNumber.new 104) 40 [5])) =
        [.nak [{ first := SeqNumber.new 101, last := SeqNumber.new 103 }]] := by
    decide +kernel
  refine ⟨by decide +kernel, report, ?_⟩
  intro message member
  rw [report, List.mem_singleton] at member
  subst member
  exact ⟨⟨_, List.mem_singleton_self _, by decide +kernel, by decide +kernel⟩,
    ⟨_, List.mem_singleton_self _, by decide +kernel, by decide +kernel⟩⟩

/-- A session that got its first packet. -/
def openedSession : Session :=
  machine.exec (Session.new 0 ⟨SeqNumber.new 100, Duration.fromMillis 120, 8192⟩)
    [.handleData 0 (plainPacket (SeqNumber.new 100) 0 [1])]

/-- A request that starts at the next expected packet; the arrival right behind its
range reveals no gap, and the one after it only what follows the range. -/
def reachingCalls : List Call :=
  [.handleDropreq 1000 (MsgNumber.new 0) (SeqNumber.new 101) (SeqNumber.new 103),
    .handleData 2000 (plainPacket (SeqNumber.new 104) 40 [5])]

theorem dropped_never_nakked_reachingCalls :
    let s := machine.exec openedSession reachingCalls
    let c : Call := .handleData 3000 (plainPacket (SeqNumber.new 107) 70 [8])
    queued (s, c) = [.nak [{ first := SeqNumber.new 105, last := SeqNumber.new 106 }]] ∧
      forall message, message ∈ queued (s, c) -> forall point : Int, 1 ≤ point -> point ≤ 3 ->
        ¬AsksFor (s.step c) message point := by
  refine ⟨by decide +kernel, ?_⟩
  intro message member point above below
  have run := Machine.run_exec
    (start_new 0 ⟨SeqNumber.new 100, Duration.fromMillis 120, 8192⟩)
    (by decide +kernel : machine.Allowed _ ([.handleData 0 (plainPacket (SeqNumber.new 100) 0 [1])] ++
      reachingCalls ++ [.handleData 3000 (plainPacket (SeqNumber.new 107) 70 [8])]))
  have history : machine.Run ([_] ++ (openedSession, .handleDropreq 1000 (MsgNumber.new 0)
    (SeqNumber.new 101) (SeqNumber.new 103)) :: [_, (machine.exec openedSession reachingCalls,
      .handleData 3000 (plainPacket (SeqNumber.new 107) 70 [8]))]) _ := run
  have first : openedSession.unwrap (SeqNumber.new 101) = 1 := by decide +kernel
  have last : openedSession.unwrap (SeqNumber.new 103) = 3 := by decide +kernel
  exact dropped_never_nakked history (by decide +kernel)
    (List.mem_cons_of_mem _ List.mem_cons_self) member (first ▸ above) (last ▸ below)

end Receiver
end Rsrt

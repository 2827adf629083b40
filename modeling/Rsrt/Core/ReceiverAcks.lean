import Rsrt.Core.ReceiverDelivery
import Rsrt.Core.ReceiverReports

namespace Rsrt
namespace Receiver

open Rsrt.Basis Rsrt.Basis.Intervals SeqNumber

/-!
# Soundness and monotonicity of acknowledgements

Every ACK carries the frontier of the receive window: the first awaited
position, or the one after the highest seen.  No call moves the frontier back,
and everything below it is accounted for in the history.
-/

/-- The unwrapped positions that a call acknowledges. -/
def acked (entry : Session × Call) : List Int :=
  (queued entry).filterMap fun message =>
    match message with
    | .ack _ cif => some (entry.1.unwrap cif.lastAckSeq)
    | _ => none

/-- The positions acknowledged over a history, light and full, oldest first. -/
def ackLog (history : List (Session × Call)) : List Int :=
  history.flatMap acked

/-- The call processed a DROPREQ that covers the position. -/
def WithdrawnAt (entry : Session × Call) (point : Int) : Prop :=
  Exists fun now => Exists fun msgNumber => Exists fun first => Exists fun last =>
    entry.2 = .handleDropreq now msgNumber first last ∧
      entry.1.unwrap first ≤ point ∧ point ≤ entry.1.unwrap last

/-- The call stored an undecryptable packet that revealed a gap over the
position. -/
def HiddenAt (entry : Session × Call) (point : Int) : Prop :=
  Exists fun now => Exists fun pkt => Exists fun slot =>
    entry.2 = .handleUndecryptable now pkt ∧
      StoredAt entry (entry.1.unwrap pkt.seq) slot ∧
      entry.1.unwrap entry.1.receiver.rcvCurrSeq < point ∧
      point < entry.1.unwrap pkt.seq

/-- The ways in which a call settles a position. -/
inductive SettledAt (entry : Session × Call) (point : Int) : Prop
  | stored (slot : Slot) (stored : StoredAt entry point slot)
  | skipped (skipped : SkippedAt entry point)
  | withdrawn (withdrawn : WithdrawnAt entry point)
  | hidden (hidden : HiddenAt entry point)

section Frontier

variable {s : Session} {w final : ReceiveWindow Slot} {c : Call} {returned : Option Bytes}

theorem Tracks.ackValue_eq {origin : SeqNumber} {r : Receiver} (tracks : Tracks origin w r) :
    r.ackValue = wire origin w.frontier := by
  unfold ackValue ReceiveWindow.frontier
  rw [tracks.loss, tracks.rcvCurrSeq, next_wire]
  cases w.missing <;> rfl

theorem accept_top (w : ReceiveWindow Slot) (capacity : Nat) (point : Int) (slot : Slot)
    (reveals : Bool) : w.top ≤ (w.accept capacity point slot reveals).top := by
  unfold ReceiveWindow.accept
  split
  · exact le_max_left _ _
  · exact le_refl _

theorem accept_missing {capacity : Nat} {point : Int} {slot : Slot} {reveals : Bool} {other : Int}
    (covered : Covers (w.accept capacity point slot reveals).missing other) :
    Covers w.missing other ∨ reveals = true ∧ w.top < other ∧ other < point := by
  unfold ReceiveWindow.accept at covered
  split at covered
  · rcases (covers_append _ _ _).mp covered with old | new
    · exact Or.inl ((covers_cut _ _ _ _).mp old).1
    · exact Or.inr ((w.covers_gap point reveals other).mp new)
  · exact Or.inl covered

theorem accept_frontier (w : ReceiveWindow Slot) (capacity : Nat) (point : Int) (slot : Slot)
    (reveals : Bool) : w.frontier ≤ (w.accept capacity point slot reveals).frontier :=
  ReceiveWindow.frontier_mono (accept_top _ _ _ _ _) fun _ covered =>
    (accept_missing covered).imp_right fun revealed => revealed.2.1

theorem dropWindow_frontier (w : ReceiveWindow Slot) (msgNumber : MsgNumber) (lo hi : Int) :
    w.frontier ≤ (dropWindow w msgNumber lo hi).frontier := by
  unfold dropWindow
  split
  · refine ReceiveWindow.frontier_mono ?_ ?_
    · show w.top ≤ if _ ∧ _ then _ else _
      split_ifs <;> omega
    · intro point covered
      exact Or.inl ((covers_cut _ _ _ _).mp covered).1
  · exact le_refl _

/-- No call moves the frontier back. -/
theorem Moves.frontier_le (moves : Moves s w c returned final) : w.frontier ≤ final.frontier := by
  cases moves with
  | arrives now pkt undecryptable _ window _ =>
      rw [window]
      unfold arrivalWindow
      split
      · exact le_refl _
      · exact accept_frontier _ _ _ _ _
  | drops _ msgNumber first last _ window _ =>
      rw [window]
      exact dropWindow_frontier _ _ _ _
  | releases _ _ _ _ _ _ released =>
      refine ReceiveWindow.frontier_mono (le_of_eq released.top_eq.symm) ?_
      intro point covered
      exact Or.inl ((released.covers_iff point).mp covered).1
  | rests window _ => rw [window]

theorem queued_pollDeliver (s : Session) (now : Instant) : queued (s, .pollDeliver now) = [] := by
  have same := congrArg Receiver.controlQ (pollDeliver_outside s.receiver now)
  change (s.step (.pollDeliver now)).receiver.controlQ = s.receiver.controlQ at same
  unfold queued
  dsimp only
  rw [same, List.drop_length]

/-- Only a call for a payload moves the base, and it reports nothing. -/
theorem Moves.base_eq_or_quiet (moves : Moves s w c returned final) :
    final.base = w.base ∨ queued (s, c) = [] := by
  cases moves with
  | arrives _ _ _ _ window _ =>
      rw [window]
      exact Or.inl (arrivalWindow_base _ _ _ _ _ _)
  | drops _ _ _ _ _ window _ =>
      rw [window]
      exact Or.inl (dropWindow_base _ _ _ _)
  | releases now _ _ isCall _ _ _ =>
      rw [isCall]
      exact Or.inr (queued_pollDeliver s now)
  | rests window _ =>
      rw [window]
      exact Or.inl rfl

/-- What a call acknowledges is the frontier after it. -/
theorem acked_eq_frontier (tracked : s.Tracked w) (near : Near s.receiver.baseSeq c)
    (moved : (s.step c).Tracked final) (moves : Moves s w c returned final) {value : Int}
    (member : value ∈ acked (s, c)) : value = final.frontier := by
  unfold acked at member
  rcases List.mem_filterMap.mp member with ⟨message, listed, carried⟩
  have reports := queued_reports tracked near listed
  rcases moves.base_eq_or_quiet with steady | quiet
  · cases message with
    | ack number cif =>
        have position : s.unwrap cif.lastAckSeq = value := Option.some.inj carried
        have same : (s.step c).receiver.cfg = s.receiver.cfg := call_cfg s.receiver c
        have low := final.base_le_frontier
        have high := final.frontier_le
        have span := moved.tracks.span
        rw [← position, reports.1, moved.tracks.ackValue_eq, same]
        exact tracked.unwrap_wire (by omega) (by omega)
    | _ => exact absurd carried (by simp)
  · rw [quiet] at listed
    exact absurd listed List.not_mem_nil

/-- A packet admitted to the window settles its position, and hides the gap it
reveals if it cannot be decrypted. -/
theorem settled_of_arrive (tracked : s.Tracked w) (moved : (s.step c).Tracked final)
    {now : Instant} {pkt : DataPacket} {undecryptable : Bool}
    (isCall : c = arrival now pkt undecryptable) (above : w.base ≤ s.unwrap pkt.seq)
    (vacant : w.held (s.unwrap pkt.seq) = none)
    (window : final = w.arrive (s.unwrap pkt.seq)
      (slotOf pkt (s.receiver.extender.extend pkt.timestamp now).2 undecryptable)
      (!undecryptable) above)
    {point : Int} (below : point ≤ final.top) (awaited : point ≤ w.top -> Covers w.missing point) :
    Covers final.missing point ∨ SettledAt (s, c) point := by
  have stored : StoredAt (s, c) (s.unwrap pkt.seq)
      (slotOf pkt (s.receiver.extender.extend pkt.timestamp now).2 undecryptable) := by
    refine ⟨now, pkt, undecryptable, isCall, rfl, rfl, ?_, ?_⟩
    · rw [tracked.slot_eq]
      exact vacant
    · rw [moved.slot_eq, window]
      exact Function.update_self _ _ _
  by_cases here : point = s.unwrap pkt.seq
  · rw [here]
    exact Or.inr (.stored _ stored)
  rw [window] at below ⊢
  change point ≤ max w.top (s.unwrap pkt.seq) at below
  by_cases old : point ≤ w.top
  · refine Or.inl ((covers_append _ _ _).mpr (Or.inl ?_))
    exact (covers_cut _ _ _ _).mpr ⟨awaited old, by omega⟩
  · cases undecryptable with
    | false =>
        refine Or.inl ((covers_append _ _ _).mpr (Or.inr ?_))
        exact (ReceiveWindow.covers_gap _ _ _ _).mpr ⟨rfl, by omega, by omega⟩
    | true =>
        refine Or.inr (.hidden ⟨now, pkt, _, isCall, stored, ?_, ?_⟩)
        · have bottom := w.base_le
          have span := tracked.tracks.span
          show s.unwrap s.receiver.rcvCurrSeq < point
          rw [tracked.tracks.rcvCurrSeq, tracked.unwrap_wire (by omega) (by omega)]
          omega
        · show point < s.unwrap pkt.seq
          omega

/-- A position that a call does not settle, up to the new highest one, is
awaited, or was known and not awaited before. -/
theorem Moves.settled_or_known (tracked : s.Tracked w) (moved : (s.step c).Tracked final)
    (moves : Moves s w c (s.receiver.call c).2 final) {point : Int} (below : point ≤ final.top) :
    Covers final.missing point ∨ SettledAt (s, c) point ∨
      (point ≤ w.top ∧ ¬ Covers w.missing point) := by
  by_cases known : point ≤ w.top ∧ ¬ Covers w.missing point
  · exact Or.inr (Or.inr known)
  have awaited : point ≤ w.top -> Covers w.missing point := by
    intro inside
    by_contra absent
    exact known ⟨inside, absent⟩
  cases moves with
  | arrives now pkt undecryptable isCall window _ =>
      unfold arrivalWindow ReceiveWindow.accept at window
      split at window
      · rw [window] at below ⊢
        exact Or.inl (awaited below)
      · split at window
        · rename_i fits
          rcases settled_of_arrive tracked moved isCall fits.1 fits.2.2 window below awaited with
            covered | settled
          · exact Or.inl covered
          · exact Or.inr (Or.inl settled)
        · rw [window] at below ⊢
          exact Or.inl (awaited below)
  | drops now msgNumber first last isCall window _ =>
      unfold dropWindow at window
      split at window
      · rename_i valid
        rw [window] at below ⊢
        by_cases inside : s.unwrap first ≤ point ∧ point ≤ s.unwrap last
        · exact Or.inr (Or.inl (.withdrawn ⟨now, msgNumber, first, last, isCall, inside⟩))
        · refine Or.inl ((covers_cut _ _ _ _).mpr ⟨awaited ?_, inside⟩)
          change point ≤ (if _ ∧ _ then _ else _) at below
          split_ifs at below <;> omega
      · rw [window] at below ⊢
        exact Or.inl (awaited below)
  | releases now anchor out isCall anchored handed released =>
      rw [released.top_eq] at below
      have covered := awaited below
      by_cases passed : point < final.base
      · refine Or.inr (Or.inl (.skipped ⟨?_, ?_, ?_⟩))
        · show s.position ≤ point
          rw [tracked.position]
          exact (w.inside point covered).1
        · show point < (s.step c).position
          rw [moved.position]
          exact passed
        · intro payload delivered
          have moves : Moves s w c (s.receiver.call c).2 final :=
            .releases now anchor out isCall anchored handed released
          rcases delivered.held moved moves with ⟨_, _, slot, _, _, present, _⟩
          rw [w.vacant point covered] at present
          exact absurd present (by simp)
      · exact Or.inl ((released.covers_iff point).mpr ⟨covered, by omega⟩)
  | rests window _ =>
      rw [window] at below ⊢
      exact Or.inl (awaited below)

end Frontier

/-! ## The acknowledgement log of a run -/

/-- What a run knows about its acknowledgements: none exceeds the frontier, and
every position up to the highest seen is awaited or settled. -/
structure Accounts (history : List (Session × Call)) (s : Session) (w : ReceiveWindow Slot) :
    Prop where
  tracked : s.Tracked w
  log_le : forall value, value ∈ ackLog history -> value ≤ w.frontier
  log_sorted : (ackLog history).Pairwise (· ≤ ·)
  settled : forall point, 0 ≤ point -> point ≤ w.top ->
    Covers w.missing point ∨ Exists fun entry => entry ∈ history ∧ SettledAt entry point

theorem ackLog_append (history : List (Session × Call)) (entry : Session × Call) :
    ackLog (history ++ [entry]) = ackLog history ++ acked entry := by
  simp [ackLog]

theorem Accounts.step {history : List (Session × Call)} {s : Session} {w : ReceiveWindow Slot}
    (accounts : Accounts history s w) {c : Call} (near : Near s.receiver.baseSeq c) :
    Exists fun final => Accounts (history ++ [(s, c)]) (s.step c) final := by
  rcases accounts.tracked.step near with ⟨final, moved, moves⟩
  have grows := moves.frontier_le
  have fresh (value : Int) (member : value ∈ acked (s, c)) : value = final.frontier :=
    acked_eq_frontier accounts.tracked near moved moves member
  refine ⟨final, moved, ?_, ?_, ?_⟩
  · intro value member
    rw [ackLog_append] at member
    rcases List.mem_append.mp member with old | new
    · exact le_trans (accounts.log_le value old) grows
    · exact le_of_eq (fresh value new)
  · rw [ackLog_append]
    refine List.pairwise_append.mpr ⟨accounts.log_sorted, ?_, ?_⟩
    · refine List.pairwise_of_forall_mem_list ?_
      intro first left second right
      rw [fresh first left, fresh second right]
    · intro old left new right
      rw [fresh new right]
      exact le_trans (accounts.log_le old left) grows
  · intro point above below
    rcases Moves.settled_or_known accounts.tracked moved moves below with
      covered | settled | ⟨known, unawaited⟩
    · exact Or.inl covered
    · exact Or.inr ⟨(s, c), List.mem_append_right _ (List.mem_singleton_self _), settled⟩
    · rcases accounts.settled point above known with covered | ⟨entry, member, settled⟩
      · exact absurd covered unawaited
      · exact Or.inr ⟨entry, List.mem_append_left _ member, settled⟩

/-- The sequences that the receiver itself keeps near the base: both last ACK
positions within `2^29` of it, and the next ACK position less than `2^29`
ahead. -/
def InRange (r : Receiver) : Prop :=
  Within r.baseSeq r.rcvLastAck ∧ Within r.baseSeq r.rcvLastAckack ∧ r.offset r.ackValue < 2 ^ 29

instance (r : Receiver) : Decidable (InRange r) :=
  inferInstanceAs (Decidable (_ ∧ _ ∧ _))

/-- The unwrapped ACK positions: the last one sent and the last one confirmed,
with the journal in between. -/
structure Confirms (r : Receiver) (w : ReceiveWindow Slot) (last confirmed : Int) : Prop where
  rcvLastAck : r.rcvLastAck = wire r.cfg.initialSeq last
  rcvLastAckack : r.rcvLastAckack = wire r.cfg.initialSeq confirmed
  ordered : confirmed ≤ last
  last_le : last ≤ w.frontier
  recent : w.base - 2 ^ 30 - 1 ≤ confirmed
  journal : Exists fun positions : List Int =>
    r.ackJournal.map AckRecord.seq = positions.map (wire r.cfg.initialSeq) ∧
      positions.Pairwise (· ≤ ·) ∧
      forall position, position ∈ positions -> confirmed ≤ position ∧ position ≤ last

section Confirming

variable {r final : Receiver} {w after : ReceiveWindow Slot} {last confirmed : Int}

/-- Being near the base on the wire excludes a distance of a whole turn. -/
theorem Tracks.ge_of_within (tracks : Tracks r.cfg.initialSeq w r) {point : Int}
    (recent : w.base - 2 ^ 30 - 1 ≤ point) (below : point ≤ w.base + 2 ^ 29 + 1)
    (within : Within r.baseSeq (wire r.cfg.initialSeq point)) : w.base - 2 ^ 29 ≤ point := by
  unfold Within at within
  rw [tracks.baseSeq] at within
  by_cases exact_distance : w.base - 2 ^ 30 ≤ point
  · rw [diff_wire _ (by omega) (by omega)] at within
    omega
  · rw [← wire_add_turn, diff_wire _ (by omega) (by omega)] at within
    omega

/-- What the range condition says about the unwrapped positions. -/
theorem Confirms.bounds (confirms : Confirms r w last confirmed)
    (tracks : Tracks r.cfg.initialSeq w r) (ranged : InRange r) :
    w.base - 2 ^ 29 ≤ confirmed ∧ w.frontier < w.base + 2 ^ 29 := by
  have ordered := confirms.ordered
  have below := confirms.last_le
  have recent := confirms.recent
  have low := w.base_le_frontier
  have high := w.frontier_le
  have span := tracks.span
  rcases ranged with ⟨_, within, ahead⟩
  rw [confirms.rcvLastAckack] at within
  unfold offset at ahead
  rw [tracks.ackValue_eq, tracks.diff_base (by omega) (by omega)] at ahead
  exact ⟨tracks.ge_of_within recent (by omega) within, by omega⟩

/-- The fields that hold the ACK positions. -/
def ackFields (r : Receiver) : ReceiverConfig × SeqNumber × SeqNumber × List AckRecord :=
  (r.cfg, r.rcvLastAck, r.rcvLastAckack, r.ackJournal)

theorem Confirms.of_ackFields_eq (confirms : Confirms r w last confirmed)
    (same : final.ackFields = r.ackFields) : Confirms final w last confirmed := by
  simp only [ackFields, Prod.mk.injEq] at same
  rcases same with ⟨cfg, sent, settled, journal⟩
  rcases confirms with ⟨h1, h2, h3, h4, h5, h6⟩
  refine ⟨?_, ?_, h3, h4, h5, ?_⟩
  · rw [sent, cfg]
    exact h1
  · rw [settled, cfg]
    exact h2
  · rw [journal, cfg]
    exact h6

/-- The window may move under unchanged ACK positions. -/
theorem Confirms.advance (confirms : Confirms r w last confirmed)
    (old : w.base - 2 ^ 29 ≤ confirmed) (grows : w.frontier ≤ after.frontier)
    (short : after.base ≤ w.base + 2 ^ 29 + 1) : Confirms r after last confirmed :=
  { confirms with
    last_le := le_trans confirms.last_le grows
    recent := by omega }

/-- Recording the frontier as the last ACK position. -/
theorem Confirms.record (confirms : Confirms r w last confirmed)
    (tracks : Tracks r.cfg.initialSeq w r) :
    Confirms { r with rcvLastAck := r.ackValue } w w.frontier confirmed where
  rcvLastAck := tracks.ackValue_eq
  rcvLastAckack := confirms.rcvLastAckack
  ordered := le_trans confirms.ordered confirms.last_le
  last_le := le_refl _
  recent := confirms.recent
  journal := by
    rcases confirms.journal with ⟨positions, same, sorted, bounds⟩
    refine ⟨positions, same, sorted, ?_⟩
    intro position member
    exact ⟨(bounds position member).1, le_trans (bounds position member).2 confirms.last_le⟩

/-- Sending a full ACK appends the last position to the journal, which forgets
its oldest entry when it is full. -/
theorem Confirms.emit (confirms : Confirms r w last confirmed) (now : Instant) :
    Confirms (r.emitFullAck now) w last confirmed where
  rcvLastAck := confirms.rcvLastAck
  rcvLastAckack := confirms.rcvLastAckack
  ordered := confirms.ordered
  last_le := confirms.last_le
  recent := confirms.recent
  journal := by
    rcases confirms.journal with ⟨positions, same, sorted, bounds⟩
    have kept (count : Nat) : Exists fun rest : List Int =>
        (r.ackJournal.drop count).map AckRecord.seq = rest.map (wire r.cfg.initialSeq) ∧
          rest.Pairwise (· ≤ ·) ∧
          forall position, position ∈ rest -> confirmed ≤ position ∧ position ≤ last := by
      refine ⟨positions.drop count, ?_, sorted.drop, ?_⟩
      · rw [List.map_drop, List.map_drop, same]
      · intro position member
        exact bounds position (List.mem_of_mem_drop member)
    have shape : Exists fun count : Nat => (r.emitFullAck now).ackJournal =
        r.ackJournal.drop count ++ [⟨incack r.ackSeqNo, r.rcvLastAck, now⟩] := by
      unfold emitFullAck pushAckRecord
      dsimp only
      split_ifs
      · exact ⟨1, rfl⟩
      · exact ⟨0, rfl⟩
    rcases shape with ⟨count, shape⟩
    rcases kept count with ⟨rest, same', sorted', bounds'⟩
    refine ⟨rest ++ [last], ?_, ?_, ?_⟩
    · rw [shape, List.map_append, same', List.map_append, List.map_singleton, List.map_singleton,
        confirms.rcvLastAck]
      rfl
    · refine List.pairwise_append.mpr ⟨sorted', List.pairwise_singleton _ _, ?_⟩
      intro position member newest here
      rw [List.mem_singleton.mp here]
      exact (bounds' position member).2
    · intro position member
      rcases List.mem_append.mp member with old | new
      · exact bounds' position old
      · rw [List.mem_singleton.mp new]
        exact ⟨confirms.ordered, le_refl _⟩

theorem Confirms.queueFullAck (confirms : Confirms r w last confirmed)
    (tracks : Tracks r.cfg.initialSeq w r) (now : Instant) :
    Exists fun last' => Confirms (r.queueFullAck now) w last' confirmed := by
  rcases queueFullAck_cases r now with same | ⟨_, same | same⟩
  · rw [same]
    exact ⟨last, confirms⟩
  · rw [same]
    exact ⟨w.frontier, confirms.record tracks⟩
  · rw [same]
    exact ⟨w.frontier, (confirms.record tracks).emit now⟩

theorem Confirms.onTimer (confirms : Confirms r w last confirmed)
    (tracks : Tracks r.cfg.initialSeq w r) (now : Instant) :
    Exists fun last' => Confirms (r.onTimer now) w last' confirmed := by
  have nakked (s : Receiver) : (s.nakTimer now).ackFields = s.ackFields := by
    unfold nakTimer queueNak
    dsimp only
    split_ifs <;> rfl
  have acked : Exists fun last' => Confirms (r.ackTimer now) w last' confirmed := by
    unfold ackTimer
    split
    · rcases confirms.queueFullAck tracks now with ⟨last', confirms'⟩
      exact ⟨last', confirms'.of_ackFields_eq rfl⟩
    · exact ⟨last, confirms⟩
  rcases acked with ⟨last', confirms'⟩
  exact ⟨last', confirms'.of_ackFields_eq (nakked _)⟩

/-- The first match and what follows it. -/
theorem dropWhile_of_findIdx {α : Type} (p : α -> Bool) (entries : List α) :
    (entries.findIdx? p = none ∧ entries.dropWhile (!p ·) = []) ∨
      Exists fun pos => Exists fun entry => entries.findIdx? p = some pos ∧
        entries[pos]? = some entry ∧
        entries.dropWhile (!p ·) = entry :: entries.drop (pos + 1) := by
  induction entries with
  | nil => exact Or.inl ⟨rfl, rfl⟩
  | cons head rest ih =>
      cases met : p head with
      | true =>
          refine Or.inr ⟨0, head, ?_, rfl, ?_⟩
          · rw [List.findIdx?_cons, met]
            rfl
          · rw [List.dropWhile_cons, met]
            rfl
      | false =>
          rw [List.findIdx?_cons, List.dropWhile_cons, met]
          rcases ih with ⟨none, nothing⟩ | ⟨pos, entry, found, content, split⟩
          · exact Or.inl ⟨by rw [none]; rfl, nothing⟩
          · exact Or.inr ⟨pos + 1, entry, by rw [found]; rfl, content, split⟩

/-- The confirmed entry and everything older leave the journal. -/
theorem handleAckack_eq (r : Receiver) (now : Instant) (ackNumber : Nat) (ts : Timestamp) :
    r.handleAckack now ackNumber ts =
      match r.ackJournal.dropWhile (fun record => !decide (record.number = ackNumber)) with
      | [] => r
      | record :: later =>
          let rttUs :=
            min (Duration.asMicros (Instant.saturatingDurationSince now record.sent)) (2 ^ 32 - 1)
          if rttUs = 0 then { r with ackJournal := later }
          else
            let r := ({ r with ackJournal := later } : Receiver).smoothRtt rttUs
            let r := if 0 < record.seq.diff r.rcvLastAckack then
              { r with rcvLastAckack := record.seq } else r
            r.sampleDrift now ts rttUs := by
  unfold Receiver.handleAckack
  rcases dropWhile_of_findIdx (fun record : AckRecord => decide (record.number = ackNumber))
    r.ackJournal with ⟨absent, nothing⟩ | ⟨pos, record, found, content, split⟩
  · rw [absent, nothing]
  · rw [found, split]
    dsimp only
    rw [content]

/-- An ACKACK does nothing, or consumes the journal up to its entry, or also
confirms the position of the entry. -/
theorem handleAckack_cases (r : Receiver) (now : Instant) (number : Nat) (ts : Timestamp) :
    (r.handleAckack now number ts).ackFields = r.ackFields ∨
      Exists fun pos => Exists fun rec => r.ackJournal[pos]? = some rec ∧
        ((r.handleAckack now number ts).ackFields =
            (r.cfg, r.rcvLastAck, r.rcvLastAckack, r.ackJournal.drop (pos + 1)) ∨
          (0 < rec.seq.diff r.rcvLastAckack ∧ (r.handleAckack now number ts).ackFields =
            (r.cfg, r.rcvLastAck, rec.seq, r.ackJournal.drop (pos + 1)))) := by
  have sampled (s : Receiver) (rttUs : Nat) :
      (s.sampleDrift now ts rttUs).ackFields = s.ackFields := by
    unfold sampleDrift
    split <;> rfl
  have smoothed (s : Receiver) (rttUs : Nat) : (s.smoothRtt rttUs).ackFields = s.ackFields := by
    unfold smoothRtt
    split <;> rfl
  unfold handleAckack
  split
  · exact Or.inl rfl
  · rename_i pos _
    split
    · exact Or.inl rfl
    · rename_i rec found
      refine Or.inr ⟨pos, rec, found, ?_⟩
      generalize min (Duration.asMicros (Instant.saturatingDurationSince now rec.sent))
        (2 ^ 32 - 1) = rttUs
      have fields := smoothed { r with ackJournal := r.ackJournal.drop (pos + 1) } rttUs
      dsimp only
      generalize ({ r with ackJournal := r.ackJournal.drop (pos + 1) }).smoothRtt rttUs = smooth
        at fields ⊢
      have confirmed := congrArg (fun fields => fields.2.2.1) fields
      change smooth.rcvLastAckack = r.rcvLastAckack at confirmed
      by_cases unmeasured : rttUs = 0
      · rw [if_pos unmeasured]
        exact Or.inl rfl
      rw [if_neg unmeasured, sampled]
      by_cases ahead : 0 < rec.seq.diff smooth.rcvLastAckack
      · rw [if_pos ahead]
        rw [confirmed] at ahead
        refine Or.inr ⟨ahead, ?_⟩
        simp only [ackFields, Prod.mk.injEq] at fields ⊢
        exact ⟨fields.1, fields.2.1, trivial, fields.2.2.2⟩
      · rw [if_neg ahead]
        exact Or.inl fields

theorem Confirms.handleAckack (confirms : Confirms r w last confirmed) (now : Instant)
    (number : Nat) (ts : Timestamp) :
    Exists fun confirmed' => confirmed ≤ confirmed' ∧
      Confirms (r.handleAckack now number ts) w last confirmed' := by
  have recent := confirms.recent
  have below := confirms.last_le
  rcases handleAckack_cases r now number ts with same | ⟨pos, rec, found, outcome⟩
  · exact ⟨confirmed, le_refl _, confirms.of_ackFields_eq same⟩
  rcases confirms.journal with ⟨positions, same, sorted, between⟩
  have located : (positions.map (wire r.cfg.initialSeq))[pos]? = some rec.seq := by
    rw [← same, List.getElem?_map, found]
    rfl
  rw [List.getElem?_map] at located
  rcases Option.map_eq_some_iff.mp located with ⟨point, at_pos, seq⟩
  have member := List.mem_of_getElem? at_pos
  have rest : (r.ackJournal.drop (pos + 1)).map AckRecord.seq =
      (positions.drop (pos + 1)).map (wire r.cfg.initialSeq) := by
    rw [List.map_drop, List.map_drop, same]
  have trimmed : Confirms { r with ackJournal := r.ackJournal.drop (pos + 1) } w last confirmed :=
    { confirms with
      journal := ⟨positions.drop (pos + 1), rest, sorted.drop, fun position later =>
        between position (List.mem_of_mem_drop later)⟩ }
  rcases outcome with kept | ⟨_, moved⟩
  · exact ⟨confirmed, le_refl _, trimmed.of_ackFields_eq kept⟩
  · have updated : Confirms
        { r with ackJournal := r.ackJournal.drop (pos + 1), rcvLastAckack := rec.seq }
        w last point := by
      refine ⟨confirms.rcvLastAck, seq.symm, (between point member).2, below, ?_,
        positions.drop (pos + 1), rest, sorted.drop, ?_⟩
      · have := (between point member).1
        omega
      · intro position later
        refine ⟨?_, (between position (List.mem_of_mem_drop later)).2⟩
        have split : positions = positions.take (pos + 1) ++ positions.drop (pos + 1) :=
          (List.take_append_drop _ _).symm
        rw [split] at sorted
        refine (List.pairwise_append.mp sorted).2.2 point ?_ position later
        rw [List.mem_iff_getElem?]
        refine ⟨pos, ?_⟩
        rw [List.getElem?_take, if_pos (Nat.lt_succ_self _)]
        exact at_pos
    exact ⟨point, (between point member).1, updated.of_ackFields_eq moved⟩

end Confirming

/-- Calls other than the timer and the ACKACK leave the ACK positions alone. -/
theorem call_ackFields (r : Receiver) (c : Call)
    (timerless : forall now, c ≠ .onTimer now)
    (unconfirmed : forall now number ts, c ≠ .handleAckack now number ts) :
    (r.call c).1.ackFields = r.ackFields := by
  cases c with
  | setHsAnchor instant ts =>
      show (r.setHsAnchor instant ts).ackFields = r.ackFields
      unfold setHsAnchor
      split <;> rfl
  | setMaxPayload bytes => rfl
  | handleData now pkt =>
      have same := congrArg ackFields (ingest_arrivalFrame r now pkt false)
      exact same
  | handleUndecryptable now pkt =>
      have same := congrArg ackFields (ingest_arrivalFrame r now pkt true)
      exact same
  | handleAckack now number ts => exact absurd rfl (unconfirmed now number ts)
  | handleDropreq now msgNumber first last =>
      have same := congrArg ackFields (handleDropreq_outside r now msgNumber first last)
      exact same
  | onTimer now => exact absurd rfl (timerless now)
  | pollControl now =>
      show (r.pollControl now).1.ackFields = r.ackFields
      unfold pollControl
      split <;> rfl
  | pollDeliver now =>
      have same := congrArg ackFields (pollDeliver_outside r now)
      exact same

theorem Moves.base_short {s : Session} {w final : ReceiveWindow Slot} {c : Call}
    {returned : Option Bytes} (tracked : s.Tracked w) (moves : Moves s w c returned final) :
    final.base ≤ w.base + 2 ^ 29 + 1 := by
  have span := tracked.tracks.span
  cases moves with
  | arrives _ _ _ _ window _ =>
      rw [window, arrivalWindow_base]
      omega
  | drops _ _ _ _ _ window _ =>
      rw [window, dropWindow_base]
      omega
  | releases _ _ _ _ _ _ released =>
      have bottom := final.base_le
      rw [released.top_eq] at bottom
      omega
  | rests window _ =>
      rw [window]
      omega

theorem Confirms.step {s : Session} {w : ReceiveWindow Slot} {last confirmed : Int}
    (confirms : Confirms s.receiver w last confirmed) (tracked : s.Tracked w)
    (ranged : InRange s.receiver) {c : Call} (near : Near s.receiver.baseSeq c) :
    Exists fun final => Exists fun last' => Exists fun confirmed' =>
      (s.step c).Tracked final ∧ Confirms (s.step c).receiver final last' confirmed' := by
  have bounds := confirms.bounds tracked.tracks ranged
  rcases tracked.step near with ⟨final, moved, moves⟩
  have advanced := fun r last confirmed' (confirms' : Confirms r w last confirmed')
    (later : confirmed ≤ confirmed') => confirms'.advance (by omega) moves.frontier_le
      (moves.base_short tracked)
  by_cases timer : Exists fun now => c = .onTimer now
  · rcases timer with ⟨now, rfl⟩
    rcases confirms.onTimer tracked.tracks now with ⟨last', confirms'⟩
    exact ⟨final, last', confirmed, moved, advanced _ _ _ confirms' (le_refl _)⟩
  by_cases confirming : Exists fun now => Exists fun number => Exists fun ts =>
      c = .handleAckack now number ts
  · rcases confirming with ⟨now, number, ts, rfl⟩
    rcases confirms.handleAckack now number ts with ⟨confirmed', later, confirms'⟩
    exact ⟨final, last, confirmed', moved, advanced _ _ _ confirms' later⟩
  have same : (s.step c).receiver.ackFields = s.receiver.ackFields :=
    call_ackFields s.receiver c (fun now isCall => timer ⟨now, isCall⟩)
      (fun now number ts isCall => confirming ⟨now, number, ts, isCall⟩)
  exact ⟨final, last, confirmed, moved,
    advanced _ _ _ (confirms.of_ackFields_eq same) (le_refl _)⟩

end Receiver
end Rsrt

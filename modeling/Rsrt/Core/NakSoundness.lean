import Rsrt.Core.ReceiverAcks

namespace Rsrt

open Rsrt.Basis Rsrt.Basis.Intervals SeqNumber

/-!
# What a loss report asks for

A NAK lists positions that the receiver awaits.  Such a position is not stored, lies
between the base and the cursor, and was found missing by the arrival of a decryptable
packet above it.  A gap that an undecryptable packet opens is never recorded: the cursor
passes over it, and only positions above the cursor are recorded later.

The periodic report is cut to the size of one packet.  What is cut is a prefix of the
loss list, and never all of it.
-/

/-- The range lists the sequence. -/
def LossRange.Lists (range : LossRange) (seq : SeqNumber) : Prop :=
  0 ≤ seq.diff range.first ∧ seq.diff range.first ≤ range.last.diff range.first

/-- Words that a list of ranges takes in a NAK: one for a single, two for a range. -/
def nakWords (ranges : List LossRange) : Nat :=
  (ranges.map fun range => if range.first = range.last then 1 else 2).sum

namespace Receiver

/-- A decryptable packet arrives above the position. -/
def HeardAbove (point : Int) (entry : Session × Call) : Prop :=
  Exists fun now => Exists fun pkt =>
    entry.2 = .handleData now pkt ∧ point < entry.1.unwrap pkt.seq

/-- What a receiver may ask for again. -/
structure Owed (history : List (Session × Call)) (s : Session) (seq : SeqNumber) : Prop where
  ahead : 0 ≤ seq.diff s.receiver.baseSeq
  vacant : slotAt s.receiver.slots (seq.diff s.receiver.baseSeq).toNat = none
  below : seq.diff s.receiver.rcvCurrSeq < 0
  heard : Exists fun entry => entry ∈ history ∧ HeardAbove (s.unwrap seq) entry
  revealed : forall entry, entry ∈ history -> ¬HiddenAt entry (s.unwrap seq)

/-! ## Where the awaited positions come from -/

/-- The awaited positions of a window, explained by the calls that led to it. -/
structure Justified (history : List (Session × Call)) (w : ReceiveWindow Slot) : Prop where
  heard : forall point, Covers w.missing point ->
    Exists fun entry => entry ∈ history ∧ HeardAbove point entry
  revealed : forall point, Covers w.missing point ->
    forall entry, entry ∈ history -> ¬HiddenAt entry point
  passed : forall point entry, entry ∈ history -> HiddenAt entry point -> point ≤ w.top

section Stepping

variable {s : Session} {w final : ReceiveWindow Slot} {c : Call} {returned : Option Bytes}

/-- A position becomes awaited only when a decryptable packet arrives above it and it
lies above everything seen. -/
theorem Moves.missing (moves : Moves s w c returned final) {point : Int}
    (covered : Covers final.missing point) :
    Covers w.missing point ∨ w.top < point ∧ HeardAbove point (s, c) := by
  cases moves with
  | arrives now pkt undecryptable isCall window _ =>
      subst window
      unfold arrivalWindow at covered
      split_ifs at covered
      · exact Or.inl covered
      · rcases accept_missing covered with old | ⟨reveals, above, below⟩
        · exact Or.inl old
        · have decryptable : undecryptable = false := by
            cases undecryptable with
            | false => rfl
            | true => cases reveals
          subst decryptable
          exact Or.inr ⟨above, now, pkt, isCall, below⟩
  | drops now msgNumber first last _ window _ =>
      subst window
      unfold dropWindow at covered
      split_ifs at covered
      · exact Or.inl ((covers_cut _ _ _ _).mp covered).1
      · exact Or.inl covered
  | releases _ _ _ _ _ _ released => exact Or.inl ((released.covers_iff point).mp covered).1
  | rests window _ =>
      subst window
      exact Or.inl covered

theorem Moves.top_le (moves : Moves s w c returned final) : w.top ≤ final.top := by
  cases moves with
  | arrives now pkt undecryptable _ window _ =>
      subst window
      unfold arrivalWindow
      split_ifs
      · exact le_refl _
      · exact accept_top _ _ _ _ _
  | drops now msgNumber first last _ window _ =>
      subst window
      unfold dropWindow
      split_ifs with valid
      · change w.top ≤ if s.unwrap first ≤ w.top + 1 ∧ w.top < s.unwrap last then s.unwrap last
          else w.top
        split_ifs with reached
        · exact le_of_lt reached.2
        · exact le_refl _
      · exact le_refl _
  | releases _ _ _ _ _ _ released => exact le_of_eq released.top_eq.symm
  | rests window _ => exact le_of_eq (congrArg ReceiveWindow.top window).symm

/-- One call keeps the explanation. -/
theorem Justified.step {history : List (Session × Call)} (justified : Justified history w)
    (tracked : s.Tracked w) (moved : (s.step c).Tracked final)
    (moves : Moves s w c returned final) : Justified (history ++ [(s, c)]) final := by
  have now_above {point : Int} (hidden : HiddenAt (s, c) point) :
      w.top < point ∧ point < final.top := by
    rcases hidden with ⟨_, pkt, slot, _, ⟨_, _, _, _, _, _, _, held⟩, above, below⟩
    have bottom := w.base_le
    have span := tracked.tracks.span
    change s.unwrap s.receiver.rcvCurrSeq < point at above
    rw [tracked.tracks.rcvCurrSeq, tracked.unwrap_wire (by omega) (by omega)] at above
    rw [moved.slot_eq] at held
    exact ⟨above, lt_of_lt_of_le below (final.bounded _ slot held).2⟩
  have silent {point : Int} (heard : HeardAbove point (s, c)) : ¬HiddenAt (s, c) point := by
    rintro ⟨_, _, _, concealed, _⟩
    rcases heard with ⟨_, _, is, _⟩
    rw [is] at concealed
    cases concealed
  constructor
  · intro point covered
    rcases moves.missing covered with old | ⟨_, heard⟩
    · rcases justified.heard point old with ⟨entry, member, heard⟩
      exact ⟨entry, List.mem_append_left _ member, heard⟩
    · exact ⟨(s, c), List.mem_append_right _ (List.mem_singleton.mpr rfl), heard⟩
  · intro point covered entry member
    rcases List.mem_append.mp member with earlier | last
    · rcases moves.missing covered with old | ⟨above, _⟩
      · exact justified.revealed point old entry earlier
      · intro hidden
        exact absurd (justified.passed point entry earlier hidden) (not_le.mpr above)
    · rw [List.mem_singleton.mp last]
      rcases moves.missing covered with old | ⟨_, heard⟩
      · intro hidden
        have below := (w.inside point old).2
        have above := (now_above hidden).1
        omega
      · exact silent heard
  · intro point entry member hidden
    rcases List.mem_append.mp member with earlier | last
    · exact le_trans (justified.passed point entry earlier hidden) moves.top_le
    · rw [List.mem_singleton.mp last] at hidden
      exact le_of_lt (now_above hidden).2

end Stepping

theorem run_justified {history : List (Session × Call)} {s : Session}
    (run : machine.Run history s) :
    Exists fun w => s.Tracked w ∧ Justified history w := by
  refine run.induct (fun history s => Exists fun w => s.Tracked w ∧ Justified history w) ?_ ?_
  · intro s initial
    refine ⟨_, start_tracked initial, ?_, ?_, ?_⟩
    · exact fun point covered => absurd covered (not_covers_nil point)
    · exact fun point covered => absurd covered (not_covers_nil point)
    · exact fun _ _ member => absurd member List.not_mem_nil
  · rintro history s c _ ⟨w, tracked, justified⟩ near
    rcases tracked.step near with ⟨final, moved, moves⟩
    exact ⟨final, moved, justified.step tracked moved moves⟩

/-- Every sequence of the loss list may be asked for. -/
theorem Justified.owed {history : List (Session × Call)} {s : Session} {w : ReceiveWindow Slot}
    (justified : Justified history w) (tracked : s.Tracked w) {range : LossRange}
    (member : range ∈ s.receiver.loss) {seq : SeqNumber} (listed : range.Lists seq) :
    Owed history s seq := by
  rw [tracked.tracks.loss] at member
  rcases List.mem_map.mp member with ⟨⟨a, b⟩, present, rfl⟩
  have ordered : a ≤ b := w.separated.ordered (a, b) present
  have low := w.inside a ⟨(a, b), present, le_refl _, ordered⟩
  have high := w.inside b ⟨(a, b), present, ordered, le_refl _⟩
  have span := tracked.tracks.span
  -- The position of the sequence, counted from the start of its range.
  have width : (wire s.receiver.cfg.initialSeq b).diff (wire s.receiver.cfg.initialSeq a) = b - a :=
    diff_wire _ (by omega) (by omega)
  have within : 0 ≤ seq.diff (wire s.receiver.cfg.initialSeq a) ∧
      seq.diff (wire s.receiver.cfg.initialSeq a) ≤
        (wire s.receiver.cfg.initialSeq b).diff (wire s.receiver.cfg.initialSeq a) := listed
  rw [width] at within
  have placed := SeqNumber.wire_unwrap s.receiver.cfg.initialSeq a seq
  generalize distance : seq.diff (wire s.receiver.cfg.initialSeq a) = count at within placed
  have covered : Covers w.missing (a + count) := ⟨(a, b), present, by omega, by omega⟩
  have offset : seq.diff s.receiver.baseSeq = a + count - w.base := by
    rw [← placed]
    exact tracked.tracks.diff_base (by omega) (by omega)
  have position : s.unwrap seq = a + count := by
    unfold Session.unwrap
    rw [offset, tracked.position]
    omega
  have cursor : seq.diff s.receiver.rcvCurrSeq = a + count - w.top := by
    rw [← placed, tracked.tracks.rcvCurrSeq]
    exact diff_wire _ (by omega) (by omega)
  refine ⟨by omega, ?_, by omega, ?_, ?_⟩
  · rw [tracked.tracks.held, offset, Int.toNat_of_nonneg (by omega), add_sub_cancel]
    exact w.vacant _ covered
  · rw [position]
    exact justified.heard _ covered
  · rw [position]
    exact justified.revealed _ covered

/-! ## The periodic report -/

theorem nakPrefix_of_loss (maxWords words : Nat) (loss : List LossRange) :
    nakPrefix maxWords words loss <+: loss := by
  induction loss generalizing words with
  | nil => exact List.prefix_rfl
  | cons head rest ih =>
      rw [nakPrefix]
      generalize (if head.first = head.last then 1 else 2) = need
      split
      · exact List.nil_prefix
      · exact List.cons_prefix_cons.mpr ⟨rfl, ih _⟩

/-- The prefix keeps within the budget that is left. -/
theorem nakPrefix_words {maxWords words : Nat} (loss : List LossRange) (fits : words ≤ maxWords) :
    words + nakWords (nakPrefix maxWords words loss) ≤ maxWords := by
  induction loss generalizing words with
  | nil => exact fits
  | cons head rest ih =>
      rw [nakPrefix]
      split_ifs with single beyond beyond
      · exact fits
      · have shorter := ih (not_lt.mp beyond)
        unfold nakWords at shorter ⊢
        rw [List.map_cons, List.sum_cons, if_pos single]
        omega
      · exact fits
      · have shorter := ih (not_lt.mp beyond)
        unfold nakWords at shorter ⊢
        rw [List.map_cons, List.sum_cons, if_neg single]
        omega

/-- The budget always has room for one entry. -/
theorem nakRanges_ne_nil {r : Receiver} (missing : r.loss ≠ []) : r.nakRanges ≠ [] := by
  unfold nakRanges
  have room : 2 ≤ max (r.maxPayload / 4) minNakWords := le_max_right _ _
  cases loss : r.loss with
  | nil => exact absurd loss missing
  | cons head rest =>
      rw [nakPrefix, if_neg]
      · exact List.cons_ne_nil _ _
      · split_ifs <;> omega

/-- The timer queues acknowledgements, and then the periodic report if it is time for it. -/
theorem onTimer_controlQ (r : Receiver) (now : Instant) :
    Exists fun acks => (forall ranges, .nak ranges ∉ acks) ∧
      (r.onTimer now).controlQ = r.controlQ ++ acks ++
        if r.loss ≠ [] ∧ r.nextNakTime ≤ now then [.nak r.nakRanges] else [] := by
  have acked : Exists fun acks : List ControlType => (forall ranges, .nak ranges ∉ acks) ∧
      (r.ackTimer now).controlQ = r.controlQ ++ acks ∧ (r.ackTimer now).loss = r.loss ∧
        (r.ackTimer now).nextNakTime = r.nextNakTime ∧ (r.ackTimer now).nakRanges = r.nakRanges := by
    unfold ackTimer
    split_ifs
    · rcases queueFullAck_cases r now with same | ⟨_, same | same⟩
      · rw [same]
        exact ⟨[], fun _ => List.not_mem_nil, (List.append_nil _).symm, rfl, rfl, rfl⟩
      · rw [same]
        exact ⟨[], fun _ => List.not_mem_nil, (List.append_nil _).symm, rfl, rfl, rfl⟩
      · rw [same]
        refine ⟨_, ?_, rfl, rfl, rfl, rfl⟩
        intro ranges member
        cases List.mem_singleton.mp member
    · exact ⟨[], fun _ => List.not_mem_nil, (List.append_nil _).symm, rfl, rfl, rfl⟩
  rcases acked with ⟨acks, plain, queue, loss, time, ranges⟩
  refine ⟨acks, plain, ?_⟩
  rw [← queue, ← loss, ← time, ← ranges]
  unfold onTimer nakTimer
  by_cases empty : (r.ackTimer now).loss = []
  · rw [if_pos empty, if_neg (fun due => due.1 empty), List.append_nil]
  · rw [if_neg empty]
    by_cases due : (r.ackTimer now).nextNakTime ≤ now
    · rw [if_pos due, if_pos ⟨empty, due⟩]
      unfold queueNak
      rw [if_neg (nakRanges_ne_nil empty)]
    · rw [if_neg due, if_neg (fun both => due both.2), List.append_nil]

/-- What the timer reports. -/
theorem nak_mem_queued_onTimer (s : Session) (now : Instant) (ranges : List LossRange) :
    .nak ranges ∈ queued (s, .onTimer now) ↔
      ranges = s.receiver.nakRanges ∧ s.receiver.loss ≠ [] ∧ s.receiver.nextNakTime ≤ now := by
  rcases s.receiver.onTimer_controlQ now with ⟨acks, plain, queue⟩
  have appended : queued (s, .onTimer now) = acks ++
      if s.receiver.loss ≠ [] ∧ s.receiver.nextNakTime ≤ now then [.nak s.receiver.nakRanges]
      else [] := by
    change (s.receiver.onTimer now).controlQ.drop s.receiver.controlQ.length = _
    rw [queue, List.append_assoc, List.drop_left]
  rw [appended, List.mem_append]
  constructor
  · rintro (ack | report)
    · exact absurd ack (plain ranges)
    · split_ifs at report with due
      · cases List.mem_singleton.mp report
        exact ⟨rfl, due⟩
      · cases report
  · rintro ⟨rfl, due⟩
    rw [if_pos due]
    exact Or.inr (List.mem_singleton.mpr rfl)

/-- NAK soundness.  After every run and every further call, each sequence in a NAK that
the call queues is owed to the receiver.  The timer's NAK is a prefix of the loss list
that fits the word budget, it is not empty, and it is queued whenever the timer is due
and something is missing. -/
theorem nak_sound {history : List (Session × Call)} {s : Session} (run : machine.Run history s)
    {c : Call} (near : machine.guard s c) :
    (forall ranges, .nak ranges ∈ queued (s, c) -> forall range, range ∈ ranges ->
        forall seq, range.Lists seq -> Owed (history ++ [(s, c)]) (s.step c) seq) ∧
      forall now, c = .onTimer now ->
        (forall ranges, .nak ranges ∈ queued (s, c) ->
          ranges <+: s.receiver.loss ∧ nakWords ranges ≤ max (s.receiver.maxPayload / 4) 2 ∧
            ranges ≠ []) ∧
        (s.receiver.loss ≠ [] -> s.receiver.nextNakTime ≤ now ->
          Exists fun ranges => .nak ranges ∈ queued (s, c)) := by
  constructor
  · intro ranges queues range member seq listed
    rcases run_justified run with ⟨w, tracked, justified⟩
    rcases tracked.step near with ⟨final, moved, moves⟩
    have missing : range ∈ (s.step c).receiver.loss :=
      queued_reports tracked near queues range member
    exact (justified.step tracked moved moves).owed moved missing listed
  · rintro now rfl
    constructor
    · intro ranges queues
      rcases (nak_mem_queued_onTimer s now ranges).mp queues with ⟨rfl, missing, _⟩
      refine ⟨nakPrefix_of_loss _ _ _, ?_, nakRanges_ne_nil missing⟩
      have fits := @nakPrefix_words (max (s.receiver.maxPayload / 4) minNakWords) 0 s.receiver.loss
        (Nat.zero_le _)
      rw [Nat.zero_add] at fits
      exact fits
    · intro missing due
      exact ⟨_, (nak_mem_queued_onTimer s now _).mpr ⟨rfl, missing, due⟩⟩

/-- A gap that a decryptable packet reveals, across the wrap of the sequence numbers, and
one that an undecryptable packet reveals. -/
def gappyCalls : List Call :=
  [.handleData 1000 (plainPacket (.new 2147483646) 0 [0]),
    .handleData 2000 (plainPacket (.new 1) 0 [0]),
    .handleUndecryptable 3000 (plainPacket (.new 4) 0 [0]),
    .handleData 4000 (plainPacket (.new 5) 0 [0])]

def gappyStart : Session :=
  Session.new 0 ⟨SeqNumber.new 2147483646, Duration.fromMillis 120, 8192⟩

theorem nak_sound_wrapping :
    .nak [⟨SeqNumber.new 2147483647, SeqNumber.new 0⟩] ∈
        queued (machine.exec gappyStart gappyCalls, .onTimer 300000000) ∧
      Owed (machine.trace gappyStart gappyCalls ++
          [(machine.exec gappyStart gappyCalls, .onTimer 300000000)])
        ((machine.exec gappyStart gappyCalls).step (.onTimer 300000000)) (SeqNumber.new 0) := by
  have run := Machine.run_exec (start_new 0 ⟨SeqNumber.new 2147483646, Duration.fromMillis 120, 8192⟩)
    (by decide +kernel : machine.Allowed _ gappyCalls)
  have reported : .nak [⟨SeqNumber.new 2147483647, SeqNumber.new 0⟩] ∈
      queued (machine.exec gappyStart gappyCalls, .onTimer 300000000) := by
    decide +kernel
  refine ⟨reported, ?_⟩
  exact (nak_sound run (c := .onTimer 300000000) trivial).1 _ reported _ (List.mem_singleton.mpr rfl) _
    ⟨by decide +kernel, by decide +kernel⟩

end Receiver

end Rsrt

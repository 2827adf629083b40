import Rsrt.Basis.ReceiveWindow
import Rsrt.Core.Receiver

namespace Rsrt
namespace Receiver

open Rsrt.Basis Rsrt.Basis.Intervals SeqNumber

/-!
# The receiver implements a receive window

The receiver stores 31-bit sequence numbers and a ring of slots.  `Tracks` says
which abstract window over unbounded positions it stands for, and one lemma per
function says which window operation the function performs.  The 31-bit
comparisons are exact because every sequence involved lies within `2^29` of the
base.
-/

def wireRange (origin : SeqNumber) (range : Int × Int) : LossRange :=
  { first := wire origin range.1, last := wire origin range.2 }

/-- The fields that the window abstracts, and the count of what was dropped. -/
structure Buffer where
  cfg : ReceiverConfig
  baseSeq : SeqNumber
  slots : List (Option Slot)
  scanHint : Nat
  rcvCurrSeq : SeqNumber
  loss : List LossRange
  pktsDropped : Nat

def buffer (r : Receiver) : Buffer :=
  ⟨r.cfg, r.baseSeq, r.slots, r.scanHint, r.rcvCurrSeq, r.loss, r.stats.pktsDropped⟩

/-- The receiver stands for the window, positions counted from `origin`. -/
structure Tracks (origin : SeqNumber) (w : ReceiveWindow Slot) (r : Receiver) : Prop where
  baseSeq : r.baseSeq = wire origin w.base
  rcvCurrSeq : r.rcvCurrSeq = wire origin w.top
  loss : r.loss = w.missing.map (wireRange origin)
  held : forall index : Nat, slotAt r.slots index = w.held (w.base + index)
  capacity : r.slots.length ≤ r.cfg.bufferPkts
  hint : r.scanHint ≤ r.slots.length
  hint_empty : forall index, index < r.scanHint -> slotAt r.slots index = none
  span : w.top ≤ w.base + 2 ^ 29

theorem Tracks.of_buffer_eq {origin : SeqNumber} {w : ReceiveWindow Slot} {r other : Receiver}
    (tracks : Tracks origin w r) (same : other.buffer = r.buffer) : Tracks origin w other := by
  simp only [buffer, Buffer.mk.injEq] at same
  rcases same with ⟨cfg, baseSeq, slots, scanHint, rcvCurrSeq, loss, _⟩
  rcases tracks with ⟨h1, h2, h3, h4, h5, h6, h7, h8⟩
  exact ⟨baseSeq.trans h1, rcvCurrSeq.trans h2, loss.trans h3, slots ▸ h4, slots ▸ cfg ▸ h5,
    slots ▸ scanHint ▸ h6, slots ▸ scanHint ▸ h7, h8⟩

theorem tracks_new (now : Instant) (cfg : ReceiverConfig) :
    Tracks cfg.initialSeq (ReceiveWindow.start 0) (Receiver.new now cfg) where
  baseSeq := (wire_zero cfg.initialSeq).symm
  rcvCurrSeq := by
    have moved := prev_wire cfg.initialSeq 0
    rw [wire_zero] at moved
    exact moved
  loss := rfl
  held := fun _ => rfl
  capacity := Nat.zero_le _
  hint := le_refl _
  hint_empty := fun _ below => absurd below (Nat.not_lt_zero _)
  span := by decide

/-- A distance from the base is exact as long as it is short. -/
theorem Tracks.diff_base {origin : SeqNumber} {w : ReceiveWindow Slot} {r : Receiver}
    (tracks : Tracks origin w r) {point : Int} (above : w.base - 2 ^ 29 ≤ point)
    (below : point ≤ w.base + 2 ^ 29 + 1) :
    (wire origin point).diff r.baseSeq = point - w.base := by
  rw [tracks.baseSeq]
  exact diff_wire origin (by omega) (by omega)

/-! ## Loss list -/

section LossList

variable {base : Int}

theorem remainder_wire (origin : SeqNumber) {lo hi : Int} {range : Int × Int}
    (inside : base ≤ range.1 ∧ range.1 ≤ range.2 ∧ range.2 < base + 2 ^ 29)
    (low : base - 2 ^ 29 ≤ lo ∧ lo ≤ base + 2 ^ 29)
    (high : base - 2 ^ 29 ≤ hi ∧ hi ≤ base + 2 ^ 29) :
    remainder (wire origin lo) (wire origin hi) (wireRange origin range) =
      (cutRange lo hi range).map (wireRange origin) := by
  have before : (wire origin hi).diff (wire origin range.1) = hi - range.1 :=
    diff_wire origin (by omega) (by omega)
  have after : (wire origin range.2).diff (wire origin lo) = range.2 - lo :=
    diff_wire origin (by omega) (by omega)
  have start : (wire origin range.1).diff (wire origin lo) = range.1 - lo :=
    diff_wire origin (by omega) (by omega)
  have stop : (wire origin range.2).diff (wire origin hi) = range.2 - hi :=
    diff_wire origin (by omega) (by omega)
  simp only [remainder, wireRange, cutRange, before, after, start, stop, sub_neg, sub_pos,
    prev_wire, next_wire]
  split_ifs <;> rfl

/-- Removing a range from the loss list cuts it out of the missing positions. -/
theorem removeLossRange_wire (origin : SeqNumber) {lo hi : Int} {missing : List (Int × Int)}
    (inside : forall range, range ∈ missing ->
      base ≤ range.1 ∧ range.1 ≤ range.2 ∧ range.2 < base + 2 ^ 29)
    (low : base - 2 ^ 29 ≤ lo ∧ lo ≤ base + 2 ^ 29)
    (high : base - 2 ^ 29 ≤ hi ∧ hi ≤ base + 2 ^ 29) :
    removeLossRange (wire origin lo) (wire origin hi) (missing.map (wireRange origin)) =
      (cut lo hi missing).map (wireRange origin) := by
  induction missing with
  | nil => rfl
  | cons range rest ih =>
      have tail := ih (fun other member => inside other (List.mem_cons_of_mem _ member))
      have head := remainder_wire origin (inside range List.mem_cons_self) low high
      have unfolded : cut lo hi (range :: rest) = cutRange lo hi range ++ cut lo hi rest := rfl
      rw [unfolded, List.map_append, ← tail, ← head]
      rfl

/-- Recovering one sequence cuts its position out of the missing ones.  The scan
stops at the first entry past the sequence, which is sound on an ascending
list. -/
theorem unlose_wire (origin : SeqNumber) {point : Int} {missing : List (Int × Int)}
    (separated : Separated missing)
    (inside : forall range, range ∈ missing ->
      base ≤ range.1 ∧ range.1 ≤ range.2 ∧ range.2 < base + 2 ^ 29)
    (near : base ≤ point ∧ point ≤ base + 2 ^ 29) :
    unlose (wire origin point) (missing.map (wireRange origin)) =
      (cut point point missing).map (wireRange origin) := by
  induction missing with
  | nil => rfl
  | cons range rest ih =>
      rcases (separated_cons range rest).mp separated with ⟨_, later, tail⟩
      have close := inside range List.mem_cons_self
      have below : (wire origin point).diff (wire origin range.1) = point - range.1 :=
        diff_wire origin (by omega) (by omega)
      have above : (wire origin range.2).diff (wire origin point) = range.2 - point :=
        diff_wire origin (by omega) (by omega)
      have unfolded : cut point point (range :: rest) =
          cutRange point point range ++ cut point point rest := rfl
      have settled (reached : point ≤ range.2) : cut point point rest = rest := by
        refine cut_eq_self ?_
        intro other member
        have := later other member
        exact Or.inl (by omega)
      by_cases precedes : point < range.1
      · have head : cutRange point point range = [range] := if_pos (Or.inl precedes)
        rw [unfolded, head, settled (by omega)]
        simp only [List.map_cons, unlose, wireRange, below, if_pos (sub_neg.mpr precedes)]
        rfl
      · by_cases follows : range.2 < point
        · have head : cutRange point point range = [range] := if_pos (Or.inr follows)
          rw [unfolded, head, List.map_append,
            ← ih tail (fun other member => inside other (List.mem_cons_of_mem _ member))]
          simp only [List.map_cons, unlose, wireRange, below, above, sub_neg, if_neg precedes,
            if_pos follows]
          rfl
        · have whole : wire origin range.1 = wire origin range.2 ↔ range.1 = range.2 :=
            ⟨wire_inj origin (by omega) (by omega), fun same => same ▸ rfl⟩
          have first : wire origin point = wire origin range.1 ↔ point = range.1 :=
            ⟨wire_inj origin (by omega) (by omega), fun same => same ▸ rfl⟩
          have last : wire origin point = wire origin range.2 ↔ point = range.2 :=
            ⟨wire_inj origin (by omega) (by omega), fun same => same ▸ rfl⟩
          have head : cutRange point point range =
              (if range.1 < point then [(range.1, point - 1)] else []) ++
                (if point < range.2 then [(point + 1, range.2)] else []) :=
            if_neg (by omega)
          rw [unfolded, head, settled (by omega)]
          simp only [List.map_cons, unlose, wireRange, below, above, sub_neg, if_neg precedes,
            if_neg follows, whole, first, last, prev_wire, next_wire]
          split_ifs <;> first | omega | simp [wireRange]

end LossList

/-! ## Functions that leave the window alone -/

@[simp] theorem setHsAnchor_buffer (r : Receiver) (instant : Instant) (ts : Timestamp) :
    (r.setHsAnchor instant ts).buffer = r.buffer := by
  unfold setHsAnchor
  split <;> rfl

@[simp] theorem setMaxPayload_buffer (r : Receiver) (bytes : Nat) :
    (r.setMaxPayload bytes).buffer = r.buffer := rfl

@[simp] theorem queueNak_buffer (r : Receiver) (ranges : List LossRange) :
    (r.queueNak ranges).buffer = r.buffer := by
  unfold queueNak
  split <;> rfl

@[simp] theorem queueLightAck_buffer (r : Receiver) : r.queueLightAck.buffer = r.buffer := by
  unfold queueLightAck
  dsimp only
  split <;> rfl

@[simp] theorem emitFullAckUnlessConfirmed_buffer (r : Receiver) (now : Instant) :
    (r.emitFullAckUnlessConfirmed now).buffer = r.buffer := by
  unfold emitFullAckUnlessConfirmed
  split <;> rfl

@[simp] theorem queueFullAck_buffer (r : Receiver) (now : Instant) :
    (r.queueFullAck now).buffer = r.buffer := by
  unfold queueFullAck
  dsimp only
  split_ifs <;> first | rfl | exact emitFullAckUnlessConfirmed_buffer _ now

@[simp] theorem onTimer_buffer (r : Receiver) (now : Instant) :
    (r.onTimer now).buffer = r.buffer := by
  have acked : (r.ackTimer now).buffer = r.buffer := by
    unfold ackTimer
    split
    · exact queueFullAck_buffer r now
    · rfl
  have nakked (s : Receiver) : (s.nakTimer now).buffer = s.buffer := by
    unfold nakTimer
    dsimp only
    split_ifs
    · rfl
    · exact queueNak_buffer s s.nakRanges
    · rfl
  exact (nakked _).trans acked

@[simp] theorem pollControl_buffer (r : Receiver) (now : Instant) :
    (r.pollControl now).1.buffer = r.buffer := by
  unfold pollControl
  split <;> rfl

/-- An ACKACK changes the journal, the round trip estimate, the confirmed position and the
clock of the peer only. -/
theorem handleAckack_keeps {β : Type} (project : Receiver -> β)
    (blind : forall (r : Receiver) ackJournal rttFirst firstRttUs srttUs rttVarUs rcvLastAckack
        extender drift,
      project
        { r with
            ackJournal, rttFirst, firstRttUs, srttUs, rttVarUs, rcvLastAckack, extender, drift } =
        project r)
    (r : Receiver) (now : Instant) (number : Nat) (ts : Timestamp) :
    project (r.handleAckack now number ts) = project r := by
  have smoothed (s : Receiver) (rttUs : Nat) : project (s.smoothRtt rttUs) = project s := by
    unfold smoothRtt
    split <;> exact blind s _ _ _ _ _ _ _ _
  have sampled (s : Receiver) (rttUs : Nat) :
      project (s.sampleDrift now ts rttUs) = project s := by
    unfold sampleDrift
    split
    · rfl
    · exact blind s _ _ _ _ _ _ _ _
  unfold handleAckack
  split
  · rfl
  · split
    · rfl
    · dsimp only
      split_ifs
      · exact blind r _ _ _ _ _ _ _ _
      · rw [sampled, blind]
        exact (smoothed _ _).trans (blind r _ _ _ _ _ _ _ _)
      · rw [sampled, smoothed]
        exact blind r _ _ _ _ _ _ _ _

@[simp] theorem handleAckack_buffer (r : Receiver) (now : Instant) (number : Nat)
    (ts : Timestamp) : (r.handleAckack now number ts).buffer = r.buffer :=
  handleAckack_keeps Receiver.buffer (fun _ _ _ _ _ _ _ _ _ => rfl) r now number ts

@[simp] theorem selfClock_buffer (r : Receiver) : r.selfClock.buffer = r.buffer := by
  unfold selfClock
  split
  · exact queueLightAck_buffer _
  · rfl

/-! ## Data arrival -/

theorem slotAt_resizeSlots (slots : List (Option Slot)) (size index : Nat) :
    slotAt (resizeSlots slots size) index = slotAt slots index := by
  unfold resizeSlots slotAt
  split_ifs with short
  · by_cases inside : index < slots.length
    · rw [List.getElem?_append_left inside]
    · rw [List.getElem?_append_right (by omega), List.getElem?_replicate,
        List.getElem?_eq_none (by omega)]
      split_ifs <;> rfl
  · rfl

theorem length_resizeSlots (slots : List (Option Slot)) (size : Nat) :
    (resizeSlots slots size).length = max slots.length size := by
  unfold resizeSlots
  split_ifs <;> simp <;> omega

theorem slotAt_set {slots : List (Option Slot)} {index : Nat} (inside : index < slots.length)
    (slot : Slot) (other : Nat) :
    slotAt (slots.set index (some slot)) other =
      if other = index then some slot else slotAt slots other := by
  unfold slotAt
  rw [List.getElem?_set]
  by_cases same : index = other
  · subst same
    simp [inside]
  · simp [same, Ne.symm same]

theorem slotAt_eq_none_of_length_le {slots : List (Option Slot)} {index : Nat}
    (past : slots.length ≤ index) : slotAt slots index = none := by
  unfold slotAt
  rw [List.getElem?_eq_none past]
  rfl

/-- The loss entry that an arrival at `seq` adds, if any. -/
def revealed (r : Receiver) (seq : SeqNumber) (undecryptable : Bool) : List LossRange :=
  if 0 < seq.diff r.rcvCurrSeq.next ∧ undecryptable = false then
    [{ first := r.rcvCurrSeq.next, last := seq.prev }]
  else []

theorem detectGap_buffer (r : Receiver) (seq : SeqNumber) (undecryptable : Bool) :
    (r.detectGap seq undecryptable).buffer =
      { r.buffer with loss := r.loss ++ r.revealed seq undecryptable } := by
  unfold detectGap revealed
  dsimp only
  split_ifs
  · exact queueNak_buffer _ _
  · simp [buffer]

theorem noteArrival_buffer (r : Receiver) (seq : SeqNumber) :
    (r.noteArrival seq).buffer =
      if 0 < seq.diff r.buffer.rcvCurrSeq then { r.buffer with rcvCurrSeq := seq }
      else { r.buffer with loss := unlose seq r.buffer.loss } := by
  by_cases ahead : 0 < seq.diff r.rcvCurrSeq
  · rw [noteArrival, if_pos ahead]
    exact (if_pos ahead).symm
  · rw [noteArrival, if_neg ahead]
    exact (if_neg ahead).symm

theorem occupy_buffer (r : Receiver) (offset : Nat) (slot : Slot) :
    (r.occupy offset slot).buffer =
      { r.buffer with
        slots := r.buffer.slots.set offset (some slot)
        scanHint := min r.buffer.scanHint offset } := rfl

/-- Before it takes its slot, an arrival moves only the cursor and the loss list. -/
theorem noteArrival_detectGap (r : Receiver) (seq : SeqNumber) (undecryptable : Bool) :
    ((r.detectGap seq undecryptable).noteArrival seq).slots = r.slots ∧
      ((r.detectGap seq undecryptable).noteArrival seq).scanHint = r.scanHint ∧
      ((r.detectGap seq undecryptable).noteArrival seq).discrepancy = r.discrepancy := by
  unfold noteArrival detectGap queueNak
  dsimp only
  split_ifs <;> exact ⟨rfl, rfl, rfl⟩

/-- Everything that the arrival of a data packet leaves alone. -/
def arrivalFrame (r : Receiver) : Receiver :=
  { r with
    slots := []
    scanHint := 0
    rcvCurrSeq := r.cfg.initialSeq
    loss := []
    extender := {}
    anchor := none
    pktCount := 0
    lightAckCount := 0
    nakInterval := 0
    discrepancy := false
    undecrypted := 0
    controlQ := []
    stats := { pktsDropped := r.stats.pktsDropped } }

theorem detectGap_arrivalFrame (r : Receiver) (seq : SeqNumber) (undecryptable : Bool) :
    (r.detectGap seq undecryptable).arrivalFrame = r.arrivalFrame := by
  unfold detectGap queueNak
  dsimp only
  split_ifs <;> rfl

theorem noteArrival_arrivalFrame (r : Receiver) (seq : SeqNumber) :
    (r.noteArrival seq).arrivalFrame = r.arrivalFrame := by
  unfold noteArrival
  split <;> rfl

theorem storeData_arrivalFrame (r : Receiver) (pkt : DataPacket) (extUs : Nat)
    (undecryptable : Bool) :
    (r.storeData pkt extUs undecryptable).arrivalFrame = r.arrivalFrame := by
  unfold storeData
  dsimp only
  split_ifs
  · rfl
  · rfl
  · rfl
  · rfl
  · exact (noteArrival_arrivalFrame _ _).trans (detectGap_arrivalFrame _ _ _)

theorem ingest_arrivalFrame (r : Receiver) (now : Instant) (pkt : DataPacket)
    (undecryptable : Bool) :
    (r.ingest now pkt undecryptable).arrivalFrame = r.arrivalFrame := by
  have clocked (s : Receiver) : s.selfClock.arrivalFrame = s.arrivalFrame := by
    unfold selfClock queueLightAck
    dsimp only
    split_ifs <;> rfl
  unfold ingest
  split_ifs
  · rfl
  · rw [clocked, storeData_arrivalFrame]
    rfl

section Tracking

variable {origin : SeqNumber} {w : ReceiveWindow Slot} {r : Receiver}

theorem Tracks.diff_top (tracks : Tracks origin w r) {point : Int} (above : w.base ≤ point)
    (below : point ≤ w.base + 2 ^ 29) :
    (wire origin point).diff r.rcvCurrSeq = point - w.top ∧
      (wire origin point).diff r.rcvCurrSeq.next = point - (w.top + 1) := by
  have low := w.base_le
  have high := tracks.span
  rw [tracks.rcvCurrSeq, next_wire]
  exact ⟨diff_wire origin (by omega) (by omega), diff_wire origin (by omega) (by omega)⟩

theorem Tracks.missing_inside (tracks : Tracks origin w r) (range : Int × Int)
    (member : range ∈ w.missing) :
    w.base ≤ range.1 ∧ range.1 ≤ range.2 ∧ range.2 < w.base + 2 ^ 29 := by
  have ordered := w.separated.ordered range member
  have low := w.inside range.1 ⟨range, member, le_refl _, ordered⟩
  have high := w.inside range.2 ⟨range, member, ordered, le_refl _⟩
  have := tracks.span
  omega

theorem Tracks.revealed_eq (tracks : Tracks origin w r) {point : Int} (above : w.base ≤ point)
    (below : point ≤ w.base + 2 ^ 29) (undecryptable : Bool) :
    r.revealed (wire origin point) undecryptable =
      (w.gap point (!undecryptable)).map (wireRange origin) := by
  have distance := (tracks.diff_top above below).2
  rw [tracks.rcvCurrSeq, next_wire] at distance
  unfold revealed ReceiveWindow.gap
  simp only [tracks.rcvCurrSeq, next_wire, prev_wire, distance, sub_pos]
  cases undecryptable with
  | true => simp
  | false =>
      simp only [and_true, Bool.not_false]
      split_ifs <;> rfl

/-- Storing a packet in an empty slot is an arrival at its position. -/
theorem Tracks.arrive (tracks : Tracks origin w r) {point : Int} (above : w.base ≤ point)
    (below : point ≤ w.base + 2 ^ 29) (fits : (point - w.base).toNat < r.cfg.bufferPkts)
    (slot : Slot) (undecryptable : Bool) :
    Tracks origin (w.arrive point slot (!undecryptable) above)
      (((({ r with slots := resizeSlots r.slots ((point - w.base).toNat + 1) }).detectGap
        (wire origin point) undecryptable).noteArrival (wire origin point)).occupy
          (point - w.base).toNat slot) := by
  generalize index : (point - w.base).toNat = offset at fits ⊢
  generalize resized : { r with slots := resizeSlots r.slots (offset + 1) } = r₁
  generalize stored : ((r₁.detectGap (wire origin point) undecryptable).noteArrival
    (wire origin point)).occupy offset slot = final
  have distance := tracks.diff_top above below
  have gap := tracks.revealed_eq above below undecryptable
  have same : final.buffer =
      { cfg := r.cfg
        baseSeq := r.baseSeq
        slots := (resizeSlots r.slots (offset + 1)).set offset (some slot)
        scanHint := min r.scanHint offset
        rcvCurrSeq := wire origin (max w.top point)
        loss := (w.arrive point slot (!undecryptable) above).missing.map (wireRange origin)
        pktsDropped := r.stats.pktsDropped } := by
    have moved : r₁.revealed (wire origin point) undecryptable =
        r.revealed (wire origin point) undecryptable := by
      rw [← resized]
      rfl
    rw [← stored, occupy_buffer, noteArrival_buffer, detectGap_buffer, moved, gap, ← resized]
    simp only [buffer, distance.1, sub_pos, tracks.loss, ← List.map_append]
    by_cases ahead : w.top < point
    · have outside : cut point point w.missing = w.missing := by
        refine cut_eq_self ?_
        intro range member
        have ordered := w.separated.ordered range member
        have := (w.inside range.2 ⟨range, member, ordered, le_refl _⟩).2
        exact Or.inr (by omega)
      simp only [if_pos ahead, max_eq_right (le_of_lt ahead), ReceiveWindow.arrive, outside]
    · have closed : w.gap point (!undecryptable) = [] := if_neg (by omega)
      simp only [if_neg ahead, max_eq_left (not_lt.mp ahead), ReceiveWindow.arrive, closed,
        List.append_nil, tracks.rcvCurrSeq]
      rw [unlose_wire origin w.separated tracks.missing_inside ⟨above, below⟩]
  simp only [buffer, Buffer.mk.injEq] at same
  rcases same with ⟨cfg, baseSeq, slots, scanHint, rcvCurrSeq, loss, _⟩
  have size := length_resizeSlots r.slots (offset + 1)
  have capacity := tracks.capacity
  have hint := tracks.hint
  have content (other : Nat) : slotAt final.slots other =
      if other = offset then some slot else slotAt r.slots other := by
    rw [slots, slotAt_set (by omega), slotAt_resizeSlots]
  refine ⟨baseSeq.trans tracks.baseSeq, rcvCurrSeq, loss, ?_, ?_, ?_, ?_, ?_⟩
  · intro other
    show slotAt final.slots other = Function.update w.held point (some slot) (w.base + other)
    rw [content]
    by_cases same : other = offset
    · have here : w.base + other = point := by omega
      rw [if_pos same, here, Function.update_self]
    · rw [if_neg same, Function.update_of_ne (by omega)]
      exact tracks.held other
  · rw [slots, cfg, List.length_set, size]
    omega
  · rw [slots, scanHint, List.length_set, size]
    omega
  · intro other below
    rw [scanHint] at below
    rw [content, if_neg (by omega)]
    exact tracks.hint_empty other (by omega)
  · have := tracks.span
    show max w.top point ≤ w.base + 2 ^ 29
    omega

/-- Data arrival, behind the receiver's admission checks. -/
theorem Tracks.storeData (tracks : Tracks origin w r) {pkt : DataPacket} {point : Int}
    (seq : pkt.seq = wire origin point)
    (near : w.base - 2 ^ 29 ≤ point ∧ point ≤ w.base + 2 ^ 29)
    (extUs : Nat) (undecryptable : Bool) :
    Tracks origin
      (w.accept r.cfg.bufferPkts point (slotOf pkt extUs undecryptable) (!undecryptable))
      (r.storeData pkt extUs undecryptable) := by
  have distance : pkt.seq.diff r.baseSeq = point - w.base := by
    rw [seq]
    exact tracks.diff_base near.1 (by omega)
  unfold Receiver.storeData ReceiveWindow.accept
  simp only [distance]
  by_cases belated : point - w.base < 0
  · rw [if_pos belated, dif_neg (by omega)]
    exact tracks.of_buffer_eq rfl
  rw [if_neg belated]
  by_cases beyond : r.cfg.bufferPkts ≤ (point - w.base).toNat
  · rw [if_pos beyond, dif_neg (by omega)]
    split_ifs
    · exact tracks.of_buffer_eq rfl
    · exact tracks
  rw [if_neg beyond]
  have lookup : slotAt r.slots (point - w.base).toNat = w.held point := by
    rw [tracks.held]
    congr 1
    omega
  rw [slotAt_resizeSlots, lookup]
  by_cases vacant : w.held point = none
  · rw [dif_pos ⟨by omega, by omega, vacant⟩, if_neg (by simp [vacant]), seq]
    exact tracks.arrive (by omega) near.2 (by omega) _ undecryptable
  · have inside : (point - w.base).toNat < r.slots.length := by
      by_contra past
      rw [slotAt_eq_none_of_length_le (not_lt.mp past)] at lookup
      exact vacant lookup.symm
    have unchanged : resizeSlots r.slots ((point - w.base).toNat + 1) = r.slots :=
      if_neg (by omega)
    rw [dif_neg (fun fits => vacant fits.2.2), if_pos (Option.isSome_iff_ne_none.mpr vacant),
      unchanged]
    exact tracks

/-- The whole arrival path.  An oversized payload is dropped before it can
occupy a slot. -/
theorem Tracks.ingest (tracks : Tracks origin w r) {pkt : DataPacket} {point : Int}
    (seq : pkt.seq = wire origin point)
    (near : w.base - 2 ^ 29 ≤ point ∧ point ≤ w.base + 2 ^ 29)
    (now : Instant) (undecryptable : Bool) :
    Tracks origin
      (if r.maxPayload < pkt.payload.length then w
       else w.accept r.cfg.bufferPkts point
        (slotOf pkt (r.extender.extend pkt.timestamp now).2 undecryptable) (!undecryptable))
      (r.ingest now pkt undecryptable) := by
  unfold Receiver.ingest
  by_cases oversized : r.maxPayload < pkt.payload.length
  · rw [if_pos oversized, if_pos oversized]
    exact tracks.of_buffer_eq rfl
  · rw [if_neg oversized, if_neg oversized]
    refine Tracks.of_buffer_eq ?_ (selfClock_buffer _)
    have observed : Tracks origin w
        ((r.countArrival pkt).observeTimestamp now pkt.timestamp).1 :=
      tracks.of_buffer_eq rfl
    exact observed.storeData seq near _ undecryptable

/-! ## DROPREQ -/

theorem slotAt_dropMessage (msgNumber : MsgNumber) (lo hi : Int) (slots : List (Option Slot))
    (index : Nat) :
    slotAt (dropMessage msgNumber lo hi slots) index =
      (slotAt slots index).filter (fun slot =>
        !decide (lo ≤ (index : Int) ∧ (index : Int) ≤ hi ∧ slot.msgNumber = msgNumber)) := by
  unfold slotAt dropMessage
  rw [List.getElem?_mapIdx]
  cases entry : slots[index]? with
  | none => rfl
  | some content =>
      cases content with
      | none => rfl
      | some slot =>
          by_cases named : lo ≤ (index : Int) ∧ (index : Int) ≤ hi ∧ slot.msgNumber = msgNumber
          · simp [named, Option.filter]
          · simp [Option.filter, named]

theorem length_dropMessage (msgNumber : MsgNumber) (lo hi : Int) (slots : List (Option Slot)) :
    (dropMessage msgNumber lo hi slots).length = slots.length :=
  List.length_mapIdx

/-- The window after a DROPREQ for `[lo, hi]`: message number zero drops by
range only. -/
def dropWindow (w : ReceiveWindow Slot) (msgNumber : MsgNumber) (lo hi : Int) :
    ReceiveWindow Slot :=
  if valid : lo ≤ hi then
    (w.withdraw lo hi valid).discard (fun point slot =>
      decide (msgNumber.value ≠ 0 ∧ lo ≤ point ∧ point ≤ hi ∧ slot.msgNumber = msgNumber))
  else w

/-- The buffer after a DROPREQ whose range is not seen as inverted. -/
theorem handleDropreq_buffer (r : Receiver) (now : Instant) (msgNumber : MsgNumber)
    {first last : SeqNumber} (upright : ¬ 0 < first.diff last) :
    (r.handleDropreq now msgNumber first last).buffer =
      { r.buffer with
        loss := removeLossRange first last r.loss
        slots :=
          if msgNumber.value = 0 then r.slots
          else dropMessage msgNumber (max (first.diff r.baseSeq) 0) (last.diff r.baseSeq) r.slots
        rcvCurrSeq :=
          if first.diff r.rcvCurrSeq.next ≤ 0 ∧ 0 < last.diff r.rcvCurrSeq then last
          else r.rcvCurrSeq } := by
  unfold Receiver.handleDropreq
  rw [if_neg upright]
  by_cases zero : msgNumber.value = 0
  · simp only [if_pos zero]
    split_ifs <;> rfl
  · simp only [if_neg zero]
    split_ifs <;> rfl

theorem Tracks.handleDropreq (tracks : Tracks origin w r) {lo hi : Int}
    (low : w.base - 2 ^ 29 ≤ lo ∧ lo ≤ w.base + 2 ^ 29)
    (high : w.base - 2 ^ 29 ≤ hi ∧ hi ≤ w.base + 2 ^ 29)
    (now : Instant) (msgNumber : MsgNumber) :
    Tracks origin (dropWindow w msgNumber lo hi)
      (r.handleDropreq now msgNumber (wire origin lo) (wire origin hi)) := by
  have bottom := w.base_le
  have span := tracks.span
  by_cases inverted : 0 < (wire origin lo).diff (wire origin hi)
  · have backwards : ¬ lo ≤ hi := by
      intro valid
      rw [diff_wire origin (by omega) (by omega)] at inverted
      omega
    rw [dropWindow, dif_neg backwards, Receiver.handleDropreq, if_pos inverted]
    exact tracks
  · have same := handleDropreq_buffer r now msgNumber inverted
    generalize r.handleDropreq now msgNumber (wire origin lo) (wire origin hi) = final at same ⊢
    have start : (wire origin lo).diff r.baseSeq = lo - w.base := tracks.diff_base low.1 (by omega)
    have stop : (wire origin hi).diff r.baseSeq = hi - w.base := tracks.diff_base high.1 (by omega)
    have skips : ((wire origin lo).diff r.rcvCurrSeq.next ≤ 0 ∧
        0 < (wire origin hi).diff r.rcvCurrSeq) ↔ lo ≤ w.top + 1 ∧ w.top < hi := by
      have ahead : (wire origin hi).diff r.rcvCurrSeq = hi - w.top := by
        rw [tracks.rcvCurrSeq]
        exact diff_wire origin (by omega) (by omega)
      rw [ahead]
      by_cases passes : w.top < hi
      · have from_next : (wire origin lo).diff r.rcvCurrSeq.next = lo - (w.top + 1) := by
          rw [tracks.rcvCurrSeq, next_wire]
          exact diff_wire origin (by omega) (by omega)
        rw [from_next]
        omega
      · omega
    simp only [buffer, Buffer.mk.injEq, skips, start, stop, tracks.loss] at same
    rcases same with ⟨cfg, baseSeq, slots, scanHint, rcvCurrSeq, loss, _⟩
    rw [removeLossRange_wire origin tracks.missing_inside low high] at loss
    have size : final.slots.length = r.slots.length := by
      rw [slots]
      split_ifs
      · rfl
      · exact length_dropMessage _ _ _ _
    have content (index : Nat) : slotAt final.slots index =
        (slotAt r.slots index).filter (fun slot =>
          !decide (msgNumber.value ≠ 0 ∧ lo ≤ w.base + index ∧ w.base + index ≤ hi ∧
            slot.msgNumber = msgNumber)) := by
      have lower : max (lo - w.base) 0 ≤ (index : Int) ↔ lo ≤ w.base + index := by omega
      have upper : (index : Int) ≤ hi - w.base ↔ w.base + index ≤ hi := by omega
      rw [slots]
      split_ifs with zero
      · cases slotAt r.slots index <;> simp [Option.filter, zero]
      · simp only [slotAt_dropMessage, lower, upper, ne_eq, zero, not_false_iff, true_and]
    have hint : final.scanHint ≤ final.slots.length := by
      rw [scanHint, size]
      exact tracks.hint
    have hint_empty (index : Nat) (below : index < final.scanHint) :
        slotAt final.slots index = none := by
      rw [content, tracks.hint_empty index (scanHint ▸ below)]
      rfl
    have capacity : final.slots.length ≤ final.cfg.bufferPkts := by
      rw [cfg, size]
      exact tracks.capacity
    by_cases valid : lo ≤ hi
    · rw [dropWindow, dif_pos valid]
      refine ⟨baseSeq.trans tracks.baseSeq, ?_, loss, ?_, capacity, hint, hint_empty, ?_⟩
      · rw [rcvCurrSeq, tracks.rcvCurrSeq, ReceiveWindow.discard, ReceiveWindow.withdraw,
          apply_ite (wire origin)]
      · intro index
        rw [content, tracks.held]
        rfl
      · show (if lo ≤ w.top + 1 ∧ w.top < hi then hi else w.top) ≤ w.base + 2 ^ 29
        split_ifs <;> omega
    · -- Only the two ends of the admissible span, `2^30` apart, look upright on the wire.
      have ends : hi < w.base := by
        by_contra inside
        rw [diff_wire origin (by omega) (by omega)] at inverted
        omega
      have uncut : cut lo hi w.missing = w.missing := by
        refine cut_eq_self ?_
        intro range member
        have := tracks.missing_inside range member
        exact Or.inl (by omega)
      rw [dropWindow, dif_neg valid]
      rw [uncut] at loss
      rw [if_neg (by omega)] at rcvCurrSeq
      refine ⟨baseSeq.trans tracks.baseSeq, rcvCurrSeq.trans tracks.rcvCurrSeq, loss, ?_,
        capacity, hint, hint_empty, span⟩
      intro index
      have outside : ¬ (w.base + (index : Int) ≤ hi) := by omega
      rw [content, ← tracks.held]
      cases slotAt r.slots index <;> simp [Option.filter, outside]

/-! ## Delivery -/

theorem slotAt_drop (slots : List (Option Slot)) (count index : Nat) :
    slotAt (slots.drop count) index = slotAt slots (count + index) := by
  unfold slotAt
  rw [List.getElem?_drop]

/-- No slot is occupied when the scan from the hint finds none. -/
theorem slotAt_eq_none_of_firstOccupied_eq_none
    (hint_empty : forall index, index < r.scanHint -> slotAt r.slots index = none)
    (nothing : r.firstOccupied = none) (index : Nat) : slotAt r.slots index = none := by
  by_cases below : index < r.scanHint
  · exact hint_empty index below
  · unfold firstOccupied at nothing
    rw [Option.map_eq_none_iff, List.findIdx?_eq_none_iff] at nothing
    have shifted : slotAt (r.slots.drop r.scanHint) (index - r.scanHint) = slotAt r.slots index := by
      rw [slotAt_drop]
      congr 1
      omega
    rw [← shifted]
    unfold slotAt
    cases entry : (r.slots.drop r.scanHint)[index - r.scanHint]? with
    | none => rfl
    | some content =>
        have clear := nothing content (List.mem_of_getElem? entry)
        simpa using clear

theorem slotAt_eq_none_of_nothingBuffered
    (hint_empty : forall index, index < r.scanHint -> slotAt r.slots index = none)
    (nothing : r.nothingBuffered = true) (index : Nat) : slotAt r.slots index = none := by
  apply slotAt_eq_none_of_firstOccupied_eq_none hint_empty
  unfold firstOccupied
  rw [Option.map_eq_none_iff, List.findIdx?_eq_none_iff]
  intro slot member
  have empty := List.all_eq_true.mp nothing slot member
  cases slot with
  | none => rfl
  | some _ => cases empty

/-- The scan from the hint finds the lowest occupied slot. -/
theorem firstOccupied_eq_some
    (hint_empty : forall index, index < r.scanHint -> slotAt r.slots index = none)
    {first : Nat} (found : r.firstOccupied = some first) :
    (Exists fun slot => slotAt r.slots first = some slot) ∧
      (forall index, index < first -> slotAt r.slots index = none) := by
  unfold firstOccupied at found
  rcases Option.map_eq_some_iff.mp found with ⟨offset, located, rfl⟩
  rcases List.findIdx?_eq_some_iff_getElem.mp located with ⟨inside, occupied, before⟩
  refine ⟨?_, ?_⟩
  · rcases Option.isSome_iff_exists.mp occupied with ⟨slot, content⟩
    refine ⟨slot, ?_⟩
    rw [← slotAt_drop]
    unfold slotAt
    rw [List.getElem?_eq_getElem inside, content]
    rfl
  · intro index below
    by_cases hinted : index < r.scanHint
    · exact hint_empty index hinted
    · have earlier := before (index - r.scanHint) (by omega)
      have shifted : r.scanHint + (index - r.scanHint) = index := by omega
      rw [← shifted, ← slotAt_drop]
      unfold slotAt
      rw [List.getElem?_eq_getElem (by omega)]
      simpa using earlier

theorem Tracks.skipHole (tracks : Tracks origin w r) {first : Nat} (positive : 0 < first)
    (ahead : w.base < w.base + first) (seen : w.base + first ≤ w.top + 1) :
    Tracks origin (w.skipTo (w.base + first) ahead seen)
      { r.skipHole first with scanHint := 0 } := by
  have span := tracks.span
  unfold Receiver.skipHole
  rw [if_pos positive]
  refine ⟨?_, tracks.rcvCurrSeq, ?_, ?_, ?_, Nat.zero_le _,
    fun _ below => absurd below (Nat.not_lt_zero _), ?_⟩
  · show r.baseSeq.add first = wire origin (w.base + first)
    rw [tracks.baseSeq, add_wire]
  · show removeLossRange r.baseSeq (r.baseSeq.add ((first : Int) - 1)) r.loss = _
    rw [tracks.loss, tracks.baseSeq, add_wire,
      removeLossRange_wire origin tracks.missing_inside ⟨by omega, by omega⟩
        ⟨by omega, by omega⟩]
    simp only [ReceiveWindow.skipTo, Int.add_sub_assoc]
  · intro index
    show slotAt (r.slots.drop first) index =
      if w.base + (first : Int) + index < w.base + first then none
      else w.held (w.base + first + index)
    rw [slotAt_drop, tracks.held, if_neg (by omega)]
    congr 1
    push_cast
    omega
  · show (r.slots.drop first).length ≤ r.cfg.bufferPkts
    have := tracks.capacity
    rw [List.length_drop]
    omega
  · show w.top ≤ w.base + first + 2 ^ 29
    omega

theorem Tracks.pop (tracks : Tracks origin w r) (present : (w.held w.base).isSome) :
    Tracks origin (w.pop present)
      { r with scanHint := 0, slots := r.slots.drop 1, baseSeq := r.baseSeq.next } where
  baseSeq := by
    show r.baseSeq.next = wire origin (w.base + 1)
    rw [tracks.baseSeq, next_wire]
  rcvCurrSeq := tracks.rcvCurrSeq
  loss := tracks.loss
  held := by
    intro index
    show slotAt (r.slots.drop 1) index =
      if w.base + 1 + (index : Int) < w.base + 1 then none else w.held (w.base + 1 + index)
    rw [slotAt_drop, tracks.held, if_neg (by omega)]
    congr 1
    push_cast
    omega
  capacity := by
    show (r.slots.drop 1).length ≤ r.cfg.bufferPkts
    have := tracks.capacity
    rw [List.length_drop]
    omega
  hint := Nat.zero_le _
  hint_empty := fun _ below => absurd below (Nat.not_lt_zero _)
  span := by
    have := tracks.span
    show w.top ≤ w.base + 1 + 2 ^ 29
    omega

/-- Skipping the holes below the first occupied slot and taking the slot out. -/
theorem Tracks.take (tracks : Tracks origin w r) {first : Nat} {slot : Slot}
    (lowest : w.First (w.base + first) slot) :
    Tracks origin (w.take lowest) (r.popSlot first) := by
  have bounds := w.bounded _ _ lowest.present
  unfold ReceiveWindow.take
  by_cases hole : w.base < w.base + first
  · rw [dif_pos hole]
    exact (tracks.skipHole (by omega) hole (by omega)).pop _
  · have zero : first = 0 := by omega
    subst zero
    rw [dif_neg hole]
    exact tracks.pop _

theorem Tracks.slotAt_of_held (tracks : Tracks origin w r) {point : Int} {slot : Slot}
    (present : w.held point = some slot) :
    Exists fun index : Nat => point = w.base + index ∧ slotAt r.slots index = some slot := by
  have bounds := w.bounded point slot present
  refine ⟨(point - w.base).toNat, by omega, ?_⟩
  rw [tracks.held, show w.base + ((point - w.base).toNat : Int) = point by omega, present]

theorem Tracks.held_eq_none_of_slots (tracks : Tracks origin w r)
    (nothing : forall index, slotAt r.slots index = none) (point : Int) :
    w.held point = none := by
  cases present : w.held point with
  | none => rfl
  | some slot =>
      rcases tracks.slotAt_of_held present with ⟨index, _, content⟩
      rw [nothing] at content
      exact absurd content (by simp)

theorem Tracks.first_of_slots (tracks : Tracks origin w r) {first : Nat} {slot : Slot}
    (content : slotAt r.slots first = some slot)
    (before : forall index, index < first -> slotAt r.slots index = none) :
    w.First (w.base + first) slot := by
  refine ⟨(tracks.held first).symm.trans content, ?_⟩
  intro point below
  cases present : w.held point with
  | none => rfl
  | some other =>
      rcases tracks.slotAt_of_held present with ⟨index, located, found⟩
      rw [before index (by omega)] at found
      exact absurd found (by simp)

/-- The slot's delivery deadline has been reached. -/
def Due (r : Receiver) (anchor : Anchor) (now : Instant) (slot : Slot) : Prop :=
  r.tsbpdDeadline anchor slot.extUs ≤ now

/-- Everything that dropping and delivering leave alone. -/
def outside (r : Receiver) : Receiver :=
  { r with
    baseSeq := r.cfg.initialSeq
    slots := []
    scanHint := 0
    rcvCurrSeq := r.cfg.initialSeq
    loss := []
    stats := {} }

theorem popSlot_outside (r : Receiver) (first : Nat) :
    (r.popSlot first).outside = r.outside := by
  unfold popSlot Receiver.skipHole
  split_ifs <;> rfl

theorem popSlot_pktsDropped (r : Receiver) (first : Nat) :
    (r.popSlot first).stats.pktsDropped = r.stats.pktsDropped + first := by
  unfold popSlot Receiver.skipHole
  split_ifs
  · rfl
  · show r.stats.pktsDropped = r.stats.pktsDropped + first
    omega

theorem popSlot_length (r : Receiver) (first : Nat) :
    (r.popSlot first).slots.length = r.slots.length - first - 1 := by
  unfold popSlot Receiver.skipHole
  split_ifs <;> simp <;> omega

theorem due_eq_of_outside_eq {other : Receiver} (same : other.outside = r.outside)
    (anchor : Anchor) (now : Instant) : other.Due anchor now = r.Due anchor now := by
  have deadline : other.outside.tsbpdDeadline = r.outside.tsbpdDeadline :=
    congrArg tsbpdDeadline same
  funext slot
  exact congrArg (fun deadline => deadline anchor slot.extUs ≤ now) deadline

theorem handleDropreq_outside (r : Receiver) (now : Instant) (msgNumber : MsgNumber)
    (first last : SeqNumber) :
    (r.handleDropreq now msgNumber first last).outside = r.outside := by
  unfold Receiver.handleDropreq
  dsimp only
  split_ifs <;> rfl

theorem handleDropreq_pktsDropped (r : Receiver) (now : Instant) (msgNumber : MsgNumber)
    (first last : SeqNumber) :
    (r.handleDropreq now msgNumber first last).stats.pktsDropped = r.stats.pktsDropped := by
  unfold Receiver.handleDropreq
  dsimp only
  split_ifs <;> rfl

theorem deliverLoop_outside (anchor : Anchor) (now : Instant) (turns : Nat) (r : Receiver) :
    (deliverLoop anchor now turns r).1.outside = r.outside := by
  induction turns generalizing r with
  | zero => rfl
  | succ turns ih =>
      unfold deliverLoop
      split
      · rfl
      · dsimp only
        split
        · rfl
        · split_ifs
          · rfl
          · rw [ih]
            exact popSlot_outside _ _
          · exact popSlot_outside _ _

/-- One turn of the loop at an occupied slot. -/
theorem deliverLoop_turn {anchor : Anchor} {now : Instant} {turns first : Nat} {slot : Slot}
    (found : r.firstOccupied = some first) (content : slotAt r.slots first = some slot) :
    deliverLoop anchor now (turns + 1) r =
      if now < r.tsbpdDeadline anchor slot.extUs then ({ r with scanHint := first }, none)
      else if slot.undecryptable then
        deliverLoop anchor now turns (({ r with scanHint := first }).popSlot first).countDropped
      else (({ r with scanHint := first }).popSlot first, some slot.payload) := by
  rw [deliverLoop, found]
  dsimp only
  rw [content]
  rfl

/-- The loop ends where nothing is stored. -/
theorem deliverLoop_none {anchor : Anchor} {now : Instant} {turns : Nat}
    (found : r.firstOccupied = none) :
    deliverLoop anchor now (turns + 1) r = ({ r with scanHint := r.slots.length }, none) := by
  rw [deliverLoop, found]

/-- The loop performs one release: enough turns are allowed for it to stop by
itself, and what it counts as dropped is what it passes over. -/
theorem Tracks.deliverLoop (tracks : Tracks origin w r) (anchor : Anchor) (now : Instant)
    {turns : Nat} (enough : r.slots.length < turns) :
    Exists fun out : Option Slot => Exists fun final : ReceiveWindow Slot =>
      ReceiveWindow.Release (r.Due anchor now) Slot.undecryptable w out final ∧
      Tracks origin final (deliverLoop anchor now turns r).1 ∧
      (deliverLoop anchor now turns r).2 = out.map Slot.payload ∧
      ((deliverLoop anchor now turns r).1.stats.pktsDropped : Int) + out.toList.length =
        r.stats.pktsDropped + (final.base - w.base) := by
  induction turns generalizing r w with
  | zero => omega
  | succ turns ih =>
      cases found : r.firstOccupied with
      | none =>
          have nothing := slotAt_eq_none_of_firstOccupied_eq_none tracks.hint_empty found
          rw [deliverLoop_none found]
          refine ⟨none, w, .empty (tracks.held_eq_none_of_slots nothing), ?_, rfl, by simp⟩
          exact ⟨tracks.baseSeq, tracks.rcvCurrSeq, tracks.loss, tracks.held, tracks.capacity,
            le_refl _, fun index _ => nothing index, tracks.span⟩
      | some first =>
          rcases firstOccupied_eq_some tracks.hint_empty found with ⟨⟨slot, content⟩, before⟩
          have lowest := tracks.first_of_slots content before
          have inside : first < r.slots.length := by
            by_contra past
            rw [slotAt_eq_none_of_length_le (not_lt.mp past)] at content
            exact absurd content (by simp)
          have hinted : Tracks origin w { r with scanHint := first } :=
            ⟨tracks.baseSeq, tracks.rcvCurrSeq, tracks.loss, tracks.held, tracks.capacity,
              le_of_lt inside, before, tracks.span⟩
          have taken := hinted.take lowest
          have counted := popSlot_pktsDropped { r with scanHint := first } first
          have shorter := popSlot_length { r with scanHint := first } first
          have alike : (({ r with scanHint := first }).popSlot first).outside = r.outside :=
            popSlot_outside _ _
          have based := w.take_base lowest
          rw [deliverLoop_turn found content]
          generalize ({ r with scanHint := first }).popSlot first = popped at *
          dsimp only at counted shorter
          by_cases early : now < r.tsbpdDeadline anchor slot.extUs
          · rw [if_pos early]
            exact ⟨none, w, .early lowest (not_le.mpr early), hinted, rfl, by simp⟩
          rw [if_neg early]
          have isDue : r.Due anchor now slot := not_lt.mp early
          cases concealed : slot.undecryptable with
          | false =>
              refine ⟨some slot, w.take lowest, .give lowest isDue concealed, taken,
                rfl, ?_⟩
              simp only [Bool.false_eq_true, if_false, Option.toList_some, List.length_singleton]
              omega
          | true =>
              have enough' : popped.countDropped.slots.length < turns := by
                show popped.slots.length < turns
                omega
              have freed : Tracks origin (w.take lowest) popped.countDropped :=
                { taken with }
              rcases ih freed enough' with
                ⟨out, final, release, tracked, payload, conserved⟩
              have same : popped.countDropped.Due anchor now = r.Due anchor now :=
                due_eq_of_outside_eq alike anchor now
              rw [same] at release
              rw [if_pos rfl]
              refine ⟨out, final, .free lowest isDue concealed release, tracked,
                payload, ?_⟩
              have stats : popped.countDropped.stats.pktsDropped = popped.stats.pktsDropped + 1 :=
                rfl
              omega

/-- A request for the next payload performs one release. -/
theorem Tracks.pollDeliver (tracks : Tracks origin w r) (now : Instant) :
    Exists fun out : Option Slot => Exists fun final : ReceiveWindow Slot =>
      (match r.anchor with
       | none => out = none ∧ final = w
       | some anchor =>
          ReceiveWindow.Release (r.Due anchor now) Slot.undecryptable w out final) ∧
      Tracks origin final (r.pollDeliver now).1 ∧
      (r.pollDeliver now).2 = out.map Slot.payload ∧
      ((r.pollDeliver now).1.stats.pktsDropped : Int) + out.toList.length =
        r.stats.pktsDropped + (final.base - w.base) := by
  unfold Receiver.pollDeliver
  cases r.anchor with
  | none => exact ⟨none, w, ⟨rfl, rfl⟩, tracks, rfl, by simp⟩
  | some anchor => exact tracks.deliverLoop anchor now (Nat.lt_succ_self _)

theorem pollDeliver_outside (r : Receiver) (now : Instant) :
    (r.pollDeliver now).1.outside = r.outside := by
  unfold Receiver.pollDeliver
  split
  · rfl
  · exact deliverLoop_outside _ _ _ _

end Tracking

end Receiver
end Rsrt

import Rsrt.Packet.HandshakeCodec

namespace Rsrt

open Rsrt.Basis

/-!
# Codec of control packets

The kind of an ACK is determined by the length of its CIF alone, and a loss list is read word
by word, a range as a pair of words with the top bit of the first one set.  Bytes that are
not a whole word at the end of either are ignored.
-/

/-! ## Acknowledgements -/

def parseAckCif (cif : Bytes) : Parsed AckCif :=
  -- Light ACK.
  if cif.length = 4 then do
    let lastAckSeq <- readU32 cif 0
    return { lastAckSeq := SeqNumber.new lastAckSeq }
  else if cif.length < 16 then reject (.badCif "ACK CIF shorter than 4 words")
  else do
    let words := cif.length / 4
    let lastAckSeq <- readU32 cif 0
    let rttUs <- readU32 cif 4
    let rttVarUs <- readU32 cif 8
    let availBufPkts <- readU32 cif 12
    let ack : AckCif :=
      { lastAckSeq := SeqNumber.new lastAckSeq
        rttUs := some rttUs
        rttVarUs := some rttVarUs
        availBufPkts := some availBufPkts }
    -- Rate and capacity come as a pair.
    let ack <-
      if 6 ≤ words then do
        let recvRatePkts <- readU32 cif 16
        let linkCapacityPkts <- readU32 cif 20
        pure { ack with recvRatePkts := some recvRatePkts, linkCapacityPkts := some linkCapacityPkts }
      else pure ack
    if 7 ≤ words then do
      let recvRateBytes <- readU32 cif 24
      return { ack with recvRateBytes := some recvRateBytes }
    else return ack

/-- The fields up to the first one that is missing. -/
def putPresent : List (Option Nat) -> Bytes
  | some value :: fields => putU32 value ++ putPresent fields
  | _ => []

def encodeAckCif (cif : AckCif) : Bytes :=
  putU32 cif.lastAckSeq.value ++
    putPresent [cif.rttUs, cif.rttVarUs, cif.availBufPkts, cif.recvRatePkts, cif.linkCapacityPkts,
      cif.recvRateBytes]

namespace AckCif

/-- The fields after the sequence are those of a light ACK, a small one, or a full one of 24
or 28 bytes. -/
inductive Shaped : AckCif -> Prop
  | light (lastAckSeq : SeqNumber) : Shaped { lastAckSeq }
  | small (lastAckSeq : SeqNumber) {rtt rttVar avail : Nat} (rttFits : rtt < 2 ^ 32)
      (rttVarFits : rttVar < 2 ^ 32) (availFits : avail < 2 ^ 32) :
      Shaped { lastAckSeq, rttUs := some rtt, rttVarUs := some rttVar, availBufPkts := some avail }
  | full (lastAckSeq : SeqNumber) {rtt rttVar avail rate capacity : Nat} (rttFits : rtt < 2 ^ 32)
      (rttVarFits : rttVar < 2 ^ 32) (availFits : avail < 2 ^ 32) (rateFits : rate < 2 ^ 32)
      (capacityFits : capacity < 2 ^ 32) :
      Shaped
        { lastAckSeq, rttUs := some rtt, rttVarUs := some rttVar, availBufPkts := some avail
          recvRatePkts := some rate, linkCapacityPkts := some capacity }
  | bytes (lastAckSeq : SeqNumber) {rtt rttVar avail rate capacity byteRate : Nat}
      (rttFits : rtt < 2 ^ 32) (rttVarFits : rttVar < 2 ^ 32) (availFits : avail < 2 ^ 32)
      (rateFits : rate < 2 ^ 32) (capacityFits : capacity < 2 ^ 32) (bytesFit : byteRate < 2 ^ 32) :
      Shaped
        { lastAckSeq, rttUs := some rtt, rttVarUs := some rttVar, availBufPkts := some avail
          recvRatePkts := some rate, linkCapacityPkts := some capacity
          recvRateBytes := some byteRate }

end AckCif

theorem parseAckCif_encodeAckCif {cif : AckCif} (shaped : cif.Shaped) :
    parseAckCif (encodeAckCif cif) = .ok cif := by
  have sequence (seq : SeqNumber) : seq.value < 2 ^ 32 := lt_trans seq.value_lt (by decide)
  unfold parseAckCif encodeAckCif
  cases shaped with
  | light last =>
      simp only [putPresent, List.append_nil, length_putU32, if_pos,
        readU32_putU32_last (sequence last), Reading.ok_bind, SeqNumber.new_value]
      rfl
  | small last rtt rttVar avail =>
      simp only [putPresent, List.append_nil, List.length_append, length_putU32,
        readU32_after_putU32, readU32_putU32 (sequence last), readU32_putU32 rtt,
        readU32_putU32 rttVar, readU32_putU32_last avail, Reading.ok_bind, SeqNumber.new_value]
      rfl
  | full last rtt rttVar avail rate capacity =>
      simp only [putPresent, List.append_nil, List.length_append, length_putU32,
        readU32_after_putU32, readU32_putU32 (sequence last), readU32_putU32 rtt,
        readU32_putU32 rttVar, readU32_putU32 avail, readU32_putU32 rate,
        readU32_putU32_last capacity, Reading.ok_bind, SeqNumber.new_value]
      rfl
  | bytes last rtt rttVar avail rate capacity bytes =>
      simp only [putPresent, List.append_nil, List.length_append, length_putU32,
        readU32_after_putU32, readU32_putU32 (sequence last), readU32_putU32 rtt,
        readU32_putU32 rttVar, readU32_putU32 avail, readU32_putU32 rate, readU32_putU32 capacity,
        readU32_putU32_last bytes, Reading.ok_bind, SeqNumber.new_value]
      rfl

theorem parseAckCif_cases (cif : Bytes) :
    (Exists fun err => parseAckCif cif = reject err) ∨
      Exists fun ack : AckCif => parseAckCif cif = .ok ack ∧ ack.Shaped := by
  unfold parseAckCif
  split_ifs with light short
  · rcases readU32_ok (by omega : 0 + 4 ≤ cif.length) with ⟨last, read0, _⟩
    rw [read0]
    exact Or.inr ⟨_, rfl, .light _⟩
  · exact Or.inl ⟨_, rfl⟩
  · rcases readU32_ok (by omega : 0 + 4 ≤ cif.length) with ⟨last, read0, _⟩
    rcases readU32_ok (by omega : 4 + 4 ≤ cif.length) with ⟨rtt, read4, small4⟩
    rcases readU32_ok (by omega : 8 + 4 ≤ cif.length) with ⟨rttVar, read8, small8⟩
    rcases readU32_ok (by omega : 12 + 4 ≤ cif.length) with ⟨avail, read12, small12⟩
    rw [read0, read4, read8, read12]
    simp only [Reading.ok_bind]
    by_cases six : 6 ≤ cif.length / 4
    · rcases readU32_ok (by omega : 16 + 4 ≤ cif.length) with ⟨rate, read16, small16⟩
      rcases readU32_ok (by omega : 20 + 4 ≤ cif.length) with ⟨capacity, read20, small20⟩
      rw [if_pos six, read16, read20]
      simp only [Reading.ok_bind, Reading.pure_bind]
      by_cases seven : 7 ≤ cif.length / 4
      · rcases readU32_ok (by omega : 24 + 4 ≤ cif.length) with ⟨bytes, read24, small24⟩
        rw [if_pos seven, read24]
        exact Or.inr ⟨_, rfl, .bytes _ small4 small8 small12 small16 small20 small24⟩
      · rw [if_neg seven]
        exact Or.inr ⟨_, rfl, .full _ small4 small8 small12 small16 small20⟩
    · rw [if_neg six, Reading.pure_bind, if_neg (by omega)]
      exact Or.inr ⟨_, rfl, .small _ small4 small8 small12⟩

/-! ## Loss lists -/

/-- Marks the first word of a range. -/
def nakRangeFlag : Nat := 0x80000000

/-- One single loss or range, from word `i` on. -/
def lossStep (cif : Bytes) (words i : Nat) : Parsed (Option (LossRange × Nat)) :=
  if i < words then do
    let word <- readU32 cif (i * 4)
    if word &&& nakRangeFlag ≠ 0 then
      if words ≤ i + 1 then reject (.badCif "NAK range missing end word")
      else do
        let first := SeqNumber.new word
        let last := SeqNumber.new (<- readU32 cif ((i + 1) * 4))
        if 0 < first.diff last then reject (.badCif "NAK range start after end")
        else return some ({ first, last }, i + 2)
    else
      let seq := SeqNumber.new word
      return some ({ first := seq, last := seq }, i + 1)
  else return none

def parseLossList (cif : Bytes) : Parsed (List LossRange) :=
  let words := cif.length / 4
  if words = 0 then reject (.badCif "empty NAK loss list")
  else Reading.loop (lossStep cif words) (words + 1) 0

def encodeLossRange (range : LossRange) : Bytes :=
  if range.first = range.last then putU32 range.first.value
  else putU32 (range.first.value ||| nakRangeFlag) ++ putU32 range.last.value

def encodeLossList (list : List LossRange) : Bytes :=
  list.flatMap encodeLossRange

/-- The start is not after the end. -/
def LossRange.Ordered (range : LossRange) : Prop :=
  range.first.diff range.last ≤ 0

theorem or_nakRangeFlag (seq : SeqNumber) : seq.value ||| nakRangeFlag = 2 ^ 31 + seq.value := by
  have joined : 1 <<< 31 ||| seq.value = 1 * 2 ^ 31 + seq.value := shiftLeft_or 1 seq.value_lt
  rw [Nat.lor_comm, Nat.one_mul] at joined
  exact joined

theorem and_nakRangeFlag (word : Nat) : word &&& nakRangeFlag ≠ 0 ↔ word / 2 ^ 31 % 2 = 1 :=
  and_two_pow_ne_zero word 31

/-- What the words of one range are read as. -/
theorem lossStep_encode {range : LossRange} (ordered : range.Ordered) (before rest : Bytes)
    {i words : Nat} (here : before.length = i * 4)
    (total : i + (encodeLossRange range ++ rest).length / 4 = words) :
    lossStep (before ++ (encodeLossRange range ++ rest)) words i =
      .ok (some (range, i + (encodeLossRange range).length / 4)) := by
  rcases range with ⟨first, last⟩
  have start := first.value_lt
  have skip (off : Nat) (further : i * 4 ≤ off) (bytes : Bytes) :
      readU32 (before ++ bytes) off = readU32 bytes (off - i * 4) := by
    unfold readU32
    rw [Reading.readWord_skip (by omega), here]
  unfold lossStep
  unfold encodeLossRange at total ⊢
  by_cases single : first = last
  · subst single
    simp only [if_true, List.length_append, length_putU32] at total ⊢
    rw [if_pos (by omega), skip _ (le_refl _), Nat.sub_self,
      readU32_putU32 (lt_trans start (by decide)), Reading.ok_bind,
      if_neg (by rw [and_nakRangeFlag]; omega), SeqNumber.new_value]
    rfl
  · simp only [if_neg single, List.length_append, List.append_assoc, length_putU32] at total ⊢
    have masked : SeqNumber.new (2 ^ 31 + first.value) = first := by
      have same : SeqNumber.new (2 ^ 31 + first.value) = SeqNumber.new first.value := by
        unfold SeqNumber.new
        rw [SeqNumber.mk.injEq, Nat.add_mod_left]
      rw [same, SeqNumber.new_value]
    rw [if_pos (by omega), skip _ (le_refl _), Nat.sub_self, or_nakRangeFlag,
      readU32_putU32 (by omega), Reading.ok_bind, if_pos (by rw [and_nakRangeFlag]; omega),
      if_neg (by omega), skip _ (by omega), (by omega : (i + 1) * 4 - i * 4 = 0 + 4),
      readU32_after_putU32, readU32_putU32 (lt_trans last.value_lt (by decide)), Reading.ok_bind,
      masked, SeqNumber.new_value, if_neg (not_lt.mpr ordered)]
    rfl

theorem length_encodeLossRange (range : LossRange) :
    (encodeLossRange range).length = 4 ∨ (encodeLossRange range).length = 8 := by
  unfold encodeLossRange
  split_ifs
  · exact Or.inl (length_putU32 _)
  · right
    rw [List.length_append, length_putU32, length_putU32]

/-- A loss list is written in whole words, at least one for each range. -/
theorem length_encodeLossList (list : List LossRange) :
    list.length ≤ (encodeLossList list).length / 4 ∧ (encodeLossList list).length % 4 = 0 := by
  unfold encodeLossList
  induction list with
  | nil => exact ⟨Nat.le_refl _, rfl⟩
  | cons range list ih =>
      rw [List.flatMap_cons, List.length_append, List.length_cons]
      rcases length_encodeLossRange range with single | double
      · omega
      · omega

/-- Parsing undoes encoding. -/
theorem parseLossList_encodeLossList {list : List LossRange} (nonempty : list ≠ [])
    (ordered : forall range, range ∈ list -> range.Ordered) :
    parseLossList (encodeLossList list) = .ok list := by
  have loops (words : Nat) (before : Bytes) (i fuel : Nat) (here : before.length = i * 4)
      (total : i + (encodeLossList list).length / 4 = words) (enough : list.length ≤ fuel) :
      Reading.loop (lossStep (before ++ encodeLossList list) words) (fuel + 1) i = .ok list := by
    clear nonempty
    induction list generalizing before i fuel with
    | nil =>
        apply Reading.loop_done
        unfold lossStep
        rw [if_neg (by rw [← total]; exact Nat.lt_irrefl i)]
        rfl
    | cons range list ih =>
        have whole : encodeLossList (range :: list) = encodeLossRange range ++ encodeLossList list :=
          List.flatMap_cons
        have first := ordered range List.mem_cons_self
        have rest := length_encodeLossList list
        cases fuel with
        | zero => cases enough
        | succ fuel =>
            rw [whole] at total ⊢
            have length : (encodeLossRange range ++ encodeLossList list).length = _ :=
              List.length_append
            have size := length_encodeLossRange range
            rw [Reading.loop_next (lossStep_encode first before _ here total), ← List.append_assoc,
              ih (fun other later => ordered other (List.mem_cons_of_mem _ later))
                (before ++ encodeLossRange range) (i + (encodeLossRange range).length / 4) fuel]
            · rfl
            · rw [List.length_append]
              omega
            · omega
            · exact Nat.le_of_succ_le_succ enough
  have some : 0 < list.length := List.length_pos_iff.mpr nonempty
  have size := length_encodeLossList list
  unfold parseLossList
  dsimp only
  rw [if_neg (by omega)]
  exact loops _ [] 0 _ rfl (Nat.zero_add _) size.1

/-- What one iteration does: the list is used up, it is refused, or one or two words are
taken. -/
theorem lossStep_cases {cif : Bytes} {words : Nat} (inside : words * 4 ≤ cif.length) (i : Nat) :
    (words ≤ i ∧ lossStep cif words i = .ok none) ∨
      (Exists fun err => lossStep cif words i = reject err) ∨
      Exists fun range : LossRange => Exists fun after =>
        lossStep cif words i = .ok (some (range, after)) ∧ i < words ∧
          i * 4 + 4 ≤ after * 4 ∧ range.Ordered := by
  unfold lossStep
  by_cases more : i < words
  · rcases readU32_ok (by omega : i * 4 + 4 ≤ cif.length) with ⟨word, read, _⟩
    rw [if_pos more, read, Reading.ok_bind]
    by_cases flagged : word &&& nakRangeFlag ≠ 0
    · rw [if_pos flagged]
      by_cases missing : words ≤ i + 1
      · rw [if_pos missing]
        exact Or.inr (Or.inl ⟨_, rfl⟩)
      · rcases readU32_ok (by omega : (i + 1) * 4 + 4 ≤ cif.length) with ⟨other, next, _⟩
        rw [if_neg missing, next, Reading.ok_bind]
        dsimp only
        split_ifs with wrong
        · exact Or.inr (Or.inl ⟨_, rfl⟩)
        · exact Or.inr (Or.inr ⟨_, _, rfl, more, by omega, not_lt.mp wrong⟩)
    · rw [if_neg flagged]
      refine Or.inr (Or.inr ⟨_, _, rfl, more, by omega, ?_⟩)
      unfold LossRange.Ordered
      rw [SeqNumber.diff_self]
  · rw [if_neg more]
    exact Or.inl ⟨not_lt.mp more, rfl⟩

/-- The loop goes on while there are words. -/
theorem lossStep_ne_none {cif : Bytes} {words i : Nat} (inside : words * 4 ≤ cif.length)
    (more : i < words) : lossStep cif words i ≠ .ok none := by
  intro ended
  rcases lossStep_cases inside i with ⟨past, _⟩ | ⟨err, refused⟩ | ⟨range, after, moved, _⟩
  · omega
  · rw [refused] at ended
    cases ended
  · rw [moved] at ended
    cases ended

theorem lossStep_safe {cif : Bytes} {words : Nat} (inside : words * 4 ≤ cif.length) (i : Nat) :
    (lossStep cif words i).Safe := by
  rcases lossStep_cases inside i with ⟨_, ended⟩ | ⟨err, refused⟩ | ⟨range, after, moved, _⟩
  · rw [ended]
    exact .ok _
  · rw [refused]
    exact .rejected err
  · rw [moved]
    exact .ok _

/-- Every iteration consumes at least the four bytes of a word. -/
theorem lossStep_consumes {cif : Bytes} {words : Nat} (inside : words * 4 ≤ cif.length)
    {i after : Nat} {range : LossRange} (moved : lossStep cif words i = .ok (some (range, after))) :
    i < words ∧ i * 4 + 4 ≤ after * 4 ∧ range.Ordered := by
  rcases lossStep_cases inside i with ⟨_, ended⟩ | ⟨err, refused⟩ | ⟨range, after, again, facts⟩
  · rw [ended] at moved
    cases moved
  · rw [refused] at moved
    cases moved
  · rw [again] at moved
    cases moved
    exact facts

theorem parseLossList_cases (cif : Bytes) :
    (Exists fun err => parseLossList cif = reject err) ∨
      Exists fun list => parseLossList cif = .ok list ∧ list ≠ [] ∧
        forall range, range ∈ list -> range.Ordered := by
  have inside : cif.length / 4 * 4 ≤ cif.length := Nat.div_mul_le_self _ _
  unfold parseLossList
  dsimp only
  split_ifs with empty
  · exact Or.inl ⟨_, rfl⟩
  · have safe : (Reading.loop (lossStep cif (cif.length / 4)) (cif.length / 4 + 1) 0).Safe := by
      apply Reading.loop_safe (fun i => cif.length / 4 - i) (lossStep_safe inside)
      · intro i range after moved
        rcases lossStep_consumes inside moved with ⟨more, consumed, _⟩
        omega
      · omega
    rcases safe with ⟨list, ended⟩ | ⟨err, refused⟩
    · refine Or.inr ⟨list, ended, ?_, ?_⟩
      · intro none
        subst none
        rw [Reading.loop] at ended
        rcases Reading.of_bind ended with ⟨outcome, found, rest⟩
        cases outcome with
        | some pair =>
            rcases Reading.of_bind rest with ⟨tail, _, whole⟩
            cases whole
        | none => exact absurd found (lossStep_ne_none inside (by omega))
      · exact Reading.loop_forall LossRange.Ordered
          (fun _ _ _ moved => (lossStep_consumes inside moved).2.2) ended
    · exact Or.inl ⟨err, refused⟩

/-! ## Control packets -/

namespace ControlType

/-- The 15-bit type code. -/
def typeCode : ControlType -> Nat
  | handshake _ => 0x0000
  | keepAlive => 0x0001
  | ack _ _ => 0x0002
  | nak _ => 0x0003
  | congestionWarning => 0x0004
  | shutdown => 0x0005
  | ackAck _ => 0x0006
  | dropRequest _ _ _ => 0x0007
  | peerError _ => 0x0008
  | kmReq _ => 0x7FFF
  | kmRsp _ => 0x7FFF

/-- The extended type of key material, zero for standard types. -/
def subtype : ControlType -> Nat
  | kmReq _ => srtCmdKmreq
  | kmRsp _ => srtCmdKmrsp
  | _ => 0

/-- The second header word. -/
def typeSpecificInfo : ControlType -> Nat
  | ack ackNumber _ => ackNumber
  | ackAck ackNumber => ackNumber
  | dropRequest msgNumber _ _ => msgNumber.value
  | peerError code => code
  | _ => 0

/-- Types without a CIF carry a pad word. -/
def encodeCif : ControlType -> Bytes
  | handshake cif => cif.encodeCif
  | ack _ cif => encodeAckCif cif
  | nak ranges => encodeLossList ranges
  | dropRequest _ first last => putU32 first.value ++ putU32 last.value
  | kmReq payload => payload
  | kmRsp payload => payload
  | keepAlive => putU32 0
  | congestionWarning => putU32 0
  | shutdown => putU32 0
  | ackAck _ => putU32 0
  | peerError _ => putU32 0

def parse (typeCode subtype info : Nat) (cif : Bytes) : Parsed ControlType :=
  match typeCode with
  | 0x0000 => do return handshake (<- HandshakeCif.parseCif cif)
  -- Any CIF of a type without one is ignored.
  | 0x0001 => return keepAlive
  | 0x0002 => do return ack info (<- parseAckCif cif)
  | 0x0003 => do return nak (<- parseLossList cif)
  | 0x0004 => return congestionWarning
  | 0x0005 => return shutdown
  | 0x0006 => return ackAck info
  | 0x0007 =>
      if cif.length < 8 then reject (.badCif "DROPREQ CIF shorter than 2 words")
      else do
        let first <- readU32 cif 0
        let last <- readU32 cif 4
        return dropRequest (MsgNumber.new info) (SeqNumber.new first) (SeqNumber.new last)
  | 0x0008 => return peerError info
  | 0x7FFF =>
      if subtype = srtCmdKmreq then return kmReq cif
      else if subtype = srtCmdKmrsp then return kmRsp cif
      else reject (.unknownControlType subtype)
  | other => reject (.unknownControlType other)

/-- The type is a value of the source's type. -/
def Typed : ControlType -> Prop
  | handshake cif => cif.Typed
  | ack ackNumber _ => ackNumber < 2 ^ 32
  | ackAck ackNumber => ackNumber < 2 ^ 32
  | peerError code => code < 2 ^ 32
  | _ => True

/-- The CIF is as the parser leaves it, up to the lengths of strings. -/
def Shaped : ControlType -> Prop
  | handshake cif => cif.Shaped
  | ack _ cif => cif.Shaped
  | nak ranges => ranges ≠ [] ∧ forall range, range ∈ ranges -> range.Ordered
  | _ => True

/-- The Extension Field of a handshake is the one that its blocks imply. -/
def Consistent : ControlType -> Prop
  | handshake cif => cif.Consistent
  | _ => True

/-- The strings of a handshake have lengths that the parser takes back. -/
def Fits : ControlType -> Prop
  | handshake cif => cif.Fits
  | _ => True

theorem typeCode_lt (self : ControlType) : self.typeCode < 2 ^ 15 := by
  cases self <;> simp [typeCode]

theorem subtype_lt (self : ControlType) : self.subtype < 2 ^ 16 := by
  cases self <;> simp [subtype, srtCmdKmreq, srtCmdKmrsp]

theorem typeSpecificInfo_lt {self : ControlType} (typed : self.Typed) :
    self.typeSpecificInfo < 2 ^ 32 := by
  cases self with
  | ack ackNumber cif => exact typed
  | ackAck ackNumber => exact typed
  | peerError code => exact typed
  | dropRequest msgNumber first last => exact lt_trans msgNumber.value_lt (by decide)
  | _ => exact Nat.two_pow_pos 32

/-- Parsing undoes encoding, up to what becomes of a handshake. -/
theorem parse_encodeCif {self : ControlType} (shaped : self.Shaped)
    (handshakes : forall cif, self = handshake cif -> HandshakeCif.parseCif cif.encodeCif = .ok cif) :
    parse self.typeCode self.subtype self.typeSpecificInfo self.encodeCif = .ok self := by
  cases self with
  | handshake cif =>
      change (do return handshake (<- HandshakeCif.parseCif cif.encodeCif)) = _
      rw [handshakes cif rfl]
      rfl
  | ack ackNumber cif =>
      change (do return ack ackNumber (<- parseAckCif (encodeAckCif cif))) = _
      rw [parseAckCif_encodeAckCif shaped]
      rfl
  | nak ranges =>
      change (do return nak (<- parseLossList (encodeLossList ranges))) = _
      rw [parseLossList_encodeLossList shaped.1 shaped.2]
      rfl
  | dropRequest msgNumber first last =>
      have sequence (seq : SeqNumber) : seq.value < 2 ^ 32 := lt_trans seq.value_lt (by decide)
      change (if (putU32 first.value ++ putU32 last.value).length < 8 then
        reject (.badCif "DROPREQ CIF shorter than 2 words") else do
        let firstWord <- readU32 (putU32 first.value ++ putU32 last.value) 0
        let lastWord <- readU32 (putU32 first.value ++ putU32 last.value) (0 + 4)
        return dropRequest (MsgNumber.new msgNumber.value) (SeqNumber.new firstWord)
          (SeqNumber.new lastWord)) = _
      rw [if_neg (by rw [List.length_append, length_putU32, length_putU32]; decide),
        readU32_putU32 (sequence first), readU32_after_putU32, readU32_putU32_last (sequence last)]
      simp only [Reading.ok_bind, MsgNumber.new_value, SeqNumber.new_value]
      rfl
  | keepAlive => rfl
  | congestionWarning => rfl
  | shutdown => rfl
  | ackAck ackNumber => rfl
  | peerError code => rfl
  | kmReq payload => rfl
  | kmRsp payload => rfl

/-- What the parser makes of a CIF. -/
theorem parse_cases (typeCode subtype : Nat) {info : Nat} (small : info < 2 ^ 32) (cif : Bytes) :
    (Exists fun err => parse typeCode subtype info cif = reject err) ∨
      Exists fun self : ControlType =>
        parse typeCode subtype info cif = .ok self ∧ self.Typed ∧ self.Shaped := by
  unfold parse
  split
  · rcases HandshakeCif.parseCif_cases cif with ⟨err, refused⟩ | ⟨parsed, read, typed, shaped⟩
    · rw [refused]
      exact Or.inl ⟨err, rfl⟩
    · rw [read]
      exact Or.inr ⟨_, rfl, typed, shaped⟩
  · exact Or.inr ⟨_, rfl, trivial, trivial⟩
  · rcases parseAckCif_cases cif with ⟨err, refused⟩ | ⟨parsed, read, shaped⟩
    · rw [refused]
      exact Or.inl ⟨err, rfl⟩
    · rw [read]
      exact Or.inr ⟨_, rfl, small, shaped⟩
  · rcases parseLossList_cases cif with ⟨err, refused⟩ | ⟨parsed, read, shaped⟩
    · rw [refused]
      exact Or.inl ⟨err, rfl⟩
    · rw [read]
      exact Or.inr ⟨_, rfl, trivial, shaped⟩
  · exact Or.inr ⟨_, rfl, trivial, trivial⟩
  · exact Or.inr ⟨_, rfl, trivial, trivial⟩
  · exact Or.inr ⟨_, rfl, small, trivial⟩
  · split_ifs with short
    · exact Or.inl ⟨_, rfl⟩
    · rcases readU32_ok (by omega : 0 + 4 ≤ cif.length) with ⟨first, read0, _⟩
      rcases readU32_ok (by omega : 4 + 4 ≤ cif.length) with ⟨last, read4, _⟩
      rw [read0, read4]
      exact Or.inr ⟨_, rfl, trivial, trivial⟩
  · exact Or.inr ⟨_, rfl, small, trivial⟩
  · split_ifs
    · exact Or.inr ⟨_, rfl, trivial, trivial⟩
    · exact Or.inr ⟨_, rfl, trivial, trivial⟩
    · exact Or.inl ⟨_, rfl⟩
  · exact Or.inl ⟨_, rfl⟩

end ControlType

namespace ControlPacket

def parse (buf : Bytes) : Parsed ControlPacket :=
  if buf.length < headerSize then reject .tooShort
  else do
    let word0 <- readU32 buf 0
    let typeCode := (word0 >>> 16) &&& 0x7FFF
    -- Only key material reads the subtype.
    let subtype := word0 &&& 0xFFFF
    let info <- readU32 buf 4
    let cif <- Reading.sliceFrom buf headerSize
    let controlType <- ControlType.parse typeCode subtype info cif
    let timestamp <- readU32 buf 8
    let dstSocketId <- readU32 buf 12
    return {
      timestamp := ⟨UInt32.ofNat timestamp⟩
      dstSocketId := ⟨UInt32.ofNat dstSocketId⟩
      controlType := controlType }

/-- The first header word. -/
def word0 (self : ControlPacket) : Nat :=
  0x80000000 ||| self.controlType.typeCode <<< 16 ||| self.controlType.subtype

def encode (self : ControlPacket) : Bytes :=
  putU32 self.word0 ++ (putU32 self.controlType.typeSpecificInfo ++
    (putU32 self.timestamp.micros.toNat ++ (putU32 self.dstSocketId.value.toNat ++
      self.controlType.encodeCif)))

theorem word0_eq (self : ControlPacket) :
    self.word0 = 2 ^ 31 + (self.controlType.typeCode * 2 ^ 16 + self.controlType.subtype) := by
  have code := self.controlType.typeCode_lt
  have inner := shiftLeft_or self.controlType.typeCode self.controlType.subtype_lt
  have outer : 1 <<< 31 ||| (self.controlType.typeCode * 2 ^ 16 + self.controlType.subtype) =
      1 * 2 ^ 31 + (self.controlType.typeCode * 2 ^ 16 + self.controlType.subtype) := by
    apply shiftLeft_or
    have sub := self.controlType.subtype_lt
    omega
  rw [Nat.one_mul] at outer
  unfold word0
  rw [Nat.lor_assoc, inner]
  exact outer

theorem word0_typeCode (self : ControlPacket) :
    self.word0 >>> 16 &&& 0x7FFF = self.controlType.typeCode := by
  have code := self.controlType.typeCode_lt
  have sub := self.controlType.subtype_lt
  have word := word0_eq self
  rw [(Nat.and_two_pow_sub_one_eq_mod _ 15 : _ &&& 0x7FFF = _ % 2 ^ 15),
    Nat.shiftRight_eq_div_pow]
  omega

theorem word0_subtype (self : ControlPacket) :
    self.word0 &&& 0xFFFF = self.controlType.subtype := by
  have sub := self.controlType.subtype_lt
  have word := word0_eq self
  rw [(Nat.and_two_pow_sub_one_eq_mod _ 16 : _ &&& 0xFFFF = _ % 2 ^ 16)]
  omega

theorem word0_lt (self : ControlPacket) : self.word0 < 2 ^ 32 := by
  have code := self.controlType.typeCode_lt
  have sub := self.controlType.subtype_lt
  have word := word0_eq self
  omega

/-- Parsing undoes encoding, up to what becomes of the CIF. -/
theorem parse_encode_eq {self : ControlPacket} (typed : self.controlType.Typed) :
    parse self.encode = do
      let controlType <- ControlType.parse self.controlType.typeCode self.controlType.subtype
        self.controlType.typeSpecificInfo self.controlType.encodeCif
      return { self with controlType := controlType } := by
  have long : headerSize ≤ self.encode.length := by
    unfold encode
    simp only [List.length_append, length_putU32]
    change 16 ≤ _
    omega
  have cif : self.encode.drop headerSize = self.controlType.encodeCif := by
    unfold encode
    simp [headerSize]
  unfold parse
  rw [if_neg (Nat.not_lt.mpr long), Reading.sliceFrom_ok long, cif]
  unfold encode
  simp only [readU32_after_putU32, readU32_putU32 self.word0_lt,
    readU32_putU32 (ControlType.typeSpecificInfo_lt typed),
    readU32_putU32 self.timestamp.micros.toNat_lt, readU32_putU32 self.dstSocketId.value.toNat_lt,
    Reading.ok_bind, self.word0_typeCode, self.word0_subtype, UInt32.ofNat_toNat]

/-- What the parser makes of a datagram. -/
theorem parse_cases (buf : Bytes) :
    (Exists fun err => parse buf = reject err) ∨
      Exists fun self : ControlPacket =>
        parse buf = .ok self ∧ self.controlType.Typed ∧ self.controlType.Shaped := by
  unfold parse
  split_ifs with short
  · exact Or.inl ⟨_, rfl⟩
  · have long : 16 ≤ buf.length := Nat.not_lt.mp short
    rcases readU32_ok (by omega : 0 + 4 ≤ buf.length) with ⟨word0, read0, _⟩
    rcases readU32_ok (by omega : 4 + 4 ≤ buf.length) with ⟨info, read4, small⟩
    rcases readU32_ok (by omega : 8 + 4 ≤ buf.length) with ⟨timestamp, read8, _⟩
    rcases readU32_ok (by omega : 12 + 4 ≤ buf.length) with ⟨dstSocketId, read12, _⟩
    rw [read0, read4, read8, read12, Reading.sliceFrom_ok long]
    simp only [Reading.ok_bind]
    rcases ControlType.parse_cases (word0 >>> 16 &&& 0x7FFF) (word0 &&& 0xFFFF) small
        (buf.drop headerSize) with ⟨err, refused⟩ | ⟨controlType, parsed, facts⟩
    · rw [refused]
      exact Or.inl ⟨err, rfl⟩
    · rw [parsed]
      exact Or.inr ⟨_, rfl, facts⟩

end ControlPacket

/-! ## Packets -/

namespace Packet

/-- The top bit of the first byte tells control packets from data packets. -/
def parse (buf : Bytes) : Parsed Packet :=
  if buf.head?.any (fun byte => byte &&& 0x80 = 0) then do
    return data (<- DataPacket.parse buf)
  else do
    return control (<- ControlPacket.parse buf)

def encode : Packet -> Bytes
  | data packet => packet.encode
  | control packet => packet.encode

/-- The packet is a value of the source's type. -/
def Typed : Packet -> Prop
  | data _ => True
  | control packet => packet.controlType.Typed

/-- The packet is as the parser leaves it, up to the lengths of strings. -/
def Shaped : Packet -> Prop
  | data _ => True
  | control packet => packet.controlType.Shaped

/-- The Extension Field of a handshake is the one that its blocks imply. -/
def Consistent : Packet -> Prop
  | data _ => True
  | control packet => packet.controlType.Consistent

/-- The strings of a handshake have lengths that the parser takes back. -/
def Fits : Packet -> Prop
  | data _ => True
  | control packet => packet.controlType.Fits

/-- The top bit of the first byte of a word. -/
theorem any_head_putU32 {word : Nat} (small : word < 2 ^ 32) (rest : Bytes) :
    (putU32 word ++ rest).head?.any (fun byte => byte &&& 0x80 = 0) = decide (word < 2 ^ 31) := by
  have byte : (UInt8.ofNat (word / 256 ^ 3) &&& 0x80 = 0) ↔ word < 2 ^ 31 := by
    rw [← UInt8.toNat_inj, UInt8.toNat_and, UInt8.toNat_ofNat']
    change (word / 256 ^ 3 % 2 ^ 8 &&& 2 ^ 7) = 0 ↔ _
    have test := and_two_pow_ne_zero (word / 256 ^ 3 % 2 ^ 8) 7
    constructor
    · intro clear
      by_contra high
      exact test.mpr (by omega) clear
    · intro low
      by_contra set
      have high := test.mp set
      omega
  change decide (UInt8.ofNat (word / 256 ^ 3) &&& 0x80 = 0) = _
  exact decide_eq_decide.mpr byte

theorem parse_data (packet : DataPacket) : parse (data packet).encode = .ok (data packet) := by
  have small := packet.seq.value_lt
  have shape : packet.encode = putU32 packet.seq.value ++ packet.encode.drop 4 := by
    unfold DataPacket.encode DataPacket.encodeHeader
    simp only [List.append_assoc]
    rw [drop_putU32 _ _ 0, List.drop_zero]
  unfold parse
  change (if packet.encode.head?.any _ then _ else _) = _
  rw [if_pos]
  · change (do return data (<- DataPacket.parse packet.encode)) = _
    rw [DataPacket.parse_encode]
    rfl
  · rw [shape, any_head_putU32 (by omega)]
    exact decide_eq_true small

theorem parse_control (packet : ControlPacket) :
    parse (control packet).encode = do return control (<- ControlPacket.parse packet.encode) := by
  have word := packet.word0_eq
  have code := packet.controlType.typeCode_lt
  have sub := packet.controlType.subtype_lt
  unfold parse
  change (if packet.encode.head?.any _ then _ else _) = _
  rw [if_neg]
  · rfl
  · unfold ControlPacket.encode
    rw [any_head_putU32 (by omega)]
    simp only [decide_eq_true_eq]
    omega

/-- What the parser makes of a datagram. -/
theorem parse_cases (buf : Bytes) :
    (Exists fun err => parse buf = reject err) ∨
      Exists fun self : Packet => parse buf = .ok self ∧ self.Typed ∧ self.Shaped := by
  unfold parse
  split_ifs
  · rcases DataPacket.parse_safe buf with ⟨packet, parsed⟩ | ⟨err, refused⟩
    · rw [parsed]
      exact Or.inr ⟨_, rfl, trivial, trivial⟩
    · rw [refused]
      exact Or.inl ⟨err, rfl⟩
  · rcases ControlPacket.parse_cases buf with ⟨err, refused⟩ | ⟨packet, parsed, facts⟩
    · rw [refused]
      exact Or.inl ⟨err, rfl⟩
    · rw [parsed]
      exact Or.inr ⟨_, rfl, facts⟩

end Packet

end Rsrt

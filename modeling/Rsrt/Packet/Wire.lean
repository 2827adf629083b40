import Rsrt.Basis.Reading
import Rsrt.Packet.Packet

namespace Rsrt

open Rsrt.Basis

/-!
# Words on the wire and the data packet

The parsers below read as the source reads: each one checks the length that it needs, and an
access outside of the datagram is an outcome of the model.  The encoders return the bytes
that the source appends.
-/

/-- Why a datagram is not a packet. -/
inductive PacketError
  | tooShort
  | unknownControlType (code : Nat)
  | badHandshake (what : String)
  | badCif (what : String)
deriving DecidableEq

abbrev headerSize : Nat := 16

abbrev Parsed (Val : Type) := Reading PacketError Val

/-- Ends a parser with an error. -/
def reject {Val : Type} (err : PacketError) : Parsed Val := .error (.rejected err)

/-! ## Words -/

def readU32 (buf : Bytes) (off : Nat) : Parsed Nat := Reading.readWord 4 buf off

def readU16 (buf : Bytes) (off : Nat) : Parsed Nat := Reading.readWord 2 buf off

def putU32 (value : Nat) : Bytes := bigEndian 4 value

def putU16 (value : Nat) : Bytes := bigEndian 2 value

@[simp]
theorem length_putU32 (value : Nat) : (putU32 value).length = 4 :=
  length_bigEndian 4 value

@[simp]
theorem length_putU16 (value : Nat) : (putU16 value).length = 2 :=
  length_bigEndian 2 value

theorem readU32_ok {buf : Bytes} {off : Nat} (inside : off + 4 ≤ buf.length) :
    Exists fun value => readU32 buf off = .ok value ∧ value < 2 ^ 32 := by
  have read : readU32 buf off = .ok _ := Reading.readWord_ok inside
  exact ⟨_, read, Reading.readWord_lt read⟩

theorem readU16_ok {buf : Bytes} {off : Nat} (inside : off + 2 ≤ buf.length) :
    Exists fun value => readU16 buf off = .ok value ∧ value < 2 ^ 16 := by
  have read : readU16 buf off = .ok _ := Reading.readWord_ok inside
  exact ⟨_, read, Reading.readWord_lt read⟩

theorem readU32_putU32 {value : Nat} (small : value < 2 ^ 32) (rest : Bytes) :
    readU32 (putU32 value ++ rest) 0 = .ok value := by
  have read : readU32 (putU32 value ++ rest) 0 = .ok (value % 2 ^ 32) :=
    Reading.readWord_bigEndian 4 value rest
  rw [read, Nat.mod_eq_of_lt small]

theorem readU32_putU32_last {value : Nat} (small : value < 2 ^ 32) :
    readU32 (putU32 value) 0 = .ok value := by
  have read := readU32_putU32 small []
  rw [List.append_nil] at read
  exact read

/-- Only the low 16 bits are written. -/
theorem readU16_putU16_mod (value : Nat) (rest : Bytes) :
    readU16 (putU16 value ++ rest) 0 = .ok (value % 2 ^ 16) :=
  Reading.readWord_bigEndian 2 value rest

theorem readU16_putU16 {value : Nat} (small : value < 2 ^ 16) (rest : Bytes) :
    readU16 (putU16 value ++ rest) 0 = .ok value := by
  rw [readU16_putU16_mod, Nat.mod_eq_of_lt small]

@[simp]
theorem readU32_after_putU32 (value : Nat) (rest : Bytes) (off : Nat) :
    readU32 (putU32 value ++ rest) (off + 4) = readU32 rest off := by
  unfold readU32
  rw [Reading.readWord_skip (by rw [length_putU32]; omega), length_putU32, Nat.add_sub_cancel]

@[simp]
theorem readU32_after_putU16 (value : Nat) (rest : Bytes) (off : Nat) :
    readU32 (putU16 value ++ rest) (off + 2) = readU32 rest off := by
  unfold readU32
  rw [Reading.readWord_skip (by rw [length_putU16]; omega), length_putU16, Nat.add_sub_cancel]

@[simp]
theorem readU16_after_putU32 (value : Nat) (rest : Bytes) (off : Nat) :
    readU16 (putU32 value ++ rest) (off + 4) = readU16 rest off := by
  unfold readU16
  rw [Reading.readWord_skip (by rw [length_putU32]; omega), length_putU32, Nat.add_sub_cancel]

@[simp]
theorem readU16_after_putU16 (value : Nat) (rest : Bytes) (off : Nat) :
    readU16 (putU16 value ++ rest) (off + 2) = readU16 rest off := by
  unfold readU16
  rw [Reading.readWord_skip (by rw [length_putU16]; omega), length_putU16, Nat.add_sub_cancel]

@[simp]
theorem drop_putU32 (value : Nat) (rest : Bytes) (count : Nat) :
    (putU32 value ++ rest).drop (count + 4) = rest.drop count := by
  rw [List.drop_append, length_putU32, Nat.add_sub_cancel,
    List.drop_eq_nil_of_le (by rw [length_putU32]; omega), List.nil_append]

@[simp]
theorem drop_putU16 (value : Nat) (rest : Bytes) (count : Nat) :
    (putU16 value ++ rest).drop (count + 2) = rest.drop count := by
  rw [List.drop_append, length_putU16, Nat.add_sub_cancel,
    List.drop_eq_nil_of_le (by rw [length_putU16]; omega), List.nil_append]

/-! ## Fields of a word -/

/-- Two parts of a word that do not overlap. -/
theorem shiftLeft_or {low shift : Nat} (high : Nat) (fits : low < 2 ^ shift) :
    high <<< shift ||| low = high * 2 ^ shift + low := by
  rw [← Nat.shiftLeft_add_eq_or_of_lt fits, Nat.shiftLeft_eq]

theorem and_two_pow_ne_zero (word bit : Nat) : word &&& 2 ^ bit ≠ 0 ↔ word / 2 ^ bit % 2 = 1 := by
  rw [Nat.and_two_pow, Nat.testBit_eq_decide_div_mod_eq]
  by_cases set : word / 2 ^ bit % 2 = 1
  · simp [set]
  · simp [set]

/-! ## Data packets -/

namespace PacketPosition

def fromBits (bits : Nat) : PacketPosition :=
  match bits &&& 0b11 with
  | 0b00 => middle
  | 0b01 => last
  | 0b10 => first
  | _ => only

def bits : PacketPosition -> Nat
  | middle => 0b00
  | last => 0b01
  | first => 0b10
  | only => 0b11

theorem bits_lt (self : PacketPosition) : self.bits < 4 := by
  cases self <;> decide

theorem fromBits_bits {word : Nat} {self : PacketPosition} (same : word % 4 = self.bits) :
    fromBits word = self := by
  unfold fromBits
  rw [(Nat.and_two_pow_sub_one_eq_mod word 2 : word &&& 0b11 = word % 4), same]
  cases self <;> rfl

end PacketPosition

namespace EncryptionFlags

def fromBits (bits : Nat) : EncryptionFlags :=
  match bits &&& 0b11 with
  | 0b00 => none
  | 0b01 => even
  | 0b10 => odd
  | _ => both

def bits : EncryptionFlags -> Nat
  | none => 0b00
  | even => 0b01
  | odd => 0b10
  | both => 0b11

theorem bits_lt (self : EncryptionFlags) : self.bits < 4 := by
  cases self <;> decide

theorem fromBits_bits {word : Nat} {self : EncryptionFlags} (same : word % 4 = self.bits) :
    fromBits word = self := by
  unfold fromBits
  rw [(Nat.and_two_pow_sub_one_eq_mod word 2 : word &&& 0b11 = word % 4), same]
  cases self <;> rfl

end EncryptionFlags

def MsgNumber.mask : Nat := 0x03FFFFFF

@[simp]
theorem MsgNumber.new_value (self : MsgNumber) : MsgNumber.new self.value = self := by
  rcases self with ⟨value, small⟩
  unfold MsgNumber.new
  rw [MsgNumber.mk.injEq]
  exact Nat.mod_eq_of_lt small

@[simp]
theorem SeqNumber.new_value (self : SeqNumber) : SeqNumber.new self.value = self := by
  rcases self with ⟨value, small⟩
  unfold SeqNumber.new
  rw [SeqNumber.mk.injEq]
  exact Nat.mod_eq_of_lt small

namespace DataPacket

def parse (buf : Bytes) : Parsed DataPacket :=
  if buf.length < headerSize then reject .tooShort
  else do
    let word0 <- readU32 buf 0
    let word1 <- readU32 buf 4
    let timestamp <- readU32 buf 8
    let dstSocketId <- readU32 buf 12
    let payload <- Reading.sliceFrom buf headerSize
    return {
      seq := SeqNumber.new (word0 &&& SeqNumber.mask)
      position := PacketPosition.fromBits (word1 >>> 30)
      order := word1 &&& 0x20000000 ≠ 0
      encryption := EncryptionFlags.fromBits (word1 >>> 27)
      retransmitted := word1 &&& 0x04000000 ≠ 0
      msgNumber := MsgNumber.new (word1 &&& MsgNumber.mask)
      timestamp := ⟨UInt32.ofNat timestamp⟩
      dstSocketId := ⟨UInt32.ofNat dstSocketId⟩
      payload := payload }

/-- The flags and the message number. -/
def word1 (self : DataPacket) : Nat :=
  self.position.bits <<< 30 ||| self.order.toNat <<< 29 ||| self.encryption.bits <<< 27 |||
    self.retransmitted.toNat <<< 26 ||| self.msgNumber.value

def encodeHeader (self : DataPacket) : Bytes :=
  putU32 self.seq.value ++ (putU32 self.word1 ++ (putU32 self.timestamp.micros.toNat ++
    putU32 self.dstSocketId.value.toNat))

def encode (self : DataPacket) : Bytes :=
  self.encodeHeader ++ self.payload

theorem word1_eq (self : DataPacket) :
    self.word1 = self.position.bits * 2 ^ 30 + (self.order.toNat * 2 ^ 29 +
      (self.encryption.bits * 2 ^ 27 + (self.retransmitted.toNat * 2 ^ 26 +
        self.msgNumber.value))) := by
  have message := self.msgNumber.value_lt
  have again := self.retransmitted.toNat_lt
  have key := self.encryption.bits_lt
  have ordered := self.order.toNat_lt
  unfold word1
  rw [Nat.lor_assoc, Nat.lor_assoc, Nat.lor_assoc, shiftLeft_or _ message]
  rw [shiftLeft_or self.encryption.bits (by omega)]
  rw [shiftLeft_or self.order.toNat (by omega)]
  rw [shiftLeft_or self.position.bits (by omega)]

theorem word1_lt (self : DataPacket) : self.word1 < 2 ^ 32 := by
  have message := self.msgNumber.value_lt
  have again := self.retransmitted.toNat_lt
  have key := self.encryption.bits_lt
  have ordered := self.order.toNat_lt
  have place := self.position.bits_lt
  rw [word1_eq]
  omega

/-- The fields of the second word are where the parser looks for them. -/
theorem word1_fields (self : DataPacket) :
    PacketPosition.fromBits (self.word1 >>> 30) = self.position ∧
      decide (self.word1 &&& 0x20000000 ≠ 0) = self.order ∧
      EncryptionFlags.fromBits (self.word1 >>> 27) = self.encryption ∧
      decide (self.word1 &&& 0x04000000 ≠ 0) = self.retransmitted ∧
      MsgNumber.new (self.word1 &&& MsgNumber.mask) = self.msgNumber := by
  have message := self.msgNumber.value_lt
  have again := self.retransmitted.toNat_lt
  have key := self.encryption.bits_lt
  have ordered := self.order.toNat_lt
  have place := self.position.bits_lt
  have bit (flag : Bool) {word : Nat} (same : word % 2 = flag.toNat) :
      decide (word % 2 = 1) = flag := by
    rw [same]
    cases flag <;> rfl
  refine ⟨?_, ?_, ?_, ?_, ?_⟩
  · apply PacketPosition.fromBits_bits
    rw [Nat.shiftRight_eq_div_pow, word1_eq]
    omega
  · have test : self.word1 &&& 0x20000000 ≠ 0 ↔ self.word1 / 2 ^ 29 % 2 = 1 :=
      and_two_pow_ne_zero self.word1 29
    rw [decide_eq_decide.mpr test]
    apply bit
    rw [word1_eq]
    omega
  · apply EncryptionFlags.fromBits_bits
    rw [Nat.shiftRight_eq_div_pow, word1_eq]
    omega
  · have test : self.word1 &&& 0x04000000 ≠ 0 ↔ self.word1 / 2 ^ 26 % 2 = 1 :=
      and_two_pow_ne_zero self.word1 26
    rw [decide_eq_decide.mpr test]
    apply bit
    rw [word1_eq]
    omega
  · have low : self.word1 &&& MsgNumber.mask = self.word1 % 2 ^ 26 :=
      Nat.and_two_pow_sub_one_eq_mod self.word1 26
    have same : self.word1 % 2 ^ 26 = self.msgNumber.value := by
      rw [word1_eq]
      omega
    rw [low, same, MsgNumber.new_value]

/-- Parsing undoes encoding. -/
theorem parse_encode (self : DataPacket) : parse self.encode = .ok self := by
  have sequence : SeqNumber.new (self.seq.value &&& SeqNumber.mask) = self.seq := by
    have low : self.seq.value &&& SeqNumber.mask = self.seq.value % 2 ^ 31 :=
      Nat.and_two_pow_sub_one_eq_mod self.seq.value 31
    rw [low, Nat.mod_eq_of_lt self.seq.value_lt, SeqNumber.new_value]
  rcases word1_fields self with ⟨position, order, encryption, retransmitted, message⟩
  have shape : self.encode = putU32 self.seq.value ++ (putU32 self.word1 ++
      (putU32 self.timestamp.micros.toNat ++ (putU32 self.dstSocketId.value.toNat ++
        self.payload))) := by
    unfold encode encodeHeader
    simp only [List.append_assoc]
  have long : headerSize ≤ self.encode.length := by
    rw [shape]
    simp only [List.length_append, length_putU32]
    change 16 ≤ _
    omega
  have payload : self.encode.drop headerSize = self.payload := by
    rw [shape]
    simp [headerSize]
  unfold parse
  rw [if_neg (Nat.not_lt.mpr long), Reading.sliceFrom_ok long, payload, shape]
  have first : self.seq.value < 2 ^ 32 := lt_trans self.seq.value_lt (by decide)
  have stamp := self.timestamp.micros.toNat_lt
  have target := self.dstSocketId.value.toNat_lt
  simp only [readU32_after_putU32, readU32_putU32 first, readU32_putU32 self.word1_lt,
    readU32_putU32 stamp, readU32_putU32 target, Reading.ok_bind]
  rw [sequence, position, order, encryption, retransmitted, message, UInt32.ofNat_toNat,
    UInt32.ofNat_toNat]
  rfl

/-- Every datagram with a whole header is parsed. -/
theorem parse_safe (buf : Bytes) : (parse buf).Safe := by
  unfold parse
  split_ifs with short
  · exact .rejected _
  · have long : 16 ≤ buf.length := Nat.not_lt.mp short
    rcases readU32_ok (by omega : 0 + 4 ≤ buf.length) with ⟨word0, read0, _⟩
    rcases readU32_ok (by omega : 4 + 4 ≤ buf.length) with ⟨word1, read1, _⟩
    rcases readU32_ok (by omega : 8 + 4 ≤ buf.length) with ⟨timestamp, read2, _⟩
    rcases readU32_ok (by omega : 12 + 4 ≤ buf.length) with ⟨dstSocketId, read3, _⟩
    rw [read0, read1, read2, read3, Reading.sliceFrom_ok long]
    exact .ok _

end DataPacket

end Rsrt

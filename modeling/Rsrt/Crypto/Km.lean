import Rsrt.Crypto.Keys

namespace Rsrt

/-!
# Key material messages

Codec of the KM message that carries wrapped stream encryption keys, and of the
response to it.  Every byte the parser reads lies below a length it has checked.
-/

abbrev kmHeaderLen : Nat := 16

abbrev kmSaltLen : Nat := 16

abbrev wrapIcvLen : Nat := 8

def kmSign : Bytes := [0x20, 0x29]

inductive KmState
  | unsecured
  | securing
  | secured
  | noSecret
  | badSecret
deriving DecidableEq

def KmState.fromU32 (v : Nat) : Option KmState :=
  match v with
  | 0 => some unsecured
  | 1 => some securing
  | 2 => some secured
  | 3 => some noSecret
  | 4 => some badSecret
  | _ => none

/-- Which SEK slots a KM message carries. -/
inductive KmKeys
  | even
  | odd
  | both
deriving DecidableEq

namespace KmKeys

def count : KmKeys -> Nat
  | even => 1
  | odd => 1
  | both => 2

/-- The wire bits of the KK field. -/
def bits : KmKeys -> UInt8
  | even => 0b01
  | odd => 0b10
  | both => 0b11

/-- The upper six bits of the KK byte are reserved and ignored. -/
def fromByte (byte : UInt8) : Option KmKeys :=
  if byte &&& 0x03 = 0b01 then some even
  else if byte &&& 0x03 = 0b10 then some odd
  else if byte &&& 0x03 = 0b11 then some both
  else none

@[simp] theorem fromByte_bits (keys : KmKeys) : fromByte keys.bits = some keys := by
  cases keys <;> rfl

end KmKeys

/-- Parsed KM message.  `wrapped` is the 8-byte integrity block and the keys,
the even one first. -/
structure KmMessage where
  keys : KmKeys
  keyLen : KeyLength
  salt : Salt
  wrapped : Bytes
deriving DecidableEq

namespace KmMessage

/-- The wrapped blob has the length that the key fields announce. -/
def WellFormed (self : KmMessage) : Prop :=
  self.wrapped.length = wrapIcvLen + self.keys.count * self.keyLen.bytes

def parse (buf : Bytes) : Except CryptoError KmMessage :=
  if long : kmHeaderLen < buf.length then
    have : 16 < buf.length := long
    let sekLen := buf[15].toNat * 4
    if sekLen = 0 then .error (.badKmMessage "KM key length is zero")
    -- The whole upper nibble is the version, its leading bit included.
    else if buf[0] >>> 4 ≠ 0x1 then .error (.unsupported "KM version is not 1")
    else if buf[0] &&& 0x0F ≠ 0x2 then .error (.badKmMessage "payload type is not KM")
    else if (buf.drop 1).take 2 ≠ kmSign then .error (.badKmMessage "bad HaiCrypt signature")
    else if buf[10] ≠ 2 then .error (.unsupported "stream encapsulation is not TSSRT")
    else
      match KmKeys.fromByte buf[3] with
      | none => .error (.badKmMessage "KM carries no key (KK = 0)")
      | some keys =>
          let saltLen := buf[14].toNat * 4
          if kmSaltLen < saltLen then .error (.badKmMessage "salt longer than 16 bytes")
          else if full : saltLen ≠ kmSaltLen then
            .error (.unsupported "salt shorter than 16 bytes")
          else
            match KeyLength.fromBytes sekLen with
            | none => .error (.badKmMessage "SEK length not 16/24/32")
            | some keyLen =>
                if exact : buf.length ≠ kmHeaderLen + saltLen + wrapIcvLen + keys.count * sekLen then
                  .error (.badKmMessage "KM length does not match its fields")
                else if buf[8] ≠ 2 then .error (.unsupported "cipher is not AES-CTR")
                else if buf[9] ≠ 0 then .error (.unsupported "auth is not none")
                else
                  .ok { keys := keys
                        keyLen := keyLen
                        salt :=
                          { bytes := (buf.drop 16).take 16
                            length_eq := by
                              rw [not_not] at full exact
                              change saltLen = 16 at full
                              change buf.length = 16 + saltLen + 8 + keys.count * sekLen at exact
                              rw [List.length_take, List.length_drop]
                              omega }
                        wrapped := buf.drop 32 }
  else .error (.badKmMessage "KM message not longer than its header")

def encode (self : KmMessage) : Bytes :=
  [0x12] ++ kmSign ++ [self.keys.bits] ++ [0, 0, 0, 0] ++ [2, 0, 2, 0] ++ [0, 0] ++
    [UInt8.ofNat (kmSaltLen / 4)] ++ [UInt8.ofNat (self.keyLen.bytes / 4)] ++
    self.salt.bytes ++ self.wrapped

/-- The length byte of a key length reads back as that length. -/
theorem keyLenByte (keyLen : KeyLength) :
    (UInt8.ofNat (keyLen.bytes / 4)).toNat * 4 = keyLen.bytes := by
  cases keyLen <;> rfl

instance (self : KmMessage) : Decidable self.WellFormed :=
  inferInstanceAs (Decidable (_ = _))

/-- An encoded message can only be refused for the length of its wrapped blob. -/
theorem parse_encode_eq (self : KmMessage) :
    parse self.encode =
      if self.WellFormed then .ok self
      else .error (.badKmMessage "KM length does not match its fields") := by
  rcases self with ⟨keys, keyLen, ⟨salt, saltLength⟩, wrapped⟩
  have positive : keyLen.bytes ≠ 0 := by cases keyLen <;> decide
  have shape : encode ⟨keys, keyLen, ⟨salt, saltLength⟩, wrapped⟩ =
      0x12 :: 0x20 :: 0x29 :: keys.bits :: 0 :: 0 :: 0 :: 0 :: 2 :: 0 :: 2 :: 0 :: 0 :: 0 ::
        4 :: UInt8.ofNat (keyLen.bytes / 4) :: (salt ++ wrapped) := by
    simp only [encode, kmSign, List.cons_append, List.nil_append]
    rfl
  have long : 16 < (encode ⟨keys, keyLen, ⟨salt, saltLength⟩, wrapped⟩).length := by
    rw [shape]
    simp only [List.length_cons, List.length_append]
    omega
  rw [shape] at long ⊢
  unfold parse
  rw [dif_pos long]
  simp only [List.getElem_cons_succ, List.getElem_cons_zero, keyLenByte, KmKeys.fromByte_bits,
    KeyLength.fromBytes_bytes, if_neg positive]
  rw [if_neg (by decide), if_neg (by decide), if_neg (by simp [kmSign]), if_neg (by decide),
    if_neg (by decide), dif_neg (by decide)]
  have total : (0x12 :: 0x20 :: 0x29 :: keys.bits :: 0 :: 0 :: 0 :: 0 :: 2 :: 0 :: 2 :: 0 :: 0 ::
      0 :: 4 :: UInt8.ofNat (keyLen.bytes / 4) :: (salt ++ wrapped)).length =
        32 + wrapped.length := by
    simp only [List.length_cons, List.length_append, saltLength]
    omega
  by_cases wellFormed : WellFormed ⟨keys, keyLen, ⟨salt, saltLength⟩, wrapped⟩
  · have length : wrapped.length = 8 + keys.count * keyLen.bytes := wellFormed
    rw [dif_neg, if_neg (by decide), if_neg (by decide), if_pos wellFormed]
    · simp [List.take_left' saltLength, List.drop_left' saltLength]
    · rw [not_not, total, length]
      change _ = 16 + 16 + 8 + keys.count * keyLen.bytes
      omega
  · have length : wrapped.length ≠ 8 + keys.count * keyLen.bytes := wellFormed
    rw [dif_pos, if_neg wellFormed]
    rw [total]
    change _ ≠ 16 + 16 + 8 + keys.count * keyLen.bytes
    omega

/-- Parsing undoes encoding. -/
theorem parse_encode {self : KmMessage} (wellFormed : self.WellFormed) :
    parse self.encode = .ok self := by
  rw [parse_encode_eq, if_pos wellFormed]

/-- Whatever the parser makes of an encoded message is that message. -/
theorem eq_of_parse_encode {self msg : KmMessage} (parsed : parse self.encode = .ok msg) :
    msg = self := by
  rw [parse_encode_eq] at parsed
  split_ifs at parsed
  cases parsed
  rfl

/-! ## What an accepted message pins -/

/-- The one value of the first byte that passes both nibble checks. -/
theorem headByte {byte : UInt8} (version : byte >>> 4 = 0x1) (kind : byte &&& 0x0F = 0x2) :
    byte = 0x12 := by
  have upper := congrArg UInt8.toNat version
  have lower := congrArg UInt8.toNat kind
  rw [UInt8.toNat_shiftRight] at upper
  rw [UInt8.toNat_and] at lower
  change byte.toNat >>> 4 = 1 at upper
  change byte.toNat &&& 2 ^ 4 - 1 = 2 at lower
  rw [Nat.shiftRight_eq_div_pow] at upper
  rw [Nat.and_two_pow_sub_one_eq_mod] at lower
  apply UInt8.toNat_inj.mp
  change byte.toNat = 18
  omega

/-- A quarter of the length is the length byte. -/
theorem ofNat_quarter {byte : UInt8} {length : Nat} (read : byte.toNat * 4 = length) :
    UInt8.ofNat (length / 4) = byte := by
  rw [← read, Nat.mul_div_cancel _ (by decide)]
  exact UInt8.ofNat_toNat

/-- The bytes of a KM message with its ignored fields given: the reserved bits
of the KK byte, the KEKI and the three reserved bytes. -/
def frame (self : KmMessage) (kk : UInt8) (keki : Fin 4 -> UInt8) (reserved : Fin 3 -> UInt8) :
    Bytes :=
  0x12 :: 0x20 :: 0x29 :: kk :: keki 0 :: keki 1 :: keki 2 :: keki 3 :: 2 :: 0 :: 2 ::
    reserved 0 :: reserved 1 :: reserved 2 :: 4 :: UInt8.ofNat (self.keyLen.bytes / 4) ::
    (self.salt.bytes ++ self.wrapped)

theorem encode_eq_frame (self : KmMessage) :
    self.encode = self.frame self.keys.bits (fun _ => 0) (fun _ => 0) := by
  simp only [encode, frame, kmSign, List.cons_append, List.nil_append]
  rfl

/-- A check that did not fail was passed. -/
theorem passed {refused : Prop} [Decidable refused] {error : CryptoError}
    {next : ¬ refused -> Except CryptoError KmMessage} {msg : KmMessage}
    (parsed : (if failed : refused then .error error else next failed) = .ok msg) :
    Exists fun fine : ¬ refused => next fine = .ok msg := by
  by_cases failed : refused
  · rw [dif_pos failed] at parsed
    cases parsed
  · rw [dif_neg failed] at parsed
    exact ⟨failed, parsed⟩

/-- The checks that an accepted byte string has passed, in the parser's order. -/
theorem parse_inv {buf : Bytes} {msg : KmMessage} (parsed : parse buf = .ok msg) :
    Exists fun long : 16 < buf.length =>
      (buf[0] >>> 4 = 0x1 ∧ buf[0] &&& 0x0F = 0x2 ∧ (buf.drop 1).take 2 = kmSign ∧ buf[10] = 2) ∧
      KmKeys.fromByte buf[3] = some msg.keys ∧ buf[14].toNat * 4 = 16 ∧
      KeyLength.fromBytes (buf[15].toNat * 4) = some msg.keyLen ∧
      buf.length = 16 + 16 + 8 + msg.keys.count * (buf[15].toNat * 4) ∧
      buf[8] = 2 ∧ buf[9] = 0 ∧
      msg.salt.bytes = (buf.drop 16).take 16 ∧ msg.wrapped = buf.drop 32 := by
  have long : 16 < buf.length := by
    by_contra short
    rw [parse, dif_neg short] at parsed
    cases parsed
  rw [parse, dif_pos long] at parsed
  obtain ⟨_, parsed⟩ := passed parsed
  obtain ⟨version, parsed⟩ := passed parsed
  obtain ⟨kind, parsed⟩ := passed parsed
  obtain ⟨sign, parsed⟩ := passed parsed
  obtain ⟨encapsulation, parsed⟩ := passed parsed
  rw [not_not] at version kind sign encapsulation
  cases keysRead : KmKeys.fromByte buf[3] with
  | none =>
      rw [keysRead] at parsed
      cases parsed
  | some keys =>
      rw [keysRead] at parsed
      obtain ⟨_, parsed⟩ := passed parsed
      obtain ⟨salted, parsed⟩ := passed parsed
      rw [not_not] at salted
      cases lengthRead : KeyLength.fromBytes (buf[15].toNat * 4) with
      | none =>
          rw [lengthRead] at parsed
          cases parsed
      | some keyLen =>
          rw [lengthRead] at parsed
          obtain ⟨exact, parsed⟩ := passed parsed
          obtain ⟨cipher, parsed⟩ := passed parsed
          obtain ⟨auth, parsed⟩ := passed parsed
          rw [not_not] at exact cipher auth
          rw [salted] at exact
          cases parsed
          exact ⟨long, ⟨version, kind, sign, encapsulation⟩, keysRead, salted, lengthRead, exact,
            cipher, auth, rfl, rfl⟩

/-- Every accepted byte string is a frame of the message read from it, and that
message is well formed. -/
theorem parse_frame {buf : Bytes} {msg : KmMessage} (parsed : parse buf = .ok msg) :
    msg.WellFormed ∧ Exists fun kk => Exists fun keki => Exists fun reserved =>
      KmKeys.fromByte kk = some msg.keys ∧ buf = msg.frame kk keki reserved := by
  obtain ⟨long, ⟨version, kind, sign, encapsulation⟩, keys, salted, keyLen, length, cipher, auth,
    salt, wrapped⟩ := parse_inv parsed
  have size := KeyLength.bytes_of_fromBytes keyLen
  constructor
  · change msg.wrapped.length = 8 + _
    rw [wrapped, size, List.length_drop]
    omega
  · match buf, long with
    | b0 :: b1 :: b2 :: b3 :: b4 :: b5 :: b6 :: b7 :: b8 :: b9 :: b10 :: b11 :: b12 :: b13 ::
        b14 :: b15 :: rest, long =>
        change b8 = 2 at cipher
        change b9 = 0 at auth
        change b10 = 2 at encapsulation
        change b14.toNat * 4 = 16 at salted
        change msg.keyLen.bytes = b15.toNat * 4 at size
        refine ⟨b3, ![b4, b5, b6, b7], ![b11, b12, b13], keys, ?_⟩
        have signed : b1 = 0x20 ∧ b2 = 0x29 := by
          simpa [kmSign] using sign
        have rest_eq : rest = msg.salt.bytes ++ msg.wrapped := by
          rw [salt, wrapped]
          exact (List.take_append_drop 16 rest).symm
        have head : b0 = 0x12 := headByte version kind
        have quarter : b14 = 4 := (ofNat_quarter salted).symm
        rw [head, signed.left, signed.right, encapsulation, cipher, auth, quarter,
          rest_eq, frame, ofNat_quarter size.symm]
        rfl

/-- The reserved bits of the KK byte are all that its reading drops. -/
theorem bits_of_fromByte {byte : UInt8} {keys : KmKeys}
    (read : KmKeys.fromByte byte = some keys) : keys.bits = byte &&& 0x03 := by
  unfold KmKeys.fromByte at read
  split_ifs at read with even odd both
  · cases read
    exact even.symm
  · cases read
    exact odd.symm
  · cases read
    exact both.symm

/-- The codec is exact.  Parsing undoes encoding; and an accepted byte string has
the length that its own fields announce, and differs from the encoding of what was
read at most in the KEKI, the reserved bytes and the upper six bits of the KK byte. -/
theorem codec_exact :
    (forall msg : KmMessage,
      msg.wrapped.length = wrapIcvLen + msg.keys.count * msg.keyLen.bytes ->
        parse msg.encode = .ok msg) ∧
    forall (buf : Bytes) (msg : KmMessage), parse buf = .ok msg ->
      buf.length = 32 + 8 + msg.keys.count * msg.keyLen.bytes ∧
      msg.encode.length = buf.length ∧
      (forall i, i ≠ 3 -> ¬ (4 ≤ i ∧ i < 8) -> ¬ (11 ≤ i ∧ i < 14) ->
        msg.encode[i]? = buf[i]?) ∧
      msg.encode[3]? = buf[3]?.map (fun byte => byte &&& 0x03) := by
  constructor
  · intro msg wellFormed
    exact parse_encode wellFormed
  · intro buf msg parsed
    obtain ⟨wellFormed, kk, keki, reserved, keys, shape⟩ := parse_frame parsed
    have saltLength := msg.salt.length_eq
    change msg.wrapped.length = 8 + _ at wellFormed
    rw [encode_eq_frame, shape]
    refine ⟨?_, rfl, ?_, ?_⟩
    · simp only [frame, List.length_cons, List.length_append]
      omega
    · intro i kkByte kekiBytes reservedBytes
      -- Only the first sixteen bytes are told apart; the kept ones agree one by one.
      match i with
      | 0 | 1 | 2 | 8 | 9 | 10 | 14 | 15 => rfl
      | 3 => exact absurd rfl kkByte
      | 4 | 5 | 6 | 7 => exact absurd (by decide) kekiBytes
      | 11 | 12 | 13 => exact absurd (by decide) reservedBytes
      | i + 16 => rfl
    · exact congrArg some (bits_of_fromByte keys)

/-- An odd key sent with every ignored field set. -/
def littered : KmMessage :=
  { keys := .odd
    keyLen := .aes128
    salt := { bytes := List.replicate 16 9, length_eq := rfl }
    wrapped := List.replicate 24 5 }

theorem codec_exact_littered :
    parse littered.encode = .ok littered ∧
    parse (littered.frame 0xFE ![1, 2, 3, 4] ![5, 6, 7]) = .ok littered ∧
    (littered.frame 0xFE ![1, 2, 3, 4] ![5, 6, 7]).length = 56 ∧
    littered.encode[3]? = some 0x02 := by
  have parsed : parse (littered.frame 0xFE ![1, 2, 3, 4] ![5, 6, 7]) = .ok littered := rfl
  obtain ⟨length, _, _, keys⟩ := codec_exact.right _ _ parsed
  exact ⟨codec_exact.left littered rfl, parsed, length, keys⟩

end KmMessage

/-- A decoded response: exactly one word is a failure status, anything longer
the echo of the request. -/
inductive KmResponse
  | echo (payload : Bytes)
  | status (state : Option KmState)
deriving DecidableEq

/-- The status word is little-endian on the wire. -/
def KmResponse.parse (buf : Bytes) : Except CryptoError KmResponse :=
  match buf with
  | [b0, b1, b2, b3] =>
      .ok (.status (KmState.fromU32
        (b0.toNat + b1.toNat * 2 ^ 8 + b2.toNat * 2 ^ 16 + b3.toNat * 2 ^ 24)))
  | buf =>
      if buf.length < 4 then .error (.badKmMessage "KMRSP shorter than one word")
      else .ok (.echo buf)

end Rsrt

import Rsrt.Packet.Packet

namespace Rsrt

/-!
# Key material and the payload cipher

SEK and KEK containers, KEK derivation, key wrap, and the per-packet counter
mode keystream.  The primitives themselves come from other libraries: PBKDF2,
the RFC 3394 key wrap, the AES counter mode keystream and the random generator.
They are taken as the fields of `Primitives`, with their documented behaviour
collected in `Primitives.Ideal`; randomly generated keys and salts are arguments
of the functions that draw them.
-/

/-- AES key length; SEK and KEK always share it. -/
inductive KeyLength
  | aes128
  | aes192
  | aes256
deriving DecidableEq

namespace KeyLength

def bytes : KeyLength -> Nat
  | aes128 => 16
  | aes192 => 24
  | aes256 => 32

def fromBytes (n : Nat) : Option KeyLength :=
  if n = 16 then some aes128
  else if n = 24 then some aes192
  else if n = 32 then some aes256
  else none

@[simp] theorem fromBytes_bytes (length : KeyLength) : fromBytes length.bytes = some length := by
  cases length <;> rfl

theorem bytes_of_fromBytes {n : Nat} {length : KeyLength}
    (found : fromBytes n = some length) : length.bytes = n := by
  unfold fromBytes at found
  split_ifs at found with first second third
  · cases found
    exact first.symm
  · cases found
    exact second.symm
  · cases found
    exact third.symm

end KeyLength

/-- Errors from key-material processing. -/
inductive CryptoError
  | badKmMessage (what : String)
  | wrongSecret
  | unsupported (what : String)
  | noKey
deriving DecidableEq

def pbkdf2Iterations : Nat := 2048

/-- Connection salt. -/
structure Salt where
  bytes : Bytes
  length_eq : bytes.length = 16
deriving DecidableEq

/-- A salt of one repeated byte, for sample runs. -/
def Salt.uniform (byte : UInt8) : Salt := ⟨List.replicate 16 byte, List.length_replicate⟩

/-- Secret bytes: a SEK, or the concatenated pair that a dual unwrap yields. -/
structure SecretKey where
  bytes : Bytes
deriving DecidableEq

/-- Key-encrypting key derived from the passphrase. -/
structure Kek where
  bytes : Bytes
deriving DecidableEq

/-- The functions that other libraries provide. -/
structure Primitives where
  /-- Passphrase, salt, iteration count and output length. -/
  pbkdf2 : Bytes -> Bytes -> Nat -> Nat -> Bytes
  wrap : Bytes -> Bytes -> Bytes
  /-- `none` is a failed integrity check. -/
  unwrap : Bytes -> Bytes -> Option Bytes
  /-- Key, initial counter block and offset into the stream. -/
  keystream : Bytes -> Bytes -> Nat -> UInt8

/-- Documented behaviour of the key derivation and the key wrap. -/
structure Primitives.Ideal (P : Primitives) : Prop where
  pbkdf2_length : forall passphrase salt iterations length,
    (P.pbkdf2 passphrase salt iterations length).length = length
  wrap_length : forall kek plain, (P.wrap kek plain).length = plain.length + 8
  unwrap_wrap : forall kek plain, P.unwrap kek (P.wrap kek plain) = some plain

/-- Small primitives with the documented behaviour, for runs on concrete inputs: a key is
wrapped behind a mark of the first byte of the wrapping key, which is that of the passphrase. -/
def Primitives.sample : Primitives where
  pbkdf2 := fun passphrase _ _ length => List.replicate length (passphrase.headD 0)
  wrap := fun kek plain => List.replicate 8 (kek.headD 0) ++ plain
  unwrap := fun kek wrapped =>
    if wrapped.take 8 = List.replicate 8 (kek.headD 0) then some (wrapped.drop 8) else none
  keystream := fun key block i => key.getD (i % 16) 0 ^^^ block.getD 13 0

theorem Primitives.sample_ideal : Primitives.sample.Ideal where
  pbkdf2_length := fun _ _ _ _ => List.length_replicate
  wrap_length := by
    intro kek plain
    change (List.replicate 8 (kek.headD 0) ++ plain).length = plain.length + 8
    rw [List.length_append, List.length_replicate, Nat.add_comm]
  unwrap_wrap := by
    intro kek plain
    have size : (List.replicate 8 (kek.headD 0)).length = 8 := rfl
    change (if (List.replicate 8 (kek.headD 0) ++ plain).take 8 = List.replicate 8 (kek.headD 0)
      then some ((List.replicate 8 (kek.headD 0) ++ plain).drop 8) else none) = some plain
    rw [List.take_left' size, if_pos rfl, List.drop_left' size]

section Keys

variable (P : Primitives)

/-- Only the last eight bytes of the salt feed the derivation. -/
def deriveKek (passphrase : Bytes) (kmSalt : Salt) (keyLen : KeyLength) : Kek :=
  ⟨P.pbkdf2 passphrase (kmSalt.bytes.drop 8) pbkdf2Iterations keyLen.bytes⟩

def wrapKey (kek : Kek) (plaintext : Bytes) : Bytes :=
  P.wrap kek.bytes plaintext

def unwrapKey (kek : Kek) (wrapped : Bytes) : Except CryptoError SecretKey :=
  if wrapped.length < 24 ∨ wrapped.length % 8 ≠ 0 then
    .error (.badKmMessage "wrapped key length")
  else
    match P.unwrap kek.bytes wrapped with
    | some out => .ok ⟨out⟩
    | none => .error .wrongSecret

variable {P} in
theorem unwrapKey_wrapKey (ideal : P.Ideal) (kek : Kek) {plaintext : Bytes}
    (long : 16 ≤ plaintext.length) (whole : plaintext.length % 8 = 0) :
    unwrapKey P kek (wrapKey P kek plaintext) = .ok ⟨plaintext⟩ := by
  have length := ideal.wrap_length kek.bytes plaintext
  have structured : ¬((wrapKey P kek plaintext).length < 24 ∨
      (wrapKey P kek plaintext).length % 8 ≠ 0) := by
    unfold wrapKey
    omega
  unfold unwrapKey
  rw [if_neg structured]
  unfold wrapKey
  rw [ideal.unwrap_wrap]

end Keys

/-! ## Counter mode -/

/-- Big-endian bytes of a 32-bit word. -/
def beBytes (word : Nat) : Bytes :=
  [UInt8.ofNat (word / 2 ^ 24), UInt8.ofNat (word / 2 ^ 16), UInt8.ofNat (word / 2 ^ 8),
    UInt8.ofNat word]

/-- Initial counter block: the sequence word at offsets 10 to 13 and a zero
16-bit block counter, the first fourteen bytes XORed with the salt. -/
def counterBlock (salt : Salt) (seq : Nat) : Bytes :=
  List.zipWith (· ^^^ ·) (List.replicate 10 0 ++ beBytes seq) (salt.bytes.take 14) ++ [0, 0]

/-- One SEK's key schedule. -/
structure CtrCipher where
  key : SecretKey
deriving DecidableEq

namespace CtrCipher

def new (key : SecretKey) : CtrCipher := ⟨key⟩

/-- XORs the keystream over the payload; encryption and decryption are the same
operation. -/
def applyKeystream (P : Primitives) (self : CtrCipher) (salt : Salt) (seq : Nat)
    (payload : Bytes) : Bytes :=
  payload.mapIdx fun i byte => byte ^^^ P.keystream self.key.bytes (counterBlock salt seq) i

@[simp] theorem applyKeystream_length (P : Primitives) (self : CtrCipher) (salt : Salt)
    (seq : Nat) (payload : Bytes) :
    (self.applyKeystream P salt seq payload).length = payload.length := by
  simp [applyKeystream]

@[simp] theorem applyKeystream_twice (P : Primitives) (self : CtrCipher) (salt : Salt)
    (seq : Nat) (payload : Bytes) :
    self.applyKeystream P salt seq (self.applyKeystream P salt seq payload) = payload := by
  apply List.ext_getElem
  · simp
  · intro i _ _
    simp only [applyKeystream, List.getElem_mapIdx]
    rw [UInt8.xor_assoc, UInt8.xor_self, UInt8.xor_zero]

end CtrCipher

end Rsrt

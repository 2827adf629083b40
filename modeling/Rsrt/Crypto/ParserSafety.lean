import Rsrt.Packet.ControlCodec
import Rsrt.Crypto.Context

namespace Rsrt

open Rsrt.Basis

/-!
# Parsers do not fault

The parsers of key material, written with explicit accesses as the packet parsers are.  They
do what the parsers of the engine do, so no access of theirs lies outside of the buffer, and
with the packet parsers this covers everything that reads bytes of the peer.
-/

namespace KmMessage

/-- `parse` with the accesses that the source performs. -/
def read (buf : Bytes) : Reading CryptoError KmMessage :=
  if buf.length ≤ kmHeaderLen then
    .error (.rejected (.badKmMessage "KM message not longer than its header"))
  else do
    let sekLen := (<- Reading.index buf 15).toNat * 4
    if sekLen = 0 then .error (.rejected (.badKmMessage "KM key length is zero"))
    else do
      let first <- Reading.index buf 0
      if first >>> 4 ≠ 0x1 then .error (.rejected (.unsupported "KM version is not 1"))
      else if first &&& 0x0F ≠ 0x2 then
        .error (.rejected (.badKmMessage "payload type is not KM"))
      else do
        let sign <- Reading.slice buf 1 3
        if sign ≠ kmSign then .error (.rejected (.badKmMessage "bad HaiCrypt signature"))
        else do
          let encapsulation <- Reading.index buf 10
          if encapsulation ≠ 2 then
            .error (.rejected (.unsupported "stream encapsulation is not TSSRT"))
          else do
            match KmKeys.fromByte (<- Reading.index buf 3) with
            | none => .error (.rejected (.badKmMessage "KM carries no key (KK = 0)"))
            | some keys => do
                let saltLen := (<- Reading.index buf 14).toNat * 4
                if kmSaltLen < saltLen then
                  .error (.rejected (.badKmMessage "salt longer than 16 bytes"))
                else if saltLen ≠ kmSaltLen then
                  .error (.rejected (.unsupported "salt shorter than 16 bytes"))
                else
                  match KeyLength.fromBytes sekLen with
                  | none => .error (.rejected (.badKmMessage "SEK length not 16/24/32"))
                  | some keyLen =>
                      if buf.length ≠ kmHeaderLen + saltLen + wrapIcvLen + keys.count * sekLen then
                        .error (.rejected (.badKmMessage "KM length does not match its fields"))
                      else do
                        let cipher <- Reading.index buf 8
                        if cipher ≠ 2 then
                          .error (.rejected (.unsupported "cipher is not AES-CTR"))
                        else do
                          let auth <- Reading.index buf 9
                          if auth ≠ 0 then .error (.rejected (.unsupported "auth is not none"))
                          else do
                            let bytes <- Reading.slice buf 16 32
                            -- The salt is copied into an array of 16 bytes.
                            if length_eq : bytes.length = 16 then do
                              let wrapped <- Reading.sliceFrom buf 32
                              return { keys, keyLen, salt := { bytes, length_eq }, wrapped }
                            else .error .fault

/-- No access lies outside of the message. -/
theorem read_eq (buf : Bytes) : read buf = Reading.report (parse buf) := by
  by_cases long : kmHeaderLen < buf.length
  · have inside : 16 < buf.length := long
    unfold read parse
    rw [if_neg (not_le.mpr long), dif_pos long,
      Reading.index_ok (by omega : 15 < buf.length), Reading.index_ok (by omega : 0 < buf.length),
      Reading.index_ok (by omega : 10 < buf.length), Reading.index_ok (by omega : 3 < buf.length),
      Reading.index_ok (by omega : 14 < buf.length), Reading.index_ok (by omega : 8 < buf.length),
      Reading.index_ok (by omega : 9 < buf.length),
      Reading.slice_ok (by omega : 1 ≤ 3) (by omega : 3 ≤ buf.length)]
    simp only [Reading.ok_bind]
    refine Reading.report_if (fun _ => rfl) fun zero => ?_
    refine Reading.report_if (fun _ => rfl) fun version => ?_
    refine Reading.report_if (fun _ => rfl) fun type => ?_
    refine Reading.report_if (fun _ => rfl) fun sign => ?_
    refine Reading.report_if (fun _ => rfl) fun encapsulation => ?_
    cases KmKeys.fromByte buf[3] with
    | none => rfl
    | some keys =>
        refine Reading.report_if (fun _ => rfl) fun above => ?_
        by_cases full : buf[14].toNat * 4 ≠ kmSaltLen
        · rw [if_pos full, dif_pos full]
          rfl
        · rw [if_neg full, dif_neg full]
          cases KeyLength.fromBytes (buf[15].toNat * 4) with
          | none => rfl
          | some keyLen =>
              dsimp only
              by_cases length : buf.length ≠
                  kmHeaderLen + buf[14].toNat * 4 + wrapIcvLen + keys.count * (buf[15].toNat * 4)
              · rw [if_pos length, dif_pos length]
                rfl
              · rw [if_neg length, dif_neg length]
                refine Reading.report_if (fun _ => rfl) fun cipher => ?_
                refine Reading.report_if (fun _ => rfl) fun auth => ?_
                rw [not_not] at full length
                change buf[14].toNat * 4 = 16 at full
                change buf.length = 16 + buf[14].toNat * 4 + 8 + _ at length
                have size : ((buf.drop 16).take (32 - 16)).length = 16 := by
                  rw [List.length_take, List.length_drop]
                  omega
                rw [Reading.slice_ok (by omega) (by omega), Reading.ok_bind, dif_pos size,
                  Reading.sliceFrom_ok (by omega)]
                rfl
  · unfold read parse
    rw [if_pos (not_lt.mp long), dif_neg long]
    rfl

end KmMessage

/-- `parse` with the conversion that the source performs. -/
def KmResponse.read (buf : Bytes) : Reading CryptoError KmResponse :=
  if buf.length ≤ 3 then .error (.rejected (.badKmMessage "KMRSP shorter than one word"))
  else if buf.length = 4 then do
    let word <- Reading.fixed 4 buf
    return .status (KmState.fromU32 (ofBigEndian word.reverse))
  else .ok (.echo buf)

theorem KmResponse.read_eq (buf : Bytes) : KmResponse.read buf = Reading.report (parse buf) := by
  by_cases four : buf.length = 4
  · rcases List.length_eq_four.mp four with ⟨b0, b1, b2, b3, rfl⟩
    have word : ofBigEndian [b0, b1, b2, b3].reverse =
        b0.toNat + b1.toNat * 2 ^ 8 + b2.toNat * 2 ^ 16 + b3.toNat * 2 ^ 24 := by
      change (((0 * 256 + b3.toNat) * 256 + b2.toNat) * 256 + b1.toNat) * 256 + b0.toNat = _
      omega
    unfold KmResponse.read
    rw [if_neg (by rw [four]; decide), if_pos four, Reading.fixed_ok four, Reading.ok_bind, word]
    rfl
  · have parsed : parse buf =
        if buf.length < 4 then .error (.badKmMessage "KMRSP shorter than one word")
        else .ok (.echo buf) := by
      unfold KmResponse.parse
      split
      · exact absurd rfl four
      · rfl
    unfold KmResponse.read
    rw [parsed, if_neg four]
    by_cases short : buf.length < 4
    · rw [if_pos (by omega), if_pos short]
      rfl
    · rw [if_neg (by omega), if_neg short]
      rfl

namespace Crypto

/-- `parseKmreq` with the accesses that the source performs. -/
def readKmreq (buf : Bytes) : Reading KmState KmMessage :=
  if buf.length ≤ kmHeaderLen then .error (.rejected .badSecret)
  else do
    let keyLen <- Reading.index buf 15
    if keyLen = 0 then .error (.rejected .badSecret)
    else
      match KmMessage.read buf with
      | .ok msg => .ok msg
      | .error (.rejected _) => .error (.rejected .noSecret)
      | .error .fault => .error .fault
      | .error .hang => .error .hang

theorem readKmreq_eq (buf : Bytes) : readKmreq buf = Reading.report (parseKmreq buf) := by
  unfold readKmreq parseKmreq
  by_cases short : buf.length ≤ kmHeaderLen
  · rw [if_pos short, if_pos (Or.inl short)]
    rfl
  · have inside : 15 < buf.length := lt_trans (by decide) (not_le.mp short)
    rw [if_neg short, Reading.index_ok inside, Reading.ok_bind, List.getElem?_eq_getElem inside]
    by_cases zero : buf[15] = 0
    · rw [if_pos zero, if_pos (Or.inr (congrArg some zero))]
      rfl
    · have rest : ¬(buf.length ≤ kmHeaderLen ∨ some buf[15] = some 0) := by
        rintro (less | same)
        · exact short less
        · exact zero (Option.some.inj same)
      rw [if_neg zero, if_neg rest, KmMessage.read_eq]
      cases KmMessage.parse buf with
      | ok msg => rfl
      | error err => rfl

end Crypto

/-- No parser accesses anything outside of what it parses, whatever the bytes are, and every
iteration of a loop over extension blocks or losses consumes at least four bytes. -/
theorem parsers_safe (buf : Bytes) :
    (Packet.parse buf).Safe ∧ (HandshakeCif.parseCif buf).Safe ∧ (ControlPacket.parse buf).Safe ∧
      (KmMessage.read buf).Safe ∧ (KmResponse.read buf).Safe ∧ (Crypto.readKmreq buf).Safe ∧
      (forall ext rest, extensionStep buf = .ok (some (ext, rest)) -> rest.length + 4 ≤ buf.length) ∧
      forall i range after, lossStep buf (buf.length / 4) i = .ok (some (range, after)) ->
        i * 4 + 4 ≤ after * 4 := by
  refine ⟨?_, ?_, ?_, ?_, ?_, ?_, ?_, ?_⟩
  · rcases Packet.parse_cases buf with ⟨err, refused⟩ | ⟨packet, parsed, _⟩
    · exact Or.inr ⟨err, refused⟩
    · exact Or.inl ⟨packet, parsed⟩
  · rcases HandshakeCif.parseCif_cases buf with ⟨err, refused⟩ | ⟨cif, parsed, _⟩
    · exact Or.inr ⟨err, refused⟩
    · exact Or.inl ⟨cif, parsed⟩
  · rcases ControlPacket.parse_cases buf with ⟨err, refused⟩ | ⟨packet, parsed, _⟩
    · exact Or.inr ⟨err, refused⟩
    · exact Or.inl ⟨packet, parsed⟩
  · rw [KmMessage.read_eq]
    exact Reading.report_safe _
  · rw [KmResponse.read_eq]
    exact Reading.report_safe _
  · rw [Crypto.readKmreq_eq]
    exact Reading.report_safe _
  · intro ext rest moved
    exact (extensionStep_consumes moved).1
  · intro i range after moved
    exact (lossStep_consumes (Nat.div_mul_le_self _ _) moved).2.1

end Rsrt

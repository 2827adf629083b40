import Rsrt.Packet.ControlCodec

namespace Rsrt

open Rsrt.Basis

/-!
# Round trips

Parsing undoes encoding on well-formed packets.  In the other direction, what the parser has
produced is well formed up to the lengths of the strings in a handshake: decoding a string
can drop all of it, or make it longer than the parser takes back.  A parsed packet whose
Extension Field is consistent therefore survives a round trip exactly if its strings fit.
-/

namespace Packet

theorem parse_encode {packet : Packet} (typed : packet.Typed) (shaped : packet.Shaped)
    (consistent : packet.Consistent) (fits : packet.Fits) :
    parse packet.encode = .ok packet := by
  cases packet with
  | data packet => exact parse_data packet
  | control packet =>
      rcases packet with ⟨timestamp, dstSocketId, controlType⟩
      have handshakes (cif : HandshakeCif) (is : controlType = .handshake cif) :
          HandshakeCif.parseCif cif.encodeCif = .ok cif := by
        subst is
        exact HandshakeCif.parseCif_encodeCif_of_fits typed shaped consistent fits
      rw [parse_control, ControlPacket.parse_encode_eq typed,
        ControlType.parse_encodeCif shaped handshakes]
      rfl

/-- The packet is one that the encoder is meant for. -/
structure WellFormed (packet : Packet) : Prop where
  typed : packet.Typed
  shaped : packet.Shaped
  consistent : packet.Consistent
  fits : packet.Fits

/-- Parsing undoes encoding. -/
theorem round_trip {packet : Packet} (wellFormed : packet.WellFormed) :
    parse packet.encode = .ok packet :=
  parse_encode wellFormed.typed wellFormed.shaped wellFormed.consistent wellFormed.fits

/-- A handshake with one block. -/
def sampleHandshake (field : Nat) (ext : HsExtension) : Packet :=
  control
    { timestamp := ⟨7⟩
      dstSocketId := ⟨0⟩
      controlType := .handshake
        { version := 5
          encryption := 0
          extensionField := field
          initialSeq := SeqNumber.new 99
          mss := 1500
          flowWindow := 8192
          handshakeType := .conclusion
          socketId := ⟨3⟩
          cookie := 0x6BEEF00D
          peerIp := List.replicate 16 0
          extensions := [ext] } }

/-- A stream id of two letters. -/
def namedHandshake : Packet := sampleHandshake hsExtConfig (.streamId [0x61, 0x62])

theorem namedHandshake_typed : namedHandshake.Typed := by
  refine ⟨by decide, by decide, by decide, by decide, by decide, by decide, rfl, ?_⟩
  intro ext member
  rw [List.mem_singleton.mp member]
  exact @Utf8.Text.cons 0x61 [] [] [0x62] rfl .nil (@Utf8.Text.cons 0x62 [] [] [] rfl .nil .nil)

theorem namedHandshake_shaped : namedHandshake.Shaped := by
  refine ⟨by decide, trivial, ?_⟩
  intro ext member
  rw [List.mem_singleton.mp member]
  change List.getLast? [(0x61 : UInt8), 0x62] ≠ some 0
  decide

theorem namedHandshake_fits : namedHandshake.Fits := by
  intro ext member
  rw [List.mem_singleton.mp member]
  change 1 ≤ 2 ∧ 2 ≤ 512
  decide

theorem round_trip_named :
    namedHandshake.WellFormed ∧ parse namedHandshake.encode = .ok namedHandshake := by
  have wellFormed : namedHandshake.WellFormed :=
    ⟨namedHandshake_typed, namedHandshake_shaped, fun _ => rfl, namedHandshake_fits⟩
  exact ⟨wellFormed, round_trip wellFormed⟩

end Packet

/-! ## Strings that do not fit -/

/-- A string whose length does not fit in the header of its block comes back shorter. -/
theorem length_lossy_cut {name : Bytes} (text : Utf8.Text name)
    (long : 2 ^ 16 ≤ (packBytesWords name).length / 4) :
    (Utf8.lossy (trimNul (packBytesWords ((packBytesWords name).take
      ((packBytesWords name).length / 4 % 2 ^ 16 * 4))))).length < name.length := by
  rw [take_packBytesWords, packBytesWords_twice, trimNul_replicate]
  rw [length_packBytesWords] at long ⊢
  have start := (trimNul_start (name.take ((name.length + 3) / 4 * 4 / 4 % 2 ^ 16 * 4))).trans
    (List.take_prefix _ name)
  have bound := Utf8.length_lossy_start text start
  have short := (trimNul_start (name.take ((name.length + 3) / 4 * 4 / 4 % 2 ^ 16 * 4))).length_le
  rw [List.length_take] at short
  omega

/-- A block that does not fit does not come back. -/
theorem fits_of_extensionStep {ext : HsExtension} (typed : ext.Typed) (shaped : ext.Shaped)
    {rest after : Bytes} (same : extensionStep (ext.encode ++ rest) = .ok (some (ext, after))) :
    ext.Fits := by
  have words (name : Bytes) : (packBytesWords name).length % 4 = 0 := by
    rw [length_packBytesWords]
    omega
  cases ext with
  | streamId sid =>
      rw [extensionStep_encode typed (words sid)] at same
      rcases Reading.of_bind same with ⟨parsed, decoded, whole⟩
      change parseExtension srtCmdSid ((packBytesWords sid).take
        ((packBytesWords sid).length / 4 % 2 ^ 16 * 4)) = _ at decoded
      cases whole
      rw [parseExtension_sid] at decoded
      split_ifs at decoded with size
      · cases decoded
      · by_cases long : 2 ^ 16 ≤ (packBytesWords sid).length / 4
        · have shorter := length_lossy_cut typed long
          rw [HsExtension.streamId.inj (Except.ok.inj decoded)] at shorter
          exact absurd shorter (Nat.lt_irrefl _)
        · rw [← List.length_eq_zero_iff, List.length_take] at size
          rw [length_packBytesWords] at size long
          change 1 ≤ sid.length ∧ sid.length ≤ 512
          omega
  | congestion name =>
      rw [extensionStep_encode typed (words name)] at same
      rcases Reading.of_bind same with ⟨parsed, decoded, whole⟩
      change parseExtension srtCmdCongestion ((packBytesWords name).take
        ((packBytesWords name).length / 4 % 2 ^ 16 * 4)) = _ at decoded
      cases whole
      rw [parseExtension_congestion] at decoded
      by_cases long : 2 ^ 16 ≤ (packBytesWords name).length / 4
      · have shorter := length_lossy_cut typed long
        rw [HsExtension.congestion.inj (Except.ok.inj decoded)] at shorter
        exact absurd shorter (Nat.lt_irrefl _)
      · rw [length_packBytesWords] at long
        change name.length ≤ 262140
        omega
  | _ => trivial

/-- Blocks that all come back fit. -/
theorem fits_of_parseExtensions {exts : List HsExtension}
    (good : forall ext, ext ∈ exts -> ext.Typed ∧ ext.Shaped)
    (same : parseExtensions (exts.flatMap HsExtension.encode) = .ok exts) (ext : HsExtension)
    (member : ext ∈ exts) : ext.Fits := by
  unfold parseExtensions at same
  generalize (exts.flatMap HsExtension.encode).length / 4 + 1 = fuel at same
  induction exts generalizing fuel with
  | nil => cases member
  | cons head exts ih =>
      rcases good head List.mem_cons_self with ⟨typed, shaped⟩
      cases fuel with
      | zero => cases same
      | succ fuel =>
          rw [Reading.loop, List.flatMap_cons] at same
          rcases Reading.of_bind same with ⟨outcome, found, rest⟩
          cases outcome with
          | none => cases rest
          | some pair =>
              rcases pair with ⟨first, after⟩
              rcases Reading.of_bind rest with ⟨tail, later, whole⟩
              cases whole
              have fits := fits_of_extensionStep typed shaped found
              rcases List.mem_cons.mp member with rfl | further
              · exact fits
              · rw [extensionStep_encode_of_whole typed
                  (HsExtension.wholeWords_content shaped fits),
                  parseExtension_content typed shaped fits] at found
                cases found
                exact ih (fun other inside => good other (List.mem_cons_of_mem _ inside)) further
                  fuel later

namespace Packet

/-- A parsed packet whose Extension Field is consistent survives a round trip exactly if its
strings fit. -/
theorem parse_stable_iff {datagram : Bytes} {packet : Packet}
    (parsed : parse datagram = .ok packet) (consistent : packet.Consistent) :
    parse packet.encode = .ok packet ↔ packet.Fits := by
  have image : packet.Typed ∧ packet.Shaped := by
    rcases parse_cases datagram with ⟨err, refused⟩ | ⟨self, read, facts⟩
    · rw [refused] at parsed
      cases parsed
    · rw [read] at parsed
      cases parsed
      exact facts
  rcases image with ⟨typed, shaped⟩
  constructor
  · intro same
    cases packet with
    | data packet => trivial
    | control packet =>
        change packet.controlType.Fits
        rw [parse_control, ControlPacket.parse_encode_eq typed] at same
        rcases packet with ⟨timestamp, dstSocketId, controlType⟩
        cases controlType with
        | handshake cif =>
            rcases Reading.of_bind same with ⟨packet, inner, whole⟩
            cases whole
            rcases Reading.of_bind inner with ⟨type, decoded, whole⟩
            cases whole
            change (do return ControlType.handshake (<- HandshakeCif.parseCif cif.encodeCif)) = _
              at decoded
            rcases Reading.of_bind decoded with ⟨again, read, whole⟩
            cases whole
            rw [HandshakeCif.parseCif_encodeCif typed shaped consistent] at read
            rcases Reading.of_bind read with ⟨extensions, blocks, whole⟩
            have back : extensions = cif.extensions :=
              congrArg HandshakeCif.extensions (Except.ok.inj whole)
            rw [back] at blocks
            exact fits_of_parseExtensions (fun ext member =>
              ⟨typed.extensions ext member, shaped.extensions ext member⟩) blocks
        | _ => trivial
  · intro fits
    exact parse_encode typed shaped consistent fits

theorem parse_stable_iff_named :
    parse namedHandshake.encode = .ok namedHandshake ∧ namedHandshake.Consistent := by
  have parsed : parse namedHandshake.encode = .ok namedHandshake := by decide +kernel
  exact ⟨(parse_stable_iff parsed fun _ => rfl).mpr namedHandshake_fits, fun _ => rfl⟩

/-- A stream id of one word of zeros is parsed as an empty string, which is encoded as a
block without content, which is parsed as an invalid block. -/
theorem parse_unstable_blank :
    parse (sampleHandshake hsExtConfig (.unknown srtCmdSid [0, 0, 0, 0])).encode =
        .ok (sampleHandshake hsExtConfig (.streamId [])) ∧
      (sampleHandshake hsExtConfig (.streamId [])).Consistent ∧
      parse (sampleHandshake hsExtConfig (.streamId [])).encode =
        .ok (sampleHandshake hsExtConfig (.invalid srtCmdSid [])) := by
  refine ⟨?_, fun _ => rfl, ?_⟩
  · decide +kernel
  · decide +kernel

end Packet

end Rsrt

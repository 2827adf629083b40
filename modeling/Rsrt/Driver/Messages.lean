import Rsrt.Core.Establishment
import Rsrt.Driver.Listener
import Rsrt.Packet.RoundTrip

namespace Rsrt

open Rsrt.Basis

/-!
# The handshakes on the wire

Every handshake that a caller with valid options or a listener sends is read back by the other
side as it was sent.  No other packet is ever read as a handshake.
-/

/-! ## Reading back -/

theorem ControlType.code_of_parse {typeCode subtype info : Nat} {bytes : Bytes}
    {cif : HandshakeCif}
    (parsed : ControlType.parse typeCode subtype info bytes = .ok (.handshake cif)) :
    typeCode = 0 := by
  unfold ControlType.parse at parsed
  split at parsed
  case h_1 => rfl
  case h_3 =>
    rcases Reading.of_bind parsed with ⟨_, _, other⟩
    cases other
  case h_4 =>
    rcases Reading.of_bind parsed with ⟨_, _, other⟩
    cases other
  case h_8 =>
    split_ifs at parsed
    · cases parsed
    · rcases Reading.of_bind parsed with ⟨_, _, rest⟩
      rcases Reading.of_bind rest with ⟨_, _, other⟩
      cases other
  case h_10 =>
    split_ifs at parsed
    all_goals cases parsed
  all_goals cases parsed

/-- Only a handshake has the code zero. -/
theorem ControlType.handshake_of_code {self : ControlType} (code : self.typeCode = 0) :
    Exists fun cif => self = .handshake cif := by
  cases self with
  | handshake cif => exact ⟨cif, rfl⟩
  | _ => cases code

/-- The parser reads the code that was written. -/
theorem ControlPacket.code_of_parse {self other : ControlPacket}
    (parsed : ControlPacket.parse self.encode = .ok other) :
    Exists fun info => Exists fun bytes =>
      ControlType.parse self.controlType.typeCode self.controlType.subtype info bytes =
        .ok other.controlType := by
  have first : readU32 self.encode 0 = .ok self.word0 := readU32_putU32 self.word0_lt _
  unfold ControlPacket.parse at parsed
  split_ifs at parsed
  · cases parsed
  · rw [first, Reading.ok_bind] at parsed
    rcases Reading.of_bind parsed with ⟨info, _, parsed⟩
    rcases Reading.of_bind parsed with ⟨bytes, _, parsed⟩
    rcases Reading.of_bind parsed with ⟨controlType, read, parsed⟩
    rcases Reading.of_bind parsed with ⟨_, _, parsed⟩
    rcases Reading.of_bind parsed with ⟨_, _, parsed⟩
    cases parsed
    rw [self.word0_typeCode, self.word0_subtype] at read
    exact ⟨info, bytes, read⟩

/-- What is read as a handshake was sent as one. -/
theorem Packet.handshake_of_parse {packet : Packet} {read : ControlPacket} {cif : HandshakeCif}
    (parsed : Packet.parse packet.encode = .ok (.control read))
    (message : read.controlType = .handshake cif) :
    Exists fun sent : ControlPacket => Exists fun cif' =>
      packet = .control sent ∧ sent.controlType = .handshake cif' := by
  cases packet with
  | data data =>
      rw [Packet.parse_data] at parsed
      cases parsed
  | control sent =>
      rw [Packet.parse_control] at parsed
      rcases Reading.of_bind parsed with ⟨other, inner, same⟩
      cases same
      rcases ControlPacket.code_of_parse inner with ⟨info, bytes, typed⟩
      rw [message] at typed
      rcases ControlType.handshake_of_code (ControlType.code_of_parse typed) with ⟨cif', is⟩
      exact ⟨sent, cif', rfl, is⟩

/-- The parser reads the CIF back. -/
structure HandshakeCif.Encodable (cif : HandshakeCif) : Prop where
  typed : cif.Typed
  shaped : cif.Shaped
  consistent : cif.Consistent
  fits : cif.Fits

theorem HandshakeCif.Encodable.parse {cif : HandshakeCif} (encodable : cif.Encodable)
    {packet : ControlPacket} (message : packet.controlType = .handshake cif) :
    Packet.parse (Packet.control packet).encode = .ok (.control packet) := by
  rcases packet with ⟨timestamp, dst, controlType⟩
  subst message
  exact @Packet.parse_encode (.control ⟨timestamp, dst, .handshake cif⟩) encodable.typed
    encodable.shaped encodable.consistent encodable.fits

/-- Without blocks there is nothing to be inconsistent about. -/
theorem HandshakeCif.Encodable.of_bare {cif : HandshakeCif} (typed : cif.Typed)
    (shaped : cif.Shaped) (bare : cif.extensions = []) : cif.Encodable where
  typed := typed
  shaped := shaped
  consistent := fun attached => absurd bare attached
  fits := by
    intro ext member
    rw [bare] at member
    cases member

/-- What the parser has read is a value of the source's type. -/
theorem Packet.typed_of_parse {bytes : Bytes} {packet : Packet}
    (parsed : Packet.parse bytes = .ok packet) : packet.Typed ∧ packet.Shaped := by
  rcases Packet.parse_cases bytes with ⟨err, refused⟩ | ⟨read, ok, typed, shaped⟩
  · rw [refused] at parsed
    cases parsed
  · rw [ok] at parsed
    cases parsed
    exact ⟨typed, shaped⟩

/-! ## Options -/

/-- The options are values of the source's types. -/
structure SrtOptions.Typed (opts : SrtOptions) : Prop where
  mss : opts.mss < 2 ^ 32
  flowWindow : opts.flowWindow < 2 ^ 32
  streamid : forall sid, opts.streamid = some sid -> Utf8.Text sid

/-- A stream id has 1 to 512 bytes and does not end in a NUL. -/
def SrtOptions.Named (opts : SrtOptions) : Prop :=
  forall sid, opts.streamid = some sid -> (1 ≤ sid.length ∧ sid.length ≤ 512) ∧
    sid.getLast? ≠ some 0

theorem pbkeylenBits_lt (pbkeylen : Option KeyLength) :
    (pbkeylen.map pbkeylenBits).getD 0 < 2 ^ 16 := by
  rcases pbkeylen with _ | ⟨_ | _ | _⟩ <;> decide

theorem msU16_lt (d : Duration) : msU16 d < 2 ^ 16 := by
  have capped := Nat.min_le_right (Duration.asMillis d) 65535
  unfold msU16
  omega

theorem liveFields_typed (latency peerLatency : Duration) :
    HsExtFields.Typed
      { srtVersion := srtVersion
        flags := HsFlags.liveDefaults
        recvLatencyMs := msU16 latency
        sendLatencyMs := msU16 peerLatency } :=
  ⟨(by decide : srtVersion < 2 ^ 32), (by decide : HsFlags.liveDefaults.bits < 2 ^ 32),
    msU16_lt latency, msU16_lt peerLatency⟩

theorem HandshakeCif.length_encodePeerIp {addr : SocketAddrV4} (octets : addr.ip.length = 4) :
    (encodePeerIp addr).length = 16 := by
  unfold encodePeerIp
  rw [List.length_append, List.length_reverse, List.length_replicate, octets]

/-! ## Requests -/

namespace CallerHandshake

variable {P : Primitives} {hs : CallerHandshake}

/-- What a caller's requests carry fits in their fields. -/
structure Posing (hs : CallerHandshake) : Prop where
  octets : hs.remote.ip.length = 4
  initialSeq : hs.initialSeq.value < SeqNumber.mask
  typed : hs.opts.Typed
  named : hs.opts.Named
  encAdvert : hs.encAdvert < 2 ^ 16
  kmreq : forall blob, hs.crypto.bind Crypto.kmreq = some blob -> HsExtension.WholeWords blob

theorem Posing.induction (posing : hs.Posing) : hs.inductionCif.Encodable := by
  refine .of_bare ?_ ?_ rfl
  · exact ⟨(by decide : hsVersionUdt4 < 2 ^ 32), (by decide : 0 < 2 ^ 16),
      (by decide : udtDgram < 2 ^ 16), posing.typed.mss, posing.typed.flowWindow,
      (by decide : 0 < 2 ^ 32), HandshakeCif.length_encodePeerIp posing.octets, nofun⟩
  · exact ⟨posing.initialSeq, trivial, nofun⟩

/-- A valid stream id is attached. -/
theorem Posing.attachedStreamid (posing : hs.Posing) : hs.attachedStreamid = hs.opts.streamid := by
  unfold CallerHandshake.attachedStreamid
  cases present : hs.opts.streamid with
  | none => rfl
  | some sid =>
      rcases (posing.named sid present).1 with ⟨filled, short⟩
      have content : sid.isEmpty = false := by
        cases sid with
        | nil => cases filled
        | cons => rfl
      rw [Option.filter_some, content, decide_eq_true short]
      rfl

/-- The blocks of the conclusion. -/
theorem mem_conclusionCif {cookie : Nat} {ext : HsExtension}
    (member : ext ∈ (hs.conclusionCif cookie).extensions) :
    (Exists fun fields : HsExtFields => ext = .hsReq fields ∧ fields.Typed) ∨
      (Exists fun sid => ext = .streamId sid ∧ hs.attachedStreamid = some sid) ∨
      Exists fun blob => ext = .kmReq blob ∧ hs.crypto.bind Crypto.kmreq = some blob := by
  rcases List.mem_append.mp member with front | carried
  · rcases List.mem_append.mp front with hello | named
    · rw [List.mem_singleton.mp hello]
      refine Or.inl ⟨_, rfl, ?_⟩
      exact liveFields_typed _ _
    · rcases Option.map_eq_some_iff.mp (Option.mem_toList.mp named) with ⟨sid, present, rfl⟩
      exact Or.inr (Or.inl ⟨sid, rfl, present⟩)
  · rcases Option.map_eq_some_iff.mp (Option.mem_toList.mp carried) with ⟨blob, present, rfl⟩
    exact Or.inr (Or.inr ⟨blob, rfl, present⟩)

theorem conclusionCif_consistent (cookie : Nat) : (hs.conclusionCif cookie).Consistent := by
  intro _
  unfold conclusionCif HandshakeCif.extensionBits
  dsimp only
  cases hs.attachedStreamid with
  | none =>
      cases hs.crypto.bind Crypto.kmreq with
      | none => simp [HandshakeCif.extensionBit]
      | some blob => simp [HandshakeCif.extensionBit]
  | some sid =>
      cases hs.crypto.bind Crypto.kmreq with
      | none => simp [HandshakeCif.extensionBit]
      | some blob => simp [HandshakeCif.extensionBit]

theorem Posing.conclusion (posing : hs.Posing) {cookie : Nat} (small : cookie < 2 ^ 32) :
    (hs.conclusionCif cookie).Encodable := by
  have field : (hs.conclusionCif cookie).extensionField < 2 ^ 16 := by
    unfold conclusionCif
    dsimp only
    split_ifs <;> decide
  refine ⟨?_, ?_, conclusionCif_consistent cookie, ?_⟩
  · refine ⟨(by decide : hsVersionSrt1 < 2 ^ 32), posing.encAdvert, field, posing.typed.mss, posing.typed.flowWindow, small,
      HandshakeCif.length_encodePeerIp posing.octets, ?_⟩
    intro ext member
    rcases mem_conclusionCif member with ⟨fields, rfl, typed⟩ | ⟨sid, rfl, present⟩ | ⟨blob, rfl, _⟩
    · exact typed
    · exact posing.typed.streamid sid (posing.attachedStreamid ▸ present)
    · trivial
  · refine ⟨posing.initialSeq, trivial, ?_⟩
    intro ext member
    rcases mem_conclusionCif member with ⟨fields, rfl, _⟩ | ⟨sid, rfl, present⟩ | ⟨blob, rfl, sent⟩
    · trivial
    · exact (posing.named sid (posing.attachedStreamid ▸ present)).2
    · exact posing.kmreq blob sent
  · intro ext member
    rcases mem_conclusionCif member with ⟨fields, rfl, _⟩ | ⟨sid, rfl, present⟩ | ⟨blob, rfl, _⟩
    · trivial
    · exact (posing.named sid (posing.attachedStreamid ▸ present)).1
    · trivial

end CallerHandshake

/-! ## Answers -/

instance (code : Nat) : Decidable (HandshakeType.rejection code).WellFormed :=
  inferInstanceAs (Decidable (_ ∧ _))

/-- A refusal echoes a request that was read. -/
theorem HandshakeCif.rejection_encodable {cif : HandshakeCif} (typed : cif.Typed)
    (shaped : cif.Shaped) {code : Nat} (wellFormed : (HandshakeType.rejection code).WellFormed) :
    HandshakeCif.Encodable { cif with handshakeType := .rejection code, extensions := [] } :=
  .of_bare ⟨typed.version, typed.encryption, typed.extensionField, typed.mss, typed.flowWindow,
    typed.cookie, typed.peerIp, nofun⟩ ⟨shaped.initialSeq, wellFormed, nofun⟩ rfl

namespace Listener

variable {P : Primitives} {listener : Listener} {now : Instant} {peer : SocketAddrV4}
  {cif : HandshakeCif} {newId : SocketId}

/-- What the listener puts into its answers fits in their fields. -/
structure Answering (listener : Listener) : Prop where
  typed : listener.opts.Typed
  cookies : forall minute addr, listener.cookieAt minute addr < 2 ^ 32

/-- The answer is read back, and is no conclusion. -/
structure Declines (answer : HandshakeCif) : Prop where
  encodable : answer.Encodable
  declines : answer.handshakeType ≠ .conclusion

theorem refusedBlock_wellFormed {extensions : List HsExtension} {code : Nat}
    (refused : refusedBlock extensions = some code) :
    (HandshakeType.rejection code).WellFormed := by
  induction extensions with
  | nil => cases refused
  | cons ext rest ih =>
      cases ext with
      | congestion name =>
          unfold refusedBlock at refused
          split_ifs at refused
          · cases refused
            decide
          · exact ih refused
      | unknown cmd data =>
          unfold refusedBlock at refused
          split_ifs at refused
          · cases refused
            decide
          · exact ih refused
      | invalid cmd data =>
          cases refused
          decide
      | _ => exact ih refused

theorem answerKmx_wellFormed {kmreq : Option Bytes} {code : Nat}
    (refused : listener.answerKmx P kmreq = .error code) :
    (HandshakeType.rejection code).WellFormed := by
  unfold answerKmx at refused
  split at refused
  · cases refused
    decide
  · split at refused
    · cases refused
    · cases refused
      decide
    · cases refused
      decide
    · split at refused
      · cases refused
      · cases refused
        split_ifs <;> decide

/-- Replies are induction responses and refusals. -/
theorem handleHandshake_reply (answering : listener.Answering) (typed : cif.Typed)
    (shaped : cif.Shaped) {packet : Packet}
    (replies : listener.handleHandshake P now peer cif newId = .reply packet) :
    Exists fun answer => packet = listener.packet now cif.socketId answer ∧ Declines answer := by
  have refusal {code : Nat} (wellFormed : (HandshakeType.rejection code).WellFormed)
      (refuses : listener.rejection now cif code = .reply packet) :
      Exists fun answer => packet = listener.packet now cif.socketId answer ∧ Declines answer := by
    cases refuses
    exact ⟨_, rfl, HandshakeCif.rejection_encodable typed shaped wellFormed, nofun⟩
  unfold handleHandshake at replies
  split at replies
  case h_1 inducing =>
    cases replies
    refine ⟨_, rfl, .of_bare ?_ ⟨shaped.initialSeq, shaped.handshakeType, nofun⟩ rfl, ?_⟩
    · exact ⟨(by decide : hsVersionSrt1 < 2 ^ 32), pbkeylenBits_lt _,
        (by decide : srtMagic < 2 ^ 16), typed.mss, typed.flowWindow, answering.cookies _ _,
        typed.peerIp, nofun⟩
    · change cif.handshakeType ≠ .conclusion
      rw [inducing]
      nofun
  case h_2 =>
    unfold onConclusion at replies
    iterate 2
      split at replies
      · cases replies
    iterate 5
      split at replies
      · exact refusal (by decide) replies
    split at replies
    · next refused => exact refusal (refusedBlock_wellFormed refused) replies
    split at replies
    · next refused => exact refusal (answerKmx_wellFormed refused) replies
    · cases replies
  case h_3 => cases replies

/-- The answer to a key message carries that message. -/
theorem answerKmx_kmRsp {kmreq kmRsp : Option Bytes} {crypto : Option Crypto}
    (answered : listener.answerKmx P kmreq = .ok (crypto, kmRsp)) : kmRsp = kmreq := by
  unfold answerKmx at answered
  split at answered
  · cases answered
  · split at answered
    · cases answered
      rfl
    · cases answered
    · cases answered
    · split at answered
      · cases answered
        rfl
      · cases answered

theorem wholeWords_of_kmReq (shaped : cif.Shaped) {blob : Bytes} (carried : cif.kmReq = some blob) :
    HsExtension.WholeWords blob := by
  rcases List.exists_of_findSome?_eq_some carried with ⟨ext, member, found⟩
  have blocks := shaped.extensions ext member
  cases ext with
  | kmReq data =>
      cases found
      exact blocks
  | _ => cases found

/-- The reply of an accepted conclusion. -/
structure Accepts (P : Primitives) (listener : Listener) (peer : SocketAddrV4) (cif : HandshakeCif)
    (newId : SocketId) (answer : HandshakeCif) (negotiated : Negotiated) : Prop where
  encodable : answer.Encodable
  concluding : cif.handshakeType = .conclusion
  taken : Exists fun fields => cif.hsExt = some fields ∧ Exists fun crypto => Exists fun now =>
    listener.answerKmx P cif.kmReq = .ok (crypto, cif.kmReq) ∧
      listener.acceptance now peer cif newId fields crypto cif.kmReq =
        .accept (listener.packet now cif.socketId answer) negotiated

theorem handleHandshake_accepts (answering : listener.Answering) (octets : peer.ip.length = 4)
    (typed : cif.Typed) (shaped : cif.Shaped) {reply : Packet} {negotiated : Negotiated}
    (accepts : listener.handleHandshake P now peer cif newId = .accept reply negotiated) :
    Exists fun answer => reply = listener.packet now cif.socketId answer ∧
      listener.Accepts P peer cif newId answer negotiated := by
  rcases handleHandshake_acceptance accepts with
    ⟨concluding, fields, proposed, crypto, kmRsp, answered, acceptance⟩
  have echoed := answerKmx_kmRsp answered
  subst echoed
  have taken := acceptance
  cases acceptance
  refine ⟨_, rfl, ⟨?_, ?_, ?_, ?_⟩, concluding, fields, proposed, crypto, now,
    answered, taken⟩
  · refine ⟨(by decide : hsVersionSrt1 < 2 ^ 32), pbkeylenBits_lt _, ?_,
      lt_of_le_of_lt (Nat.min_le_right _ _) typed.mss, answering.typed.flowWindow, typed.cookie,
      HandshakeCif.length_encodePeerIp octets, ?_⟩
    · dsimp only
      split_ifs <;> decide
    · intro ext member
      rcases List.mem_cons.mp member with rfl | carried
      · exact liveFields_typed _ _
      · rcases Option.map_eq_some_iff.mp (Option.mem_toList.mp carried) with ⟨blob, _, rfl⟩
        trivial
  · refine ⟨shaped.initialSeq, trivial, ?_⟩
    intro ext member
    rcases List.mem_cons.mp member with rfl | carried
    · trivial
    · rcases Option.map_eq_some_iff.mp (Option.mem_toList.mp carried) with ⟨blob, present, rfl⟩
      exact wholeWords_of_kmReq shaped present
  · intro _
    unfold HandshakeCif.extensionBits
    dsimp only
    cases cif.kmReq with
    | none => simp [HandshakeCif.extensionBit]
    | some blob => simp [HandshakeCif.extensionBit]
  · intro ext member
    rcases List.mem_cons.mp member with rfl | carried
    · trivial
    · rcases Option.map_eq_some_iff.mp (Option.mem_toList.mp carried) with ⟨blob, _, rfl⟩
      trivial

end Listener

end Rsrt

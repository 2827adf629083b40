import Rsrt.Core.StackLog
import Rsrt.Crypto.Rotation

namespace Rsrt

open Rsrt.Basis

/-!
# Encryption cannot be bypassed

An endpoint with a passphrase gets an engine before it is established, and keeps it.
From then on every payload is sealed with the key in use when it was submitted, and
nothing is delivered that the engine did not open with an installed key, whatever the
peer sends.  A listener accepts a caller of the same kind only if both know the same
passphrase or neither has one.
-/

/-- The passphrase that the options ask for; an empty one is none. -/
def SrtOptions.secret (self : SrtOptions) : Option Bytes :=
  self.passphrase.filter fun pw => !pw.isEmpty

theorem SrtOptions.cryptoConfig_secret {opts : SrtOptions} {cfg : Option CryptoConfig}
    (resolved : opts.cryptoConfig = .ok cfg) :
    cfg.map CryptoConfig.passphrase = opts.secret := by
  unfold cryptoConfig at resolved
  unfold secret
  split at resolved
  case h_1 absent =>
    cases resolved
    exact absent.symm
  case h_2 pw present =>
    dsimp only at resolved
    split_ifs at resolved
    all_goals
      cases resolved
      exact present.symm

/-! ## Engines -/

namespace Crypto

/-- Every sending slot runs the key schedule of its own key. -/
def Scheduled (c : Crypto) : Prop :=
  forall slot key, c.tx.get slot = some key -> key.cipher = .new key.key

section Scheduled

variable {P : Primitives} {c c' : Crypto}

theorem Scheduled.activeKey (scheduled : c.Scheduled) : c.activeKey.cipher = .new c.activeKey.key :=
  scheduled c.active c.activeKey c.get_activeKey

theorem Scheduled.of_keeps (scheduled : c.Scheduled) (keeps : Keeps c c') : c'.Scheduled := by
  intro slot key present
  rcases keeps.slots slot key present with ⟨old, before, sameKey, sameCipher⟩
  rw [← sameKey, ← sameCipher]
  exact scheduled slot old before

theorem Scheduled.of_sendsAlike (scheduled : c.Scheduled) (alike : SendsAlike c c') :
    c'.Scheduled := by
  intro slot key present
  rw [alike.tx] at present
  exact scheduled slot key present

theorem Scheduled.onAck (scheduled : c.Scheduled) (now : Instant) (srttUs : Nat)
    (fresh : SecretKey) : (c.onAck P now srttUs fresh).1.Scheduled := by
  rcases @onAck_cases P c now srttUs fresh with ⟨_, out, evaluated⟩ |
    ⟨_, ticked, out, evaluated, moves⟩
  · rw [evaluated]
    intro slot key present
    rcases announce_slots c fresh present with ⟨same, ⟨rfl, rfl⟩ | ⟨rfl, cipher⟩⟩
    · exact scheduled.activeKey
    · rw [cipher, same, announcedKeys, if_neg c.active.other_ne]
  · have kept : ticked.Scheduled := by
      rcases moves with ⟨rfl, _⟩ | ticks
      · exact scheduled
      · exact scheduled.of_keeps ticks.keeps
    rw [evaluated]
    exact kept

theorem newInitiator_scheduled (cfg : CryptoConfig) (salt : Salt) (sek : SecretKey) :
    (newInitiator P cfg salt sek).Scheduled := by
  intro slot key present
  cases slot with
  | even =>
      cases present
      rfl
  | odd => cases present

theorem newResponder_scheduled {cfg : CryptoConfig} {kmreq : Bytes}
    (accepted : newResponder P cfg kmreq = .ok c) : c.Scheduled := by
  rcases newResponder_ok accepted with ⟨msg, sek, _, _, _, _, _, _, _, _, tx, _⟩
  intro slot key present
  rw [tx, SlotPair.get_map] at present
  rcases Option.map_eq_some_iff.mp present with ⟨sek, _, rfl⟩
  rfl

end Scheduled

end Crypto

/-! ## The components -/

/-- There is an engine, and there was one at every entry of the log. -/
structure Stack.Session.Armed (t : Stack.Session) : Prop where
  engine : Exists fun engine => t.stack.crypto = some engine ∧ engine.Scheduled
  submitted : forall sub, sub ∈ t.log.submitted ->
    Exists fun engine => sub.engine = some engine ∧ engine.Scheduled
  received : forall reception, reception ∈ t.log.received ->
    Exists fun engine => reception.engine = some engine

namespace Stack.Session.Armed

variable {P : Primitives} {t t' : Stack.Session}

/-- Most calls only exchange the engine for its successor. -/
theorem of_engine (armed : t.Armed) {engine : Crypto} (kept : t'.stack.crypto = some engine)
    (scheduled : engine.Scheduled) (log : t'.log = t.log) : t'.Armed where
  engine := ⟨engine, kept, scheduled⟩
  submitted := log ▸ armed.submitted
  received := log ▸ armed.received

theorem push (armed : t.Armed) (now : Instant) (payload : Bytes) :
    (t.step P (.push now payload)).Armed := by
  rcases armed.engine with ⟨engine, present, scheduled⟩
  have sealed (seq : SeqNumber) : Exists fun after =>
      (Sender.sealPayload P t.stack.crypto seq payload).1 = some after ∧ after.Scheduled := by
    unfold Sender.sealPayload
    rw [present]
    dsimp only
    split_ifs
    · exact ⟨engine, rfl, scheduled⟩
    · exact ⟨_, rfl, scheduled.of_keeps (Crypto.encrypt_keeps engine seq payload)⟩
  refine ⟨?_, ?_, armed.received⟩
  · change Exists fun engine => (t.stack.call P (.push now payload)).crypto = some engine ∧ _
    unfold Stack.call
    dsimp only
    split
    case h_1 ok =>
      rcases Sender.push_ok ok with ⟨_, flags, wirePayload, _, sealing⟩
      have after := sealed ((t.stack.sender.makeRoom now payload.length).seqAt
        ((t.stack.sender.makeRoom now payload.length).baseIndex +
          (t.stack.sender.makeRoom now payload.length).buffer.length))
      rw [sealing] at after
      exact after
    case h_2 => exact armed.engine
  · intro sub member
    rcases List.mem_append.mp member with old | new
    · exact armed.submitted sub old
    · have recorded := Option.mem_toList.mp new
      unfold Stack.submission at recorded
      split_ifs at recorded
      cases recorded
      exact armed.engine

theorem data (armed : t.Armed) (now : Instant) (packet : DataPacket) :
    (t.step P (.data now packet)).Armed := by
  rcases armed.engine with ⟨engine, present, scheduled⟩
  refine ⟨?_, armed.submitted, ?_⟩
  · have opened := scheduled.of_sendsAlike
      (Crypto.decrypt_sendsAlike P engine packet.seq packet.encryption packet.payload)
    change Exists fun engine =>
      (Connection.ingestData P now t.stack.receiver t.stack.crypto packet).2 = some engine ∧ _
    rw [Connection.ingestData_crypto, present]
    exact ⟨_, rfl, opened⟩
  · intro reception member
    rcases List.mem_append.mp member with old | new
    · exact armed.received reception old
    · rw [List.mem_singleton.mp new]
      exact ⟨engine, present⟩

theorem step (armed : t.Armed) (call : Stack.Call) : (t.step P call).Armed := by
  rcases armed.engine with ⟨engine, present, scheduled⟩
  cases call with
  | push now payload => exact armed.push now payload
  | data now packet => exact armed.data now packet
  | ack now ackNumber cif fresh =>
      have after : Exists fun engine =>
          (t.stack.call P (.ack now ackNumber cif fresh)).crypto = some engine ∧
            engine.Scheduled := by
        unfold Stack.call
        dsimp only
        split
        · rw [present]
          exact ⟨_, rfl, scheduled.onAck now _ fresh⟩
        · exact armed.engine
      rcases after with ⟨engine, kept, scheduled⟩
      exact armed.of_engine kept scheduled rfl
  | nak now ranges => exact armed.of_engine present scheduled rfl
  | ackAck now ackNumber ts => exact armed.of_engine present scheduled rfl
  | dropRequest now msgNumber first last => exact armed.of_engine present scheduled rfl
  | kmReq payload =>
      have kept : (t.stack.call P (.kmReq payload)).crypto =
          some (engine.handleKmreq P payload).1 := by
        change t.stack.crypto.map _ = _
        rw [present]
        rfl
      exact armed.of_engine kept
        (scheduled.of_sendsAlike (Crypto.handleKmreq_sendsAlike engine payload)) rfl
  | kmRsp payload =>
      have kept : (t.stack.call P (.kmRsp payload)).crypto =
          some (engine.handleKmrsp payload).1 := by
        change t.stack.crypto.map _ = _
        rw [present]
        rfl
      exact armed.of_engine kept
        (scheduled.of_sendsAlike (Crypto.handleKmrsp_sendsAlike engine payload)) rfl
  | timer now => exact armed.of_engine present scheduled rfl
  | anchor instant ts => exact armed.of_engine present scheduled rfl
  | transmit now =>
      exact armed.of_engine ((t.stack.poll_crypto now).trans present) scheduled rfl
  | deliver now => exact armed.of_engine present scheduled rfl

end Stack.Session.Armed

/-! ## The caller's handshake -/

namespace CallerHandshake

/-- What the handshake holds for a passphrase: first the configuration, then the engine
that was made from it. -/
def Equipped (P : Primitives) (secret : Option Bytes) (hs : CallerHandshake) : Prop :=
  match hs.state with
  | .induction => hs.cryptoCfg.map CryptoConfig.passphrase = secret
  | .conclusion _ =>
      Exists fun cfg : Option CryptoConfig => Exists fun draw : Draw =>
        cfg.map CryptoConfig.passphrase = secret ∧
          hs.crypto = cfg.map fun cfg => Crypto.newInitiator P cfg draw.salt draw.key
  | .established => True
  | .failed => True

section Equipped

variable {P : Primitives} {secret : Option Bytes} {hs : CallerHandshake}

theorem new_equipped (now : Instant) (remote : SocketAddrV4) (localSocketId : SocketId)
    (initialSeq : SeqNumber) (timebase : Timebase) (opts : SrtOptions) :
    Equipped P opts.secret (new now remote localSocketId initialSeq timebase opts) := by
  unfold Equipped new
  dsimp only
  cases resolved : opts.cryptoConfig with
  | ok cfg => exact SrtOptions.cryptoConfig_secret resolved
  | error err => exact trivial

theorem adoptPeerPbkeylen_passphrase (cfg : CryptoConfig) (advert : Nat) :
    (adoptPeerPbkeylen cfg advert).passphrase = cfg.passphrase := by
  unfold adoptPeerPbkeylen
  split <;> rfl

theorem onInductionResponse_equipped (equipped : Equipped P secret hs)
    (state : hs.state = .induction) (now : Instant) (cif : HandshakeCif) (draw : Draw)
    (goes_on : (hs.onInductionResponse P now cif draw).2 = .ok none) :
    Equipped P secret (hs.onInductionResponse P now cif draw).1 := by
  have configured : hs.cryptoCfg.map CryptoConfig.passphrase = secret := by
    unfold Equipped at equipped
    rw [state] at equipped
    exact equipped
  unfold onInductionResponse at goes_on ⊢
  split_ifs at goes_on ⊢
  · exact equipped
  · cases goes_on
  · refine ⟨hs.cryptoCfg.map fun cfg => adoptPeerPbkeylen cfg cif.encryption, draw, ?_, rfl⟩
    rw [← configured, Option.map_map]
    apply congrArg (fun f => hs.cryptoCfg.map f)
    funext cfg
    exact adoptPeerPbkeylen_passphrase cfg cif.encryption

theorem conclude_completes (cif : HandshakeCif) (fields : HsExtFields) :
    (hs.conclude cif fields).2 ≠ .ok none := nofun

theorem judgeKmx_completes (cif : HandshakeCif) (fields : HsExtFields) :
    (hs.judgeKmx cif fields).2 ≠ .ok none := by
  unfold judgeKmx
  split
  · split
    · exact conclude_completes cif fields
    · exact conclude_completes cif fields
    · exact nofun
    · exact nofun
  · split_ifs
    · exact nofun
    · exact conclude_completes cif fields

/-- A response that does not end the handshake is ignored. -/
theorem onConclusionResponse_same {cif : HandshakeCif}
    (goes_on : (hs.onConclusionResponse cif).2 = .ok none) : (hs.onConclusionResponse cif).1 = hs := by
  unfold onConclusionResponse at goes_on ⊢
  split at goes_on
  case h_2 => rfl
  case h_1 =>
    split_ifs at goes_on
    all_goals try cases goes_on
    split at goes_on
    · cases goes_on
    · split_ifs at goes_on
      all_goals try cases goes_on
      exact absurd goes_on (judgeKmx_completes cif _)

theorem handleHandshake_equipped (equipped : Equipped P secret hs) (now : Instant)
    (cif : HandshakeCif) (draw : Draw) (goes_on : (hs.handleHandshake P now cif draw).2 = .ok none) :
    Equipped P secret (hs.handleHandshake P now cif draw).1 := by
  unfold handleHandshake at goes_on ⊢
  split_ifs at goes_on ⊢
  · split at goes_on
    case h_1 => cases goes_on
    case h_2 state _ => exact onInductionResponse_equipped equipped state now cif draw goes_on
    case h_3 =>
      rw [onConclusionResponse_same goes_on]
      exact equipped
    case h_4 => exact equipped
  · exact equipped

theorem pollTransmit_equipped (equipped : Equipped P secret hs) (now : Instant) :
    Equipped P secret (hs.pollTransmit now).1 := by
  unfold pollTransmit
  split
  · exact equipped
  · split_ifs
    · exact equipped
    · exact equipped

theorem pollTransmit_control {now : Instant} {packet : Packet}
    (sent : (hs.pollTransmit now).2 = some packet) : Exists fun message => packet = .control message := by
  unfold pollTransmit at sent
  split at sent
  · cases sent
  · split_ifs at sent
    cases sent
    exact ⟨_, rfl⟩

/-- A handshake that passes the key exchange is concluded without an engine, or with the
engine that has taken the answer to its key message. -/
theorem judgeKmx_concluded {cif : HandshakeCif} {fields : HsExtFields} {negotiated : Negotiated}
    (done : (hs.judgeKmx cif fields).2 = .ok (some negotiated)) :
    (hs.crypto = none ∧ (hs.conclude cif fields).2 = .ok (some negotiated)) ∨
      Exists fun engine => Exists fun payload => hs.crypto = some engine ∧
        cif.kmRsp = some payload ∧
        ({ hs with crypto := some (engine.handleKmrsp payload).1 }.conclude cif fields).2 =
          .ok (some negotiated) := by
  unfold judgeKmx at done
  cases keyed : hs.crypto with
  | none =>
      rw [keyed] at done
      dsimp only at done
      split_ifs at done
      · cases done
      · exact Or.inl ⟨rfl, done⟩
  | some engine =>
      rw [keyed] at done
      dsimp only at done
      cases found : cif.kmRsp with
      | none =>
          rw [found] at done
          cases done
      | some payload =>
          refine Or.inr ⟨engine, payload, rfl, rfl, ?_⟩
          rw [found, Option.map_some] at done
          generalize engine.handleKmrsp payload = outcome at done ⊢
          rcases outcome with ⟨after, confirmed | failed | ignored⟩
          · exact done
          · cases failed
            all_goals first
              | exact done
              | cases done
          · cases done

/-- A completed handshake hands over the engine that it was equipped with. -/
theorem judgeKmx_engine {cif : HandshakeCif} {fields : HsExtFields} {negotiated : Negotiated}
    {cfg : CryptoConfig} {draw : Draw}
    (equipped : hs.crypto = some (Crypto.newInitiator P cfg draw.salt draw.key))
    (done : (hs.judgeKmx cif fields).2 = .ok (some negotiated)) :
    Exists fun engine => negotiated.crypto = some engine ∧ engine.Scheduled := by
  have scheduled (payload : Bytes) :=
    (Crypto.newInitiator_scheduled (P := P) cfg draw.salt draw.key).of_sendsAlike
      (Crypto.handleKmrsp_sendsAlike _ payload)
  rcases judgeKmx_concluded done with ⟨absent, _⟩ | ⟨engine, payload, present, _, concluded⟩
  · rw [equipped] at absent
    cases absent
  · rw [equipped] at present
    cases present
    cases concluded
    exact ⟨_, rfl, scheduled payload⟩

theorem onConclusionResponse_judged {cif : HandshakeCif} {negotiated : Negotiated}
    (done : (hs.onConclusionResponse cif).2 = .ok (some negotiated)) :
    cif.handshakeType = .conclusion ∧ Exists fun fields => cif.hsRsp = some fields ∧
      (hs.judgeKmx cif fields).2 = .ok (some negotiated) := by
  unfold onConclusionResponse at done
  split at done
  case h_2 => cases done
  case h_1 concluding =>
    refine ⟨concluding, ?_⟩
    split_ifs at done
    all_goals try cases done
    split at done
    case h_1 => cases done
    case h_2 fields present =>
      split_ifs at done
      all_goals try cases done
      exact ⟨fields, present, done⟩

/-- Only the response to a CONCLUSION request completes a handshake. -/
theorem handleHandshake_judged {now : Instant} {cif : HandshakeCif} {draw : Draw}
    {negotiated : Negotiated} (done : (hs.handleHandshake P now cif draw).2 = .ok (some negotiated)) :
    (Exists fun cookie => hs.state = .conclusion cookie) ∧ cif.handshakeType = .conclusion ∧
      Exists fun fields => cif.hsRsp = some fields ∧
        (hs.judgeKmx cif fields).2 = .ok (some negotiated) := by
  unfold handleHandshake at done
  split_ifs at done
  · split at done
    case h_1 => cases done
    case h_2 =>
      unfold onInductionResponse at done
      split_ifs at done
      all_goals cases done
    case h_3 state _ => exact ⟨⟨_, state⟩, onConclusionResponse_judged done⟩
    case h_4 => cases done
  · cases done

theorem handleHandshake_engine {passphrase : Bytes} (equipped : Equipped P (some passphrase) hs)
    {now : Instant} {cif : HandshakeCif} {draw : Draw} {negotiated : Negotiated}
    (done : (hs.handleHandshake P now cif draw).2 = .ok (some negotiated)) :
    Exists fun engine => negotiated.crypto = some engine ∧ engine.Scheduled := by
  rcases handleHandshake_judged done with ⟨⟨cookie, state⟩, _, fields, _, judged⟩
  unfold Equipped at equipped
  rw [state] at equipped
  rcases equipped with ⟨cfg, draw, keyed, made⟩
  rcases Option.map_eq_some_iff.mp keyed with ⟨cfg, rfl, _⟩
  exact judgeKmx_engine made judged

/-- A CONCLUSION request carries the key message of the engine. -/
theorem conclusionCif_kmReq (cookie : Nat) :
    (hs.conclusionCif cookie).kmReq = hs.crypto.bind Crypto.kmreq := by
  unfold conclusionCif HandshakeCif.kmReq
  dsimp only
  cases hs.attachedStreamid <;> cases hs.crypto.bind Crypto.kmreq <;> rfl

/-- The key message of every CONCLUSION request is made from the passphrase. -/
theorem pollTransmit_kmReq (equipped : Equipped P secret hs) {now : Instant}
    {packet : ControlPacket} {cif : HandshakeCif}
    (sent : (hs.pollTransmit now).2 = some (.control packet))
    (message : packet.controlType = .handshake cif) (concluding : cif.handshakeType = .conclusion) :
    Exists fun cfg : Option CryptoConfig => Exists fun draw : Draw =>
      cfg.map CryptoConfig.passphrase = secret ∧
        cif.kmReq = (cfg.map fun cfg => Crypto.newInitiator P cfg draw.salt draw.key).bind
          Crypto.kmreq := by
  unfold pollTransmit at sent
  split at sent
  · cases sent
  case h_2 requested made =>
    split_ifs at sent
    cases sent
    cases message
    unfold request at made
    split at made
    case h_1 =>
      cases made
      cases concluding
    case h_2 cookie state =>
      cases made
      unfold Equipped at equipped
      rw [state] at equipped
      rcases equipped with ⟨cfg, draw, keyed, engine⟩
      refine ⟨cfg, draw, keyed, ?_⟩
      rw [conclusionCif_kmReq, engine]
    case h_3 => cases made
    case h_4 => cases made

end Equipped

end CallerHandshake

/-! ## The listener's answer -/

/-- A key that was wrapped under one passphrase unwraps under another only if the two
are the same. -/
def Primitives.Separates (P : Primitives) (wrapping unwrapping : Bytes) : Prop :=
  forall (salt : Salt) (keyLen : KeyLength) (sek : Bytes) (secret : SecretKey),
    unwrapKey P (deriveKek P unwrapping salt keyLen)
        (wrapKey P (deriveKek P wrapping salt keyLen) sek) = .ok secret ->
      wrapping = unwrapping

theorem parse_of_parseKmreq {buf : Bytes} {msg : KmMessage} (parsed : parseKmreq buf = .ok msg) :
    KmMessage.parse buf = .ok msg := by
  unfold parseKmreq at parsed
  split_ifs at parsed
  split at parsed
  case h_1 read =>
    cases parsed
    exact read
  case h_2 => cases parsed

/-- A responder accepts an initiator's message only under the initiator's passphrase. -/
theorem Crypto.newResponder_passphrase {P : Primitives} {cfg own : CryptoConfig} {draw : Draw}
    {kmreq : Bytes} {engine : Crypto}
    (separates : P.Separates cfg.passphrase own.passphrase)
    (sent : (newInitiator P cfg draw.salt draw.key).kmreq = some kmreq)
    (accepted : newResponder P own kmreq = .ok engine) : cfg.passphrase = own.passphrase := by
  rcases newResponder_ok accepted with ⟨msg, sek, parsed, unwrapped, _⟩
  cases sent
  have decoded := KmMessage.eq_of_parse_encode (parse_of_parseKmreq parsed)
  rw [decoded] at unwrapped
  exact separates draw.salt cfg.keyLen draw.key.bytes sek unwrapped

namespace Listener

variable {P : Primitives} {listener : Listener} {now : Instant} {peer : SocketAddrV4}
  {cif : HandshakeCif} {newSocketId : SocketId} {reply : Packet} {negotiated : Negotiated}

/-- What is accepted is a conclusion, and the key exchange of its message succeeded. -/
theorem handleHandshake_acceptance
    (accepts : listener.handleHandshake P now peer cif newSocketId = .accept reply negotiated) :
    cif.handshakeType = .conclusion ∧
      Exists fun fields => cif.hsExt = some fields ∧ Exists fun crypto => Exists fun kmRsp =>
        listener.answerKmx P cif.kmReq = .ok (crypto, kmRsp) ∧
          listener.acceptance now peer cif newSocketId fields crypto kmRsp =
            .accept reply negotiated := by
  unfold handleHandshake at accepts
  split at accepts
  case h_1 => cases accepts
  case h_3 => cases accepts
  case h_2 concluding =>
    refine ⟨concluding, ?_⟩
    unfold onConclusion at accepts
    split_ifs at accepts
    all_goals try cases accepts
    split at accepts
    case h_1 => cases accepts
    case h_2 fields proposed =>
      split_ifs at accepts
      all_goals try cases accepts
      split at accepts
      · cases accepts
      · split at accepts
        · cases accepts
        case h_2 answered => exact ⟨fields, proposed, _, _, answered, accepts⟩

/-- What an accepted conclusion passed: the key exchange gave the engine. -/
theorem handleHandshake_accept
    (accepts : listener.handleHandshake P now peer cif newSocketId = .accept reply negotiated) :
    (Exists fun packet => reply = .control packet) ∧
      Exists fun kmRsp => listener.answerKmx P cif.kmReq = .ok (negotiated.crypto, kmRsp) := by
  rcases handleHandshake_acceptance accepts with ⟨_, fields, _, crypto, kmRsp, answered, accepted⟩
  cases accepted
  exact ⟨⟨_, rfl⟩, kmRsp, answered⟩

/-- Either side has no passphrase, or the listener opened the message with its own. -/
theorem answerKmx_ok {kmreq kmRsp : Option Bytes} {crypto : Option Crypto}
    (answered : listener.answerKmx P kmreq = .ok (crypto, kmRsp)) :
    (listener.opts.secret = none ∧ kmreq = none ∧ crypto = none) ∨
      Exists fun own => Exists fun km => Exists fun engine =>
        listener.opts.secret = some own.passphrase ∧ kmreq = some km ∧
          Crypto.newResponder P own km = .ok engine ∧ crypto = some engine := by
  unfold answerKmx at answered
  split at answered
  · cases answered
  case h_2 resolved =>
    have secret := SrtOptions.cryptoConfig_secret resolved
    split at answered
    · cases answered
      exact Or.inl ⟨secret.symm, rfl, rfl⟩
    · cases answered
    · cases answered
    · split at answered
      case h_1 made =>
        cases answered
        exact Or.inr ⟨_, _, _, secret.symm, rfl, made, rfl⟩
      case h_2 => cases answered

theorem accept_engine {passphrase : Bytes} (configured : listener.opts.secret = some passphrase)
    (accepts : listener.handleHandshake P now peer cif newSocketId = .accept reply negotiated) :
    Exists fun engine => negotiated.crypto = some engine ∧ engine.Scheduled := by
  rcases handleHandshake_accept accepts with ⟨_, kmRsp, answered⟩
  rcases answerKmx_ok answered with ⟨absent, _⟩ | ⟨own, km, engine, _, _, made, keyed⟩
  · rw [configured] at absent
    cases absent
  · exact ⟨engine, keyed, Crypto.newResponder_scheduled made⟩

/-- A caller's conclusion is accepted only with the caller's passphrase. -/
theorem accept_secret {secret : Option Bytes} {hs : CallerHandshake}
    (equipped : hs.Equipped P secret) {packet : ControlPacket} {sentAt : Instant}
    (sent : (hs.pollTransmit sentAt).2 = some (.control packet))
    (message : packet.controlType = .handshake cif) (concluding : cif.handshakeType = .conclusion)
    (separates : forall wrapping unwrapping, secret = some wrapping ->
      listener.opts.secret = some unwrapping -> P.Separates wrapping unwrapping)
    (accepts : listener.handleHandshake P now peer cif newSocketId = .accept reply negotiated) :
    listener.opts.secret = secret := by
  rcases CallerHandshake.pollTransmit_kmReq equipped sent message concluding with
    ⟨cfg, draw, rfl, carried⟩
  rcases handleHandshake_accept accepts with ⟨_, kmRsp, answered⟩
  rw [carried] at answered
  rcases answerKmx_ok answered with ⟨absent, empty, _⟩ | ⟨own, km, engine, configured, request, made, _⟩
  · cases cfg with
    | none => exact absent
    | some cfg => cases empty
  · cases cfg with
    | none => cases request
    | some cfg =>
        have same := Crypto.newResponder_passphrase (separates _ _ rfl configured) request made
        rw [configured, ← same]
        rfl

end Listener

/-! ## Whole runs -/

/-- The packet carries the submission, encrypted with the key that was active then. -/
def Submission.SealedAs (P : Primitives) (sub : Submission) (pkt : DataPacket) : Prop :=
  Exists fun engine : Crypto => sub.engine = some engine ∧ pkt.seq = sub.seq ∧
    pkt.encryption = engine.active.flags ∧
    pkt.payload = (CtrCipher.new engine.activeKey.key).applyKeystream P engine.salt sub.seq.value
      sub.payload

/-- The payload is what an installed key made of the packet, in the secured state. -/
def Reception.OpenedAs (P : Primitives) (reception : Reception) (payload : Bytes) : Prop :=
  reception.packet.encryption ≠ .none ∧
    Exists fun engine : Crypto => Exists fun slot => Exists fun cipher =>
      reception.engine = some engine ∧ engine.rcvState = .secured ∧
        Crypto.rxSlot reception.packet.encryption = some slot ∧ engine.rx.get slot = some cipher ∧
        payload = cipher.applyKeystream P engine.rxSalt reception.packet.seq.value
          reception.packet.payload

theorem Submission.sealedAs_of_sealPayload {P : Primitives} {sub : Submission} {pkt : DataPacket}
    {engine : Crypto} (present : sub.engine = some engine) (scheduled : engine.Scheduled)
    (seq : pkt.seq = sub.seq)
    (sealing : (Sender.sealPayload P sub.engine sub.seq sub.payload).2 =
      (pkt.encryption, pkt.payload)) (nonempty : pkt.payload ≠ []) : sub.SealedAs P pkt := by
  unfold Sender.sealPayload at sealing
  rw [present] at sealing
  dsimp only at sealing
  split_ifs at sealing with empty
  · rcases Prod.mk.inj sealing with ⟨_, same⟩
    rw [← same] at nonempty
    exact absurd (List.isEmpty_iff.mp empty) nonempty
  · rcases Prod.mk.inj sealing with ⟨flags, text⟩
    refine ⟨engine, present, seq, flags.symm, ?_⟩
    rw [← scheduled.activeKey]
    exact text.symm

theorem Reception.openedAs_of_yields {P : Primitives} {reception : Reception} {payload : Bytes}
    {engine : Crypto} (present : reception.engine = some engine)
    (yields : reception.Yields P payload) : reception.OpenedAs P payload := by
  unfold Yields at yields
  rw [present] at yields
  dsimp only at yields
  unfold Crypto.decrypt at yields
  split at yields
  case h_1 => cases yields
  case h_2 slot selected =>
    split_ifs at yields with unsecured secured
    split at yields
    case h_1 => cases yields
    case h_2 cipher found =>
      cases yields
      have encrypted : reception.packet.encryption ≠ .none := by
        intro cleartext
        rw [cleartext] at selected
        cases selected
      exact ⟨encrypted, engine, slot, cipher, present, not_not.mp secured, selected, found, rfl⟩

namespace Connection

variable {P : Primitives}

/-- The components of an endpoint with a passphrase. -/
structure Guarded (P : Primitives) (t : Stack.Session) : Prop where
  armed : t.Armed
  window : Exists fun w => t.Sealed P w
  explained : t.log.Explains P t.stack.receiver

/-- What a close leaves of them. -/
structure GuardedReceiver (P : Primitives) (log : Log) (receiver : Receiver) : Prop where
  received : forall reception, reception ∈ log.received ->
    Exists fun engine => reception.engine = some engine
  explained : log.Explains P receiver

theorem Guarded.step {t : Stack.Session} (guarded : Guarded P t) (call : Stack.Call) :
    Guarded P (t.step P call) := by
  rcases guarded.window with ⟨w, sealed⟩
  exact ⟨guarded.armed.step call, sealed.step call,
    Stack.Session.step_explains guarded.explained call⟩

/-- Components that have just been opened with an engine. -/
theorem guarded_opening {negotiated : Negotiated} {engine : Crypto}
    (present : negotiated.crypto = some engine) (scheduled : engine.Scheduled) (now : Instant)
    (opts : SrtOptions) (timebase : Timebase) :
    Guarded P
      { stack :=
          { sender := (transmissionPair now negotiated opts timebase).1
            receiver := (transmissionPair now negotiated opts timebase).2
            crypto := negotiated.crypto } } where
  armed := ⟨⟨engine, present, scheduled⟩, List.forall_mem_nil _, List.forall_mem_nil _⟩
  window := by
    refine ⟨SendWindow.start, Sender.tracks_new _, rfl, ?_⟩
    intro i entry found
    cases found
  explained := by
    have empty : (transmissionPair now negotiated opts timebase).2.slots = [] := rfl
    intro slot member
    rw [empty] at member
    cases member

/-- What holds of a connection at all times, for the passphrase of its options. -/
structure Enforced (P : Primitives) (s : Session) : Prop where
  handshake : forall hs pendingSend earlyData,
    s.conn.state = .connecting hs pendingSend earlyData ->
      hs.Equipped P s.conn.opts.secret ∧ s.log = {}
  queue : forall packet, packet ∈ s.conn.transmitQ ∨ packet ∈ s.conn.hsReply ->
    Exists fun message => packet = .control message
  components : forall passphrase, s.conn.opts.secret = some passphrase ->
    Retains (Guarded P) (GuardedReceiver P) s.log s.conn.state

theorem Opening.enforced {s : Session} (opening : Opening P s) : Enforced P s := by
  cases opening with
  | caller now remote localSocketId initialSeq opts timebase =>
      refine ⟨?_, ?_, fun _ _ => trivial⟩
      · intro hs pendingSend earlyData connecting
        cases connecting
        exact ⟨CallerHandshake.new_equipped _ _ _ _ _ _, rfl⟩
      · intro packet owed
        rcases owed with queued | stored
        · cases queued
        · cases stored
  | listener listener heard now peer cif newSocketId accepts timebase =>
      refine ⟨?_, ?_, ?_⟩
      · intro hs pendingSend earlyData connecting
        cases connecting
      · intro packet owed
        rcases (Listener.handleHandshake_accept accepts).1 with ⟨message, rfl⟩
        rcases owed with queued | stored
        · exact ⟨message, List.mem_singleton.mp queued⟩
        · exact ⟨message, (Option.mem_some.mp stored).symm⟩
      · intro passphrase configured
        rcases Listener.accept_engine configured accepts with ⟨engine, present, scheduled⟩
        exact guarded_opening present scheduled now listener.opts timebase

theorem HandshakeMoves.equipped {secret : Option Bytes} {hs hs' : CallerHandshake}
    (moves : HandshakeMoves P hs hs') (equipped : hs.Equipped P secret) :
    hs'.Equipped P secret := by
  cases moves with
  | rest => exact equipped
  | heard goes_on => exact CallerHandshake.handleHandshake_equipped equipped _ _ _ goes_on
  | polled now => exact CallerHandshake.pollTransmit_equipped equipped now

/-- A caller that is still connecting was connecting before, and has recorded nothing. -/
theorem next_connecting {s : Session} {input : Input} {hs' : CallerHandshake}
    {pendingSend' : List Bytes} {earlyData' : List (Instant × DataPacket)}
    (connecting : (s.next P input).conn.state = .connecting hs' pendingSend' earlyData') :
    Exists fun hs => Exists fun pendingSend => Exists fun earlyData =>
      s.conn.state = .connecting hs pendingSend earlyData ∧ HandshakeMoves P hs hs' ∧
        (s.next P input).log = s.log := by
  change (s.conn.handle P input).state = _ at connecting
  rcases state : s.conn.state with ⟨hs, pendingSend, earlyData⟩ | ⟨sender, receiver, crypto⟩ |
    ⟨reason, kept⟩
  · rcases completed : s.conn.completes P input with _ | ⟨now, hsTs, negotiated⟩
    · have goes_on := handle_goesOn state completed
      rw [connecting] at goes_on
      have unchanged : (s.next P input).log = s.log := by
        unfold Session.next Session.driven
        rw [state, completed]
        rfl
      cases goes_on with
      | connecting moves => exact ⟨hs, pendingSend, earlyData, rfl, moves, unchanged⟩
    · rw [handle_completes state completed rfl] at connecting
      cases connecting
  · have shows := @handle_shows P s.conn { sender, receiver, crypto } state input
    rw [connecting] at shows
    cases shows
  · rcases @handle_closed P s.conn reason kept state input with same | ⟨_, receiver, _, polled⟩
    · rw [same] at connecting
      cases connecting
    · rw [polled] at connecting
      cases connecting

/-- The engine of a handshake that an input completes. -/
theorem completes_engine {s : Session} (enforced : Enforced P s) {passphrase : Bytes}
    (configured : s.conn.opts.secret = some passphrase) {input : Input} {now : Instant}
    {hsTs : Timestamp} {negotiated : Negotiated}
    (completed : s.conn.completes P input = some (now, hsTs, negotiated)) :
    s.log = {} ∧ Exists fun engine => negotiated.crypto = some engine ∧ engine.Scheduled := by
  unfold completes at completed
  split at completed
  case h_2 => cases completed
  case h_1 =>
    split at completed
    case h_2 => cases completed
    case h_1 state _ =>
      rcases enforced.handshake _ _ _ state with ⟨equipped, empty⟩
      rw [configured] at equipped
      split_ifs at completed
      split at completed
      case h_2 => cases completed
      case h_1 done =>
        cases completed
        exact ⟨empty, CallerHandshake.handleHandshake_engine equipped done⟩

theorem Enforced.next {s : Session} (enforced : Enforced P s) (input : Input) :
    Enforced P (s.next P input) := by
  have frame := handle_frame (P := P) s.conn input
  have opts : (s.next P input).conn.opts = s.conn.opts := frame.opts
  refine ⟨?_, ?_, ?_⟩
  · intro hs' pendingSend' earlyData' connecting
    rcases next_connecting connecting with ⟨hs, pendingSend, earlyData, before, moves, log⟩
    rcases enforced.handshake hs pendingSend earlyData before with ⟨equipped, empty⟩
    rw [opts, log]
    exact ⟨moves.equipped equipped, empty⟩
  · intro packet owed
    rcases owed with queued | stored
    · rcases frame.queue packet queued with old | reply | ⟨message, rfl, _⟩
      · exact enforced.queue packet (Or.inl old)
      · exact enforced.queue packet (Or.inr reply)
      · exact ⟨_, rfl⟩
    · exact enforced.queue packet (Or.inr (frame.hsReply ▸ stored))
  · intro passphrase configured
    rw [opts] at configured
    apply (enforced.components passphrase configured).next
    · intro t call guarded
      exact guarded.step call
    · intro t guarded
      refine ⟨?_, guarded.explained⟩
      exact guarded.armed.received
    · intro log receiver now kept
      exact ⟨kept.received, kept.explained.pollDeliver now⟩
    · intro now hsTs negotiated completed
      rcases completes_engine enforced configured completed with ⟨empty, engine, present, scheduled⟩
      rw [empty]
      exact guarded_opening present scheduled now _ _

/-- A stamped data packet was a data packet before. -/
theorem data_of_stamp {c : Connection} {now : Instant} {packet : Packet} {pkt : DataPacket}
    (stamped : c.stamp now packet = .data pkt) : Exists fun sent : DataPacket =>
      packet = .data sent ∧ pkt = { sent with dstSocketId := c.peerSocketId } := by
  cases packet with
  | control message => cases stamped
  | data sent =>
      cases stamped
      exact ⟨sent, rfl, rfl⟩

/-- A data packet comes from the components of an established connection. -/
theorem Enforced.emitted {s : Session} (enforced : Enforced P s) {now : Instant}
    {index : Option Nat} {pkt : DataPacket}
    (emits : (s.conn.pollTransmitAt now).2 = some (index, .data pkt)) :
    Exists fun stack : Stack => Exists fun sent : DataPacket =>
      s.conn.state = .established stack.sender stack.receiver stack.crypto ∧
        (stack.poll now).2 = some (index, .data sent) ∧
        pkt = { sent with dstSocketId := s.conn.peerSocketId } := by
  cases queue : s.conn.transmitQ with
  | cons head rest =>
      rcases enforced.queue head (Or.inl (queue ▸ List.mem_cons_self)) with ⟨message, rfl⟩
      unfold pollTransmitAt nextTransmitAt at emits
      rw [queue] at emits
      cases emits
  | nil =>
      unfold pollTransmitAt at emits
      rcases state : s.conn.state with ⟨hs, pendingSend, earlyData⟩ | ⟨sender, receiver, crypto⟩ |
        ⟨reason, kept⟩
      · unfold nextTransmitAt at emits
        rw [queue, state] at emits
        dsimp only at emits
        cases requested : (hs.pollTransmit now).2 with
        | none =>
            rw [requested] at emits
            cases emits
        | some packet =>
            rcases CallerHandshake.pollTransmit_control requested with ⟨message, rfl⟩
            rw [requested] at emits
            cases emits
      · rw [@nextTransmitAt_established s.conn { sender, receiver, crypto } state queue now] at emits
        cases polled : (Stack.poll { sender, receiver, crypto } now).2 with
        | none =>
            rw [polled] at emits
            cases emits
        | some emitted =>
            rcases emitted with ⟨place, packet⟩
            rw [polled] at emits
            rcases Prod.mk.inj (Option.some.inj emits) with ⟨rfl, stamped⟩
            rcases data_of_stamp stamped with ⟨sent, rfl, made⟩
            exact ⟨{ sender, receiver, crypto }, sent, rfl, polled, made⟩
      · unfold nextTransmitAt at emits
        rw [queue, state] at emits
        cases emits

/-- Whatever the peer and the application do, an endpoint with a valid passphrase emits
only ciphertext of what was pushed, under the key that was active then, and delivers
only what an installed key opened in the secured state.  A listener accepts the
conclusion of a caller only if their passphrases agree, as long as a key unwraps under
no other passphrase than the one that it was wrapped under. -/
theorem encryption_enforced {history : List (Session × Input)} {s : Session}
    (run : (machine P).Run history s) :
    (forall cfg, s.conn.opts.cryptoConfig = .ok (some cfg) ->
      (forall now index pkt, (s.conn.pollTransmitAt now).2 = some (index, .data pkt) ->
        pkt.payload ≠ [] -> (pkt.encryption = .even ∨ pkt.encryption = .odd) ∧
          Exists fun sub => sub ∈ s.log.submitted ∧ sub.SealedAs P pkt) ∧
      (forall now payload, (s.conn.pollDeliver now).2 = some payload ->
        Exists fun reception => reception ∈ s.log.received ∧ reception.OpenedAs P payload)) ∧
    (forall hs pendingSend earlyData, s.conn.state = .connecting hs pendingSend earlyData ->
      forall sentAt packet cif, (hs.pollTransmit sentAt).2 = some (.control packet) ->
        packet.controlType = .handshake cif -> cif.handshakeType = .conclusion ->
      forall (listener : Listener) now peer newSocketId reply negotiated,
        (forall wrapping unwrapping, s.conn.opts.secret = some wrapping ->
          listener.opts.secret = some unwrapping -> P.Separates wrapping unwrapping) ->
        listener.handleHandshake P now peer cif newSocketId = .accept reply negotiated ->
          listener.opts.secret = s.conn.opts.secret) := by
  have enforced : Enforced P s := by
    refine run.invariant (Enforced P) (fun s opening => opening.enforced) ?_
    intro s input before _
    exact before.next input
  refine ⟨?_, ?_⟩
  · intro cfg resolved
    have retained := enforced.components cfg.passphrase (SrtOptions.cryptoConfig_secret resolved).symm
    refine ⟨?_, ?_⟩
    · intro now index pkt emits nonempty
      rcases enforced.emitted emits with ⟨stack, sent, state, polled, rfl⟩
      rw [state] at retained
      rcases retained.window with ⟨w, sealed⟩
      rcases sealed.emitted polled with ⟨sub, submitted, seq, sealing⟩
      rcases retained.armed.submitted sub submitted with ⟨engine, present, scheduled⟩
      have sealedAs : sub.SealedAs P { sent with dstSocketId := s.conn.peerSocketId } :=
        Submission.sealedAs_of_sealPayload present scheduled seq sealing nonempty
      refine ⟨?_, sub, submitted, sealedAs⟩
      rcases sealedAs with ⟨engine, _, _, flags, _⟩
      rw [flags]
      cases engine.active with
      | even => exact Or.inl rfl
      | odd => exact Or.inr rfl
    · intro now payload delivers
      have opened (receiver : Receiver) (kept : GuardedReceiver P s.log receiver)
          (delivered : (receiver.pollDeliver now).2 = some payload) :
          Exists fun reception => reception ∈ s.log.received ∧ reception.OpenedAs P payload := by
        rcases (receiver.pollDeliver_slots now).2 payload delivered with
          ⟨slot, member, decryptable, rfl⟩
        rcases kept.explained slot member decryptable with ⟨reception, received, yields⟩
        rcases kept.received reception received with ⟨engine, present⟩
        exact ⟨reception, received, Reception.openedAs_of_yields present yields⟩
      unfold pollDeliver at delivers
      split at delivers
      case h_1 state =>
        rw [state] at retained
        exact opened _ ⟨retained.armed.received, retained.explained⟩ delivers
      case h_2 state =>
        rw [state] at retained
        exact opened _ retained delivers
      case h_3 => cases delivers
  · intro hs pendingSend earlyData connecting sentAt packet cif sent message concluding listener now
      peer newSocketId reply negotiated separates accepts
    exact Listener.accept_secret (enforced.handshake _ _ _ connecting).1 sent message concluding
      separates accepts

/-! ## A secret caller -/

def secretOptions : SrtOptions where
  passphrase := some (List.replicate 10 7)

def secretCaller : Session where
  conn := connect 0 ⟨[10, 0, 0, 1], 4200⟩ ⟨1⟩ (SeqNumber.new 0) secretOptions

/-- The key message of the caller, which the listener echoes. -/
def secretRequest : Bytes :=
  (Crypto.newInitiator .sample
    { passphrase := List.replicate 10 7
      keyLen := .aes128
      kmRefreshRate := 0x1000000
      kmPreannounce := 0x10000 } sampleDraw.salt sampleDraw.key).kmreq.getD []

/-- The application submits a payload before the handshake completes. -/
def secretInputs : List Input :=
  [.send 500 [1, 2, 3], sampleInduced, sampleConcluded [.kmRsp secretRequest]]

/-- The packet that carries the payload. -/
def secretPacket : DataPacket :=
  { plainPacket (.new 0) 3 [0, 3, 2] with encryption := .even, dstSocketId := ⟨2⟩ }

theorem encryption_enforced_secret :
    let s := (machine .sample).exec secretCaller secretInputs
    (s.conn.pollTransmitAt 4000).2 = some (some 0, .data secretPacket) ∧
      Exists fun sub => sub ∈ s.log.submitted ∧ sub.SealedAs .sample secretPacket := by
  have emitted : (((machine .sample).exec secretCaller secretInputs).conn.pollTransmitAt 4000).2 =
      some (some 0, .data secretPacket) := by decide +kernel
  have enforced := encryption_enforced (Machine.run_exec (M := machine .sample)
    (.caller 0 _ _ _ _ _)
    (by decide +kernel : (machine .sample).Allowed secretCaller secretInputs))
  refine ⟨emitted, ?_⟩
  exact ((enforced.1 _ rfl).1 4000 _ secretPacket emitted (by decide)).2

end Connection

end Rsrt

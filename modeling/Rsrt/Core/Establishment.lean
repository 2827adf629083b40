import Rsrt.Core.Duplex
import Rsrt.Core.Enforcement

namespace Rsrt

/-!
# What one handshake agrees on

The negotiations of a caller and a listener that went through one handshake with each
other.  Each knows the other's socket, both directions start at the sequence that the
caller chose, and with one passphrase the engine of the listener was made from the key
message of the caller.
-/

namespace Listener

variable {P : Primitives} {listener : Listener} {now : Instant} {peer : SocketAddrV4}
  {cif : HandshakeCif} {newSocketId : SocketId} {reply : Packet} {negotiated : Negotiated}

/-- What an accepted connection and the reply take from the conclusion. -/
theorem acceptance_fields {fields : HsExtFields} {crypto : Option Crypto} {kmRsp : Option Bytes}
    {packet : ControlPacket} {answer : HandshakeCif}
    (accepted : listener.acceptance now peer cif newSocketId fields crypto kmRsp =
      .accept (.control packet) negotiated)
    (replied : packet.controlType = .handshake answer) :
    (negotiated.peerSocketId = cif.socketId ∧ negotiated.sendInitialSeq = cif.initialSeq ∧
      negotiated.recvInitialSeq = cif.initialSeq ∧ negotiated.crypto = crypto) ∧
      answer.socketId = newSocketId ∧ answer.kmRsp = kmRsp := by
  cases accepted
  cases replied
  refine ⟨⟨rfl, rfl, rfl, rfl⟩, rfl, ?_⟩
  cases kmRsp <;> rfl

/-- With a passphrase the answer to a key message is its echo. -/
theorem answerKmx_echo {cfg : CryptoConfig} (resolved : listener.opts.cryptoConfig = .ok (some cfg))
    {kmreq kmRsp : Option Bytes} {crypto : Option Crypto}
    (answered : listener.answerKmx P kmreq = .ok (crypto, kmRsp)) :
    Exists fun km => Exists fun engine => kmreq = some km ∧ kmRsp = some km ∧
      Crypto.newResponder P cfg km = .ok engine ∧ crypto = some engine := by
  unfold answerKmx at answered
  rw [resolved] at answered
  dsimp only at answered
  cases kmreq with
  | none => cases answered
  | some km =>
      dsimp only at answered
      split at answered
      case h_1 made =>
        cases answered
        exact ⟨km, _, rfl, rfl, made, rfl⟩
      case h_2 => cases answered

end Listener

namespace CallerHandshake

variable {P : Primitives} {hs : CallerHandshake}

/-- A caller that sends a conclusion has drawn its key material on the INDUCTION response. -/
theorem onInductionResponse_concluding {heardAt : Instant} {response : HandshakeCif} {draw : Draw}
    {cookie : Nat} (inducing : hs.state = .induction)
    (concluding : (hs.onInductionResponse P heardAt response draw).1.state = .conclusion cookie) :
    Exists fun pbkeylen => (hs.onInductionResponse P heardAt response draw).1 =
      { hs with
          opts := { hs.opts with pbkeylen }
          encAdvert := (pbkeylen.map pbkeylenBits).getD 0
          cryptoCfg := none
          crypto := hs.cryptoCfg.map fun cfg =>
            Crypto.newInitiator P (adoptPeerPbkeylen cfg response.encryption) draw.salt draw.key
          state := .conclusion response.cookie
          nextSend := heardAt } := by
  unfold onInductionResponse at concluding ⊢
  split_ifs at concluding ⊢
  · rw [inducing] at concluding
    cases concluding
  · cases concluding
  · refine ⟨(pbkeylenFromBits response.encryption).or hs.opts.pbkeylen, ?_⟩
    dsimp only
    rw [Option.map_map]
    rfl

/-- The handshake after the INDUCTION response, when it goes on to a conclusion. -/
theorem new_concluding {now heardAt : Instant} {remote : SocketAddrV4} {localSocketId : SocketId}
    {initialSeq : SeqNumber} {timebase : Timebase} {opts : SrtOptions} {response asked : HandshakeCif}
    {draw : Draw}
    (made : hs = ((new now remote localSocketId initialSeq timebase opts).handleHandshake P heardAt
      response draw).1)
    (sent : hs.request = some asked) (concluding : asked.handshakeType = .conclusion) :
    hs.localSocketId = localSocketId ∧ hs.initialSeq = initialSeq ∧
      (Exists fun cookie => asked = hs.conclusionCif cookie) ∧
      forall cfg, opts.cryptoConfig = .ok cfg ->
        hs.crypto = cfg.map fun cfg =>
          Crypto.newInitiator P (adoptPeerPbkeylen cfg response.encryption) draw.salt draw.key := by
  have requested : Exists fun cookie => hs.state = .conclusion cookie ∧
      asked = hs.conclusionCif cookie := by
    unfold request at sent
    split at sent
    case h_1 =>
      cases sent
      cases concluding
    case h_2 cookie state =>
      cases sent
      exact ⟨cookie, state, rfl⟩
    case h_3 => cases sent
    case h_4 => cases sent
  rcases requested with ⟨cookie, state, rfl⟩
  rw [made] at state
  cases resolved : opts.cryptoConfig with
  | error err =>
      unfold handleHandshake requesting new at state
      rw [resolved] at state
      cases state
  | ok cfg =>
      have inducing : (new now remote localSocketId initialSeq timebase opts).state = .induction := by
        unfold new
        rw [resolved]
      have heard : ((new now remote localSocketId initialSeq timebase opts).handleHandshake P heardAt
          response draw).1 = ((new now remote localSocketId initialSeq timebase opts).onInductionResponse
            P heardAt response draw).1 := by
        unfold handleHandshake requesting at state ⊢
        rw [inducing] at state ⊢
        dsimp only at state ⊢
        rw [if_neg (not_not.mpr rfl)] at state ⊢
        cases kind : response.handshakeType with
        | rejection code =>
            rw [kind] at state
            cases state
        | _ => rfl
      rw [heard] at made state
      rcases onInductionResponse_concluding inducing state with ⟨pbkeylen, drawn⟩
      rw [drawn] at made
      rw [made]
      refine ⟨rfl, rfl, ⟨cookie, rfl⟩, ?_⟩
      intro configured same
      cases same
      unfold new
      dsimp only
      rw [resolved]

/-- What a completed handshake negotiates. -/
theorem handleHandshake_negotiated {now : Instant} {cif : HandshakeCif} {draw : Draw}
    {negotiated : Negotiated} (done : (hs.handleHandshake P now cif draw).2 = .ok (some negotiated)) :
    negotiated.localSocketId = hs.localSocketId ∧ negotiated.peerSocketId = cif.socketId ∧
      negotiated.sendInitialSeq = hs.initialSeq ∧ negotiated.recvInitialSeq = hs.initialSeq ∧
      forall engine, hs.crypto = some engine -> Exists fun payload => cif.kmRsp = some payload ∧
        negotiated.crypto = some (engine.handleKmrsp payload).1 := by
  rcases handleHandshake_judged done with ⟨_, _, fields, _, judged⟩
  rcases judgeKmx_concluded judged with ⟨absent, concluded⟩ |
    ⟨engine, payload, present, answered, concluded⟩
  · cases concluded
    refine ⟨rfl, rfl, rfl, rfl, ?_⟩
    intro engine present
    rw [absent] at present
    cases present
  · cases concluded
    refine ⟨rfl, rfl, rfl, rfl, ?_⟩
    intro other same
    rw [present] at same
    cases same
    exact ⟨payload, answered, rfl⟩

end CallerHandshake

namespace Setup

/-- The handshake of the caller before the first response. -/
def requesting (setup : Setup) : CallerHandshake :=
  .new setup.connectedAt setup.caller.remote setup.caller.localSocketId
    setup.caller.sendInitialSeq setup.callerTimebase setup.callerOpts

/-- Both negotiations come from one handshake.  The caller hears an INDUCTION response and
draws its key material, the listener accepts the conclusion that the caller then sends, and
the caller accepts the reply. -/
inductive Handshaken (P : Primitives) (setup : Setup) : Prop
  | intro (hs : CallerHandshake) (listener : Listener) {heardAt receivedAt : Instant}
      {response request : HandshakeCif} {draw later : Draw} {peer : SocketAddrV4}
      {reply : ControlPacket}
      (heard : hs = (setup.requesting.handleHandshake P heardAt response draw).1)
      (sized : forall engine, hs.crypto = some engine ->
        draw.key.bytes.length = engine.cfg.keyLen.bytes)
      (sent : hs.request = some request)
      (configured : listener.opts = setup.listenerOpts)
      (accepts : listener.handleHandshake P receivedAt peer request setup.listener.localSocketId =
        .accept (.control reply) setup.listener)
      (replied : reply.controlType = .handshake setup.hsReply)
      (done : (hs.handleHandshake P setup.callerNow setup.hsReply later).2 =
        .ok (some setup.caller))

/-- The caller starts with what it negotiated, and owes no report. -/
theorem callerConn_state (P : Primitives) (setup : Setup) :
    Exists fun cfg : SenderConfig => Exists fun receiver =>
      cfg.initialSeq = setup.caller.sendInitialSeq ∧ receiver.controlQ = [] ∧
        (setup.callerConn P).state = .established (Sender.new cfg) receiver setup.caller.crypto :=
  ⟨_, _, rfl, rfl, rfl⟩

theorem listenerConn_state (setup : Setup) :
    Exists fun cfg : SenderConfig => Exists fun receiver =>
      cfg.initialSeq = setup.listener.sendInitialSeq ∧ receiver.controlQ = [] ∧
        setup.listenerConn.state = .established (Sender.new cfg) receiver setup.listener.crypto :=
  ⟨_, _, rfl, rfl, rfl⟩

variable {P : Primitives} {setup : Setup}

/-- What the two sides of a handshake know of each other. -/
theorem Handshaken.agreement (handshaken : setup.Handshaken P) :
    setup.Consistent ∧ setup.listener.sendInitialSeq = setup.caller.sendInitialSeq := by
  rcases handshaken with @⟨hs, listener, _, _, _, request, _, _, _, _, heard, _, sent, _, accepts,
    replied, done⟩
  rcases Listener.handleHandshake_acceptance accepts with ⟨concluding, fields, _, crypto, kmRsp, _,
    acceptance⟩
  rcases CallerHandshake.new_concluding heard sent concluding with ⟨socket, sequence, ⟨cookie, rfl⟩, _⟩
  rcases CallerHandshake.handleHandshake_negotiated done with ⟨_, peer, sends, receives, _⟩
  rcases Listener.acceptance_fields acceptance replied with
    ⟨⟨knows, adopts, expects, _⟩, answers, _⟩
  refine ⟨⟨peer.trans answers, knows.trans socket, expects.trans sequence, ?_⟩,
    adopts.trans sequence⟩
  rw [receives, sequence]
  exact (adopts.trans sequence).symm

/-- One valid passphrase: the key exchange pairs the engines. -/
theorem Handshaken.keyed (handshaken : setup.Handshaken P) {callerCfg listenerCfg : CryptoConfig}
    (callerKeyed : setup.callerOpts.cryptoConfig = .ok (some callerCfg))
    (listenerKeyed : setup.listenerOpts.cryptoConfig = .ok (some listenerCfg))
    (shared : listenerCfg.passphrase = callerCfg.passphrase) : setup.Keyed P := by
  rcases handshaken with @⟨hs, listener, _, _, response, request, draw, _, _, _, heard, sized, sent,
    configured, accepts, replied, done⟩
  rcases Listener.handleHandshake_acceptance accepts with ⟨concluding, fields, _, crypto, kmRsp,
    answered, acceptance⟩
  rcases CallerHandshake.new_concluding heard sent concluding with ⟨_, _, ⟨cookie, rfl⟩, drawn⟩
  have engine := drawn _ callerKeyed
  rcases CallerHandshake.handleHandshake_negotiated done with ⟨_, _, _, _, keyed⟩
  rcases keyed _ engine with ⟨payload, echoed, first⟩
  rcases Listener.answerKmx_echo (configured ▸ listenerKeyed) answered with ⟨km, responder, carried, rfl, made, rfl⟩
  rw [CallerHandshake.conclusionCif_kmReq, engine] at carried
  rcases Listener.acceptance_fields acceptance replied with ⟨⟨_, _, _, second⟩, _, answer⟩
  rw [answer] at echoed
  cases echoed
  have adopted : adoptPeerPbkeylen callerCfg response.encryption =
      { callerCfg with
          keyLen := (adoptPeerPbkeylen callerCfg response.encryption).keyLen } := by
    unfold adoptPeerPbkeylen
    split <;> rfl
  refine ⟨callerCfg, listenerCfg, (adoptPeerPbkeylen callerCfg response.encryption).keyLen,
    draw.salt, draw.key, _, _, callerKeyed, listenerKeyed, shared, sized _ engine, ?_, first, second⟩
  rw [← adopted]
  cases carried
  exact Crypto.keyExchange_of_response made

end Setup

end Rsrt

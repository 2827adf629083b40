import Rsrt.Driver.Settings

namespace Rsrt

/-!
# What a conclusion and its reply agree on

The listener derives its side of a connection from the conclusion of the caller, and the caller
derives its own from the reply.  The two derivations meet in everything but the latencies, which
travel as whole milliseconds in sixteen bits.
-/

namespace CallerHandshake

variable {P : Primitives} {hs : CallerHandshake}

/-- Only a conclusion completes a handshake, only after the caller has sent its own, and with
the key and the salt of its request. -/
theorem handleHandshake_concludes {now : Instant} {cif : HandshakeCif} {draw : Draw}
    {negotiated : Negotiated} (done : (hs.handleHandshake P now cif draw).2 = .ok (some negotiated)) :
    cif.handshakeType = .conclusion ∧ (Exists fun cookie => hs.state = .conclusion cookie) ∧
      Exists fun fields => cif.hsRsp = some fields ∧ Exists fun crypto : Option Crypto =>
        crypto.map Crypto.secret = hs.crypto.map Crypto.secret ∧
          ({ hs with crypto }.conclude cif fields).2 = .ok (some negotiated) := by
  rcases handleHandshake_judged done with ⟨state, concluding, fields, present, judged⟩
  refine ⟨concluding, state, fields, present, ?_⟩
  rcases judgeKmx_concluded judged with ⟨absent, concluded⟩ | ⟨engine, payload, keyed, _, concluded⟩
  · exact ⟨hs.crypto, rfl, concluded⟩
  · have alike := Crypto.handleKmrsp_sendsAlike engine payload
    have secret : (engine.handleKmrsp payload).1.secret = engine.secret := by
      unfold Crypto.secret
      rw [alike.activeKey, alike.salt]
    refine ⟨_, ?_, concluded⟩
    rw [keyed]
    exact congrArg some secret

theorem conclusionCif_streamId (cookie : Nat) :
    (hs.conclusionCif cookie).streamId = hs.attachedStreamid := by
  unfold conclusionCif HandshakeCif.streamId
  cases hs.attachedStreamid with
  | some sid => rfl
  | none =>
      cases hs.crypto.bind Crypto.kmreq with
      | none => rfl
      | some blob => rfl

/-- The engine of a caller that has sent a conclusion is a fresh initiator. -/
def Initiates (P : Primitives) (hs : CallerHandshake) : Prop :=
  forall engine, hs.crypto = some engine -> Exists fun cfg => Exists fun salt => Exists fun sek =>
    engine = Crypto.newInitiator P cfg salt sek ∧ sek.bytes.length = cfg.keyLen.bytes

end CallerHandshake

/-- The two negotiations of a handshake fit together. -/
structure Negotiated.Agree (hs : CallerHandshake) (opts : SrtOptions) (mine theirs : Negotiated) :
    Prop where
  sockets : theirs.localSocketId = mine.peerSocketId ∧ theirs.peerSocketId = hs.localSocketId
  sequences : mine.sendInitialSeq = hs.initialSeq ∧ mine.recvInitialSeq = hs.initialSeq ∧
    theirs.sendInitialSeq = hs.initialSeq ∧ theirs.recvInitialSeq = hs.initialSeq
  mss : mine.mss = min opts.mss hs.opts.mss ∧ theirs.mss = min opts.mss hs.opts.mss
  flowWindow : mine.flowWindow = opts.flowWindow ∧ theirs.flowWindow = hs.opts.flowWindow
  streamid : mine.streamid = hs.opts.streamid ∧ theirs.streamid = hs.attachedStreamid
  latency : mine.sndLatency = msDur (msU16 theirs.rcvLatency) ∧
    mine.rcvLatency = msDur (msU16 theirs.sndLatency)
  proposed : theirs.rcvLatency = max opts.latency (msDur (msU16 hs.opts.peerLatency)) ∧
    theirs.sndLatency = max opts.peerLatency (msDur (msU16 hs.opts.latency))

section Accepted

variable {P : Primitives} {hs : CallerHandshake} {listener : Listener} {peer : SocketAddrV4}
  {cookie : Nat} {newId : SocketId} {answer : HandshakeCif} {mine theirs : Negotiated}
  {now : Instant} {draw : Draw}

/-- What a caller accepts from a listener that accepted its conclusion. -/
theorem Negotiated.Agree.of_accepts
    (accepts : listener.Accepts P peer (hs.conclusionCif cookie) newId answer theirs)
    (done : (hs.handleHandshake P now answer draw).2 = .ok (some mine)) :
    Negotiated.Agree hs listener.opts mine theirs := by
  rcases accepts.taken with ⟨fields, proposed, crypto, heardAt, answered, acceptance⟩
  rcases CallerHandshake.handleHandshake_concludes done with
    ⟨_, _, final, replied, engine, secret, concluded⟩
  cases proposed
  cases acceptance
  cases replied
  cases concluded
  exact ⟨⟨rfl, rfl⟩, ⟨rfl, rfl, rfl, rfl⟩, ⟨rfl, rfl⟩, ⟨rfl, rfl⟩,
    ⟨rfl, CallerHandshake.conclusionCif_streamId cookie⟩, ⟨rfl, rfl⟩, ⟨rfl, rfl⟩⟩

/-- Both have the same key and salt, or both have none. -/
theorem Negotiated.secret_of_accepts (ideal : P.Ideal) {passphrase : Option Bytes}
    (equipped : hs.Equipped P passphrase)
    (accepts : listener.Accepts P peer (hs.conclusionCif cookie) newId answer theirs)
    (done : (hs.handleHandshake P now answer draw).2 = .ok (some mine))
    (separates : forall wrapping unwrapping, passphrase = some wrapping ->
      listener.opts.secret = some unwrapping -> P.Separates wrapping unwrapping) :
    mine.crypto.map Crypto.secret = theirs.crypto.map Crypto.secret := by
  rcases accepts.taken with ⟨fields, _, crypto, heardAt, answered, acceptance⟩
  rcases CallerHandshake.handleHandshake_concludes done with
    ⟨_, ⟨_, state⟩, final, _, engine, secret, concluded⟩
  cases acceptance
  cases concluded
  refine secret.trans ?_
  unfold CallerHandshake.Equipped at equipped
  rw [state] at equipped
  rcases equipped with ⟨cfg, draw, rfl, keyed⟩
  rw [CallerHandshake.conclusionCif_kmReq, keyed] at answered
  rw [keyed]
  rcases Listener.answerKmx_ok answered with ⟨_, absent, rfl⟩ |
    ⟨own, km, responder, configured, carried, made, rfl⟩
  · cases cfg with
    | none => rfl
    | some cfg => cases absent
  · cases cfg with
    | none => cases carried
    | some cfg =>
        have shared := Crypto.newResponder_passphrase
          (separates cfg.passphrase own.passphrase rfl configured) carried made
        rw [Option.map_some, Option.map_some, Option.map_some,
          Crypto.newResponder_secret ideal shared carried made, Crypto.newInitiator_secret]

end Accepted

/-! ## Settings of the two sides -/

/-- Everything that the two sides of a connection have to agree on, the latencies apart. -/
structure Settings.Agree (mine theirs : Settings) (initialSeq : SeqNumber)
    (callerOpts listenerOpts : SrtOptions) : Prop where
  sequences : mine.sender.initialSeq = initialSeq ∧ mine.receiver.initialSeq = initialSeq ∧
    theirs.sender.initialSeq = initialSeq ∧ theirs.receiver.initialSeq = initialSeq
  payload : mine.sender.maxPayload = theirs.maxPayload ∧
    theirs.sender.maxPayload = mine.maxPayload ∧
    mine.maxPayload = min callerOpts.mss listenerOpts.mss - 44 ∧
    theirs.maxPayload = min callerOpts.mss listenerOpts.mss - 44
  flowWindow : mine.sender.flowWindow = min callerOpts.flowWindow listenerOpts.flowWindow ∧
    theirs.sender.flowWindow = min callerOpts.flowWindow listenerOpts.flowWindow
  secret : mine.secret = theirs.secret

theorem Negotiated.Agree.settings {hs : CallerHandshake} {callerOpts listenerOpts : SrtOptions}
    {mine theirs : Negotiated} (agree : Negotiated.Agree hs listenerOpts mine theirs)
    (mss : hs.opts.mss = callerOpts.mss) (flowWindow : hs.opts.flowWindow = callerOpts.flowWindow)
    (secret : mine.crypto.map Crypto.secret = theirs.crypto.map Crypto.secret)
    (timebase timebase' : Timebase) :
    Settings.Agree (mine.settings callerOpts timebase) (theirs.settings listenerOpts timebase')
      hs.initialSeq callerOpts listenerOpts := by
  have limit : negotiatedPayload mine callerOpts = min callerOpts.mss listenerOpts.mss - 44 ∧
      negotiatedPayload theirs listenerOpts = min callerOpts.mss listenerOpts.mss - 44 := by
    unfold negotiatedPayload SrtOptions.maxPayload
    rw [agree.mss.1, agree.mss.2, mss]
    omega
  refine ⟨agree.sequences, ⟨limit.1.trans limit.2.symm, limit.2.trans limit.1.symm, limit⟩, ?_,
    secret⟩
  constructor
  · change min callerOpts.flowWindow mine.flowWindow = _
    rw [agree.flowWindow.1]
  · change min listenerOpts.flowWindow theirs.flowWindow = _
    rw [agree.flowWindow.2, flowWindow, Nat.min_comm]

end Rsrt

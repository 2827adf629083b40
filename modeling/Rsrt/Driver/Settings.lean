import Rsrt.Core.Keystream
import Rsrt.Driver.Messages

namespace Rsrt

/-!
# What a handshake settles

The configuration of the sender and of the receiver, the payload limit and the key material of
an established connection.  The calls that a connection holds back until its handshake is
complete change none of it.  A responder that opens the key message of an initiator with the
same passphrase has the key and the salt of the initiator.
-/

/-! ## Key material -/

/-- The key that an engine encrypts with, and its salt. -/
def Crypto.secret (engine : Crypto) : SecretKey × Salt := (engine.activeKey.key, engine.salt)

section Keys

variable {P : Primitives} {cfg own : CryptoConfig} {salt : Salt} {sek : SecretKey} {blob : Bytes}

theorem Crypto.newInitiator_secret : (Crypto.newInitiator P cfg salt sek).secret = (sek, salt) :=
  rfl

theorem Crypto.newResponder_secret (ideal : P.Ideal) (shared : cfg.passphrase = own.passphrase)
    (sent : (Crypto.newInitiator P cfg salt sek).kmreq = some blob) {engine : Crypto}
    (accepted : Crypto.newResponder P own blob = .ok engine) : engine.secret = (sek, salt) := by
  rcases Crypto.newResponder_ok accepted with
    ⟨msg, opened, parsed, unwrapped, _, ownSalt, _, _, _, active, tx, _⟩
  cases sent
  have decoded := KmMessage.eq_of_parse_encode (parse_of_parseKmreq parsed)
  subst decoded
  have same : opened = sek := by
    rw [← shared] at unwrapped
    unfold unwrapKey wrapKey at unwrapped
    rw [ideal.unwrap_wrap] at unwrapped
    split_ifs at unwrapped
    cases unwrapped
    rfl
  subst same
  have key : engine.tx.get engine.active =
      some { key := opened, cipher := .new opened, pktCnt := 1, state := .active } := by
    rw [tx, active]
    rfl
  unfold Crypto.secret
  rw [Crypto.activeKey_eq key, ownSalt]

/-- The key message of an initiator fills whole words. -/
theorem Crypto.newInitiator_wholeWords (ideal : P.Ideal)
    (sized : sek.bytes.length = cfg.keyLen.bytes)
    (sent : (Crypto.newInitiator P cfg salt sek).kmreq = some blob) :
    HsExtension.WholeWords blob := by
  cases sent
  have wrapped := ideal.wrap_length (deriveKek P cfg.passphrase salt cfg.keyLen).bytes sek.bytes
  have length : (KmMessage.encode
      { keys := .even
        keyLen := cfg.keyLen
        salt
        wrapped := wrapKey P (deriveKek P cfg.passphrase salt cfg.keyLen) sek.bytes }).length =
      40 + cfg.keyLen.bytes := by
    unfold KmMessage.encode wrapKey
    simp only [List.length_append, List.length_cons, List.length_nil, wrapped, sized,
      salt.length_eq]
    have sign : kmSign.length = 2 := rfl
    have saltLen : kmSaltLen = 16 := rfl
    omega
  unfold HsExtension.WholeWords
  rw [length]
  cases cfg.keyLen <;> decide

end Keys

/-! ## Settings -/

/-- What the handshake has settled for one side. -/
structure Settings where
  sender : SenderConfig
  receiver : ReceiverConfig
  /-- The payload limit of the receiver. -/
  maxPayload : Nat
  secret : Option (SecretKey × Salt)
deriving DecidableEq

def Stack.settings (stack : Stack) : Settings where
  sender := stack.sender.cfg
  receiver := stack.receiver.cfg
  maxPayload := stack.receiver.maxPayload
  secret := stack.crypto.map Crypto.secret

def Connection.settings (self : Connection) : Option Settings :=
  match self.state with
  | .established sender receiver crypto => some (Stack.settings { sender, receiver, crypto })
  | _ => none

/-- The settings that a negotiation implies. -/
def Negotiated.settings (negotiated : Negotiated) (opts : SrtOptions) (timebase : Timebase) :
    Settings where
  sender :=
    { initialSeq := negotiated.sendInitialSeq
      flowWindow := min opts.flowWindow negotiated.flowWindow
      sndLatency := negotiated.sndLatency
      maxPayload := negotiatedPayload negotiated opts
      bufferPkts := opts.sendBufferPkts
      bandwidth := opts.bandwidth
      timebase }
  receiver :=
    { initialSeq := negotiated.recvInitialSeq
      rcvLatency := negotiated.rcvLatency
      bufferPkts := scaledRecvBuffer opts negotiated.rcvLatency }
  maxPayload := negotiatedPayload negotiated opts
  secret := negotiated.crypto.map Crypto.secret

namespace Stack

variable {P : Primitives}

/-- The calls that wait for a handshake. -/
def Call.Held : Call -> Prop
  | .push _ _ => True
  | .data _ _ => True
  | .anchor _ _ => True
  | _ => False

theorem sealPayload_secret (crypto : Option Crypto) (seq : SeqNumber) (payload : Bytes) :
    (Sender.sealPayload P crypto seq payload).1.map Crypto.secret = crypto.map Crypto.secret := by
  cases crypto with
  | none => rfl
  | some engine =>
      unfold Sender.sealPayload
      dsimp only
      split_ifs
      · rfl
      · have active := Crypto.encrypt_activeKey P engine seq payload
        change some ((engine.encrypt P seq payload).1.activeKey.key, engine.salt) = _
        rw [active]
        rfl

theorem decrypt_secret (engine : Crypto) (seq : SeqNumber) (kk : EncryptionFlags)
    (payload : Bytes) : (engine.decrypt P seq kk payload).1.secret = engine.secret := by
  have alike := Crypto.decrypt_sendsAlike P engine seq kk payload
  unfold Crypto.secret
  rw [alike.activeKey, alike.salt]

theorem ingestData_kept (now : Instant) (receiver : Receiver) (crypto : Option Crypto)
    (data : DataPacket) :
    (Connection.ingestData P now receiver crypto data).1.cfg = receiver.cfg ∧
      (Connection.ingestData P now receiver crypto data).1.maxPayload = receiver.maxPayload ∧
      (Connection.ingestData P now receiver crypto data).2.map Crypto.secret =
        crypto.map Crypto.secret := by
  rcases Connection.ingestData_arrives P now receiver crypto data with ⟨pkt, lost, _, _, same⟩
  have frame := Receiver.ingest_arrivalFrame receiver now pkt lost
  have cfg := congrArg Receiver.cfg frame
  have limit := congrArg Receiver.maxPayload frame
  rw [same, Connection.ingestData_crypto]
  refine ⟨cfg, limit, ?_⟩
  cases crypto with
  | none => rfl
  | some engine => exact congrArg some (decrypt_secret engine _ _ _)

theorem call_settings (stack : Stack) {call : Call} (held : call.Held) :
    (stack.call P call).settings = stack.settings := by
  have config := call_sender_cfg (P := P) stack call
  cases call with
  | push now payload =>
      have kept : (stack.call P (.push now payload)).crypto.map Crypto.secret =
          stack.crypto.map Crypto.secret := by
        unfold Stack.call
        dsimp only
        split
        case h_1 ok =>
          rcases Sender.push_ok ok with ⟨_, flags, wirePayload, _, sealed⟩
          exact (congrArg (Option.map Crypto.secret) (congrArg Prod.fst sealed)).symm.trans
            (sealPayload_secret _ _ _)
        case h_2 => rfl
      unfold settings
      rw [config, call_push_receiver, kept]
  | data now packet =>
      rcases ingestData_kept (P := P) now stack.receiver stack.crypto packet with
        ⟨cfg, limit, secret⟩
      unfold settings
      rw [config]
      change Settings.mk _ (Connection.ingestData P now stack.receiver stack.crypto packet).1.cfg
        (Connection.ingestData P now stack.receiver stack.crypto packet).1.maxPayload
        ((Connection.ingestData P now stack.receiver stack.crypto packet).2.map _) = _
      rw [cfg, limit, secret]
  | anchor instant ts =>
      have kept : (stack.receiver.setHsAnchor instant ts).cfg = stack.receiver.cfg ∧
          (stack.receiver.setHsAnchor instant ts).maxPayload = stack.receiver.maxPayload := by
        unfold Receiver.setHsAnchor
        split
        all_goals exact ⟨rfl, rfl⟩
      change Settings.mk _ (stack.receiver.setHsAnchor instant ts).cfg
        (stack.receiver.setHsAnchor instant ts).maxPayload _ = _
      rw [kept.1, kept.2]
      rfl
  | _ => cases held

theorem run_settings (stack : Stack) {calls : List Call}
    (held : forall call, call ∈ calls -> call.Held) :
    (calls.foldl (call P) stack).settings = stack.settings := by
  induction calls generalizing stack with
  | nil => rfl
  | cons first rest ih =>
      rw [List.foldl_cons, ih _ fun call member => held call (List.mem_cons_of_mem _ member)]
      exact call_settings stack (held first List.mem_cons_self)

end Stack

namespace Connection

variable {P : Primitives} {c : Connection}

theorem openingCalls_held {now : Instant} {hsTs : Timestamp} {pendingSend : List Bytes}
    {earlyData : List (Instant × DataPacket)} :
    forall call, call ∈ openingCalls now hsTs pendingSend earlyData -> call.Held := by
  intro call member
  rcases List.mem_cons.mp member with rfl | rest
  · trivial
  · rcases List.mem_append.mp rest with early | pending
    · rcases List.mem_map.mp early with ⟨entry, _, rfl⟩
      trivial
    · rcases List.mem_map.mp pending with ⟨payload, _, rfl⟩
      trivial

/-- A caller that becomes established has what it negotiated. -/
theorem completes_settings {input : Input} {now : Instant} {hsTs : Timestamp}
    {negotiated : Negotiated} (completed : c.completes P input = some (now, hsTs, negotiated)) :
    (c.handle P input).settings = some (negotiated.settings c.opts c.timebase) := by
  rcases connecting_of_completes completed with ⟨hs, pendingSend, earlyData, connecting⟩
  unfold settings
  rw [handle_completes connecting completed rfl]
  change some (Stack.settings ((openingCalls now hsTs pendingSend earlyData).foldl (Stack.call P)
    (c.opening now negotiated))) = _
  rw [Stack.run_settings _ openingCalls_held]
  rfl

end Connection

/-- So does a connection that the listener starts. -/
theorem ListenerDriver.connectionOf_settings (driver : ListenerDriver) (now : Instant)
    (hsTs : Timestamp) (reply : Packet) (negotiated : Negotiated) :
    (driver.connectionOf now hsTs reply negotiated).settings =
      some (negotiated.settings driver.opts ⟨now⟩) := by
  have anchored := @Stack.call_settings .sample
    { sender := (transmissionPair now negotiated driver.opts ⟨now⟩).1
      receiver := (transmissionPair now negotiated driver.opts ⟨now⟩).2
      crypto := negotiated.crypto } (.anchor now hsTs) trivial
  exact congrArg some anchored

end Rsrt

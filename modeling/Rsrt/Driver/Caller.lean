import Rsrt.Core.Speech
import Rsrt.Driver.Agreement

namespace Rsrt

/-!
# The caller before it is established

What a connecting caller asks for.  Its first request is answered with a cookie, from then on
every request is the same conclusion, and the only thing that establishes it is a conclusion
from the other side.
-/

/-- What a caller and a listener bring to a handshake, within the ranges of the source's types.
The initial sequence is one that the generator can give. -/
structure Terms where
  /-- Where the listener sees the caller. -/
  home : SocketAddrV4
  /-- Where the caller calls. -/
  remote : SocketAddrV4
  socketId : SocketId
  initialSeq : SeqNumber
  callerOpts : SrtOptions
  listenerOpts : SrtOptions
  home_octets : home.ip.length = 4
  remote_octets : remote.ip.length = 4
  initialSeq_lt : initialSeq.value < SeqNumber.mask
  caller_typed : callerOpts.Typed
  listener_typed : listenerOpts.Typed
  named : callerOpts.Named

/-- What the caller wraps under its passphrase, the listener unwraps only under the same one. -/
def Terms.Separates (P : Primitives) (terms : Terms) : Prop :=
  forall wrapping unwrapping, terms.callerOpts.secret = some wrapping ->
    terms.listenerOpts.secret = some unwrapping -> P.Separates wrapping unwrapping

namespace CallerHandshake

variable {P : Primitives} {terms : Terms} {hs : CallerHandshake}

/-- The handshake asks for what the terms say. -/
structure Asks (P : Primitives) (terms : Terms) (hs : CallerHandshake) : Prop where
  remote : hs.remote = terms.remote
  localSocketId : hs.localSocketId = terms.socketId
  initialSeq : hs.initialSeq = terms.initialSeq
  opts : Exists fun pbkeylen => hs.opts = { terms.callerOpts with pbkeylen }
  encAdvert : hs.encAdvert < 2 ^ 16
  initiates : hs.Initiates P
  cookie : forall cookie, hs.state = .conclusion cookie -> cookie < 2 ^ 32
  equipped : hs.Equipped P terms.callerOpts.secret

theorem Asks.posing (asks : hs.Asks P terms) (ideal : P.Ideal) : hs.Posing := by
  rcases asks.opts with ⟨pbkeylen, opts⟩
  refine ⟨asks.remote ▸ terms.remote_octets, asks.initialSeq ▸ terms.initialSeq_lt, ?_, ?_,
    asks.encAdvert, ?_⟩
  · rw [opts]
    exact ⟨terms.caller_typed.mss, terms.caller_typed.flowWindow, terms.caller_typed.streamid⟩
  · rw [opts]
    exact terms.named
  · intro blob sent
    rcases Option.bind_eq_some_iff.mp sent with ⟨engine, keyed, carried⟩
    rcases asks.initiates engine keyed with ⟨cfg, salt, sek, rfl, sized⟩
    exact Crypto.newInitiator_wholeWords ideal sized carried

/-- The new handshake asks for the same, and goes on sending a conclusion that the old one
sends. -/
structure Follows (P : Primitives) (terms : Terms) (hs hs' : CallerHandshake) : Prop where
  asks : hs'.Asks P terms
  concluding : forall cookie, hs.state = .conclusion cookie ->
    hs'.state = .conclusion cookie ∧ hs'.conclusionCif cookie = hs.conclusionCif cookie

theorem Asks.refl (asks : hs.Asks P terms) : Follows P terms hs hs :=
  ⟨asks, fun _ concluding => ⟨concluding, rfl⟩⟩

theorem Asks.pollTransmit (asks : hs.Asks P terms) (now : Instant) :
    Follows P terms hs (hs.pollTransmit now).1 := by
  have resent : (hs.pollTransmit now).1 = hs ∨
      (hs.pollTransmit now).1 = { hs with nextSend := now + hsRetryInterval } := by
    unfold CallerHandshake.pollTransmit
    split
    · exact Or.inl rfl
    · split_ifs
      · exact Or.inl rfl
      · exact Or.inr rfl
  rcases resent with same | later
  · rw [same]
    exact asks.refl
  · rw [later]
    exact ⟨⟨asks.remote, asks.localSocketId, asks.initialSeq, asks.opts, asks.encAdvert,
      asks.initiates, asks.cookie, asks.equipped⟩, fun _ concluding => ⟨concluding, rfl⟩⟩

/-- The engine has a key of the configured length. -/
def sized (hs : CallerHandshake) : Bool :=
  hs.crypto.all fun engine => engine.activeKey.key.bytes.length = engine.cfg.keyLen.bytes

/-- A response that does not end the handshake is ignored, or answers the induction. -/
theorem handleHandshake_waits {now : Instant} {cif : HandshakeCif} {draw : Draw}
    (goes_on : (hs.handleHandshake P now cif draw).2 = .ok none) :
    (hs.handleHandshake P now cif draw).1 = hs ∨
      hs.state = .induction ∧ Exists fun pbkeylen => (hs.handleHandshake P now cif draw).1 =
        { hs with
            opts := { hs.opts with pbkeylen }
            encAdvert := (pbkeylen.map pbkeylenBits).getD 0
            cryptoCfg := none
            crypto := hs.cryptoCfg.map fun cfg =>
              Crypto.newInitiator P (adoptPeerPbkeylen cfg cif.encryption) draw.salt draw.key
            state := .conclusion cif.cookie
            nextSend := now } := by
  unfold handleHandshake at goes_on ⊢
  split_ifs at goes_on ⊢
  · split at goes_on
    case h_1 => cases goes_on
    case h_2 inducing _ =>
      by_cases same : (hs.onInductionResponse P now cif draw).1 = hs
      · exact Or.inl same
      · have concluding : (hs.onInductionResponse P now cif draw).1.state =
            .conclusion cif.cookie := by
          unfold onInductionResponse at goes_on same ⊢
          split_ifs at goes_on same ⊢
          · exact absurd rfl same
          · cases goes_on
          · rfl
        exact Or.inr ⟨inducing, onInductionResponse_concluding inducing concluding⟩
    case h_3 => exact Or.inl (onConclusionResponse_same goes_on)
    case h_4 => exact Or.inl rfl
  · exact Or.inl rfl

theorem Asks.handleHandshake (asks : hs.Asks P terms) {now : Instant} {cif : HandshakeCif}
    {draw : Draw} (goes_on : (hs.handleHandshake P now cif draw).2 = .ok none)
    (typed : cif.cookie < 2 ^ 32) (sized : (hs.handleHandshake P now cif draw).1.sized) :
    Follows P terms hs (hs.handleHandshake P now cif draw).1 := by
  rcases handleHandshake_waits goes_on with same | ⟨inducing, pbkeylen, answered⟩
  · rw [same]
    exact asks.refl
  · have equipped := handleHandshake_equipped asks.equipped now cif draw goes_on
    rw [answered] at sized equipped ⊢
    refine ⟨⟨asks.remote, asks.localSocketId, asks.initialSeq, ?_, pbkeylenBits_lt _, ?_, ?_,
      equipped⟩, ?_⟩
    · rcases asks.opts with ⟨_, opts⟩
      exact ⟨pbkeylen, by rw [opts]⟩
    · intro engine keyed
      rcases Option.map_eq_some_iff.mp keyed with ⟨cfg, _, made⟩
      refine ⟨_, _, _, made.symm, ?_⟩
      unfold CallerHandshake.sized at sized
      dsimp only at keyed sized
      rw [keyed] at sized
      rw [← made] at sized
      exact of_decide_eq_true sized
    · intro cookie concluding
      cases concluding
      exact typed
    · intro cookie concluding
      rw [inducing] at concluding
      cases concluding

theorem asks_new (now : Instant) (timebase : Timebase) :
    Asks P terms
      (.new now terms.remote terms.socketId terms.initialSeq timebase terms.callerOpts) := by
  refine ⟨rfl, rfl, rfl, ⟨terms.callerOpts.pbkeylen, rfl⟩, (by decide : 0 < 2 ^ 16), ?_, ?_,
    new_equipped _ _ _ _ _ _⟩
  · intro engine keyed
    have unkeyed : (none : Option Crypto) = some engine := keyed
    cases unkeyed
  · intro cookie concluding
    unfold CallerHandshake.new at concluding
    dsimp only at concluding
    split at concluding <;> cases concluding

/-- A request is the induction or the conclusion. -/
theorem Asks.request (asks : hs.Asks P terms) (ideal : P.Ideal) {cif : HandshakeCif}
    (sent : hs.request = some cif) : cif.Encodable ∧ (cif.handshakeType = .induction ∨
      Exists fun cookie => hs.state = .conclusion cookie ∧ cif = hs.conclusionCif cookie) := by
  have posing := asks.posing ideal
  unfold CallerHandshake.request at sent
  split at sent
  case h_1 =>
    cases sent
    exact ⟨posing.induction, Or.inl rfl⟩
  case h_2 cookie concluding =>
    cases sent
    exact ⟨posing.conclusion (asks.cookie cookie concluding), Or.inr ⟨cookie, concluding, rfl⟩⟩
  case h_3 => cases sent
  case h_4 => cases sent

theorem pollTransmit_request {now : Instant} {packet : Packet}
    (sent : (hs.pollTransmit now).2 = some packet) :
    Exists fun cif => hs.request = some cif ∧ packet = hs.packet now cif := by
  unfold CallerHandshake.pollTransmit at sent
  split at sent
  case h_1 => cases sent
  case h_2 cif requested =>
    split_ifs at sent
    cases sent
    exact ⟨cif, requested, rfl⟩

end CallerHandshake

/-! ## Connections that are still connecting -/

namespace Connection

variable {P : Primitives} {c : Connection} {hs : CallerHandshake} {pendingSend : List Bytes}
  {earlyData : List (Instant × DataPacket)}

/-- What a datagram is to the connection. -/
def Datagram.ofBytes (bytes : Bytes) : Datagram :=
  match Packet.parse bytes with
  | .ok read => .packet read
  | .error (.rejected (.unknownControlType _)) => .unknownControlType
  | .error _ => .undecodable

/-- A connection that is connecting after an input was connecting before. -/
theorem connecting_of_handle {input : Input}
    (connecting : (c.handle P input).state = .connecting hs pendingSend earlyData) :
    Exists fun hs => Exists fun pendingSend => Exists fun earlyData =>
      c.state = .connecting hs pendingSend earlyData := by
  rcases next_connecting (s := { conn := c }) connecting with ⟨hs, pending, early, before, _⟩
  exact ⟨hs, pending, early, before⟩

/-- The calls of the application and of the timers. -/
def Input.own : Input -> Bool
  | .datagram _ _ _ => false
  | .pollTransmit _ => false
  | _ => true

/-- They leave the handshake of a connecting caller alone, or end it. -/
theorem handle_own {input : Input} (own : input.own)
    (connecting : c.state = .connecting hs pendingSend earlyData) :
    ((c.handle P input).transmitQ = c.transmitQ ∧ Exists fun pending => Exists fun early =>
        (c.handle P input).state = .connecting hs pending early) ∨
      Exists fun reason => (c.handle P input).state = .closed reason none := by
  have closes (now : Instant) (reason : CloseReason) (sendShutdown : Bool) :
      (c.closeWith now reason sendShutdown).state = .closed reason none := by
    rcases c with ⟨state⟩
    cases connecting
    cases sendShutdown <;> rfl
  cases input with
  | datagram now datagram draw => cases own
  | pollTransmit now => cases own
  | timer now =>
      change ((c.handleTimer now).transmitQ = _ ∧ Exists fun _ => Exists fun _ =>
        (c.handleTimer now).state = _) ∨ Exists fun _ => (c.handleTimer now).state = _
      unfold handleTimer
      rw [connecting]
      dsimp only
      split_ifs
      · exact Or.inr ⟨_, closes now _ _⟩
      · exact Or.inl ⟨rfl, _, _, connecting⟩
  | send now payload =>
      unfold handle send
      rw [connecting]
      dsimp only
      by_cases large : c.opts.maxPayload < payload.length
      · rw [if_pos large]
        exact Or.inl ⟨rfl, _, _, connecting⟩
      · rw [if_neg large]
        exact Or.inl ⟨rfl, _, _, rfl⟩
  | close now => exact Or.inr ⟨_, closes now _ _⟩
  | setHsAnchor instant ts =>
      change ((c.setHsAnchor instant ts).transmitQ = _ ∧ Exists fun _ => Exists fun _ =>
        (c.setHsAnchor instant ts).state = _) ∨ _
      unfold setHsAnchor
      rw [connecting]
      exact Or.inl ⟨rfl, _, _, connecting⟩
  | pollDeliver now =>
      change ((c.pollDeliver now).1.transmitQ = _ ∧ Exists fun _ => Exists fun _ =>
        (c.pollDeliver now).1.state = _) ∨ _
      unfold pollDeliver
      rw [connecting]
      exact Or.inl ⟨rfl, _, _, connecting⟩

/-- A request is all that a connecting caller with an empty queue sends. -/
theorem pollTransmit_requests (connecting : c.state = .connecting hs pendingSend earlyData)
    (empty : c.transmitQ = []) (now : Instant) :
    (c.pollTransmit now).1.state = .connecting (hs.pollTransmit now).1 pendingSend earlyData ∧
      (c.pollTransmit now).1.transmitQ = [] ∧
      forall packet, (c.pollTransmit now).2 = some packet ->
        Exists fun cif => Exists fun sent : ControlPacket => hs.request = some cif ∧
          packet = .control sent ∧ sent.controlType = .handshake cif := by
  have requests := @CallerHandshake.pollTransmit_request hs now
  unfold pollTransmit pollTransmitAt nextTransmitAt
  rw [empty, connecting]
  dsimp only
  generalize hs.pollTransmit now = outcome at requests
  rcases outcome with ⟨after, _ | request⟩
  · exact ⟨rfl, rfl, nofun⟩
  · refine ⟨rfl, rfl, ?_⟩
    intro packet found
    rcases requests rfl with ⟨cif, requested, rfl⟩
    cases found
    exact ⟨cif, _, requested, rfl, rfl⟩

/-- The ways in which a packet can leave a caller that goes on connecting or gives up. -/
inductive Hears (P : Primitives) (hs : CallerHandshake) (now : Instant) (packet : Packet)
    (draw : Draw) (c c' : Connection) : Prop
  | ignores (queue : c'.transmitQ = c.transmitQ) {pendingSend : List Bytes}
      {earlyData : List (Instant × DataPacket)}
      (state : c'.state = .connecting hs pendingSend earlyData)
  | waits {read : ControlPacket} {cif : HandshakeCif} (is : packet = .control read)
      (message : read.controlType = .handshake cif)
      (goes_on : (hs.handleHandshake P now cif draw).2 = .ok none)
      (queue : c'.transmitQ = c.transmitQ) {pendingSend : List Bytes}
      {earlyData : List (Instant × DataPacket)}
      (state : c'.state =
        .connecting (hs.handleHandshake P now cif draw).1 pendingSend earlyData)
  | closes {reason : CloseReason} (state : c'.state = .closed reason none)

theorem handleControlPacket_hears {now : Instant} {read : ControlPacket} {draw : Draw}
    (connecting : c.state = .connecting hs pendingSend earlyData)
    (unfinished : forall cif negotiated, read.controlType = .handshake cif ->
      (hs.handleHandshake P now cif draw).2 ≠ .ok (some negotiated)) :
    Hears P hs now (.control read) draw c (c.handleControlPacket P now read draw) := by
  have ignored : Hears P hs now (.control read) draw c c := .ignores rfl connecting
  have transmission (ts : Timestamp) (message : ControlType) (fresh : SecretKey) :
      Hears P hs now (.control read) draw c
        (c.handleTransmissionControl P now ts message fresh) := by
    unfold handleTransmissionControl
    rw [connecting]
    exact ignored
  unfold handleControlPacket
  split
  case h_1 cif message =>
    unfold handleHandshakePacket
    rw [connecting]
    dsimp only
    split
    case h_1 evaluated => exact absurd (congrArg Prod.snd evaluated) (unfinished _ _ message)
    case h_2 next evaluated =>
      have moved : next = (hs.handleHandshake P now cif draw).1 :=
        (congrArg Prod.fst evaluated).symm
      subst moved
      exact .waits rfl message (congrArg Prod.snd evaluated) rfl rfl
    case h_3 => exact .closes rfl
  case h_2 =>
    unfold closeWith
    rw [connecting]
    exact .closes rfl
  case h_3 => exact ignored
  case h_4 => exact ignored
  case h_5 => exact ignored
  case h_6 =>
    unfold handleKmreq
    rw [connecting]
    exact ignored
  case h_7 =>
    unfold handleKmrsp
    rw [connecting]
    exact ignored
  case h_8 => exact transmission _ _ _

theorem handlePacket_hears (connecting : c.state = .connecting hs pendingSend earlyData)
    (now : Instant) (packet : Packet) (draw : Draw)
    (unfinished : c.completes P (.datagram now (.packet packet) draw) = none) :
    Hears P hs now packet draw c (c.handlePacket P now packet draw) := by
  have touched : (c.touch now).state = .connecting hs pendingSend earlyData := connecting
  unfold handlePacket
  rw [connecting]
  dsimp only
  split_ifs with elsewhere
  · exact .ignores rfl connecting
  · cases packet with
    | data data =>
        unfold handleDataPacket
        rw [touched]
        exact .ignores rfl rfl
    | control read =>
        have goes_on (cif : HandshakeCif) (negotiated : Negotiated)
            (message : read.controlType = .handshake cif) :
            (hs.handleHandshake P now cif draw).2 ≠ .ok (some negotiated) := by
          intro outcome
          unfold completes at unfinished
          dsimp only at unfinished
          rw [connecting, message] at unfinished
          dsimp only at unfinished
          rw [if_neg (show ¬c.foreign (.control read) from elsewhere), outcome] at unfinished
          cases unfinished
        have hears := handleControlPacket_hears touched goes_on
        cases hears with
        | ignores queue state => exact .ignores queue state
        | waits is message goes_on queue state => exact .waits is message goes_on queue state
        | closes state => exact .closes state

/-- A connecting caller becomes established only by completing its handshake. -/
theorem completes_of_established {input : Input}
    (connecting : c.state = .connecting hs pendingSend earlyData) {sender : Sender}
    {receiver : Receiver} {crypto : Option Crypto}
    (established : (c.handle P input).state = .established sender receiver crypto) :
    Exists fun agreed => c.completes P input = some agreed := by
  cases completed : c.completes P input with
  | some agreed => exact ⟨agreed, rfl⟩
  | none =>
      have goes_on := handle_goesOn connecting completed
      rw [established] at goes_on
      cases goes_on

/-- The response that completes a handshake. -/
theorem completes_response {input : Input} {now : Instant} {hsTs : Timestamp}
    {negotiated : Negotiated} (connecting : c.state = .connecting hs pendingSend earlyData)
    (completed : c.completes P input = some (now, hsTs, negotiated)) :
    Exists fun read : ControlPacket => Exists fun draw => Exists fun cif =>
      input = .datagram now (.packet (.control read)) draw ∧
        read.controlType = .handshake cif ∧
        (hs.handleHandshake P now cif draw).2 = .ok (some negotiated) := by
  unfold completes at completed
  split at completed
  case h_2 => cases completed
  case h_1 arrival read draw =>
    rw [connecting] at completed
    split at completed
    case h_2 => cases completed
    case h_1 cif state message =>
      cases state
      split_ifs at completed
      split at completed
      case h_2 => cases completed
      case h_1 agreed outcome =>
        cases completed
        exact ⟨read, draw, cif, rfl, message, outcome⟩

end Connection

end Rsrt

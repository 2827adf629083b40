import Rsrt.Options

namespace Rsrt

/-!
# Caller and listener handshake

The HSv5 caller-listener handshake as two state machines without I/O.  The caller
sends INDUCTION, adopts the listener's cookie, sends CONCLUSION and judges the
response; requests are repeated until the connect timeout.  The listener keeps
nothing per peer: everything that a conclusion is checked against is in the cookie.

Encryption is always enforced: every mismatch or failed key exchange rejects the
handshake, with one exception, the one-word UNSECURED report.  The salt and the key
that a caller generates are arguments of the call that generates them, and the hash
behind the cookie is a field of the listener.
-/

def hsRetryInterval : Duration := Duration.fromMillis 250

def hsVersionUdt4 : Nat := 4

def hsVersionSrt1 : Nat := 5

/-- Lowest SRT version of an HSv5 peer. -/
def srtVersionFeatHsv5 : Nat := 0x00010300

def udtDgram : Nat := 2

/-- Key material that the random generator hands out. -/
structure Draw where
  salt : Salt
  key : SecretKey
deriving DecidableEq

/-- Everything that the established connection needs from the handshake. -/
structure Negotiated where
  remote : SocketAddrV4
  localSocketId : SocketId
  peerSocketId : SocketId
  sendInitialSeq : SeqNumber
  recvInitialSeq : SeqNumber
  sndLatency : Duration
  rcvLatency : Duration
  streamid : Option Bytes
  mss : Nat
  flowWindow : Nat
  crypto : Option Crypto
deriving DecidableEq

def msU16 (d : Duration) : Nat := min (Duration.asMillis d) 65535

def msDur (ms : Nat) : Duration := Duration.fromMillis ms

/-- The checks of `CHandShake::valid()` that the parser has not made. -/
def cifValid (cif : HandshakeCif) : Bool :=
  hsVersionUdt4 ≤ cif.version && 32 ≤ cif.mss && 2 ≤ cif.flowWindow

/-- Without a local passphrase an UNSECURE rejection means that the listener demands
encryption. -/
def rejectError (code : Nat) (encrypting : Bool) : SrtError :=
  if code = Reject.unsecure ∧ ¬encrypting then .encryptionUnsupported else .rejected code

/-- Encryption Field advert for a key length. -/
def pbkeylenBits : KeyLength -> Nat
  | .aes128 => 2
  | .aes192 => 3
  | .aes256 => 4

def pbkeylenFromBits (bits : Nat) : Option KeyLength :=
  match bits with
  | 2 => some .aes128
  | 3 => some .aes192
  | 4 => some .aes256
  | _ => none

/-- An advert in the listener's INDUCTION response replaces the local key length. -/
def adoptPeerPbkeylen (cfg : CryptoConfig) (advert : Nat) : CryptoConfig :=
  match pbkeylenFromBits advert with
  | some peer => { cfg with keyLen := peer }
  | none => cfg

/-! ## Caller -/

inductive CallerState
  | induction
  | conclusion (cookie : Nat)
  | established
  /-- A terminal error was already surfaced. -/
  | failed
deriving DecidableEq

structure CallerHandshake where
  remote : SocketAddrV4
  localSocketId : SocketId
  initialSeq : SeqNumber
  timebase : Timebase
  opts : SrtOptions
  state : CallerState
  /-- The current request is sent at this instant. -/
  nextSend : Instant
  deadline : Instant
  /-- Consumed when the CONCLUSION request is made. -/
  cryptoCfg : Option CryptoConfig
  crypto : Option Crypto
  /-- Raw configured key length for the CONCLUSION request, zero when unset. -/
  encAdvert : Nat
deriving DecidableEq

namespace CallerHandshake

/-- Invalid encryption options fail closed: nothing is ever sent. -/
def new (now : Instant) (remote : SocketAddrV4) (localSocketId : SocketId)
    (initialSeq : SeqNumber) (timebase : Timebase) (opts : SrtOptions) : CallerHandshake where
  remote := remote
  localSocketId := localSocketId
  initialSeq := initialSeq
  timebase := timebase
  opts := opts
  state :=
    match opts.cryptoConfig with
    | .ok _ => .induction
    | .error _ => .failed
  nextSend := now
  deadline := now + opts.connectTimeout
  cryptoCfg :=
    match opts.cryptoConfig with
    | .ok cfg => cfg
    | .error _ => none
  crypto := none
  encAdvert := 0

/-- A request is still being sent. -/
def requesting (self : CallerHandshake) : Bool :=
  match self.state with
  | .induction => true
  | .conclusion _ => true
  | .established => false
  | .failed => false

/-- The connect timeout has expired. -/
def isTimedOut (self : CallerHandshake) (now : Instant) : Bool :=
  self.requesting && self.deadline ≤ now

def nextDeadline (self : CallerHandshake) : Option Instant :=
  if self.requesting then some (min self.nextSend self.deadline) else none

def fail (self : CallerHandshake) (err : SrtError) :
    CallerHandshake × Except SrtError (Option Negotiated) :=
  ({ self with state := .failed }, .error err)

variable (P : Primitives)

/-- Adopts the cookie and the advertised key length, and generates the key material
that rides in the CONCLUSION request. -/
def onInductionResponse (self : CallerHandshake) (now : Instant) (cif : HandshakeCif)
    (draw : Draw) : CallerHandshake × Except SrtError (Option Negotiated) :=
  if cif.handshakeType ≠ .induction then (self, .ok none)
  else if cif.version ≤ hsVersionUdt4 then self.fail (.rejected Reject.version)
  else
    let cryptoCfg := self.cryptoCfg.map fun cfg => adoptPeerPbkeylen cfg cif.encryption
    let pbkeylen := (pbkeylenFromBits cif.encryption).or self.opts.pbkeylen
    ({ self with
        opts := { self.opts with pbkeylen }
        encAdvert := (pbkeylen.map pbkeylenBits).getD 0
        cryptoCfg := none
        crypto := cryptoCfg.map fun cfg => Crypto.newInitiator P cfg draw.salt draw.key
        state := .conclusion cif.cookie
        nextSend := now },
      .ok none)

/-- The handshake is complete: both directions start from our sequence, and the
latencies of the response are final. -/
def conclude (self : CallerHandshake) (cif : HandshakeCif) (hs : HsExtFields) :
    CallerHandshake × Except SrtError (Option Negotiated) :=
  ({ self with state := .established, crypto := none },
    .ok (some
      { remote := self.remote
        localSocketId := self.localSocketId
        peerSocketId := cif.socketId
        sendInitialSeq := self.initialSeq
        recvInitialSeq := self.initialSeq
        sndLatency := msDur hs.recvLatencyMs
        rcvLatency := msDur hs.sendLatencyMs
        streamid := self.opts.streamid
        mss := cif.mss
        flowWindow := cif.flowWindow
        crypto := self.crypto }))

/-- The outcome of the key exchange. -/
def judgeKmx (self : CallerHandshake) (cif : HandshakeCif) (hs : HsExtFields) :
    CallerHandshake × Except SrtError (Option Negotiated) :=
  match self.crypto with
  | some engine =>
      match cif.kmRsp.map engine.handleKmrsp with
      | some (engine, .confirmed) => { self with crypto := some engine }.conclude cif hs
      -- A report that the peer has no encryption at all: the caller connects.
      | some (engine, .failed .unsecured) => { self with crypto := some engine }.conclude cif hs
      | some (engine, _) => { self with crypto := some engine }.fail (.rejected Reject.unsecure)
      | none => self.fail (.rejected Reject.unsecure)
  | none =>
      if cif.hasKm then self.fail .encryptionUnsupported else self.conclude cif hs

def onConclusionResponse (self : CallerHandshake) (cif : HandshakeCif) :
    CallerHandshake × Except SrtError (Option Negotiated) :=
  match cif.handshakeType with
  | .conclusion =>
      -- Version zero marks a rejection.
      if cif.version = 0 then self.fail (.rejected Reject.peer)
      else if cif.version ≤ hsVersionUdt4 then self.fail (.rejected Reject.version)
      else if ¬cifValid cif then self.fail (.rejected Reject.rogue)
      -- The listener must echo our initial sequence.
      else if cif.initialSeq ≠ self.initialSeq then self.fail (.rejected Reject.rogue)
      else if cif.extensionField &&& hsExtHsreq = 0 then self.fail (.rejected Reject.rogue)
      else
        match cif.hsRsp with
        | none => self.fail (.rejected Reject.rogue)
        | some hs =>
            if hs.srtVersion < srtVersionFeatHsv5 then self.fail (.rejected Reject.rogue)
            else if hs.flags.contains HsFlags.stream then self.fail (.rejected Reject.messageApi)
            else self.judgeKmx cif hs
  | _ => (self, .ok none)

/-- Feeds a received handshake; a negotiation in the result completes it. -/
def handleHandshake (self : CallerHandshake) (now : Instant) (cif : HandshakeCif) (draw : Draw) :
    CallerHandshake × Except SrtError (Option Negotiated) :=
  if ¬self.requesting then (self, .ok none)
  else
    match cif.handshakeType, self.state with
    | .rejection code, _ =>
        self.fail (rejectError code (self.crypto.isSome || self.cryptoCfg.isSome))
    | _, .induction => self.onInductionResponse P now cif draw
    | _, .conclusion _ => self.onConclusionResponse cif
    | _, _ => (self, .ok none)

/-! ### Requests -/

def inductionCif (self : CallerHandshake) : HandshakeCif where
  version := hsVersionUdt4
  encryption := 0
  extensionField := udtDgram
  initialSeq := self.initialSeq
  mss := self.opts.mss
  flowWindow := self.opts.flowWindow
  handshakeType := .induction
  socketId := self.localSocketId
  cookie := 0
  peerIp := HandshakeCif.encodePeerIp self.remote
  extensions := []

/-- The stream id, when its length is in range. -/
def attachedStreamid (self : CallerHandshake) : Option Bytes :=
  self.opts.streamid.filter fun sid => !sid.isEmpty && sid.length ≤ 512

/-- The blocks are HSREQ, the stream id and KMREQ, in this order; the Extension Field
has the bit of every attached block. -/
def conclusionCif (self : CallerHandshake) (cookie : Nat) : HandshakeCif :=
  let kmreq := self.crypto.bind Crypto.kmreq
  { self.inductionCif with
      version := hsVersionSrt1
      encryption := self.encAdvert
      extensionField := hsExtHsreq |||
        (if self.attachedStreamid.isSome then hsExtConfig else 0) |||
        (if kmreq.isSome then hsExtKmreq else 0)
      handshakeType := .conclusion
      cookie := cookie
      extensions :=
        [.hsReq
          { srtVersion := srtVersion
            flags := HsFlags.liveDefaults
            recvLatencyMs := msU16 self.opts.latency
            sendLatencyMs := msU16 self.opts.peerLatency }] ++
          (self.attachedStreamid.map HsExtension.streamId).toList ++
          (kmreq.map HsExtension.kmReq).toList }

/-- Requests go to destination zero. -/
def packet (self : CallerHandshake) (now : Instant) (cif : HandshakeCif) : Packet :=
  .control
    { timestamp := self.timebase.timestamp now
      dstSocketId := .handshake
      controlType := .handshake cif }

/-- The request that is being sent, rebuilt on every retransmission. -/
def request (self : CallerHandshake) : Option HandshakeCif :=
  match self.state with
  | .induction => some self.inductionCif
  | .conclusion cookie => some (self.conclusionCif cookie)
  | .established => none
  | .failed => none

/-- The request, when it is due. -/
def pollTransmit (self : CallerHandshake) (now : Instant) : CallerHandshake × Option Packet :=
  match self.request with
  | none => (self, none)
  | some cif =>
      if self.isTimedOut now ∨ now < self.nextSend then (self, none)
      else ({ self with nextSend := now + hsRetryInterval }, some (self.packet now cif))

end CallerHandshake

/-! ## Listener -/

inductive ListenerAction
  /-- An INDUCTION response or a rejection. -/
  | reply (packet : Packet)
  /-- Send the reply and create the connection. -/
  | accept (reply : Packet) (negotiated : Negotiated)
  | drop
deriving DecidableEq

structure Listener where
  timebase : Timebase
  opts : SrtOptions
  /-- Cookie of an address in a minute, under the listener's secret. -/
  cookieAt : Nat -> SocketAddrV4 -> Nat

namespace Listener

/-- Minutes since the listener started. -/
def minute (self : Listener) (now : Instant) : Nat :=
  Duration.asSecs (Instant.saturatingDurationSince now self.timebase.start) / 60

def cookie (self : Listener) (now : Instant) (peer : SocketAddrV4) : Nat :=
  self.cookieAt (self.minute now) peer

/-- The cookie of this minute or of the one before. -/
def cookieOk (self : Listener) (now : Instant) (peer : SocketAddrV4) (cookie : Nat) : Bool :=
  cookie = self.cookieAt (self.minute now) peer ||
    (0 < self.minute now && cookie = self.cookieAt (self.minute now - 1) peer)

def packet (self : Listener) (now : Instant) (dst : SocketId) (cif : HandshakeCif) : Packet :=
  .control
    { timestamp := self.timebase.timestamp now
      dstSocketId := dst
      controlType := .handshake cif }

/-- Echoes the request with the type replaced and the extensions stripped. -/
def rejection (self : Listener) (now : Instant) (cif : HandshakeCif) (code : Nat) :
    ListenerAction :=
  .reply (self.packet now cif.socketId
    { cif with handshakeType := .rejection code, extensions := [] })

/-- Stateless echo of the request with the cookie. -/
def onInduction (self : Listener) (now : Instant) (peer : SocketAddrV4) (cif : HandshakeCif) :
    ListenerAction :=
  .reply (self.packet now cif.socketId
    { cif with
        version := hsVersionSrt1
        encryption := (self.opts.pbkeylen.map pbkeylenBits).getD 0
        extensionField := srtMagic
        cookie := self.cookie now peer
        extensions := [] })

/-- Why the blocks of a conclusion are refused, checked in the order of the blocks. -/
def refusedBlock : List HsExtension -> Option Nat
  | [] => none
  | .congestion name :: rest =>
      if name ≠ congestionLive then some Reject.congestion else refusedBlock rest
  | .unknown cmd _ :: rest => if cmd = srtCmdFilter then some Reject.filter else refusedBlock rest
  | .invalid _ _ :: _ => some Reject.rogue
  | _ :: rest => refusedBlock rest

variable (P : Primitives)

/-- The key exchange: an engine with the response, or a rejection code. -/
def answerKmx (self : Listener) (kmreq : Option Bytes) :
    Except Nat (Option Crypto × Option Bytes) :=
  match self.opts.cryptoConfig with
  -- Invalid encryption options fail closed.
  | .error _ => .error Reject.unsecure
  | .ok cfg =>
      match cfg, kmreq with
      | none, none => .ok (none, none)
      | none, some _ => .error Reject.unsecure
      | some _, none => .error Reject.unsecure
      | some cfg, some km =>
          match Crypto.newResponder P cfg km with
          | .ok engine => .ok (some engine, some km)
          | .error state =>
              .error (if state = .badSecret then Reject.badSecret else Reject.unsecure)

/-- The accepted connection: each latency is the larger of the receiver's own setting
and the sender's proposal, and the caller's initial sequence is adopted. -/
def acceptance (self : Listener) (now : Instant) (peer : SocketAddrV4) (cif : HandshakeCif)
    (newSocketId : SocketId) (hs : HsExtFields) (crypto : Option Crypto)
    (kmRsp : Option Bytes) : ListenerAction :=
  let rcvLatency := max self.opts.latency (msDur hs.sendLatencyMs)
  let sndLatency := max self.opts.peerLatency (msDur hs.recvLatencyMs)
  let mss := min self.opts.mss cif.mss
  .accept
    (self.packet now cif.socketId
      { version := hsVersionSrt1
        encryption := (self.opts.pbkeylen.map pbkeylenBits).getD 0
        extensionField := hsExtHsreq ||| (if kmRsp.isSome then hsExtKmreq else 0)
        initialSeq := cif.initialSeq
        mss := mss
        flowWindow := self.opts.flowWindow
        handshakeType := .conclusion
        socketId := newSocketId
        cookie := cif.cookie
        peerIp := HandshakeCif.encodePeerIp peer
        extensions :=
          .hsRsp
            { srtVersion := srtVersion
              flags := HsFlags.liveDefaults
              recvLatencyMs := msU16 rcvLatency
              sendLatencyMs := msU16 sndLatency } ::
            (kmRsp.map HsExtension.kmRsp).toList })
    { remote := peer
      localSocketId := newSocketId
      peerSocketId := cif.socketId
      sendInitialSeq := cif.initialSeq
      recvInitialSeq := cif.initialSeq
      sndLatency := sndLatency
      rcvLatency := rcvLatency
      streamid := cif.streamId
      mss := mss
      flowWindow := cif.flowWindow
      crypto := crypto }

/-- The Extension Field bits match the attached blocks, and there is an HSREQ or HSRSP. -/
def blocksMatch (cif : HandshakeCif) : Bool :=
  cif.extensionField &&& hsExtHsreq ≠ 0 && cif.hsExt.isSome &&
    (decide (cif.extensionField &&& hsExtKmreq ≠ 0) == cif.hasKm)

def onConclusion (self : Listener) (now : Instant) (peer : SocketAddrV4) (cif : HandshakeCif)
    (newSocketId : SocketId) : ListenerAction :=
  -- An invalid CIF and a wrong cookie are ignored silently.
  if ¬cifValid cif then .drop
  else if ¬self.cookieOk now peer cif.cookie then .drop
  else if cif.version ≠ hsVersionSrt1 then self.rejection now cif Reject.version
  else if ¬blocksMatch cif then self.rejection now cif Reject.rogue
  else
    match cif.hsExt with
    | none => self.rejection now cif Reject.rogue
    | some hs =>
        if hs.srtVersion < srtVersionFeatHsv5 then self.rejection now cif Reject.rogue
        else if hs.flags.contains HsFlags.stream then self.rejection now cif Reject.messageApi
        else
          match refusedBlock cif.extensions with
          | some code => self.rejection now cif code
          | none =>
              match self.answerKmx P cif.kmReq with
              | .error code => self.rejection now cif code
              | .ok (crypto, kmRsp) =>
                  self.acceptance now peer cif newSocketId hs crypto kmRsp

/-- Handles a handshake packet from an unknown peer; rendezvous is not supported. -/
def handleHandshake (self : Listener) (now : Instant) (peer : SocketAddrV4) (cif : HandshakeCif)
    (newSocketId : SocketId) : ListenerAction :=
  match cif.handshakeType with
  | .induction => self.onInduction now peer cif
  | .conclusion => self.onConclusion P now peer cif newSocketId
  | _ => .drop

end Listener

/-! ## Samples -/

/-- A handshake of a peer with the default sizes. -/
def plainCif (handshakeType : HandshakeType) (socketId : SocketId)
    (extensions : List HsExtension) : HandshakeCif where
  version := hsVersionSrt1
  encryption := 0
  extensionField := hsExtHsreq
  initialSeq := SeqNumber.new 0
  mss := 1500
  flowWindow := 8192
  handshakeType
  socketId
  cookie := 7
  peerIp := List.replicate 16 0
  extensions

/-- What such a peer says of itself. -/
def plainFields (sendLatencyMs : Nat) : HsExtFields where
  srtVersion := srtVersion
  flags := HsFlags.liveDefaults
  recvLatencyMs := 120
  sendLatencyMs

end Rsrt

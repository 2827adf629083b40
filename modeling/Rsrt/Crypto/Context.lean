import Rsrt.Crypto.Km
import Rsrt.Core.Time

namespace Rsrt

/-!
# Per-connection encryption engine

Payload encryption and decryption, the key exchange, and the refresh cycle of
the sending key: a fresh key is announced into the idle slot, the engine later
switches to it, and the old key is decommissioned.  A refresh is evaluated on
every ACK that the sender half receives.

The sending slot that is in use always holds a key: the engine carries the proof,
so that the source's unchecked accesses to that slot cannot fail here.
-/

def kmMaxRetry : Nat := 10

/-- The two SEK slots. -/
inductive SekSlot
  | even
  | odd
deriving DecidableEq

namespace SekSlot

def other : SekSlot -> SekSlot
  | even => odd
  | odd => even

@[simp] theorem other_other (slot : SekSlot) : slot.other.other = slot := by
  cases slot <;> rfl

theorem other_ne (slot : SekSlot) : slot.other ≠ slot := by
  cases slot <;> decide

theorem eq_or_eq_other (slot target : SekSlot) : slot = target ∨ slot = target.other := by
  cases slot <;> cases target <;> decide

/-- KK bits of a data packet encrypted with the slot's key. -/
def flags : SekSlot -> EncryptionFlags
  | even => .even
  | odd => .odd

end SekSlot

/-- One optional value for each slot. -/
structure SlotPair (α : Type) where
  even : Option α := none
  odd : Option α := none
deriving DecidableEq

namespace SlotPair

variable {α β : Type}

def get (self : SlotPair α) : SekSlot -> Option α
  | .even => self.even
  | .odd => self.odd

def set (self : SlotPair α) (slot : SekSlot) (value : Option α) : SlotPair α :=
  match slot with
  | .even => { self with even := value }
  | .odd => { self with odd := value }

def map (f : SekSlot -> α -> β) (self : SlotPair α) : SlotPair β where
  even := self.even.map (f .even)
  odd := self.odd.map (f .odd)

@[simp] theorem get_set (self : SlotPair α) (slot : SekSlot) (value : Option α) :
    (self.set slot value).get slot = value := by
  cases slot <;> rfl

@[simp] theorem get_set_other (self : SlotPair α) (slot : SekSlot) (value : Option α) :
    (self.set slot.other value).get slot = self.get slot := by
  cases slot <;> rfl

@[simp] theorem get_other_set (self : SlotPair α) (slot : SekSlot) (value : Option α) :
    (self.set slot value).get slot.other = self.get slot.other := by
  cases slot <;> rfl

@[simp] theorem get_map (f : SekSlot -> α -> β) (self : SlotPair α) (slot : SekSlot) :
    (self.map f).get slot = (self.get slot).map (f slot) := by
  cases slot <;> rfl

end SlotPair

/-- Resolved crypto parameters. -/
structure CryptoConfig where
  passphrase : Bytes
  keyLen : KeyLength
  /-- Packets per SEK before refresh. -/
  kmRefreshRate : Nat
  /-- Pre-announce window. -/
  kmPreannounce : Nat
deriving DecidableEq

inductive KmReqOutcome
  | installed
  | failed (state : KmState)
deriving DecidableEq

inductive KmRspOutcome
  | confirmed
  | failed (state : KmState)
  | ignored
deriving DecidableEq

inductive TxKeyState
  | active
  | announced
  | deprecated
deriving DecidableEq

/-- One sending SEK with its refresh bookkeeping. -/
structure TxKey where
  key : SecretKey
  cipher : CtrCipher
  /-- Packets encrypted under this key. -/
  pktCnt : Nat
  state : TxKeyState
deriving DecidableEq

/-- Cached KMREQ send slot. -/
structure OutstandingKmReq where
  blob : Bytes
  retries : Nat
  lastSend : Option Instant
deriving DecidableEq

structure Crypto where
  cfg : CryptoConfig
  salt : Salt
  kek : Kek
  tx : SlotPair TxKey
  active : SekSlot
  keyed : (tx.get active).isSome
  rx : SlotPair CtrCipher
  rxSalt : Salt
  /-- Present only after a peer's message changed the salt or the key length. -/
  rxKek : Option Kek := none
  sndState : KmState
  rcvState : KmState
  outstanding : Option OutstandingKmReq
  keySwitches : Nat := 0
deriving DecidableEq

/-- Classifies a KMREQ payload: the two pre-checks fail as a bad secret, every
later rejection as a missing one. -/
def parseKmreq (buf : Bytes) : Except KmState KmMessage :=
  if buf.length ≤ kmHeaderLen ∨ buf[15]? = some 0 then .error .badSecret
  else
    match KmMessage.parse buf with
    | .ok msg => .ok msg
    | .error _ => .error .noSecret

/-- Splits an unwrapped payload; a dual one is even first, always. -/
def splitSeks (msg : KmMessage) (sek : SecretKey) : SlotPair SecretKey :=
  match msg.keys with
  | .even => { even := some sek }
  | .odd => { odd := some sek }
  | .both =>
      { even := some ⟨sek.bytes.take msg.keyLen.bytes⟩
        odd := some ⟨sek.bytes.drop msg.keyLen.bytes⟩ }

/-- The slot that a responder starts to send with. -/
def firstSlot (seks : SlotPair SecretKey) : SekSlot :=
  if seks.even.isSome then .even else .odd

theorem splitSeks_keyed (msg : KmMessage) (sek : SecretKey) :
    ((splitSeks msg sek).get (firstSlot (splitSeks msg sek))).isSome := by
  unfold splitSeks
  cases msg.keys <;> rfl

namespace Crypto

variable (P : Primitives)

def newInitiator (cfg : CryptoConfig) (salt : Salt) (sek : SecretKey) : Crypto :=
  let kek := deriveKek P cfg.passphrase salt cfg.keyLen
  let cipher := CtrCipher.new sek
  let wrapped := wrapKey P kek sek.bytes
  let blob := KmMessage.encode { keys := .even, keyLen := cfg.keyLen, salt, wrapped }
  { cfg
    salt
    kek
    -- The initial key's counter starts at one.
    tx := { even := some { key := sek, cipher, pktCnt := 1, state := .active } }
    active := .even
    keyed := rfl
    rx := { even := some cipher }
    rxSalt := salt
    sndState := .securing
    rcvState := .unsecured
    outstanding := some { blob, retries := kmMaxRetry, lastSend := none } }

def newResponder (cfg : CryptoConfig) (kmreq : Bytes) : Except KmState Crypto :=
  match parseKmreq kmreq with
  | .error state => .error state
  | .ok msg =>
      let kek := deriveKek P cfg.passphrase msg.salt msg.keyLen
      match unwrapKey P kek msg.wrapped with
      | .error .wrongSecret => .error .badSecret
      | .error _ => .error .noSecret
      | .ok sek =>
          let seks := splitSeks msg sek
          let active := firstSlot seks
          .ok
            { -- The responder adopts the key length of the request.
              cfg := { cfg with keyLen := msg.keyLen }
              salt := msg.salt
              kek
              tx := seks.map fun slot key =>
                { key
                  cipher := .new key
                  pktCnt := if slot = active then 1 else 0
                  state := if slot = active then .active else .announced }
              active
              keyed := by
                rw [SlotPair.get_map, Option.isSome_map]
                exact splitSeks_keyed msg sek
              rx := seks.map fun _ key => .new key
              rxSalt := msg.salt
              sndState := .secured
              rcvState := .secured
              outstanding := some { blob := kmreq, retries := 0, lastSend := none } }

/-- The KM message that is outstanding, for attachment to the handshake. -/
def kmreq (self : Crypto) : Option Bytes := self.outstanding.map OutstandingKmReq.blob

def activeKey (self : Crypto) : TxKey := (self.tx.get self.active).get self.keyed

/-- Encrypts with the active SEK; the result is the engine with the key's packet
counter ticked, the KK bits and the ciphertext. -/
def encrypt (self : Crypto) (seq : SeqNumber) (payload : Bytes) :
    Crypto × EncryptionFlags × Bytes :=
  let slot := self.activeKey
  ({ self with
      tx := self.tx.set self.active (some { slot with pktCnt := (slot.pktCnt + 1) % 2 ^ 32 })
      keyed := by rw [SlotPair.get_set]; rfl },
    self.active.flags,
    slot.cipher.applyKeystream P self.salt seq.value payload)

/-- The receiving slot that the KK bits select. -/
def rxSlot : EncryptionFlags -> Option SekSlot
  -- Cleartext is not accepted on an encrypted link.
  | .none => none
  | .even => some .even
  | .odd => some .odd
  | .both => some .odd

def decrypt (self : Crypto) (seq : SeqNumber) (kk : EncryptionFlags) (payload : Bytes) :
    Crypto × Except CryptoError Bytes :=
  match rxSlot kk with
  | none => (self, .error .noKey)
  | some slot =>
      if self.rcvState = .unsecured then ({ self with rcvState := .securing }, .error .noKey)
      else if self.rcvState ≠ .secured then (self, .error .noKey)
      else
        match self.rx.get slot with
        | none => (self, .error .noKey)
        | some cipher =>
            (self, .ok (cipher.applyKeystream P self.rxSalt seq.value payload))

/-! ## Refresh of the sending key -/

/-- The keys of both slots, the even one first. -/
def sekPair (tx : SlotPair TxKey) : Bytes :=
  (tx.even.map fun slot => slot.key.bytes).getD [] ++
    (tx.odd.map fun slot => slot.key.bytes).getD []

/-- Puts a fresh key into the idle slot. -/
def announce (self : Crypto) (fresh : SecretKey) : Crypto :=
  { self with
      tx := self.tx.set self.active.other
        (some { key := fresh, cipher := .new fresh, pktCnt := 0, state := .announced })
      keyed := by rw [SlotPair.get_set_other]; exact self.keyed }

/-- The message that carries both sending keys. -/
def announcement (self : Crypto) : Bytes :=
  KmMessage.encode
    { keys := .both
      keyLen := self.cfg.keyLen
      salt := self.salt
      wrapped := wrapKey P self.kek (sekPair self.tx) }

/-- Makes the announced key the active one. -/
def switch (self : Crypto) (next : TxKey) : Crypto :=
  { self with
      tx := (self.tx.set self.active (some { self.activeKey with state := .deprecated })).set
        self.active.other (some { next with state := .active })
      active := self.active.other
      keyed := by rw [SlotPair.get_set]; rfl
      keySwitches := self.keySwitches + 1 }

def decommission (self : Crypto) : Crypto :=
  { self with
      tx := self.tx.set self.active.other none
      keyed := by rw [SlotPair.get_set_other]; exact self.keyed }

/-- One evaluation of the refresh thresholds: at most one transition.  The
result carries the message to send when a fresh key is announced. -/
def tickRefresh (self : Crypto) (fresh : SecretKey) : Crypto × Option Bytes :=
  let rr := self.cfg.kmRefreshRate
  let pa := self.cfg.kmPreannounce
  let cnt := self.activeKey.pktCnt
  let alt := self.tx.get self.active.other
  let altState := alt.map TxKey.state
  if rr - pa < cnt ∧ altState ≠ some .announced then
    let announced := self.announce fresh
    (announced, some (announced.announcement P))
  else if (rr < cnt ∨ cnt = 0) ∧ altState = some .announced then
    match alt with
    | some next => (self.switch next, none)
    | none => (self, none)
  else if altState = some .deprecated ∧ pa < cnt then
    (self.decommission, none)
  else (self, none)

/-- Refresh decisions and the pacing of KMREQ retransmissions, run on every ACK.
The result carries the KMREQ payload to send now, if one is due. -/
def onAck (self : Crypto) (now : Instant) (srttUs : Nat) (fresh : SecretKey) :
    Crypto × Option Bytes :=
  if self.sndState = .unsecured then (self, none)
  else
    match self.tickRefresh P fresh with
    | (ticked, some blob) =>
        ({ ticked with outstanding := some { blob, retries := kmMaxRetry, lastSend := some now } },
          some blob)
    | (ticked, none) =>
        match ticked.outstanding with
        | none => (ticked, none)
        | some out =>
            let pace := Duration.fromMicros (srttUs * 3 / 2)
            if out.retries = 0 then (ticked, none)
            else if out.lastSend.any (fun last => now < last + pace) then (ticked, none)
            else
              ({ ticked with
                  outstanding := some { out with retries := out.retries - 1, lastSend := some now } },
                some out.blob)

/-! ## Key exchange -/

/-- Installs the SEKs of a parsed message into the receiving slots.  The KEK is
derived again only when the salt or the key length changed. -/
def installRx (self : Crypto) (msg : KmMessage) : Except CryptoError Crypto :=
  let current := self.rxKek.getD self.kek
  let fresh :=
    if msg.salt ≠ self.rxSalt ∨ msg.keyLen.bytes ≠ current.bytes.length then
      some (deriveKek P self.cfg.passphrase msg.salt msg.keyLen)
    else none
  match unwrapKey P (fresh.getD current) msg.wrapped with
  | .error err => .error err
  | .ok sek =>
      let seks := splitSeks msg sek
      .ok
        { self with
            rx :=
              { even := (seks.even.map CtrCipher.new).or self.rx.even
                odd := (seks.odd.map CtrCipher.new).or self.rx.odd }
            rxKek := fresh.or self.rxKek
            rxSalt := msg.salt }

def handleKmreq (self : Crypto) (payload : Bytes) : Crypto × KmReqOutcome :=
  match parseKmreq payload with
  | .error state =>
      ({ self with
          rcvState := state
          sndState := if state = .noSecret then .noSecret else self.sndState },
        .failed state)
  | .ok msg =>
      match self.installRx P msg with
      | .ok installed => ({ installed with rcvState := .secured }, .installed)
      | .error .wrongSecret =>
          ({ self with sndState := .badSecret, rcvState := .badSecret }, .failed .badSecret)
      | .error _ =>
          ({ self with sndState := .noSecret, rcvState := .noSecret }, .failed .noSecret)

/-- The peer reported a failure: retries stop and the states follow its report. -/
def peerKmFailure (self : Crypto) (reported : Option KmState) : Crypto × KmRspOutcome :=
  let (snd, rcv, outcome) :=
    match reported with
    | some .badSecret => (KmState.badSecret, KmState.badSecret, KmState.badSecret)
    | some .noSecret => (.noSecret, .unsecured, .noSecret)
    | some .unsecured => (.unsecured, .noSecret, .unsecured)
    | _ => (.noSecret, .noSecret, .noSecret)
  ({ self with
      outstanding := self.outstanding.map fun out => { out with retries := 0 }
      sndState := snd
      rcvState := rcv },
    .failed outcome)

def handleKmrsp (self : Crypto) (payload : Bytes) : Crypto × KmRspOutcome :=
  match KmResponse.parse payload with
  | .error _ => (self, .ignored)
  | .ok (.status state) => self.peerKmFailure state
  | .ok (.echo echo) =>
      if self.outstanding.map OutstandingKmReq.blob = some echo then
        ({ self with outstanding := none, sndState := .secured, rcvState := .secured }, .confirmed)
      else (self, .ignored)

end Crypto

end Rsrt

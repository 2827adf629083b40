import Rsrt.Basis.Machine
import Rsrt.Crypto.Refresh
import Rsrt.Options

namespace Rsrt

open Rsrt.Basis

/-!
# Rotation of the sending key over whole runs

A session is an engine together with the log of its run: the sending keys in the
order in which they were drawn, the KM message that it installed last, and the key
and the sequence of every encryption.  The calls are all public operations of the
engine, in any order and with any contents.

The keys take turns in the two slots.  Key `i` is announced in one message together
with key `i - 1`, and a peer whose receiving keys come from the message of key `m`
reads what was encrypted under the keys `m - 1` and `m`.
-/

/-- The slot of the key with the given index, when the first one is in `first`. -/
def SekSlot.turn (first : SekSlot) (index : Nat) : SekSlot :=
  if index % 2 = 0 then first else first.other

theorem SekSlot.turn_succ (first : SekSlot) (index : Nat) :
    first.turn (index + 1) = (first.turn index).other := by
  unfold turn
  by_cases even : index % 2 = 0
  · rw [if_pos even, if_neg (by omega)]
  · rw [if_neg even, if_pos (by omega), SekSlot.other_other]

namespace Crypto

/-- The engine's public operations. -/
inductive Call
  | encrypt (seq : SeqNumber) (payload : Bytes)
  | decrypt (seq : SeqNumber) (kk : EncryptionFlags) (payload : Bytes)
  | onAck (now : Instant) (srttUs : Nat) (fresh : SecretKey)
  | handleKmreq (payload : Bytes)
  | handleKmrsp (payload : Bytes)

structure Session where
  engine : Crypto
  /-- The KM message of the key exchange. -/
  initial : Bytes
  /-- The slot of the first sending key. -/
  first : SekSlot
  /-- The sending keys, in the order in which they were drawn. -/
  keys : List SecretKey
  /-- The KM message whose keys were installed last. -/
  installed : Bytes
  /-- Key and sequence of every encryption, oldest first. -/
  used : List (SecretKey × SeqNumber) := []
  /-- Encryptions since the last acknowledgement. -/
  pending : Nat := 0
deriving DecidableEq

variable (P : Primitives)

def Session.step (s : Session) : Call -> Session
  | .encrypt seq payload =>
      { s with
          engine := (s.engine.encrypt P seq payload).1
          used := s.used ++ [(s.engine.activeKey.key, seq)]
          pending := s.pending + 1 }
  | .decrypt seq kk payload => { s with engine := (s.engine.decrypt P seq kk payload).1 }
  | .onAck now srttUs fresh =>
      { s with
          engine := (s.engine.onAck P now srttUs fresh).1
          keys := if s.engine.announcing then s.keys ++ [fresh] else s.keys
          pending := 0 }
  | .handleKmreq payload =>
      let result := s.engine.handleKmreq P payload
      { s with
          engine := result.1
          installed := if result.2 = .installed then payload else s.installed }
  | .handleKmrsp payload => { s with engine := (s.engine.handleKmrsp payload).1 }

/-- A key that the generator may return: it has the engine's key length, and it is
none of the keys drawn before. -/
def Session.Draws (s : Session) (fresh : SecretKey) : Prop :=
  fresh.bytes.length = s.engine.cfg.keyLen.bytes ∧ fresh ∉ s.keys

def Session.Permits (s : Session) : Call -> Prop
  | .onAck _ _ fresh => s.Draws fresh
  | _ => True

instance (s : Session) : forall call, Decidable (s.Permits call)
  | .onAck .. => inferInstanceAs (Decidable (_ ∧ _))
  | .encrypt .. | .decrypt .. | .handleKmreq _ | .handleKmrsp _ => .isTrue trivial

/-- Runs of an engine from the given sessions. -/
def machine (start : Session -> Prop) : Machine Session Call where
  start := start
  guard := Session.Permits
  next := Session.step P

instance (start : Session -> Prop) (s : Session) (call : Call) :
    Decidable ((machine P start).guard s call) :=
  inferInstanceAs (Decidable (s.Permits call))

/-- The sending keys of a new engine: the one in use, and the other one of a message
that carried two. -/
def sendingKeys (c : Crypto) : List SecretKey :=
  c.activeKey.key :: ((c.tx.get c.active.other).map TxKey.key).toList

/-- A new engine with validated parameters.  Its keys have the engine's key length
and are different. -/
inductive Opening : Session -> Prop
  | initiator {opts : SrtOptions} {cfg : CryptoConfig}
      (resolved : opts.cryptoConfig = .ok (some cfg)) (salt : Salt) {sek : SecretKey}
      (sized : sek.bytes.length = cfg.keyLen.bytes) :
      Opening
        { engine := newInitiator P cfg salt sek
          initial := (handshakeRequest P cfg salt sek).encode
          first := .even
          keys := [sek]
          installed := (handshakeRequest P cfg salt sek).encode }
  | responder {opts : SrtOptions} {cfg : CryptoConfig}
      (resolved : opts.cryptoConfig = .ok (some cfg)) {kmreq : Bytes} {engine : Crypto}
      (accepted : newResponder P cfg kmreq = .ok engine)
      (sized : forall key, key ∈ engine.sendingKeys ->
        key.bytes.length = engine.cfg.keyLen.bytes)
      (distinct : engine.sendingKeys.Nodup) :
      Opening
        { engine
          initial := kmreq
          first := engine.active
          keys := engine.sendingKeys
          installed := kmreq }

/-- The KM message for the key with the given index: the one of the key exchange, and
then always the key before it and the key itself, the one in the even slot first. -/
def Session.message (s : Session) : Nat -> Option Bytes
  | 0 => some s.initial
  | index + 1 =>
      match s.keys[index]?, s.keys[index + 1]? with
      | some old, some new =>
          some (KmMessage.encode
            { keys := .both
              keyLen := s.engine.cfg.keyLen
              salt := s.engine.salt
              wrapped := wrapKey P s.engine.kek
                (if s.first.turn index = .even then old.bytes ++ new.bytes
                else new.bytes ++ old.bytes) })
      | _, _ => none

/-! ## Where the keys are -/

theorem activeKey_eq {c : Crypto} {key : TxKey} (present : c.tx.get c.active = some key) :
    c.activeKey = key := by
  rw [get_activeKey, Option.some_inj] at present
  exact present

theorem encrypt_activeKey (c : Crypto) (seq : SeqNumber) (payload : Bytes) :
    (c.encrypt P seq payload).1.activeKey =
      { c.activeKey with pktCnt := (c.activeKey.pktCnt + 1) % 2 ^ 32 } :=
  activeKey_eq (SlotPair.get_set _ _ _)

theorem announce_activeKey (c : Crypto) (fresh : SecretKey) :
    (c.announce fresh).activeKey = c.activeKey :=
  activeKey_eq ((SlotPair.get_set_other _ _ _).trans c.get_activeKey)

theorem switch_activeKey (c : Crypto) (next : TxKey) :
    (c.switch next).activeKey = { next with state := .active } :=
  activeKey_eq (SlotPair.get_set _ _ _)

theorem decommission_activeKey (c : Crypto) : c.decommission.activeKey = c.activeKey :=
  activeKey_eq ((SlotPair.get_set_other _ _ _).trans c.get_activeKey)

/-- The key in the idle slot is the next one, announced and not used yet, or the
previous one. -/
def Session.Idle (s : Session) (key : TxKey) : Prop :=
  key.state = .announced ∧ key.pktCnt = 0 ∧
      s.keys[s.engine.keySwitches + 1]? = some key.key ∧
      s.keys.length = s.engine.keySwitches + 2 ∨
    key.state = .deprecated ∧ s.keys.length = s.engine.keySwitches + 1 ∧
      Exists fun index => index + 1 = s.engine.keySwitches ∧ s.keys[index]? = some key.key

/-- The number of switches is the index of the key in use, and the slots hold the keys
of their turn. -/
structure Session.Placed (s : Session) : Prop where
  slot : s.engine.active = s.first.turn s.engine.keySwitches
  active : s.keys[s.engine.keySwitches]? = some s.engine.activeKey.key
  idle : forall key, s.engine.tx.get s.engine.active.other = some key -> s.Idle key
  vacant : s.engine.tx.get s.engine.active.other = none ->
    s.keys.length = s.engine.keySwitches + 1
  ciphers : forall slot key, s.engine.tx.get slot = some key -> key.cipher = .new key.key
  kek : s.engine.kek =
    deriveKek P s.engine.cfg.passphrase s.engine.salt s.engine.cfg.keyLen
  sized : forall key, key ∈ s.keys -> key.bytes.length = s.engine.cfg.keyLen.bytes
  distinct : s.keys.Nodup

/-! ## One call -/

/-- Two engines that do not differ in what they send with. -/
structure SendsAlike (c c' : Crypto) : Prop where
  cfg : c'.cfg = c.cfg
  salt : c'.salt = c.salt
  kek : c'.kek = c.kek
  tx : c'.tx = c.tx
  active : c'.active = c.active
  keySwitches : c'.keySwitches = c.keySwitches

theorem SendsAlike.activeKey {c c' : Crypto} (alike : SendsAlike c c') :
    c'.activeKey = c.activeKey := by
  apply activeKey_eq
  rw [alike.tx, alike.active]
  exact c.get_activeKey

theorem decrypt_sendsAlike (c : Crypto) (seq : SeqNumber) (kk : EncryptionFlags)
    (payload : Bytes) : SendsAlike c (c.decrypt P seq kk payload).1 := by
  unfold Crypto.decrypt
  repeat' split
  all_goals exact ⟨rfl, rfl, rfl, rfl, rfl, rfl⟩

variable {P}

/-- An installed message replaces the receiving keys that it carries, and nothing else
but the salt and the KEK they came under. -/
theorem installRx_ok {c installed : Crypto} {msg : KmMessage}
    (done : c.installRx P msg = .ok installed) :
    Exists fun sek => Exists fun rxKek =>
      (rxKek = some (deriveKek P c.cfg.passphrase msg.salt msg.keyLen) ∨
        rxKek = c.rxKek ∧ msg.salt = c.rxSalt ∧
          msg.keyLen.bytes = (c.rxKek.getD c.kek).bytes.length) ∧
      unwrapKey P (rxKek.getD c.kek) msg.wrapped = .ok sek ∧
      installed =
        { c with
          rx :=
            { even := ((splitSeks msg sek).even.map CtrCipher.new).or c.rx.even
              odd := ((splitSeks msg sek).odd.map CtrCipher.new).or c.rx.odd }
          rxKek := rxKek
          rxSalt := msg.salt } := by
  unfold Crypto.installRx at done
  by_cases changed : msg.salt ≠ c.rxSalt ∨
      msg.keyLen.bytes ≠ (c.rxKek.getD c.kek).bytes.length
  · simp only [if_pos changed, Option.getD_some, Option.some_or] at done
    split at done
    · cases done
    · rename_i sek unwrapped
      cases done
      exact ⟨sek, _, Or.inl rfl, unwrapped, rfl⟩
  · simp only [if_neg changed, Option.getD_none, Option.none_or] at done
    rw [not_or, not_not, not_not] at changed
    split at done
    · cases done
    · rename_i sek unwrapped
      cases done
      exact ⟨sek, _, Or.inr ⟨rfl, changed⟩, unwrapped, rfl⟩

/-- A request is installed, or changes the states alone. -/
theorem handleKmreq_cases (c : Crypto) (payload : Bytes) :
    (Exists fun msg => Exists fun installed => parseKmreq payload = .ok msg ∧
      c.installRx P msg = .ok installed ∧
      c.handleKmreq P payload = ({ installed with rcvState := .secured }, .installed)) ∨
    (Exists fun snd => Exists fun rcv => Exists fun state =>
      c.handleKmreq P payload =
        ({ c with sndState := snd, rcvState := rcv }, .failed state)) := by
  unfold Crypto.handleKmreq
  cases parsed : parseKmreq payload with
  | error state => exact Or.inr ⟨_, _, state, rfl⟩
  | ok msg =>
      simp only
      cases evaluated : c.installRx P msg with
      | ok installed => exact Or.inl ⟨msg, installed, rfl, evaluated, rfl⟩
      | error err =>
          cases err with
          | wrongSecret => exact Or.inr ⟨_, _, _, rfl⟩
          | badKmMessage what => exact Or.inr ⟨_, _, _, rfl⟩
          | unsupported what => exact Or.inr ⟨_, _, _, rfl⟩
          | noKey => exact Or.inr ⟨_, _, _, rfl⟩

/-- A response changes the states and the outstanding request alone. -/
theorem handleKmrsp_cases (c : Crypto) (payload : Bytes) :
    Exists fun snd => Exists fun rcv => Exists fun out =>
      (c.handleKmrsp payload).1 =
        { c with sndState := snd, rcvState := rcv, outstanding := out } := by
  unfold Crypto.handleKmrsp
  split
  · exact ⟨_, _, _, rfl⟩
  · exact ⟨_, _, _, rfl⟩
  · split_ifs
    · exact ⟨_, _, _, rfl⟩
    · exact ⟨_, _, _, rfl⟩

theorem handleKmreq_sendsAlike (c : Crypto) (payload : Bytes) :
    SendsAlike c (c.handleKmreq P payload).1 := by
  rcases handleKmreq_cases c payload with ⟨msg, installed, _, done, evaluated⟩ |
    ⟨snd, rcv, state, evaluated⟩
  · rcases installRx_ok done with ⟨sek, rxKek, _, _, rfl⟩
    rw [evaluated]
    exact ⟨rfl, rfl, rfl, rfl, rfl, rfl⟩
  · rw [evaluated]
    exact ⟨rfl, rfl, rfl, rfl, rfl, rfl⟩

theorem handleKmrsp_sendsAlike (c : Crypto) (payload : Bytes) :
    SendsAlike c (c.handleKmrsp payload).1 := by
  rcases handleKmrsp_cases c payload with ⟨snd, rcv, out, evaluated⟩
  rw [evaluated]
  exact ⟨rfl, rfl, rfl, rfl, rfl, rfl⟩

namespace Session

/-- Only what an engine sends with, and the keys drawn, decide where the keys are. -/
theorem Placed.of_sendsAlike {s s' : Session} (placed : s.Placed P)
    (alike : SendsAlike s.engine s'.engine) (first : s'.first = s.first)
    (keys : s'.keys = s.keys) : s'.Placed P where
  slot := by rw [alike.active, alike.keySwitches, first, placed.slot]
  active := by rw [keys, alike.keySwitches, alike.activeKey, placed.active]
  idle := by
    unfold Idle
    rw [alike.tx, alike.active, alike.keySwitches, keys]
    exact placed.idle
  vacant := by
    rw [alike.tx, alike.active, alike.keySwitches, keys]
    exact placed.vacant
  ciphers := by
    rw [alike.tx]
    exact placed.ciphers
  kek := by rw [alike.kek, alike.cfg, alike.salt, placed.kek]
  sized := by
    rw [keys, alike.cfg]
    exact placed.sized
  distinct := by
    rw [keys]
    exact placed.distinct

/-- While no key is announced, the one in use is the last one drawn. -/
theorem Placed.length_of_not_announced {s : Session} (placed : s.Placed P)
    (none_announced : (s.engine.tx.get s.engine.active.other).map TxKey.state ≠
      some .announced) :
    s.keys.length = s.engine.keySwitches + 1 := by
  cases idle : s.engine.tx.get s.engine.active.other with
  | none => exact placed.vacant idle
  | some key =>
      rcases placed.idle key idle with ⟨announced, _⟩ | ⟨_, length, _⟩
      · rw [idle, Option.map_some, announced] at none_announced
        exact absurd rfl none_announced
      · exact length

theorem Placed.encrypt {s : Session} (placed : s.Placed P) (seq : SeqNumber)
    (payload : Bytes) : (s.step P (.encrypt seq payload)).Placed P := by
  have active := encrypt_activeKey P s.engine seq payload
  have other : (s.engine.encrypt P seq payload).1.tx.get s.engine.active.other =
      s.engine.tx.get s.engine.active.other := SlotPair.get_other_set _ _ _
  refine ⟨placed.slot, ?_, ?_, ?_, ?_, placed.kek, placed.sized, placed.distinct⟩
  · change s.keys[s.engine.keySwitches]? = some (s.engine.encrypt P seq payload).1.activeKey.key
    rw [active]
    exact placed.active
  · intro key idle
    exact placed.idle key (other ▸ idle)
  · intro idle
    exact placed.vacant (other ▸ idle)
  · intro slot key present
    rcases (@encrypt_keeps P s.engine seq payload).slots slot key present with
      ⟨old, before, same, cipher⟩
    rw [← same, ← cipher]
    exact placed.ciphers slot old before

theorem Placed.announce {s : Session} (placed : s.Placed P) {fresh : SecretKey}
    (announces : s.engine.announcing) (draws : s.Draws fresh)
    {s' : Session} (alike : SendsAlike (s.engine.announce fresh) s'.engine)
    (first : s'.first = s.first) (keys : s'.keys = s.keys ++ [fresh]) : s'.Placed P := by
  have length := placed.length_of_not_announced announces.2.2
  have announced : Placed P { s with engine := s.engine.announce fresh, keys := s.keys ++ [fresh] } := by
    refine ⟨placed.slot, ?_, ?_, ?_, ?_, placed.kek, ?_, ?_⟩
    · change (s.keys ++ [fresh])[s.engine.keySwitches]? = some (s.engine.announce fresh).activeKey.key
      rw [announce_activeKey, List.getElem?_append_left (by omega), placed.active]
    · intro key idle
      change (s.engine.tx.set s.engine.active.other _).get s.engine.active.other = some key at idle
      rw [SlotPair.get_set, Option.some_inj] at idle
      subst idle
      refine Or.inl ⟨rfl, rfl, ?_, ?_⟩
      · change (s.keys ++ [fresh])[s.engine.keySwitches + 1]? = some fresh
        rw [← length, List.getElem?_concat_length]
      · change (s.keys ++ [fresh]).length = s.engine.keySwitches + 2
        rw [List.length_append, length]
        rfl
    · intro idle
      change (s.engine.tx.set s.engine.active.other _).get s.engine.active.other = none at idle
      rw [SlotPair.get_set] at idle
      cases idle
    · intro slot key present
      rcases announce_slots s.engine fresh present with ⟨same, ⟨_, rfl⟩ | ⟨rfl, cipher⟩⟩
      · exact placed.ciphers _ _ s.engine.get_activeKey
      · rw [cipher, same, announcedKeys, if_neg s.engine.active.other_ne]
    · intro key member
      rcases List.mem_append.mp member with old | new
      · exact placed.sized key old
      · rw [List.mem_singleton.mp new]
        exact draws.1
    · exact placed.distinct.append (List.nodup_singleton fresh)
        (List.disjoint_singleton.mpr draws.2)
  exact announced.of_sendsAlike alike first keys

/-- The other transitions: a switch makes the announced key the one in use and the old
one the idle one. -/
theorem Placed.ticks {s : Session} (placed : s.Placed P) {c : Crypto}
    (ticks : Ticks s.engine c) {s' : Session} (alike : SendsAlike c s'.engine)
    (first : s'.first = s.first) (keys : s'.keys = s.keys) : s'.Placed P := by
  have ticked : Placed P { s with engine := c } := by
    cases ticks with
    | rest early => exact placed
    | @switch next idle announced =>
        have upcoming : s.keys[s.engine.keySwitches + 1]? = some next.key ∧
            s.keys.length = s.engine.keySwitches + 2 := by
          rcases placed.idle next idle with ⟨_, _, found, length⟩ | ⟨deprecated, _⟩
          · exact ⟨found, length⟩
          · rw [announced] at deprecated
            cases deprecated
        refine ⟨?_, ?_, ?_, ?_, ?_, placed.kek, placed.sized, placed.distinct⟩
        · change s.engine.active.other = s.first.turn (s.engine.keySwitches + 1)
          rw [SekSlot.turn_succ, placed.slot]
        · change s.keys[s.engine.keySwitches + 1]? = some (s.engine.switch next).activeKey.key
          rw [switch_activeKey, upcoming.1]
        · intro key old
          change ((s.engine.tx.set s.engine.active _).set s.engine.active.other _).get
            s.engine.active.other.other = some key at old
          rw [SlotPair.get_other_set, SekSlot.other_other, SlotPair.get_set,
            Option.some_inj] at old
          subst old
          exact Or.inr ⟨rfl, upcoming.2, _, rfl, placed.active⟩
        · intro old
          change ((s.engine.tx.set s.engine.active _).set s.engine.active.other _).get
            s.engine.active.other.other = none at old
          rw [SlotPair.get_other_set, SekSlot.other_other, SlotPair.get_set] at old
          cases old
        · intro slot key present
          rcases (switch_keeps idle).slots slot key present with ⟨old, before, same, cipher⟩
          rw [← same, ← cipher]
          exact placed.ciphers slot old before
    | @decommission old idle deprecated =>
        have length : s.keys.length = s.engine.keySwitches + 1 := by
          apply placed.length_of_not_announced
          rw [idle, Option.map_some, deprecated]
          decide
        refine ⟨placed.slot, ?_, ?_, fun _ => length, ?_, placed.kek, placed.sized, placed.distinct⟩
        · change s.keys[s.engine.keySwitches]? = some s.engine.decommission.activeKey.key
          rw [decommission_activeKey, placed.active]
        · intro key present
          change (s.engine.tx.set s.engine.active.other none).get s.engine.active.other = _ at present
          rw [SlotPair.get_set] at present
          cases present
        · intro slot key present
          rcases (decommission_keeps s.engine).slots slot key present with
            ⟨kept, before, same, cipher⟩
          rw [← same, ← cipher]
          exact placed.ciphers slot kept before
  exact ticked.of_sendsAlike alike first keys

theorem Placed.step {s : Session} (placed : s.Placed P) {call : Call}
    (permits : s.Permits call) : (s.step P call).Placed P := by
  cases call with
  | encrypt seq payload => exact placed.encrypt seq payload
  | decrypt seq kk payload =>
      exact placed.of_sendsAlike (decrypt_sendsAlike P s.engine seq kk payload) rfl rfl
  | handleKmreq payload =>
      exact placed.of_sendsAlike (handleKmreq_sendsAlike s.engine payload) rfl rfl
  | handleKmrsp payload =>
      exact placed.of_sendsAlike (handleKmrsp_sendsAlike s.engine payload) rfl rfl
  | onAck now srttUs fresh =>
      rcases @onAck_cases P s.engine now srttUs fresh with ⟨announces, out, evaluated⟩ |
        ⟨quiet, c, out, evaluated, ticked⟩
      · apply placed.announce announces permits
        · change SendsAlike _ (s.engine.onAck P now srttUs fresh).1
          rw [evaluated]
          exact ⟨rfl, rfl, rfl, rfl, rfl, rfl⟩
        · rfl
        · exact if_pos announces
      · have alike : SendsAlike c (s.engine.onAck P now srttUs fresh).1 := by
          rw [evaluated]
          exact ⟨rfl, rfl, rfl, rfl, rfl, rfl⟩
        rcases ticked with ⟨rfl, _⟩ | ticks
        · exact placed.of_sendsAlike alike rfl (if_neg quiet)
        · exact placed.ticks ticks alike rfl (if_neg quiet)

end Session

/-! ## New engines -/

/-- An accepted request: the responder's keys are those that the request carries. -/
theorem newResponder_ok {cfg : CryptoConfig} {kmreq : Bytes} {engine : Crypto}
    (accepted : newResponder P cfg kmreq = .ok engine) :
    Exists fun msg => Exists fun sek => parseKmreq kmreq = .ok msg ∧
      unwrapKey P (deriveKek P cfg.passphrase msg.salt msg.keyLen) msg.wrapped = .ok sek ∧
      engine.cfg = { cfg with keyLen := msg.keyLen } ∧ engine.salt = msg.salt ∧
      engine.kek = deriveKek P cfg.passphrase msg.salt msg.keyLen ∧
      engine.rxSalt = msg.salt ∧ engine.rxKek = none ∧
      engine.active = firstSlot (splitSeks msg sek) ∧
      engine.tx = (splitSeks msg sek).map (fun slot key =>
        { key
          cipher := .new key
          pktCnt := if slot = engine.active then 1 else 0
          state := if slot = engine.active then .active else .announced }) ∧
      engine.rx = (splitSeks msg sek).map (fun _ key => .new key) ∧
      engine.keySwitches = 0 ∧ engine.sndState = .secured := by
  unfold Crypto.newResponder at accepted
  split at accepted
  · cases accepted
  · rename_i msg parsed
    simp only at accepted
    split at accepted
    · cases accepted
    · cases accepted
    · rename_i sek unwrapped
      cases accepted
      exact ⟨msg, sek, parsed, unwrapped, rfl, rfl, rfl, rfl, rfl, rfl, rfl, rfl, rfl, rfl⟩

theorem Opening.placed {s : Session} (opening : Opening P s) : s.Placed P := by
  cases opening with
  | @initiator _ cfg resolved salt sek sized =>
      refine ⟨rfl, rfl, ?_, fun _ => rfl, ?_, rfl, ?_, List.nodup_singleton _⟩
      · intro key idle
        cases idle
      · intro slot key present
        cases slot with
        | even =>
            cases present
            rfl
        | odd => cases present
      · intro key member
        rw [List.mem_singleton.mp member]
        exact sized
  | @responder _ cfg resolved kmreq engine accepted sized distinct =>
      rcases newResponder_ok accepted with ⟨msg, sek, _, _, config, salt, kek, _, _, active, tx, _,
        switches, _⟩
      refine ⟨?_, ?_, ?_, ?_, ?_, ?_, sized, distinct⟩
      · change engine.active = engine.active.turn engine.keySwitches
        rw [switches]
        rfl
      · change engine.sendingKeys[engine.keySwitches]? = some engine.activeKey.key
        rw [switches]
        rfl
      · intro key idle
        change engine.tx.get engine.active.other = some key at idle
        have alone : engine.sendingKeys = [engine.activeKey.key, key.key] := by
          unfold sendingKeys
          rw [idle]
          rfl
        have unused : key.state = .announced ∧ key.pktCnt = 0 := by
          rw [tx, SlotPair.get_map] at idle
          rcases Option.map_eq_some_iff.mp idle with ⟨_, _, rfl⟩
          exact ⟨if_neg engine.active.other_ne, if_neg engine.active.other_ne⟩
        refine Or.inl ⟨unused.1, unused.2, ?_, ?_⟩
        · change engine.sendingKeys[engine.keySwitches + 1]? = some key.key
          rw [switches, alone]
          rfl
        · change engine.sendingKeys.length = engine.keySwitches + 2
          rw [switches, alone]
          rfl
      · intro idle
        change engine.tx.get engine.active.other = none at idle
        change engine.sendingKeys.length = engine.keySwitches + 1
        unfold sendingKeys
        rw [idle, switches]
        rfl
      · intro slot key present
        change engine.tx.get slot = some key at present
        rw [tx, SlotPair.get_map] at present
        rcases Option.map_eq_some_iff.mp present with ⟨_, _, rfl⟩
        rfl
      · change engine.kek = deriveKek P engine.cfg.passphrase engine.salt engine.cfg.keyLen
        rw [kek, config, salt]

/-! ## What a run keeps -/

/-- A later session of the same engine. -/
structure Session.Grows (s later : Session) : Prop where
  keys : s.keys <+: later.keys
  first : later.first = s.first
  initial : later.initial = s.initial
  cfg : later.engine.cfg = s.engine.cfg
  salt : later.engine.salt = s.engine.salt
  kek : later.engine.kek = s.engine.kek

theorem Session.Grows.refl (s : Session) : s.Grows s :=
  ⟨List.prefix_refl _, rfl, rfl, rfl, rfl, rfl⟩

theorem Session.Grows.trans {s middle later : Session} (early : s.Grows middle)
    (late : middle.Grows later) : s.Grows later where
  keys := early.keys.trans late.keys
  first := late.first.trans early.first
  initial := late.initial.trans early.initial
  cfg := late.cfg.trans early.cfg
  salt := late.salt.trans early.salt
  kek := late.kek.trans early.kek

theorem Session.Grows.getElem? {s later : Session} (grows : s.Grows later) {index : Nat}
    {key : SecretKey} (found : s.keys[index]? = some key) : later.keys[index]? = some key := by
  rcases grows.keys with ⟨more, split⟩
  have inside : index < s.keys.length := (List.getElem?_eq_some_iff.mp found).1
  rw [← split, List.getElem?_append_left inside, found]

theorem Session.grows_of_sendsAlike {s later : Session}
    (alike : SendsAlike s.engine later.engine) (keys : s.keys <+: later.keys)
    (first : later.first = s.first) (initial : later.initial = s.initial) : s.Grows later :=
  ⟨keys, first, initial, alike.cfg, alike.salt, alike.kek⟩

theorem Session.step_grows (s : Session) (call : Call) : s.Grows (s.step P call) := by
  cases call with
  | encrypt seq payload => exact ⟨List.prefix_refl _, rfl, rfl, rfl, rfl, rfl⟩
  | decrypt seq kk payload =>
      exact grows_of_sendsAlike (decrypt_sendsAlike P s.engine seq kk payload)
        (List.prefix_refl _) rfl rfl
  | handleKmreq payload =>
      exact grows_of_sendsAlike (handleKmreq_sendsAlike s.engine payload)
        (List.prefix_refl _) rfl rfl
  | handleKmrsp payload =>
      exact grows_of_sendsAlike (handleKmrsp_sendsAlike s.engine payload)
        (List.prefix_refl _) rfl rfl
  | onAck now srttUs fresh =>
      have drawn : s.keys <+: (s.step P (.onAck now srttUs fresh)).keys := by
        change s.keys <+: if s.engine.announcing then s.keys ++ [fresh] else s.keys
        split_ifs
        · exact List.prefix_append _ _
        · exact List.prefix_refl _
      have same : (s.step P (.onAck now srttUs fresh)).engine.cfg = s.engine.cfg ∧
          (s.step P (.onAck now srttUs fresh)).engine.salt = s.engine.salt ∧
          (s.step P (.onAck now srttUs fresh)).engine.kek = s.engine.kek := by
        change (s.engine.onAck P now srttUs fresh).1.cfg = _ ∧
          (s.engine.onAck P now srttUs fresh).1.salt = _ ∧
          (s.engine.onAck P now srttUs fresh).1.kek = _
        rcases @onAck_cases P s.engine now srttUs fresh with ⟨_, out, evaluated⟩ |
          ⟨_, c, out, evaluated, ⟨rfl, _⟩ | ticks⟩
        · rw [evaluated]
          exact ⟨rfl, rfl, rfl⟩
        · rw [evaluated]
          exact ⟨rfl, rfl, rfl⟩
        · rw [evaluated]
          exact ⟨ticks.keeps.cfg, ticks.keeps.salt, ticks.keeps.kek⟩
      exact ⟨drawn, rfl, rfl, same.1, same.2.1, same.2.2⟩

/-- One call leaves the key in use as it is, or makes the next one the key in use. -/
theorem Session.step_switches (s : Session) (call : Call) :
    (s.step P call).engine.keySwitches = s.engine.keySwitches ∧
        (s.step P call).engine.active = s.engine.active ∨
      (s.step P call).engine.keySwitches = s.engine.keySwitches + 1 ∧
        (s.step P call).engine.active = s.engine.active.other := by
  cases call with
  | encrypt seq payload => exact Or.inl ⟨rfl, rfl⟩
  | decrypt seq kk payload =>
      have alike := decrypt_sendsAlike P s.engine seq kk payload
      exact Or.inl ⟨alike.keySwitches, alike.active⟩
  | handleKmreq payload =>
      have alike := @handleKmreq_sendsAlike P s.engine payload
      exact Or.inl ⟨alike.keySwitches, alike.active⟩
  | handleKmrsp payload =>
      have alike := handleKmrsp_sendsAlike s.engine payload
      exact Or.inl ⟨alike.keySwitches, alike.active⟩
  | onAck now srttUs fresh =>
      change (s.engine.onAck P now srttUs fresh).1.keySwitches = _ ∧ _ ∨
        (s.engine.onAck P now srttUs fresh).1.keySwitches = _ ∧ _
      change _ ∧ (s.engine.onAck P now srttUs fresh).1.active = _ ∨
        _ ∧ (s.engine.onAck P now srttUs fresh).1.active = _
      rcases @onAck_cases P s.engine now srttUs fresh with ⟨_, out, evaluated⟩ |
        ⟨_, c, out, evaluated, ⟨rfl, _⟩ | ticks⟩
      · rw [evaluated]
        exact Or.inl ⟨rfl, rfl⟩
      · rw [evaluated]
        exact Or.inl ⟨rfl, rfl⟩
      · rw [evaluated]
        cases ticks with
        | rest early => exact Or.inl ⟨rfl, rfl⟩
        | switch idle announced => exact Or.inr ⟨rfl, rfl⟩
        | decommission idle deprecated => exact Or.inl ⟨rfl, rfl⟩

theorem Session.keySwitches_le_step (s : Session) (call : Call) :
    s.engine.keySwitches ≤ (s.step P call).engine.keySwitches := by
  rcases s.step_switches (P := P) call with ⟨same, _⟩ | ⟨next, _⟩
  · exact le_of_eq same.symm
  · exact Nat.le_of_succ_le (le_of_eq next.symm)

section Running

variable {start : Session -> Prop} {history : List (Session × Call)} {s : Session}

/-- Every session of a run grew into the last one, the first one included. -/
theorem run_grows (run : (machine P start).Run history s) :
    (Exists fun opened => start opened ∧ opened.Grows s) ∧
      forall entry, entry ∈ history -> (entry.1.step P entry.2).Grows s := by
  apply run.induct fun history s =>
    (Exists fun opened => start opened ∧ opened.Grows s) ∧
      forall entry, entry ∈ history -> (entry.1.step P entry.2).Grows s
  · intro s opened
    exact ⟨⟨s, opened, .refl s⟩, fun _ member => absurd member List.not_mem_nil⟩
  · rintro history s call _ ⟨⟨opened, started, grows⟩, entries⟩ _
    have step := s.step_grows (P := P) call
    refine ⟨⟨opened, started, grows.trans step⟩, ?_⟩
    intro entry member
    rcases List.mem_append.mp member with old | new
    · exact (entries entry old).trans step
    · rw [List.mem_singleton.mp new]
      exact .refl _

theorem run_entry_grows (run : (machine P start).Run history s) {r : Session} {call : Call}
    (member : (r, call) ∈ history) : r.Grows s :=
  (r.step_grows call).trans ((run_grows run).2 (r, call) member)

theorem run_placed (run : (machine P start).Run history s)
    (opens : forall s, start s -> Opening P s) : s.Placed P :=
  run.invariant (Session.Placed P) (fun s started => (opens s started).placed)
    fun _ _ placed permits => placed.step permits

end Running

/-- Options with a key refresh after every packet. -/
def hastyOptions : SrtOptions where
  passphrase := some (List.replicate 10 7)
  kmRefreshRate := some 1

def hastyConfig : CryptoConfig where
  passphrase := List.replicate 10 7
  keyLen := .aes128
  kmRefreshRate := 1
  kmPreannounce := 0

theorem hastyOptions_resolved : hastyOptions.cryptoConfig = .ok (some hastyConfig) := by
  rfl

end Crypto

end Rsrt

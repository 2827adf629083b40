import Rsrt.Crypto.Hitless

namespace Rsrt

open Rsrt.Basis

/-!
# Requests in the stream

A KMREQ that arrives while the connection runs concerns the receiving side alone, and a
rejected one leaves no trace in the keys, the salt and the KEK of that side.  Only the two KM
states tell that it came.

An installing message replaces the keys that it carries.  The other key stays, but the salt is
one for both slots: a message that brings another salt changes what the remaining key decrypts
to.
-/

/-- The message carries a key for the slot. -/
def KmKeys.carries : KmKeys -> SekSlot -> Bool
  | .even, slot => slot = .even
  | .odd, slot => slot = .odd
  | .both, _ => true

theorem splitSeks_get_none {msg : KmMessage} {slot : SekSlot}
    (absent : msg.keys.carries slot = false) (sek : SecretKey) :
    (splitSeks msg sek).get slot = none := by
  unfold splitSeks
  cases keys : msg.keys with
  | even =>
      rw [keys] at absent
      cases slot with
      | even => cases absent
      | odd => rfl
  | odd =>
      rw [keys] at absent
      cases slot with
      | even => rfl
      | odd => cases absent
  | both =>
      rw [keys] at absent
      cases absent

namespace Crypto

variable {P : Primitives}

/-- The sending side and the outstanding request are the same. -/
structure SendingKept (c c' : Crypto) : Prop where
  tx : c'.tx = c.tx
  active : c'.active = c.active
  salt : c'.salt = c.salt
  kek : c'.kek = c.kek
  outstanding : c'.outstanding = c.outstanding
  keySwitches : c'.keySwitches = c.keySwitches

/-- The key material of the receiving side is the same. -/
structure ReceivingKept (c c' : Crypto) : Prop where
  rx : c'.rx = c.rx
  rxSalt : c'.rxSalt = c.rxSalt
  rxKek : c'.rxKek = c.rxKek

theorem ReceivingKept.trans {first middle last : Crypto} (early : ReceivingKept first middle)
    (late : ReceivingKept middle last) : ReceivingKept first last :=
  ⟨late.rx.trans early.rx, late.rxSalt.trans early.rxSalt, late.rxKek.trans early.rxKek⟩

theorem handleKmreq_sendingKept (c : Crypto) (payload : Bytes) :
    SendingKept c (c.handleKmreq P payload).1 := by
  rcases handleKmreq_cases c payload with ⟨msg, installed, _, done, evaluated⟩ |
    ⟨snd, rcv, state, evaluated⟩
  · rcases installRx_ok done with ⟨sek, rxKek, _, _, rfl⟩
    rw [evaluated]
    exact ⟨rfl, rfl, rfl, rfl, rfl, rfl⟩
  · rw [evaluated]
    exact ⟨rfl, rfl, rfl, rfl, rfl, rfl⟩

theorem handleKmreq_receivingKept {c : Crypto} {payload : Bytes} {state : KmState}
    (failed : (c.handleKmreq P payload).2 = .failed state) :
    ReceivingKept c (c.handleKmreq P payload).1 := by
  rcases handleKmreq_cases c payload with ⟨msg, installed, _, _, evaluated⟩ |
    ⟨snd, rcv, state, evaluated⟩
  · rw [evaluated] at failed
    cases failed
  · rw [evaluated]
    exact ⟨rfl, rfl, rfl⟩

/-- One request after the other. -/
def handleKmreqs (P : Primitives) (c : Crypto) (payloads : List Bytes) : Crypto :=
  payloads.foldl (fun c payload => (c.handleKmreq P payload).1) c

/-- Every one of the requests is rejected. -/
def Rejects (P : Primitives) : Crypto -> List Bytes -> Prop
  | _, [] => True
  | c, payload :: rest =>
      (Exists fun state => (c.handleKmreq P payload).2 = .failed state) ∧
        Rejects P (c.handleKmreq P payload).1 rest

theorem handleKmreqs_receivingKept {c : Crypto} {payloads : List Bytes}
    (rejects : Rejects P c payloads) : ReceivingKept c (c.handleKmreqs P payloads) := by
  induction payloads generalizing c with
  | nil => exact ⟨rfl, rfl, rfl⟩
  | cons payload rest ih =>
      rcases rejects with ⟨⟨state, failed⟩, later⟩
      exact (handleKmreq_receivingKept failed).trans (ih later)

/-- What an installing request leaves: its salt, a secured receiving side, and the keys of the
slots that it does not carry. -/
theorem handleKmreq_installed {c : Crypto} {payload : Bytes}
    (done : (c.handleKmreq P payload).2 = .installed) :
    Exists fun msg => parseKmreq payload = .ok msg ∧
      (c.handleKmreq P payload).1.rcvState = .secured ∧
      (c.handleKmreq P payload).1.rxSalt = msg.salt ∧
      forall slot, msg.keys.carries slot = false ->
        (c.handleKmreq P payload).1.rx.get slot = c.rx.get slot := by
  rcases handleKmreq_cases c payload with ⟨msg, installed, parsed, installs, evaluated⟩ |
    ⟨snd, rcv, state, evaluated⟩
  · rcases installRx_ok installs with ⟨sek, rxKek, _, _, rfl⟩
    rw [evaluated]
    refine ⟨msg, parsed, rfl, rfl, ?_⟩
    intro slot absent
    have vacant := splitSeks_get_none absent sek
    cases slot with
    | even =>
        change (((splitSeks msg sek).get .even).map CtrCipher.new).or c.rx.even = c.rx.even
        rw [vacant]
        rfl
    | odd =>
        change (((splitSeks msg sek).get .odd).map CtrCipher.new).or c.rx.odd = c.rx.odd
        rw [vacant]
        rfl
  · rw [evaluated] at done
    cases done

/-- A secured engine decrypts with the key of the slot under the receiving salt. -/
theorem decrypt_secured {c : Crypto} (secured : c.rcvState = .secured) {kk : EncryptionFlags}
    {slot : SekSlot} (selected : rxSlot kk = some slot) (seq : SeqNumber) (data : Bytes) :
    c.decrypt P seq kk data =
      (c, match c.rx.get slot with
        | none => .error .noKey
        | some cipher => .ok (cipher.applyKeystream P c.rxSalt seq.value data)) := by
  unfold decrypt
  rw [selected]
  dsimp only
  rw [if_neg (by rw [secured]; decide), if_neg (not_not.mpr secured)]
  cases c.rx.get slot with
  | none => rfl
  | some cipher => rfl

/-- A request in the stream is atomic and concerns the receiving side alone.  It changes
nothing that is sent with, and a rejected one changes no key, salt or KEK at all.  After any
number of rejected requests and one that installs, the slots that the installed message does
not carry hold the keys from before; if the receiving side was secured and the message brings
the salt in use, then every packet under such a key decrypts as it did before the
rejections. -/
theorem kmreq_atomic (P : Primitives) (c : Crypto) :
    (forall payload, SendingKept c (c.handleKmreq P payload).1 ∧
      forall state, (c.handleKmreq P payload).2 = .failed state ->
        ReceivingKept c (c.handleKmreq P payload).1) ∧
    forall (rejected : List Bytes) (payload : Bytes), Rejects P c rejected ->
      ((c.handleKmreqs P rejected).handleKmreq P payload).2 = .installed ->
      Exists fun msg => parseKmreq payload = .ok msg ∧
        forall slot, msg.keys.carries slot = false ->
          ((c.handleKmreqs P rejected).handleKmreq P payload).1.rx.get slot = c.rx.get slot ∧
          (c.rcvState = .secured -> msg.salt = c.rxSalt ->
            forall seq kk data, rxSlot kk = some slot ->
              (((c.handleKmreqs P rejected).handleKmreq P payload).1.decrypt P seq kk data).2 =
                (c.decrypt P seq kk data).2) := by
  constructor
  · intro payload
    exact ⟨handleKmreq_sendingKept c payload, fun state failed => handleKmreq_receivingKept failed⟩
  · intro rejected payload rejects done
    have kept := handleKmreqs_receivingKept rejects
    rcases handleKmreq_installed done with ⟨msg, parsed, secured, salt, others⟩
    refine ⟨msg, parsed, ?_⟩
    intro slot absent
    have same := (others slot absent).trans (congrArg (fun rx => SlotPair.get rx slot) kept.rx)
    refine ⟨same, ?_⟩
    intro before repeated seq kk data selected
    rw [decrypt_secured secured selected, decrypt_secured before selected, same, salt, repeated]

/-! ## A request with another salt -/

/-- An initiator whose request was confirmed. -/
def confirmedSession : Session :=
  (machine .sample (Opening .sample)).exec hastySession [.handleKmrsp hastySession.initial]

theorem confirmedSession_reachable :
    (machine .sample (Opening .sample)).Reachable confirmedSession := by
  have opening : Opening .sample hastySession :=
    .initiator hastyOptions_resolved sampleSalt rfl
  exact ⟨_, (Machine.Run.start opening).exec (by decide +kernel)⟩

/-- A request that carries an odd key. -/
def oddRequest (salt : Salt) : KmMessage where
  keys := .odd
  keyLen := .aes128
  salt := salt
  wrapped :=
    wrapKey .sample (deriveKek .sample hastyConfig.passphrase salt .aes128) (sampleKey 9).bytes

def movedSalt : Salt := ⟨List.replicate 16 0x44, rfl⟩

/-- After a rejected request, one that carries the odd key alone and another salt is installed;
a packet under the even key, which stays, then decrypts to something else. -/
theorem kmreq_moved_salt :
    (machine .sample (Opening .sample)).Reachable confirmedSession ∧
    confirmedSession.engine.rcvState = .secured ∧
    Rejects .sample confirmedSession.engine [[]] ∧
    parseKmreq (oddRequest movedSalt).encode = .ok (oddRequest movedSalt) ∧
    (oddRequest movedSalt).keys.carries .even = false ∧
    ((confirmedSession.engine.handleKmreqs .sample [[]]).handleKmreq .sample
      (oddRequest movedSalt).encode).2 = .installed ∧
    (confirmedSession.engine.decrypt .sample (SeqNumber.new 5) .even [1, 2, 3]).2 ≠
      (((confirmedSession.engine.handleKmreqs .sample [[]]).handleKmreq .sample
        (oddRequest movedSalt).encode).1.decrypt .sample (SeqNumber.new 5) .even [1, 2, 3]).2 := by
  refine ⟨confirmedSession_reachable, by decide +kernel, ⟨⟨.badSecret, by decide +kernel⟩, trivial⟩,
    rfl, rfl, by decide +kernel, ?_⟩
  decide +kernel

theorem kmreq_atomic_confirmedSession :
    ((confirmedSession.engine.handleKmreqs .sample [[]]).handleKmreq .sample
      (oddRequest sampleSalt).encode).1.rx.get .even = confirmedSession.engine.rx.get .even ∧
    (((confirmedSession.engine.handleKmreqs .sample [[]]).handleKmreq .sample
      (oddRequest sampleSalt).encode).1.decrypt .sample (SeqNumber.new 5) .even [1, 2, 3]).2 =
        (confirmedSession.engine.decrypt .sample (SeqNumber.new 5) .even [1, 2, 3]).2 := by
  rcases (kmreq_atomic .sample confirmedSession.engine).2 [[]] (oddRequest sampleSalt).encode
    ⟨⟨.badSecret, by decide +kernel⟩, trivial⟩ (by decide +kernel) with ⟨msg, parsed, others⟩
  have read : parseKmreq (oddRequest sampleSalt).encode = .ok (oddRequest sampleSalt) := rfl
  cases parsed.symm.trans read
  rcases others .even rfl with ⟨same, decrypts⟩
  exact ⟨same, decrypts (by decide +kernel) (by decide +kernel) _ _ _ rfl⟩

end Crypto
end Rsrt

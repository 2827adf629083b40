import Rsrt.Core.Establishment
import Rsrt.Core.SenderInvariant
import Rsrt.Crypto.Lifetime

namespace Rsrt

open Rsrt.Basis SeqNumber

/-!
# The keystreams of a conversation

A payload is encrypted with the keystream of a key and a counter block, and the block
is made from the salt and the sequence of the packet.  One handshake leaves both
endpoints with one key, one salt and one initial sequence, so the packets with equal
indices of the two directions share their keystream until the first refresh.

The runs are those of two connections from the end of their handshake, each of them fed
with any inputs.  A log of the engine goes along with each connection.
-/

/-- The key and the counter block that a submission was encrypted with; there are none for
an empty payload. -/
def Submission.keystream (sub : Submission) : Option (SecretKey × Bytes) :=
  if sub.payload.isEmpty then none
  else sub.engine.map fun engine =>
    (engine.activeKey.key, counterBlock engine.salt sub.seq.value)

/-! ## Counter blocks -/

theorem beBytes_injective {left right : Nat} (small : left < 2 ^ 32) (other : right < 2 ^ 32)
    (same : beBytes left = beBytes right) : left = right := by
  unfold beBytes at same
  simp only [List.cons.injEq, and_true] at same
  have first := congrArg UInt8.toNat same.1
  have second := congrArg UInt8.toNat same.2.1
  have third := congrArg UInt8.toNat same.2.2.1
  have fourth := congrArg UInt8.toNat same.2.2.2
  simp only [UInt8.toNat_ofNat'] at first second third fourth
  omega

theorem zipWith_xor_injective {left right mask : Bytes} (even : left.length = right.length)
    (covered : left.length ≤ mask.length)
    (same : List.zipWith (· ^^^ ·) left mask = List.zipWith (· ^^^ ·) right mask) :
    left = right := by
  induction left generalizing right mask with
  | nil => exact (List.length_eq_zero_iff.mp even.symm).symm
  | cons head rest ih =>
      cases right with
      | nil => cases even
      | cons head' rest' =>
          cases mask with
          | nil => cases covered
          | cons key keys =>
              simp only [List.zipWith_cons_cons, List.cons.injEq] at same
              have tails := ih (Nat.succ.inj even) (Nat.le_of_succ_le_succ covered) same.2
              rw [(UInt8.xor_left_inj key).mp same.1, tails]

/-- Under one salt every sequence has its own counter block. -/
theorem counterBlock_injective (salt : Salt) {left right : SeqNumber}
    (same : counterBlock salt left.value = counterBlock salt right.value) : left = right := by
  have covered : (List.replicate 10 (0 : UInt8) ++ beBytes left.value).length ≤
      (salt.bytes.take 14).length := by
    rw [List.length_take, salt.length_eq]
    exact le_refl 14
  have even : (List.replicate 10 (0 : UInt8) ++ beBytes left.value).length =
      (List.replicate 10 0 ++ beBytes right.value).length := rfl
  have words := zipWith_xor_injective even covered (List.append_cancel_right same)
  have small := left.value_lt
  have other := right.value_lt
  have value : left.value = right.value :=
    beBytes_injective (by omega) (by omega) (List.append_cancel_left words)
  cases left
  cases right
  cases value
  rfl

/-! ## Components with the log of their engine -/

namespace Stack

/-- What a call asks of the engine. -/
def engineCalls (self : Stack) : Call -> List Crypto.Call
  | .push now payload =>
      if payload.isEmpty then []
      else (self.submission now payload).toList.map fun sub => .encrypt sub.seq sub.payload
  | .data _ packet => [.decrypt packet.seq packet.encryption packet.payload]
  | .ack now ackNumber cif fresh =>
      match self.sender.handleAck now ackNumber cif with
      | (sender, .ok _) => [.onAck now sender.rtt.1 fresh]
      | (_, .error _) => []
  | .kmReq payload => [.handleKmreq payload]
  | .kmRsp payload => [.handleKmrsp payload]
  | _ => []

structure Keyed where
  session : Session
  cipher : Crypto.Session
deriving DecidableEq

namespace Keyed

variable (P : Primitives)

def step (k : Keyed) (call : Call) : Keyed where
  session := k.session.step P call
  cipher := (k.session.stack.engineCalls call).foldl (Crypto.Session.step P) k.cipher

/-- Payloads are not empty, and a key is drawn with the right length and for the first
time; `others` are the keys of the peer. -/
def Permits (k : Keyed) (others : List SecretKey) : Call -> Prop
  | .push _ payload => payload ≠ []
  | .ack _ _ _ fresh => k.cipher.Draws fresh ∧ fresh ∉ others
  | _ => True

/-- The engine is not unsecured, and at most `limit` packets are encrypted between two
acknowledgements. -/
def Paced (limit : Nat) (k : Keyed) (call : Call) : Prop :=
  k.cipher.engine.sndState ≠ .unsecured ∧ (k.step P call).cipher.pending ≤ limit

instance (k : Keyed) (others : List SecretKey) : forall call, Decidable (k.Permits others call)
  | .push _ payload => inferInstanceAs (Decidable (payload ≠ []))
  | .ack _ _ _ fresh => inferInstanceAs (Decidable ((_ ∧ _) ∧ fresh ∉ others))
  | .data .. | .nak .. | .ackAck .. | .dropRequest .. | .kmReq _ | .kmRsp _ | .timer _ |
    .anchor .. | .transmit _ | .deliver _ => .isTrue trivial

instance (limit : Nat) (k : Keyed) (call : Call) : Decidable (k.Paced P limit call) :=
  inferInstanceAs (Decidable (_ ∧ _))

end Keyed

end Stack

/-- Every submission was encrypted, under the sequence of its index. -/
structure Stack.Recorded (isn : SeqNumber) (submitted : List Submission)
    (cipher : Crypto.Session) : Prop where
  count : cipher.used.length = submitted.length
  entries : forall (i : Nat) (sub : Submission), submitted[i]? = some sub ->
    sub.payload ≠ [] ∧ sub.seq = wire isn i ∧ Exists fun engine =>
      sub.engine = some engine ∧ engine.salt = cipher.engine.salt ∧
        cipher.used[i]? = some (engine.activeKey.key, sub.seq)

namespace Stack

variable {P : Primitives} {isn : SeqNumber} {limit : Nat}

theorem Recorded.of_used_eq {submitted : List Submission} {cipher cipher' : Crypto.Session}
    (recorded : Recorded isn submitted cipher) (used : cipher'.used = cipher.used)
    (salt : cipher'.engine.salt = cipher.engine.salt) : Recorded isn submitted cipher' := by
  constructor
  · rw [used]
    exact recorded.count
  · rw [used, salt]
    exact recorded.entries

theorem Recorded.encrypt {submitted : List Submission} {cipher : Crypto.Session}
    (recorded : Recorded isn submitted cipher) {payload : Bytes} (content : payload ≠ []) :
    Recorded isn (submitted ++ [⟨wire isn submitted.length, payload, some cipher.engine⟩])
      (cipher.step P (.encrypt (wire isn submitted.length) payload)) := by
  constructor
  · change (cipher.used ++ [_]).length = _
    rw [List.length_append, List.length_append, recorded.count]
    rfl
  · intro i sub found
    change _ ∧ _ ∧ Exists fun engine : Crypto => _ ∧ engine.salt = cipher.engine.salt ∧
      (cipher.used ++ [(cipher.engine.activeKey.key, wire isn submitted.length)])[i]? = _
    by_cases old : i < submitted.length
    · rw [List.getElem?_append_left old] at found
      rw [List.getElem?_append_left (recorded.count ▸ old)]
      exact recorded.entries i sub found
    · rw [List.getElem?_append_right (not_lt.mp old), List.getElem?_singleton] at found
      split_ifs at found with last
      cases found
      have same : i = submitted.length := by omega
      subst same
      refine ⟨content, rfl, cipher.engine, rfl, rfl, ?_⟩
      rw [← recorded.count, List.getElem?_concat_length]

/-- What an engine call does to the record: nothing, unless it encrypts. -/
theorem Recorded.engine {submitted : List Submission} {cipher : Crypto.Session}
    (recorded : Recorded isn submitted cipher) {call : Crypto.Call}
    (used : (cipher.step P call).used = cipher.used) :
    Recorded isn submitted (cipher.step P call) :=
  recorded.of_used_eq used (cipher.step_grows call).salt

/-- No call changes the configuration of the sender. -/
theorem call_sender_cfg (stack : Stack) (call : Call) :
    (stack.call P call).sender.cfg = stack.sender.cfg := by
  cases call with
  | push now payload =>
      unfold Stack.call
      dsimp only
      split
      case h_1 ok =>
        rcases Sender.push_ok ok with ⟨_, flags, wirePayload, rfl, _⟩
        exact (Sender.makeRoom_numbering stack.sender now payload.length).1
      case h_2 => rfl
  | ack now ackNumber cif fresh =>
      have cfg := congrArg Sender.Labels.cfg (Sender.handleAck_labels stack.sender now ackNumber cif)
      unfold Stack.call
      dsimp only
      generalize stack.sender.handleAck now ackNumber cif = outcome at cfg
      rcases outcome with ⟨sender, err | reply⟩
      · exact cfg
      · exact cfg
  | nak now ranges => exact (Sender.handleNak_numbering stack.sender now ranges).1
  | timer now => exact (Sender.checkTlpktdrop_numbering stack.sender now).1
  | transmit now =>
      have labels := Sender.pollTransmitAt_labels stack.sender.pollControl.1 now
      change (stack.poll now).1.sender.cfg = _
      unfold Stack.poll
      split
      · rfl
      · split
        case h_1 said =>
          have moved := congrArg Prod.fst said
          subst moved
          rfl
        case h_2 said =>
          have moved := congrArg Prod.fst said
          subst moved
          exact congrArg Sender.Labels.cfg labels
  | data now packet => rfl
  | ackAck now ackNumber ts => rfl
  | dropRequest now msgNumber first last => rfl
  | kmReq payload => rfl
  | kmRsp payload => rfl
  | anchor instant ts => rfl
  | deliver now => rfl

/-- The components with their log, in a run where keys are drawn afresh and acknowledgements
come often enough. -/
structure Keyed.Sound (P : Primitives) (limit : Nat) (isn : SeqNumber) (k : Keyed) : Prop where
  engine : k.session.stack.crypto = some k.cipher.engine
  window : Exists fun w => k.session.Sealed P w
  numbered : k.session.stack.sender.cfg.initialSeq = isn
  recorded : Recorded isn k.session.log.submitted k.cipher
  placed : k.cipher.Placed P
  ordered : k.cipher.Ordered
  worn : k.cipher.Worn limit

namespace Keyed

variable {k : Keyed}

/-- A call that submits nothing makes at most one call on the engine. -/
theorem Sound.of_engineCall (sound : k.Sound P limit isn)
    (space : k.cipher.engine.cfg.kmRefreshRate + 2 * limit < 2 ^ 31) {call : Call}
    (silent : (k.session.stack.note k.session.log call).submitted = k.session.log.submitted)
    {one : Crypto.Call} (asks : k.session.stack.engineCalls call = [one])
    (permits : k.cipher.Permits one) (paced : k.Paced P limit call)
    (used : (k.cipher.step P one).used = k.cipher.used)
    (engine : (k.session.stack.call P call).crypto = some (k.cipher.step P one).engine) :
    (k.step P call).Sound P limit isn := by
  rcases sound.window with ⟨w, sealed⟩
  have after : (k.step P call).cipher = k.cipher.step P one := by
    unfold step
    rw [asks]
    rfl
  have within : Crypto.Session.Paced P limit k.cipher one := by
    refine ⟨paced.1, ?_⟩
    rw [← after]
    exact paced.2
  refine ⟨?_, sealed.step call, ?_, ?_, ?_, ?_, ?_⟩
  · rw [after]
    exact engine
  · exact (congrArg SenderConfig.initialSeq (call_sender_cfg k.session.stack call)).trans sound.numbered
  · rw [after]
    change Recorded isn (k.session.stack.note k.session.log call).submitted _
    rw [silent]
    exact sound.recorded.engine used
  · rw [after]
    exact sound.placed.step permits
  · rw [after]
    exact sound.ordered.step sound.placed one
  · rw [after]
    exact sound.worn.step sound.placed sound.ordered space within

/-- A call that leaves the engine alone. -/
theorem Sound.of_no_engineCall (sound : k.Sound P limit isn) {call : Call}
    (silent : (k.session.stack.note k.session.log call).submitted = k.session.log.submitted)
    (asks : k.session.stack.engineCalls call = [])
    (engine : (k.session.stack.call P call).crypto = k.session.stack.crypto) :
    (k.step P call).Sound P limit isn := by
  rcases sound.window with ⟨w, sealed⟩
  have after : (k.step P call).cipher = k.cipher := by
    unfold step
    rw [asks]
    rfl
  refine ⟨?_, sealed.step call, ?_, ?_, ?_, ?_, ?_⟩
  · rw [after]
    exact engine.trans sound.engine
  · exact (congrArg SenderConfig.initialSeq (call_sender_cfg k.session.stack call)).trans sound.numbered
  · rw [after]
    change Recorded isn (k.session.stack.note k.session.log call).submitted _
    rw [silent]
    exact sound.recorded
  · rw [after]
    exact sound.placed
  · rw [after]
    exact sound.ordered
  · rw [after]
    exact sound.worn

/-- A submission with a content leaves the engine as an encryption under its sequence does. -/
theorem push_engine {t : Session} {w : SendWindow BufEntry} (sealed : t.Sealed P w)
    {engine : Crypto} (present : t.stack.crypto = some engine)
    (numbered : t.stack.sender.cfg.initialSeq = isn) {payload : Bytes}
    (fits : payload.length ≤ t.stack.sender.cfg.maxPayload) (content : payload ≠ [])
    (now : Instant) :
    (t.stack.call P (.push now payload)).crypto =
      some (engine.encrypt P (wire isn t.log.submitted.length) payload).1 := by
  have filled : ¬payload.isEmpty = true := fun empty => content (List.isEmpty_iff.mp empty)
  have seq := congrArg (Option.map Submission.seq) (sealed.records fits now)
  unfold submission at seq
  rw [if_neg (not_lt.mpr fits)] at seq
  have same := Option.some.inj seq
  rw [numbered] at same
  dsimp only at same
  cases pushed : t.stack.sender.push P now payload t.stack.crypto with
  | error err =>
      unfold Sender.push at pushed
      rw [if_neg (not_lt.mpr fits)] at pushed
      cases pushed
  | ok result =>
      rcases result with ⟨sender, crypto⟩
      rcases Sender.push_ok pushed with ⟨_, flags, wirePayload, _, sealing⟩
      rw [same, present] at sealing
      unfold Sender.sealPayload at sealing
      dsimp only at sealing
      rw [if_neg filled] at sealing
      unfold Stack.call
      dsimp only
      rw [pushed]
      exact (congrArg Prod.fst sealing).symm

/-- A submission that is too large changes nothing, and any other is encrypted. -/
theorem Sound.push (sound : k.Sound P limit isn)
    (space : k.cipher.engine.cfg.kmRefreshRate + 2 * limit < 2 ^ 31) {now : Instant}
    {payload : Bytes} (content : payload ≠ []) (paced : k.Paced P limit (.push now payload)) :
    (k.step P (.push now payload)).Sound P limit isn := by
  rcases sound.window with ⟨w, sealed⟩
  have filled : payload.isEmpty = false := List.isEmpty_eq_false_iff.mpr content
  by_cases large : k.session.stack.sender.cfg.maxPayload < payload.length
  · have unrecorded : k.session.stack.submission now payload = none := if_pos large
    apply sound.of_no_engineCall
    · change k.session.log.submitted ++ (k.session.stack.submission now payload).toList = _
      rw [unrecorded]
      exact List.append_nil _
    · unfold engineCalls
      dsimp only
      rw [unrecorded, filled]
      rfl
    · unfold Stack.call Sender.push
      dsimp only
      rw [if_pos large]
  · have recorded := sealed.records (not_lt.mp large) now
    rw [sound.numbered, sound.engine] at recorded
    have asks : k.session.stack.engineCalls (.push now payload) =
        [.encrypt (wire isn k.session.log.submitted.length) payload] := by
      unfold engineCalls
      dsimp only
      rw [recorded, filled]
      rfl
    have after : (k.step P (.push now payload)).cipher =
        k.cipher.step P (.encrypt (wire isn k.session.log.submitted.length) payload) := by
      unfold step
      rw [asks]
      rfl
    have within : Crypto.Session.Paced P limit k.cipher
        (.encrypt (wire isn k.session.log.submitted.length) payload) := by
      refine ⟨paced.1, ?_⟩
      rw [← after]
      exact paced.2
    refine ⟨?_, sealed.step _, ?_, ?_, ?_, ?_, ?_⟩
    · rw [after]
      exact push_engine sealed sound.engine sound.numbered (not_lt.mp large) content now
    · exact (congrArg SenderConfig.initialSeq
        (call_sender_cfg k.session.stack (.push now payload))).trans sound.numbered
    · rw [after]
      change Recorded isn (k.session.log.submitted ++
        (k.session.stack.submission now payload).toList) _
      rw [recorded]
      exact sound.recorded.encrypt content
    · rw [after]
      exact sound.placed.step trivial
    · rw [after]
      exact sound.ordered.step sound.placed _
    · rw [after]
      exact sound.worn.step sound.placed sound.ordered space within

theorem Sound.step (sound : k.Sound P limit isn)
    (space : k.cipher.engine.cfg.kmRefreshRate + 2 * limit < 2 ^ 31) {others : List SecretKey}
    {call : Call} (permits : k.Permits others call) (paced : k.Paced P limit call) :
    (k.step P call).Sound P limit isn := by
  cases call with
  | push now payload => exact sound.push space permits paced
  | data now packet =>
      refine sound.of_engineCall space rfl rfl trivial paced rfl ?_
      change (Connection.ingestData P now k.session.stack.receiver k.session.stack.crypto packet).2 = _
      rw [Connection.ingestData_crypto, sound.engine]
      rfl
  | ack now ackNumber cif fresh =>
      rcases outcome : k.session.stack.sender.handleAck now ackNumber cif with ⟨sender, err | reply⟩
      · refine sound.of_no_engineCall rfl ?_ ?_
        · unfold engineCalls
          dsimp only
          rw [outcome]
        · unfold Stack.call
          dsimp only
          rw [outcome]
      · have asks : k.session.stack.engineCalls (.ack now ackNumber cif fresh) =
            [.onAck now sender.rtt.1 fresh] := by
          unfold engineCalls
          dsimp only
          rw [outcome]
        refine sound.of_engineCall space rfl asks permits.1 paced rfl ?_
        unfold Stack.call
        dsimp only
        rw [outcome, sound.engine]
        rfl
  | nak now ranges => exact sound.of_no_engineCall rfl rfl rfl
  | ackAck now ackNumber ts => exact sound.of_no_engineCall rfl rfl rfl
  | dropRequest now msgNumber first last => exact sound.of_no_engineCall rfl rfl rfl
  | kmReq payload =>
      refine sound.of_engineCall space rfl rfl trivial paced rfl ?_
      change k.session.stack.crypto.map _ = _
      rw [sound.engine]
      rfl
  | kmRsp payload =>
      refine sound.of_engineCall space rfl rfl trivial paced rfl ?_
      change k.session.stack.crypto.map _ = _
      rw [sound.engine]
      rfl
  | timer now => exact sound.of_no_engineCall rfl rfl rfl
  | anchor instant ts => exact sound.of_no_engineCall rfl rfl rfl
  | transmit now =>
      exact sound.of_no_engineCall rfl rfl (k.session.stack.poll_crypto now)
  | deliver now => exact sound.of_no_engineCall rfl rfl rfl

/-- The keys of the peer stay out of the draws. -/
theorem step_keys {others : List SecretKey} {call : Call} (permits : k.Permits others call)
    {key : SecretKey} (member : key ∈ (k.step P call).cipher.keys) :
    key ∈ k.cipher.keys ∨ key ∉ others := by
  unfold step at member
  cases call with
  | push now payload =>
      refine Or.inl ?_
      unfold engineCalls at member
      dsimp only at member
      split_ifs at member
      · exact member
      · cases recorded : k.session.stack.submission now payload with
        | none =>
            rw [recorded] at member
            exact member
        | some sub =>
            rw [recorded] at member
            exact member
  | ack now ackNumber cif fresh =>
      unfold engineCalls at member
      dsimp only at member
      split at member
      · change key ∈ (if k.cipher.engine.announcing then k.cipher.keys ++ [fresh]
          else k.cipher.keys) at member
        split_ifs at member
        · rcases List.mem_append.mp member with old | new
          · exact Or.inl old
          · rw [List.mem_singleton.mp new]
            exact Or.inr permits.2
        · exact Or.inl member
      · exact Or.inl member
  | data now packet => exact Or.inl member
  | nak now ranges => exact Or.inl member
  | ackAck now ackNumber ts => exact Or.inl member
  | dropRequest now msgNumber first last => exact Or.inl member
  | kmReq payload => exact Or.inl member
  | kmRsp payload => exact Or.inl member
  | timer now => exact Or.inl member
  | anchor instant ts => exact Or.inl member
  | transmit now => exact Or.inl member
  | deliver now => exact Or.inl member

theorem step_grows (k : Keyed) (call : Call) : k.cipher.Grows (k.step P call).cipher := by
  have grows (calls : List Crypto.Call) (cipher : Crypto.Session) :
      cipher.Grows (calls.foldl (Crypto.Session.step P) cipher) := by
    induction calls generalizing cipher with
    | nil => exact .refl cipher
    | cons one rest ih => exact (cipher.step_grows one).trans (ih _)
  exact grows _ _

end Keyed

end Stack

/-! ## Two endpoints -/

/-- The log of a new engine. -/
def Crypto.Session.opened (engine : Crypto) (message : Bytes) : Crypto.Session where
  engine := engine
  initial := message
  first := engine.active
  keys := engine.sendingKeys
  installed := message

/-- A connection with the log of its engine. -/
structure Speaker where
  session : Connection.Session
  cipher : Crypto.Session
deriving DecidableEq

namespace Speaker

variable (P : Primitives)

/-- The components, while the connection is open. -/
def keyed (s : Speaker) : Option Stack.Keyed :=
  match s.session.conn.state with
  | .established sender receiver crypto =>
      some
        { session := { stack := { sender, receiver, crypto }, log := s.session.log }
          cipher := s.cipher }
  | _ => none

def next (s : Speaker) (input : Connection.Input) : Speaker where
  session := s.session.next P input
  cipher := (s.keyed.map fun k =>
    ((s.session.conn.calls input).foldl (Stack.Keyed.step P) k).cipher).getD s.cipher

end Speaker

structure Dialogue where
  caller : Speaker
  listener : Speaker
  /-- The key of the handshake. -/
  sek : SecretKey
deriving DecidableEq

namespace Dialogue

variable (P : Primitives)

def speaker (d : Dialogue) : Side -> Speaker
  | .caller => d.caller
  | .listener => d.listener

/-- One side gets an input. -/
def next (d : Dialogue) (event : Side × Connection.Input) : Dialogue :=
  match event.1 with
  | .caller => { d with caller := d.caller.next P event.2 }
  | .listener => { d with listener := d.listener.next P event.2 }

/-- Both endpoints at the end of one handshake with one valid passphrase. -/
inductive Opening : Dialogue -> Prop
  | intro {setup : Setup} (handshaken : setup.Handshaken P) {callerCfg listenerCfg : CryptoConfig}
      (callerKeyed : setup.callerOpts.cryptoConfig = .ok (some callerCfg))
      (listenerKeyed : setup.listenerOpts.cryptoConfig = .ok (some listenerCfg))
      (shared : listenerCfg.passphrase = callerCfg.passphrase) {first second : Crypto}
      (caller : setup.caller.crypto = some first) (listener : setup.listener.crypto = some second) :
      Opening
        { caller :=
            { session := { conn := setup.callerConn P }
              cipher := .opened first (second.kmreq.getD []) }
          listener :=
            { session := { conn := setup.listenerConn }
              cipher := .opened second (second.kmreq.getD []) }
          sek := first.activeKey.key }

/-- All runs of two endpoints, each with any inputs.  Payloads are not empty, and the keys
that the endpoints draw are new to both. -/
def machine : Machine Dialogue (Side × Connection.Input) where
  start := Opening P
  guard := fun d (side, input) =>
    forall k, k ∈ (d.speaker side).keyed ->
      forall call, call ∈ (d.speaker side).session.conn.calls input ->
        k.Permits (d.speaker side.other).cipher.keys call
  next := next P

/-- Neither engine is unsecured, and at most `limit` packets are encrypted between two
acknowledgements. -/
def Paced (limit : Nat) (d : Dialogue) (event : Side × Connection.Input) : Prop :=
  forall k, k ∈ (d.speaker event.1).keyed ->
    forall call, call ∈ (d.speaker event.1).session.conn.calls event.2 -> k.Paced P limit call

instance (d : Dialogue) (event : Side × Connection.Input) : Decidable ((machine P).guard d event) :=
  inferInstanceAs (Decidable (forall k, k ∈ (d.speaker event.1).keyed ->
    forall call, call ∈ (d.speaker event.1).session.conn.calls event.2 ->
      k.Permits (d.speaker event.1.other).cipher.keys call))

instance (limit : Nat) (d : Dialogue) (event : Side × Connection.Input) :
    Decidable (Paced P limit d event) :=
  inferInstanceAs (Decidable (forall k, k ∈ (d.speaker event.1).keyed ->
    forall call, call ∈ (d.speaker event.1).session.conn.calls event.2 -> k.Paced P limit call))

end Dialogue

/-! ## Invariants -/

namespace Speaker

variable {P : Primitives} {limit : Nat} {isn : SeqNumber} {s : Speaker}

/-- The log of an endpoint, and its components while it is open. -/
structure Sound (P : Primitives) (limit : Nat) (isn : SeqNumber) (s : Speaker) : Prop where
  recorded : Stack.Recorded isn s.session.log.submitted s.cipher
  placed : s.cipher.Placed P
  ordered : s.cipher.Ordered
  worn : s.cipher.Worn limit
  opened : forall hs pendingSend earlyData,
    s.session.conn.state ≠ .connecting hs pendingSend earlyData
  components : forall k, k ∈ s.keyed -> k.Sound P limit isn

/-- What becomes of the components on an input. -/
theorem next_cases (opened : forall hs pendingSend earlyData,
      s.session.conn.state ≠ .connecting hs pendingSend earlyData) (input : Connection.Input) :
    (Exists fun k => Exists fun k' : Stack.Keyed => k ∈ s.keyed ∧ k.cipher = s.cipher ∧
      (k' = k ∨ Exists fun call => call ∈ s.session.conn.calls input ∧ k' = k.step P call) ∧
      (s.next P input).session.log = k'.session.log ∧ (s.next P input).cipher = k'.cipher ∧
      Connection.Shows k'.session.stack (s.next P input).session.conn.state) ∨
    ((s.next P input).session.log = s.session.log ∧ (s.next P input).cipher = s.cipher ∧
      Exists fun reason => Exists fun kept =>
        (s.next P input).session.conn.state = .closed reason kept) := by
  rcases state : s.session.conn.state with ⟨hs, pendingSend, earlyData⟩ |
    ⟨sender, receiver, crypto⟩ | ⟨reason, kept⟩
  · exact absurd state (opened hs pendingSend earlyData)
  · have running : s.keyed = some
        { session := { stack := { sender, receiver, crypto }, log := s.session.log }
          cipher := s.cipher } := by
      unfold keyed
      rw [state]
    have driven : s.session.driven P input =
        some (Stack.Session.run P { stack := { sender, receiver, crypto }, log := s.session.log }
          (s.session.conn.calls input)) := by
      unfold Connection.Session.driven
      rw [state]
    have log : (s.next P input).session.log = (Stack.Session.run P
        { stack := { sender, receiver, crypto }, log := s.session.log }
          (s.session.conn.calls input)).log := by
      change ((s.session.driven P input).map Stack.Session.log).getD s.session.log = _
      rw [driven]
      rfl
    have shows := @Connection.handle_shows P s.session.conn { sender, receiver, crypto } state input
    have cipher : (s.next P input).cipher = ((s.session.conn.calls input).foldl (Stack.Keyed.step P)
        { session := { stack := { sender, receiver, crypto }, log := s.session.log }
          cipher := s.cipher }).cipher := by
      change (s.keyed.map _).getD s.cipher = _
      rw [running]
      rfl
    rcases Connection.calls_single s.session.conn input with none | ⟨call, one⟩
    · rw [none] at log shows cipher
      exact Or.inl ⟨_, _, running, rfl, Or.inl rfl, log, cipher, shows⟩
    · rw [one] at log shows cipher ⊢
      exact Or.inl ⟨_, _, running, rfl, Or.inr ⟨call, List.mem_singleton.mpr rfl, rfl⟩, log, cipher,
        shows⟩
  · have driven : s.session.driven P input = none := by
      unfold Connection.Session.driven
      rw [state]
    have shut : s.keyed = none := by
      unfold keyed
      rw [state]
    refine Or.inr ⟨?_, ?_, ?_⟩
    · change ((s.session.driven P input).map Stack.Session.log).getD s.session.log = _
      rw [driven]
      rfl
    · change (s.keyed.map _).getD s.cipher = _
      rw [shut]
      rfl
    · change Exists fun reason => Exists fun kept => (s.session.conn.handle P input).state = _
      rcases @Connection.handle_closed P s.session.conn reason kept state input with same |
        ⟨now, receiver, rfl, polled⟩
      · exact ⟨reason, kept, same⟩
      · exact ⟨reason, _, polled⟩

theorem Sound.next (sound : s.Sound P limit isn)
    (space : s.cipher.engine.cfg.kmRefreshRate + 2 * limit < 2 ^ 31) {others : List SecretKey}
    {input : Connection.Input}
    (permits : forall k, k ∈ s.keyed -> forall call, call ∈ s.session.conn.calls input ->
      k.Permits others call)
    (paced : forall k, k ∈ s.keyed -> forall call, call ∈ s.session.conn.calls input ->
      k.Paced P limit call) : (s.next P input).Sound P limit isn := by
  rcases next_cases (P := P) sound.opened input with
    ⟨k, k', present, cipher, moved, log, after, shows⟩ | ⟨log, after, reason, kept, state⟩
  · have before := sound.components k present
    have sound' : k'.Sound P limit isn := by
      rcases moved with rfl | ⟨call, called, rfl⟩
      · exact before
      · exact before.step (cipher ▸ space) (permits k present call called)
          (paced k present call called)
    refine ⟨?_, ?_, ?_, ?_, ?_, ?_⟩
    · rw [log, after]
      exact sound'.recorded
    · rw [after]
      exact sound'.placed
    · rw [after]
      exact sound'.ordered
    · rw [after]
      exact sound'.worn
    · intro hs pendingSend earlyData connecting
      rw [connecting] at shows
      cases shows
    · have kept : (s.next P input).keyed = some k' ∨ (s.next P input).keyed = none := by
        unfold keyed
        rw [log, after]
        generalize (s.next P input).session.conn.state = state at shows
        cases shows with
        | established => exact Or.inl rfl
        | closed reason => exact Or.inr rfl
      intro found member
      rcases kept with same | gone
      · rw [same] at member
        cases member
        exact sound'
      · rw [gone] at member
        cases member
  · refine ⟨?_, ?_, ?_, ?_, ?_, ?_⟩
    · rw [log, after]
      exact sound.recorded
    · rw [after]
      exact sound.placed
    · rw [after]
      exact sound.ordered
    · rw [after]
      exact sound.worn
    · intro hs pendingSend earlyData connecting
      rw [state] at connecting
      cases connecting
    · intro found member
      unfold keyed at member
      rw [state] at member
      cases member

theorem next_grows (s : Speaker) (input : Connection.Input) :
    s.cipher.Grows (s.next P input).cipher := by
  have grows (calls : List Stack.Call) (k : Stack.Keyed) :
      k.cipher.Grows (calls.foldl (Stack.Keyed.step P) k).cipher := by
    induction calls generalizing k with
    | nil => exact .refl k.cipher
    | cons call rest ih => exact (k.step_grows call).trans (ih _)
  unfold next keyed
  cases s.session.conn.state with
  | connecting hs pendingSend earlyData => exact .refl s.cipher
  | established sender receiver crypto =>
      exact grows (s.session.conn.calls input)
        { session := { stack := { sender, receiver, crypto }, log := s.session.log }
          cipher := s.cipher }
  | closed reason kept => exact .refl s.cipher

theorem next_keys (opened : forall hs pendingSend earlyData,
      s.session.conn.state ≠ .connecting hs pendingSend earlyData) {others : List SecretKey}
    {input : Connection.Input}
    (permits : forall k, k ∈ s.keyed -> forall call, call ∈ s.session.conn.calls input ->
      k.Permits others call) {key : SecretKey} (member : key ∈ (s.next P input).cipher.keys) :
    key ∈ s.cipher.keys ∨ key ∉ others := by
  rcases next_cases (P := P) opened input with
    ⟨k, k', present, cipher, moved, _, after, _⟩ | ⟨_, after, _⟩
  · rw [after] at member
    rw [← cipher]
    rcases moved with rfl | ⟨call, called, rfl⟩
    · exact Or.inl member
    · exact Stack.Keyed.step_keys (permits k present call called) member
  · rw [after] at member
    exact Or.inl member

/-! ### The keys that were used -/

/-- A submission has the keystream of a key that was used for the sequence of its index. -/
theorem Sound.keystream (sound : s.Sound P limit isn) {i : Nat} {sub : Submission}
    (found : s.session.log.submitted[i]? = some sub) :
    Exists fun key =>
      sub.keystream = some (key, counterBlock s.cipher.engine.salt (wire isn i).value) ∧
        s.cipher.used[i]? = some (key, wire isn i) := by
  rcases sound.recorded.entries i sub found with ⟨content, seq, engine, present, salt, used⟩
  refine ⟨engine.activeKey.key, ?_, seq ▸ used⟩
  unfold Submission.keystream
  rw [if_neg (fun empty => content (List.isEmpty_iff.mp empty)), present, Option.map_some, salt, seq]

/-- A key that meets a sequence again would be in use for a whole turn. -/
theorem Sound.eq_of_le (sound : s.Sound P limit isn)
    (space : s.cipher.engine.cfg.kmRefreshRate + 2 * limit < 2 ^ 31) {i j : Nat} {key : SecretKey}
    (first : s.cipher.used[i]? = some (key, wire isn i))
    (second : s.cipher.used[j]? = some (key, wire isn j)) (same : wire isn i = wire isn j)
    (before : i ≤ j) : i = j := by
  have stretch := Crypto.le_count_of_stretch (sound.ordered.stretch first second rfl)
  have bound := sound.worn.count_le key
  rcases wire_turns _ same with ⟨turns, apart⟩
  dsimp only at stretch
  omega

/-- The first key is in use from the first submission on, for less than a turn. -/
theorem Sound.lt_of_first (sound : s.Sound P limit isn)
    (space : s.cipher.engine.cfg.kmRefreshRate + 2 * limit < 2 ^ 31) {i : Nat} {key : SecretKey}
    {seq : SeqNumber} (head : s.cipher.keys[0]? = some key)
    (used : s.cipher.used[i]? = some (key, seq)) : i < 2 ^ 31 := by
  have inside := (List.getElem?_eq_some_iff.mp used).1
  rcases opens : s.cipher.used[0]? with _ | early
  · rw [List.getElem?_eq_none_iff] at opens
    omega
  · have earliest : s.cipher.keys.idxOf early.1 = 0 := by
      have sorted : s.cipher.keys.idxOf early.1 ≤ s.cipher.keys.idxOf key := by
        rcases Nat.eq_zero_or_pos i with rfl | later
        · rw [opens] at used
          cases used
          exact le_refl _
        · rcases List.getElem?_eq_some_iff.mp opens with ⟨zero, rfl⟩
          rcases List.getElem?_eq_some_iff.mp used with ⟨_, entry⟩
          have pair := List.pairwise_iff_getElem.mp sound.ordered.sorted 0 i zero inside later
          rw [entry] at pair
          exact pair
      rw [sound.placed.idxOf head] at sorted
      exact Nat.le_zero.mp sorted
    have listed := (sound.ordered.listed early (List.mem_of_getElem? opens)).1
    have same : early.1 = key := by
      apply (List.idxOf_inj listed).mp
      rw [earliest, sound.placed.idxOf head]
    have stretch := Crypto.le_count_of_stretch (sound.ordered.stretch opens used same)
    have bound := sound.worn.count_le early.1
    omega

end Speaker

namespace Dialogue

variable {P : Primitives} {limit : Nat} {d : Dialogue}

@[simp] theorem next_speaker_self (d : Dialogue) (side : Side) (input : Connection.Input) :
    (d.next P (side, input)).speaker side = (d.speaker side).next P input := by
  cases side <;> rfl

@[simp] theorem next_speaker_other (d : Dialogue) (side : Side) (input : Connection.Input) :
    (d.next P (side, input)).speaker side.other = d.speaker side.other := by
  cases side <;> rfl

@[simp] theorem next_sek (d : Dialogue) (event : Side × Connection.Input) :
    (d.next P event).sek = d.sek := by
  rcases event with ⟨side, input⟩
  cases side <;> rfl

/-- Both endpoints are sound, and they share the salt, the initial sequence and of the keys
only the first one. -/
structure Sound (P : Primitives) (limit : Nat) (isn : SeqNumber) (salt : Salt) (d : Dialogue) :
    Prop where
  speakers : forall side, (d.speaker side).Sound P limit isn
  salts : forall side, (d.speaker side).cipher.engine.salt = salt
  first : forall side, (d.speaker side).cipher.keys[0]? = some d.sek
  apart : forall side key, key ∈ (d.speaker side).cipher.keys ->
    key ∈ (d.speaker side.other).cipher.keys -> key = d.sek

theorem Sound.next {isn : SeqNumber} {salt : Salt} (sound : d.Sound P limit isn salt)
    (space : forall side,
      (d.speaker side).cipher.engine.cfg.kmRefreshRate + 2 * limit < 2 ^ 31)
    {event : Side × Connection.Input} (permits : (machine P).guard d event)
    (paced : Paced P limit d event) : (d.next P event).Sound P limit isn salt := by
  rcases event with ⟨side, input⟩
  have opened := (sound.speakers side).opened
  have grows := (d.speaker side).next_grows (P := P) input
  have split (Holds : Side -> Prop) (self : Holds side) (other : Holds side.other)
      (any : Side) : Holds any := by
    cases side <;> cases any <;> assumption
  refine ⟨split _ ?_ ?_, split _ ?_ ?_, split _ ?_ ?_, ?_⟩
  · rw [next_speaker_self]
    exact (sound.speakers side).next (space side) permits paced
  · rw [next_speaker_other]
    exact sound.speakers side.other
  · rw [next_speaker_self]
    exact grows.salt.trans (sound.salts side)
  · rw [next_speaker_other]
    exact sound.salts side.other
  · rw [next_speaker_self, next_sek]
    exact grows.getElem? (sound.first side)
  · rw [next_speaker_other, next_sek]
    exact sound.first side.other
  · have drawn : forall key, key ∈ ((d.speaker side).next P input).cipher.keys ->
        key ∈ (d.speaker side.other).cipher.keys -> key = d.sek := by
      intro key mine others
      rcases Speaker.next_keys opened permits mine with old | fresh
      · exact sound.apart side key old others
      · exact absurd others fresh
    have twice : side.other.other = side := by cases side <;> rfl
    refine split _ ?_ ?_
    · rw [next_speaker_self, next_speaker_other, next_sek]
      exact drawn
    · rw [next_speaker_other, twice, next_speaker_self, next_sek]
      intro key others mine
      exact drawn key mine others

/-! ## The end of the handshake -/

/-- An engine that has only changed its states since it was made. -/
theorem opened_invariants {made : Crypto.Session} (opening : Crypto.Opening P made)
    {engine : Crypto} (alike : Crypto.SendsAlike made.engine engine)
    (slot : made.first = made.engine.active) (drawn : made.keys = made.engine.sendingKeys)
    (message : Bytes) (limit : Nat) :
    (Crypto.Session.opened engine message).Placed P ∧
      (Crypto.Session.opened engine message).Ordered ∧
      (Crypto.Session.opened engine message).Worn limit := by
  have first : (Crypto.Session.opened engine message).first = made.first := by
    rw [slot]
    exact alike.active
  have keys : (Crypto.Session.opened engine message).keys = made.keys := by
    rw [drawn]
    change engine.sendingKeys = _
    unfold Crypto.sendingKeys
    rw [alike.activeKey, alike.tx, alike.active]
  refine ⟨opening.placed.of_sendsAlike alike first keys, ⟨?_, ?_⟩,
    (opening.worn limit).of_sendsAlike alike opening.unused.symm ?_⟩
  · intro entry member
    cases member
  · exact List.Pairwise.nil
  · cases opening <;> rfl

/-- An endpoint that has just been established. -/
theorem opened_sound {conn : Connection} {cfg : SenderConfig} {receiver : Receiver}
    {engine : Crypto} (state : conn.state = .established (Sender.new cfg) receiver (some engine))
    {message : Bytes}
    (invariants : (Crypto.Session.opened engine message).Placed P ∧
      (Crypto.Session.opened engine message).Ordered ∧
      (Crypto.Session.opened engine message).Worn limit) :
    Speaker.Sound P limit cfg.initialSeq
      { session := { conn }, cipher := .opened engine message } := by
  rcases invariants with ⟨placed, ordered, worn⟩
  have recorded : Stack.Recorded cfg.initialSeq [] (Crypto.Session.opened engine message) := by
    refine ⟨rfl, ?_⟩
    intro i sub found
    cases found
  refine ⟨recorded, placed, ordered, worn, ?_, ?_⟩
  · intro hs pendingSend earlyData connecting
    rw [state] at connecting
    cases connecting
  · intro k member
    unfold Speaker.keyed at member
    rw [state] at member
    cases member
    refine ⟨rfl, ⟨SendWindow.start, Sender.tracks_new cfg, rfl, ?_⟩, rfl, recorded, placed, ordered,
      worn⟩
    intro i entry found
    cases found

/-- The key length is the only thing that the advert of the peer changes. -/
theorem cryptoConfig_pbkeylen {opts : SrtOptions} {cfg : CryptoConfig}
    (resolved : opts.cryptoConfig = .ok (some cfg)) (keyLen : KeyLength) :
    ({ opts with pbkeylen := some keyLen } : SrtOptions).cryptoConfig =
      .ok (some { cfg with keyLen }) := by
  unfold SrtOptions.cryptoConfig at resolved ⊢
  dsimp only at resolved ⊢
  split at resolved
  · cases resolved
  · split_ifs at resolved ⊢
    all_goals
      cases resolved
      rfl

theorem Opening.sound (ideal : P.Ideal) (opening : Opening P d) (limit : Nat) :
    Exists fun isn => Exists fun salt => d.Sound P limit isn salt := by
  rcases opening with @⟨setup, handshaken, callerCfg, listenerCfg, callerKeyed, listenerKeyed, shared,
    first, second, caller, listener⟩
  have numbered := handshaken.agreement.2
  rcases handshaken.keyed callerKeyed listenerKeyed shared with ⟨callerCfg, listenerCfg, keyLen, salt,
    sek, initiator, responder, callerKeyed, listenerKeyed, shared, sized, done, made, answered⟩
  rw [caller] at made
  rw [listener] at answered
  cases made
  cases answered
  rcases Crypto.keyExchange_engines done with ⟨rfl, accepted⟩
  rcases @newResponder_handshakeRequest P { callerCfg with keyLen } listenerCfg salt sek ideal sized
    shared with ⟨engine, ok, agrees, tx, _, active, _⟩
  rw [ok] at accepted
  cases accepted
  -- The listener starts with the key of the caller, and with no other.
  have listens : second.sendingKeys = [sek] := by
    have key : second.activeKey = { key := sek, cipher := .new sek, pktCnt := 1, state := .active } := by
      apply Crypto.activeKey_eq
      rw [active, tx]
      rfl
    unfold Crypto.sendingKeys
    rw [key, active, tx]
    rfl
  have initiates := Crypto.Opening.initiator (P := P) (cryptoConfig_pbkeylen callerKeyed keyLen) salt
    sized
  have responds : Crypto.Opening P (Crypto.Session.opened second
      (handshakeRequest P { callerCfg with keyLen } salt sek).encode) := by
    refine .responder listenerKeyed ok ?_ ?_
    · rw [listens]
      intro key member
      rw [List.mem_singleton.mp member, agrees.keyLen]
      exact sized
    · rw [listens]
      exact List.nodup_singleton sek
  rw [handleKmrsp_handshakeRequest] at caller ⊢
  have speaks := opened_invariants initiates
    (Crypto.handleKmrsp_sendsAlike _ (handshakeRequest P { callerCfg with keyLen } salt sek).encode)
    rfl rfl (second.kmreq.getD []) limit
  rw [handleKmrsp_handshakeRequest] at speaks
  have answers := opened_invariants responds ⟨rfl, rfl, rfl, rfl, rfl, rfl⟩ rfl rfl
    (second.kmreq.getD []) limit
  refine ⟨setup.caller.sendInitialSeq, salt, ?_, ?_, ?_, ?_⟩
  · intro side
    cases side with
    | caller =>
        rcases setup.callerConn_state P with ⟨cfg, receiver, isn, _, state⟩
        rw [caller] at state
        rw [← isn]
        exact opened_sound state speaks
    | listener =>
        rcases setup.listenerConn_state with ⟨cfg, receiver, isn, _, state⟩
        rw [listener] at state
        rw [← numbered, ← isn]
        exact opened_sound state answers
  · intro side
    cases side with
    | caller => rfl
    | listener => exact agrees.salt
  · intro side
    cases side with
    | caller => rfl
    | listener =>
        change second.sendingKeys[0]? = some sek
        rw [listens]
        rfl
  · intro side key mine _
    cases side with
    | caller => exact List.mem_singleton.mp mine
    | listener =>
        change key ∈ second.sendingKeys at mine
        rw [listens] at mine
        exact List.mem_singleton.mp mine

theorem next_cfg (d : Dialogue) (event : Side × Connection.Input) (any : Side) :
    ((d.next P event).speaker any).cipher.engine.cfg = (d.speaker any).cipher.engine.cfg := by
  rcases event with ⟨side, input⟩
  cases side <;> cases any
  · exact (d.caller.next_grows input).cfg
  · rfl
  · rfl
  · exact (d.listener.next_grows input).cfg

/-- What holds in every run with enough acknowledgements. -/
theorem sound_of_run (ideal : P.Ideal) {history : List (Dialogue × (Side × Connection.Input))}
    (run : ((machine P).restrict (Paced P limit)).Run history d)
    (space : forall side,
      (d.speaker side).cipher.engine.cfg.kmRefreshRate + 2 * limit < 2 ^ 31) :
    Exists fun isn => Exists fun salt => d.Sound P limit isn salt := by
  revert space
  apply run.induct fun _ d => (forall side,
      (d.speaker side).cipher.engine.cfg.kmRefreshRate + 2 * limit < 2 ^ 31) ->
    Exists fun isn => Exists fun salt => d.Sound P limit isn salt
  · intro d opening _
    exact opening.sound ideal limit
  · rintro history d ⟨side, input⟩ _ ih ⟨permits, paced⟩ space
    have before (any : Side) :
        (d.speaker any).cipher.engine.cfg.kmRefreshRate + 2 * limit < 2 ^ 31 := by
      rw [← next_cfg (P := P) d (side, input) any]
      exact space any
    rcases ih before with ⟨isn, salt, sound⟩
    exact ⟨isn, salt, sound.next before permits paced⟩

/-- Two submissions share their key and counter block exactly if they are one, or have
one index in opposite directions and were both encrypted under the key of the handshake. -/
theorem keystream_shared_iff (ideal : P.Ideal)
    {history : List (Dialogue × (Side × Connection.Input))}
    (run : ((machine P).restrict (Paced P limit)).Run history d)
    (space : forall side,
      (d.speaker side).cipher.engine.cfg.kmRefreshRate + 2 * limit < 2 ^ 31)
    {left right : Side} {i j : Nat} {sub other : Submission}
    (first : (d.speaker left).session.log.submitted[i]? = some sub)
    (second : (d.speaker right).session.log.submitted[j]? = some other) :
    (Exists fun stream => sub.keystream = some stream ∧ other.keystream = some stream) ↔
      i = j ∧ (left = right ∨
        sub.keystream.map Prod.fst = some d.sek ∧ other.keystream.map Prod.fst = some d.sek) := by
  rcases sound_of_run ideal run space with ⟨isn, salt, sound⟩
  rcases (sound.speakers left).keystream first with ⟨key, stream, used⟩
  rcases (sound.speakers right).keystream second with ⟨key', stream', used'⟩
  rw [sound.salts] at stream stream'
  have mine := ((sound.speakers left).ordered.listed _ (List.mem_of_getElem? used)).1
  have others := ((sound.speakers right).ordered.listed _ (List.mem_of_getElem? used')).1
  rw [stream, stream']
  constructor
  · rintro ⟨shared, this, that⟩
    cases this
    rcases Prod.mk.inj (Option.some.inj that) with ⟨rfl, blocks⟩
    have same := counterBlock_injective salt blocks.symm
    by_cases one : left = right
    · subst one
      refine ⟨?_, Or.inl rfl⟩
      rcases Nat.le_total i j with before | after
      · exact (sound.speakers left).eq_of_le (space left) used used' same before
      · exact ((sound.speakers left).eq_of_le (space left) used' used same.symm after).symm
    · have opposite : right = left.other := by
        cases left <;> cases right <;> first | rfl | exact absurd rfl one
      subst opposite
      have handshake := sound.apart left _ mine others
      subst handshake
      have short := (sound.speakers left).lt_of_first (space left) (sound.first left) used
      have short' := (sound.speakers left.other).lt_of_first (space left.other)
        (sound.first left.other) used'
      rcases wire_turns _ same with ⟨turns, apart⟩
      exact ⟨by omega, Or.inr ⟨rfl, rfl⟩⟩
  · rintro ⟨rfl, rfl | ⟨this, that⟩⟩
    · rw [used] at used'
      cases used'
      exact ⟨_, rfl, rfl⟩
    · cases this
      cases that
      exact ⟨_, rfl, rfl⟩

/-! ### The first packets of both directions -/

def secretConfig : CryptoConfig where
  passphrase := List.replicate 10 7
  keyLen := .aes128
  kmRefreshRate := 0x1000000
  kmPreannounce := 0x10000

def secretListener : Listener where
  timebase := ⟨0⟩
  opts := Connection.secretOptions
  cookieAt := fun _ _ => 7

/-- The engines after the key exchange. -/
def secretInitiator : Crypto :=
  (Crypto.newInitiator .sample secretConfig Connection.sampleDraw.salt
    Connection.sampleDraw.key).handleKmrsp Connection.secretRequest |>.1

def secretResponder : Crypto :=
  (Crypto.newResponder .sample secretConfig Connection.secretRequest).toOption.getD secretInitiator

/-- What the two sides negotiate, with the engine of each. -/
def secretNegotiated (remote : SocketAddrV4) (own peer : SocketId) (crypto : Crypto) :
    Negotiated where
  remote := remote
  localSocketId := own
  peerSocketId := peer
  sendInitialSeq := SeqNumber.new 0
  recvInitialSeq := SeqNumber.new 0
  sndLatency := Duration.fromMillis 120
  rcvLatency := Duration.fromMillis 120
  streamid := none
  mss := 1500
  flowWindow := 8192
  crypto := some crypto

def secretReply : HandshakeCif :=
  { plainCif .conclusion ⟨2⟩ [.hsRsp (plainFields 120), .kmRsp Connection.secretRequest] with
    extensionField := hsExtHsreq ||| hsExtKmreq
    peerIp := HandshakeCif.encodePeerIp ⟨[10, 0, 0, 2], 5000⟩ }

def secretSetup : Setup where
  callerOpts := Connection.secretOptions
  listenerOpts := Connection.secretOptions
  caller := secretNegotiated ⟨[10, 0, 0, 1], 4200⟩ ⟨1⟩ ⟨2⟩ secretInitiator
  listener := secretNegotiated ⟨[10, 0, 0, 2], 5000⟩ ⟨2⟩ ⟨1⟩ secretResponder
  callerTimebase := ⟨0⟩
  listenerTimebase := ⟨0⟩
  connectedAt := 0
  callerNow := 3000
  listenerNow := 2000
  hsReply := secretReply
  hsTs := ⟨2⟩

/-- The answer of the listener to the INDUCTION request. -/
def secretCookie : HandshakeCif :=
  { plainCif .induction ⟨1⟩ [] with extensionField := srtMagic }

def secretConcluding : CallerHandshake :=
  (secretSetup.requesting.handleHandshake .sample 1000 secretCookie Connection.sampleDraw).1

def secretReplyPacket : ControlPacket where
  timestamp := ⟨2⟩
  dstSocketId := ⟨1⟩
  controlType := .handshake secretReply

theorem secretSetup_handshaken : secretSetup.Handshaken .sample := by
  have sized (engine : Crypto) (present : secretConcluding.crypto = some engine) :
      Connection.sampleDraw.key.bytes.length = engine.cfg.keyLen.bytes := by
    have drawn : secretConcluding.crypto.map (fun engine => engine.cfg.keyLen) = some .aes128 := by
      decide +kernel
    rw [present] at drawn
    have length : engine.cfg.keyLen = .aes128 := Option.some.inj drawn
    rw [length]
    rfl
  have sent : secretConcluding.request = some (secretConcluding.conclusionCif 7) := by
    decide +kernel
  have accepts : secretListener.handleHandshake .sample 2000 ⟨[10, 0, 0, 2], 5000⟩
      (secretConcluding.conclusionCif 7) ⟨2⟩ =
        .accept (.control secretReplyPacket) secretSetup.listener := by
    decide +kernel
  have done : (secretConcluding.handleHandshake .sample 3000 secretReply Connection.sampleDraw).2 =
      .ok (some secretSetup.caller) := by
    decide +kernel
  exact .intro secretConcluding secretListener rfl sized sent rfl accepts rfl done

def secretDialogue : Dialogue where
  caller :=
    { session := { conn := secretSetup.callerConn .sample }
      cipher := .opened secretInitiator (secretResponder.kmreq.getD []) }
  listener :=
    { session := { conn := secretSetup.listenerConn }
      cipher := .opened secretResponder (secretResponder.kmreq.getD []) }
  sek := secretInitiator.activeKey.key

theorem secretDialogue_opening : Opening .sample secretDialogue :=
  @Opening.intro .sample _ secretSetup_handshaken secretConfig secretConfig (by decide +kernel)
    (by decide +kernel) rfl _ _ rfl rfl

/-- Each side sends one payload. -/
def secretPushes : List (Side × Connection.Input) :=
  [(.caller, .send 4000 [1, 2, 3]), (.listener, .send 5000 [4, 5, 6])]

/-- Both directions start with one key, one salt and one sequence, so the first packets of
the two directions are encrypted with one keystream. -/
theorem keystream_shared_directions :
    let paced := (machine .sample).restrict (Paced .sample 8192)
    let d := paced.exec secretDialogue secretPushes
    paced.start secretDialogue ∧ paced.Allowed secretDialogue secretPushes ∧
      Exists fun stream =>
        d.caller.session.log.submitted.map (fun sub => (sub.payload, sub.keystream)) =
          [([1, 2, 3], some stream)] ∧
        d.listener.session.log.submitted.map (fun sub => (sub.payload, sub.keystream)) =
          [([4, 5, 6], some stream)] := by
  refine ⟨secretDialogue_opening, by decide +kernel,
    (Connection.sampleDraw.key, counterBlock Connection.sampleDraw.salt 0), ?_, ?_⟩
  · decide +kernel
  · decide +kernel

theorem keystream_shared_iff_directions :
    let d := ((machine .sample).restrict (Paced .sample 8192)).exec secretDialogue secretPushes
    Exists fun sub => Exists fun other =>
      d.caller.session.log.submitted[0]? = some sub ∧
        d.listener.session.log.submitted[0]? = some other ∧
        Exists fun stream => sub.keystream = some stream ∧ other.keystream = some stream := by
  have run := Machine.run_exec (M := (machine .sample).restrict (Paced .sample 8192))
    secretDialogue_opening
    (by decide +kernel :
      ((machine .sample).restrict (Paced .sample 8192)).Allowed secretDialogue secretPushes)
  refine ⟨_, _, rfl, rfl, ?_⟩
  have space (side : Side) : ((((machine .sample).restrict (Paced .sample 8192)).exec secretDialogue
      secretPushes).speaker side).cipher.engine.cfg.kmRefreshRate + 2 * 8192 < 2 ^ 31 := by
    cases side <;> decide +kernel
  apply (@keystream_shared_iff .sample 8192 _ Primitives.sample_ideal _ run space .caller
    .listener 0 0 _ _ rfl rfl).mpr
  exact ⟨rfl, Or.inr ⟨by decide +kernel, by decide +kernel⟩⟩

end Dialogue

end Rsrt

import Rsrt.Core.SenderInvariant
import Rsrt.Crypto.Hitless
import Rsrt.Crypto.Lifetime

namespace Rsrt

open Rsrt.Basis

/-!
# A sender with its encryption engine

Submissions are encrypted when the sender takes them, each one under the sequence
that it will have on the wire.  The pair of a sender and an engine runs through any
operations of the two halves, except that packets are encrypted by submissions alone.

The engine of such a run goes through a run of its own, so what is known about the
lifetime of keys applies.  Since a key is in use for one stretch of submissions that
is shorter than the sequence space, no key meets a sequence twice.
-/

structure KeyedSender where
  queue : Sender.Session
  cipher : Crypto.Session

namespace KeyedSender

inductive Call
  | push (now : Instant) (payload : Bytes)
  | sender (call : Sender.Call)
  | engine (call : Crypto.Call)

variable (P : Primitives)

/-- The encryption that a submission adds to the log: none for an empty payload. -/
def sealed (s : KeyedSender) (payload : Bytes) (next : Sender) :
    List (SecretKey × SeqNumber) :=
  if payload.isEmpty then []
  else
    [(s.cipher.engine.activeKey.key, next.seqAt (next.baseIndex + next.buffer.length - 1))]

def step (s : KeyedSender) : Call -> KeyedSender
  | .push now payload =>
      match s.queue.sender.push P now payload (some s.cipher.engine) with
      | .error _ => s
      | .ok (sender, engine) =>
          { queue := { s.queue with sender }
            cipher :=
              { s.cipher with
                engine := engine.getD s.cipher.engine
                used := s.cipher.used ++ s.sealed payload sender
                pending := s.cipher.pending + (s.sealed payload sender).length } }
  | .sender call => { s with queue := s.queue.step P call }
  | .engine call => { s with cipher := s.cipher.step P call }

/-- Only submissions encrypt, and their payloads are not empty. -/
def Permits (s : KeyedSender) : Call -> Prop
  | .push _ payload => payload ≠ []
  | .sender (.push ..) => False
  | .sender _ => True
  | .engine (.encrypt ..) => False
  | .engine call => s.cipher.Permits call

instance (s : KeyedSender) : (call : Call) -> Decidable (s.Permits call)
  | .push _ payload => inferInstanceAs (Decidable (payload ≠ []))
  | .sender (.push ..) | .engine (.encrypt ..) => .isFalse id
  | .engine (.onAck ..) => inferInstanceAs (Decidable (_ ∧ _))
  | .sender (.handleAck ..) | .sender (.handleNak ..) | .sender (.onTimer _) |
    .sender (.pollTransmit _) | .sender .pollControl | .engine (.decrypt ..) |
    .engine (.handleKmreq _) | .engine (.handleKmrsp _) => .isTrue trivial

def machine : Machine KeyedSender Call where
  start := fun s => (Sender.machine P).start s.queue ∧ Crypto.Opening P s.cipher
  guard := Permits
  next := step P

/-- The engine is not unsecured, and at most `limit` packets are encrypted between two
acknowledgements. -/
def Paced (limit : Nat) (s : KeyedSender) (call : Call) : Prop :=
  s.cipher.engine.sndState ≠ .unsecured ∧ (s.step P call).cipher.pending ≤ limit

instance (s : KeyedSender) (call : Call) : Decidable ((machine P).guard s call) :=
  inferInstanceAs (Decidable (s.Permits call))

instance (limit : Nat) (s : KeyedSender) (call : Call) : Decidable (Paced P limit s call) :=
  inferInstanceAs (Decidable (_ ∧ _))

/-! ## Submissions -/

variable {P} {s : KeyedSender}

/-- An accepted submission is one encryption of the engine, under the sequence of the first
index that the sender has not given out yet. -/
theorem push_encrypts {now : Instant} {payload : Bytes} (content : payload ≠ [])
    {w : SendWindow BufEntry} (tracked : s.queue.Tracked w) {result : Sender × Option Crypto}
    (pushed : s.queue.sender.push P now payload (some s.cipher.engine) = .ok result) :
    (s.step P (.push now payload)).cipher =
      s.cipher.step P (.encrypt (s.queue.sender.seqAt w.stream.length) payload) := by
  rcases result with ⟨sender, engine⟩
  rcases Sender.push_ok pushed with ⟨_, flags, wirePayload, rfl, sealing⟩
  rcases tracked.tracks.makeRoom now payload.length with ⟨room, advanced, _, tracks⟩
  have config := (Sender.makeRoom_numbering s.queue.sender now payload.length).1
  have filled : payload.isEmpty = false := List.isEmpty_eq_false_iff.mpr content
  have index : (s.queue.sender.makeRoom now payload.length).baseIndex +
      (s.queue.sender.makeRoom now payload.length).buffer.length = w.stream.length := by
    rw [tracks.base, tracks.length, advanced.stream]
  have sequence : forall index, (s.queue.sender.makeRoom now payload.length).seqAt index =
      s.queue.sender.seqAt index := by
    intro index
    unfold Sender.seqAt
    rw [config]
  have last : ((s.queue.sender.makeRoom now payload.length).append now flags wirePayload).seqAt
      (((s.queue.sender.makeRoom now payload.length).append now flags wirePayload).baseIndex +
        ((s.queue.sender.makeRoom now payload.length).append now flags wirePayload).buffer.length
          - 1) = s.queue.sender.seqAt w.stream.length := by
    rw [← sequence, ← index]
    unfold Sender.append
    simp only [List.length_append, List.length_singleton]
    rfl
  rw [index, sequence] at sealing
  unfold Sender.sealPayload at sealing
  simp only [filled, Bool.false_eq_true, if_false] at sealing
  cases sealing
  unfold step sealed
  simp only [pushed, filled, Bool.false_eq_true, if_false, last]
  rfl

/-! ## Runs -/

/-- The log has one entry for every submission, under the sequence of its index. -/
structure Logged (s : KeyedSender) (w : SendWindow BufEntry) : Prop where
  tracked : s.queue.Tracked w
  bounded : Sender.Bounded w s.queue.sender.cfg
  length : w.stream.length = s.cipher.used.length
  sequences : forall n entry, s.cipher.used[n]? = some entry ->
    entry.2 = s.queue.sender.seqAt n

theorem seqAt_step (queue : Sender.Session) (call : Sender.Call) (index : Nat) :
    (queue.step P call).sender.seqAt index = queue.sender.seqAt index := by
  unfold Sender.seqAt
  rw [Sender.step_cfg]

/-- Operations of the sender that submit nothing. -/
theorem Logged.sender {w : SendWindow BufEntry} (logged : s.Logged w) {call : Sender.Call}
    (silent : s.queue.sender.accepts P call = false) :
    Exists fun w' => (s.step P (.sender call)).Logged w' := by
  rcases logged.tracked.step_bounded (P := P) logged.bounded call with ⟨w', tracked, bounded, length⟩
  rw [silent] at length
  refine ⟨w', tracked, ?_, ?_, ?_⟩
  · change Sender.Bounded w' (s.queue.step P call).sender.cfg
    rw [Sender.step_cfg]
    exact bounded
  · exact length.trans logged.length
  · intro n entry found
    change entry.2 = (s.queue.step P call).sender.seqAt n
    rw [seqAt_step]
    exact logged.sequences n entry found

theorem Logged.engine {w : SendWindow BufEntry} (logged : s.Logged w) {call : Crypto.Call}
    (unused : (s.cipher.step P call).used = s.cipher.used) :
    (s.step P (.engine call)).Logged w := by
  refine ⟨logged.tracked, logged.bounded, ?_, ?_⟩
  · change w.stream.length = (s.cipher.step P call).used.length
    rw [unused]
    exact logged.length
  · change forall n entry, (s.cipher.step P call).used[n]? = some entry -> _
    rw [unused]
    exact logged.sequences

theorem Logged.push {w : SendWindow BufEntry} (logged : s.Logged w) {now : Instant}
    {payload : Bytes} (content : payload ≠ []) {result : Sender × Option Crypto}
    (pushed : s.queue.sender.push P now payload (some s.cipher.engine) = .ok result) :
    Exists fun w' => (s.step P (.push now payload)).Logged w' := by
  have cipher := push_encrypts content logged.tracked pushed
  have queue : (s.step P (.push now payload)).queue =
      s.queue.step P (.push now payload (some s.cipher.engine)) := by
    unfold step Sender.Session.step Sender.submit
    simp only [pushed]
  have accepts : s.queue.sender.accepts P (.push now payload (some s.cipher.engine)) = true := by
    unfold Sender.accepts
    simp only [pushed]
    rfl
  rcases logged.tracked.step_bounded (P := P) logged.bounded
    (.push now payload (some s.cipher.engine)) with ⟨w', tracked, bounded, length⟩
  rw [accepts, if_pos rfl] at length
  refine ⟨w', ?_, ?_, ?_, ?_⟩
  · rw [queue]
    exact tracked
  · rw [queue, Sender.step_cfg]
    exact bounded
  · rw [cipher, length, logged.length]
    change _ = (s.cipher.used ++ [_]).length
    rw [List.length_append]
    rfl
  · intro n entry found
    rw [queue, seqAt_step]
    rw [cipher] at found
    change (s.cipher.used ++ [_])[n]? = some entry at found
    by_cases old : n < s.cipher.used.length
    · rw [List.getElem?_append_left old] at found
      exact logged.sequences n entry found
    · rw [List.getElem?_append_right (not_lt.mp old), List.getElem?_singleton] at found
      split_ifs at found with last
      cases found
      have same : n = w.stream.length := by
        rw [logged.length]
        omega
      rw [same]

/-- A paced run keeps the log, and its engine goes through a paced run of its own. -/
theorem run_logged {limit : Nat} {history : List (KeyedSender × Call)}
    (run : ((machine P).restrict (Paced P limit)).Run history s) :
    (Exists fun w => s.Logged w) ∧ Exists fun calls =>
      ((Crypto.machine P (Crypto.Opening P)).restrict (Crypto.Session.Paced P limit)).Run calls
        s.cipher := by
  apply run.induct fun _ s => (Exists fun w => s.Logged w) ∧ Exists fun calls =>
    ((Crypto.machine P (Crypto.Opening P)).restrict (Crypto.Session.Paced P limit)).Run calls
      s.cipher
  · rintro s ⟨⟨cfg, fresh⟩, opening⟩
    have unused := opening.unused
    have queue : s.queue = { sender := Sender.new cfg } := fresh
    refine ⟨⟨SendWindow.start, ?_, ?_, ?_, ?_⟩, [], .start opening⟩
    · rw [queue]
      refine ⟨Sender.tracks_new cfg, ?_, ?_⟩
      · intro i _ below
        exact absurd below (Nat.not_lt_zero i)
      · intro i member
        cases member
    · rw [queue]
      exact ⟨Nat.zero_le _, Nat.zero_le _⟩
    · rw [unused]
      rfl
    · intro n entry found
      rw [unused] at found
      cases found
  · rintro history s call _ ⟨⟨w, logged⟩, calls, before⟩ ⟨permits, paced⟩
    cases call with
    | push now payload =>
        cases pushed : s.queue.sender.push P now payload (some s.cipher.engine) with
        | error err =>
            have same : s.step P (.push now payload) = s := by
              unfold step
              simp only [pushed]
            change (Exists fun w => (s.step P (.push now payload)).Logged w) ∧
              Exists fun calls => Machine.Run _ calls (s.step P (.push now payload)).cipher
            rw [same]
            exact ⟨⟨w, logged⟩, calls, before⟩
        | ok result =>
            have cipher := push_encrypts permits logged.tracked pushed
            refine ⟨logged.push permits pushed, ?_⟩
            change Exists fun calls => Machine.Run _ calls (s.step P (.push now payload)).cipher
            rw [cipher]
            have allowed : ((Crypto.machine P (Crypto.Opening P)).restrict
                (Crypto.Session.Paced P limit)).guard s.cipher
                  (.encrypt (s.queue.sender.seqAt w.stream.length) payload) :=
              ⟨trivial, paced.1, cipher ▸ paced.2⟩
            exact ⟨_, before.step allowed⟩
    | sender call =>
        have silent : s.queue.sender.accepts P call = false := by
          cases call with
          | push now payload crypto => exact absurd permits id
          | handleAck now ackNumber cif => rfl
          | handleNak now ranges => rfl
          | onTimer now => rfl
          | pollTransmit now => rfl
          | pollControl => rfl
        exact ⟨logged.sender silent, calls, before⟩
    | engine call =>
        have allowed : s.cipher.Permits call ∧ (s.cipher.step P call).used = s.cipher.used := by
          cases call with
          | encrypt seq payload => exact absurd permits id
          | decrypt seq kk payload => exact ⟨permits, rfl⟩
          | onAck now srttUs fresh => exact ⟨permits, rfl⟩
          | handleKmreq payload => exact ⟨permits, rfl⟩
          | handleKmrsp payload => exact ⟨permits, rfl⟩
        exact ⟨⟨w, logged.engine allowed.2⟩, _, before.step ⟨allowed.1, paced⟩⟩

/-- No key meets a sequence twice. -/
theorem Logged.nodup {limit : Nat} {w : SendWindow BufEntry} (logged : s.Logged w)
    (ordered : s.cipher.Ordered) (worn : s.cipher.Worn limit)
    (space : s.cipher.engine.cfg.kmRefreshRate + 2 * limit < 2 ^ 31) : s.cipher.used.Nodup := by
  rw [List.nodup_iff_getElem?_ne_getElem?]
  intro first last before inside same
  rcases found : s.cipher.used[last]? with _ | entry
  · rw [List.getElem?_eq_none_iff] at found
    omega
  · rw [found] at same
    -- The stretch of the key ends before its sequence comes round again.
    have stretch := Crypto.le_count_of_stretch (ordered.stretch same found rfl)
    have bound := worn.count_le entry.1
    have equal : s.queue.sender.seqAt first = s.queue.sender.seqAt last :=
      (logged.sequences first entry same).symm.trans (logged.sequences last entry found)
    rw [Sender.seqAt_eq, Sender.seqAt_eq] at equal
    rcases SeqNumber.wire_turns _ equal with ⟨turns, apart⟩
    omega

/-- Rates that the options accept, and at most `limit` encryptions between two
acknowledgements: no key encrypts more packets than the refresh rate and two such gaps, in any
run of an engine; and in any run of a sender with its engine no two submissions are encrypted
under one key and one sequence. -/
theorem sek_lifetime_bounded (P : Primitives) (limit : Nat) :
    (forall history s,
      ((Crypto.machine P (Crypto.Opening P)).restrict (Crypto.Session.Paced P limit)).Run
        history s -> s.engine.cfg.kmRefreshRate + 2 * limit < 2 ^ 31 ->
      forall key, (s.used.map Prod.fst).count key ≤ s.engine.cfg.kmRefreshRate + 2 * limit) ∧
    (forall history s, ((machine P).restrict (Paced P limit)).Run history s ->
      s.cipher.engine.cfg.kmRefreshRate + 2 * limit < 2 ^ 31 -> s.cipher.used.Nodup) := by
  constructor
  · intro history s run space key
    exact (Crypto.run_worn run space).2.2.count_le key
  · intro history s run space
    rcases run_logged run with ⟨⟨w, logged⟩, calls, ciphered⟩
    rcases Crypto.run_worn ciphered space with ⟨_, ordered, worn⟩
    exact logged.nodup ordered worn space

/-- A key refresh after every packet, with up to two submissions between acknowledgements. -/
def hastySender : KeyedSender where
  queue := { sender := .new (Sender.liveConfig (2 ^ 31 - 2)) }
  cipher := Crypto.hastySession

def hastyPushes : List Call :=
  [.push 0 [1], .push 10 [2], .engine (.onAck 20 0 (Crypto.sampleKey 2)), .push 30 [3],
    .push 40 [4], .engine (.onAck 50 0 (Crypto.sampleKey 3)), .push 60 [5],
    .sender (.pollTransmit 70)]

def hastyEncryptions : List Crypto.Call :=
  [.encrypt (SeqNumber.new 5) [1, 2], .encrypt (SeqNumber.new 6) [3],
    .onAck 0 0 (Crypto.sampleKey 2), .encrypt (SeqNumber.new 7) [4]]

theorem sek_lifetime_bounded_hasty :
    let pushed := ((machine .sample).restrict (Paced .sample 2)).exec hastySender hastyPushes
    let used := (Crypto.machine .sample (Crypto.Opening .sample)).exec Crypto.hastySession
      hastyEncryptions
    pushed.cipher.used.length = 5 ∧ pushed.cipher.used.Nodup ∧
      (used.used.map Prod.fst).count (Crypto.sampleKey 1) = 3 ∧
      forall key, (used.used.map Prod.fst).count key ≤ used.engine.cfg.kmRefreshRate + 2 * 2 := by
  have opening : Crypto.Opening .sample Crypto.hastySession :=
    .initiator Crypto.hastyOptions_resolved Crypto.sampleSalt rfl
  have started : ((machine .sample).restrict (Paced .sample 2)).start hastySender :=
    ⟨⟨_, rfl⟩, opening⟩
  have pushing := Machine.run_exec started (by decide +kernel :
    ((machine .sample).restrict (Paced .sample 2)).Allowed hastySender hastyPushes)
  have encrypting := Machine.run_exec (M := (Crypto.machine .sample (Crypto.Opening .sample)).restrict
    (Crypto.Session.Paced .sample 2)) opening (by decide +kernel :
      ((Crypto.machine .sample (Crypto.Opening .sample)).restrict
        (Crypto.Session.Paced .sample 2)).Allowed Crypto.hastySession hastyEncryptions)
  exact ⟨by decide +kernel, (sek_lifetime_bounded .sample 2).2 _ _ pushing (by decide +kernel),
    by decide +kernel,
    (sek_lifetime_bounded .sample 2).1 _ _ encrypting (by decide +kernel)⟩

end KeyedSender

end Rsrt

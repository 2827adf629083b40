import Rsrt.Basis.Machine
import Rsrt.Core.SenderWindow

namespace Rsrt
namespace Sender

open Rsrt.Basis

/-!
# Whole runs of a sender

A session is a sender together with the log of the indices that it has put on
the wire.  The calls are the sender's public operations, taken in any order and
with any contents: acknowledgements and loss reports may be forged.
-/

/-- The sender's public operations. -/
inductive Call
  | push (now : Instant) (payload : Bytes) (crypto : Option Crypto)
  | handleAck (now : Instant) (ackNumber : Nat) (cif : AckCif)
  | handleNak (now : Instant) (ranges : List LossRange)
  | onTimer (now : Instant)
  | pollTransmit (now : Instant)
  | pollControl

structure Session where
  sender : Sender
  /-- Indices transmitted, oldest first. -/
  sent : List Nat := []

variable (P : Primitives)

/-- The sender after a submission, accepted or not. -/
def submit (s : Sender) (now : Instant) (payload : Bytes) (crypto : Option Crypto) : Sender :=
  match s.push P now payload crypto with
  | .ok (next, _) => next
  | .error _ => s

def Session.step (s : Session) : Call -> Session
  | .push now payload crypto => { s with sender := s.sender.submit P now payload crypto }
  | .handleAck now ackNumber cif =>
      { s with sender := (s.sender.handleAck now ackNumber cif).1 }
  | .handleNak now ranges => { s with sender := s.sender.handleNak now ranges }
  | .onTimer now => { s with sender := s.sender.onTimer now }
  | .pollTransmit now =>
      let result := s.sender.pollTransmitAt now
      { sender := result.1, sent := s.sent ++ (result.2.map Prod.fst).toList }
  | .pollControl => { s with sender := s.sender.pollControl.1 }

/-- All runs of a sender. -/
def machine : Machine Session Call where
  start := fun s => Exists fun cfg => s = { sender := Sender.new cfg }
  guard := fun _ _ => True
  next := Session.step P

theorem start_new (cfg : SenderConfig) : (machine P).start { sender := Sender.new cfg } :=
  ⟨cfg, rfl⟩

def Call.instant : Call -> Option Instant
  | .push now _ _ => some now
  | .handleAck now _ _ => some now
  | .handleNak now _ => some now
  | .onTimer now => some now
  | .pollTransmit now => some now
  | .pollControl => none

/-- The runs in which time does not go back. -/
def timedMachine : Machine (Session × Instant) Call :=
  (machine P).timed (fun _ => 0) Call.instant

instance (s : Session × Instant) (c : Call) : Decidable ((timedMachine P).guard s c) :=
  inferInstanceAs (Decidable (True ∧ forall instant, instant ∈ c.instant -> s.2 ≤ instant))

theorem timedMachine_start (cfg : SenderConfig) :
    (timedMachine P).start ({ sender := Sender.new cfg }, 0) :=
  ⟨start_new P cfg, rfl⟩

/-- The session stands for the window, and the log holds exactly what the window
counts as sent, apart from what has left the window. -/
structure Session.Tracked (s : Session) (w : SendWindow BufEntry) : Prop where
  tracks : Tracks w s.sender
  logged : forall i, w.base ≤ i -> i < w.next -> i ∈ s.sent
  bounded : forall i, i ∈ s.sent -> i < w.next

section Stepping

variable {P} {s : Session} {w : SendWindow BufEntry}

/-- An accepted submission makes room and appends one entry. -/
theorem push_ok {s next : Sender} {now : Instant} {payload : Bytes}
    {crypto crypto' : Option Crypto} (ok : s.push P now payload crypto = .ok (next, crypto')) :
    payload.length ≤ s.cfg.maxPayload ∧ Exists fun flags => Exists fun wirePayload =>
      next = (s.makeRoom now payload.length).append now flags wirePayload ∧
        sealPayload P crypto
          ((s.makeRoom now payload.length).seqAt ((s.makeRoom now payload.length).baseIndex +
            (s.makeRoom now payload.length).buffer.length)) payload =
          (crypto', flags, wirePayload) := by
  unfold push at ok
  split_ifs at ok with large
  cases ok
  exact ⟨not_lt.mp large, _, _, rfl, rfl⟩

/-- Positions that leave from the front keep the log exact. -/
theorem Session.Tracked.of_advanced (tracked : s.Tracked w) {w' : SendWindow BufEntry}
    {next : Sender} (advanced : SendWindow.Advanced w w') (tracks : Tracks w' next) :
    Session.Tracked { s with sender := next } w' where
  tracks := tracks
  logged := by
    intro i above below
    rw [advanced.next] at below
    have lower := advanced.base_le
    exact tracked.logged i (by omega) (by omega)
  bounded := by
    intro i member
    exact Nat.lt_of_lt_of_le (tracked.bounded i member) advanced.later.next_le

theorem Session.Tracked.of_rewanted (tracked : s.Tracked w) {w' : SendWindow BufEntry}
    {next : Sender} (rewanted : SendWindow.Rewanted w w') (tracks : Tracks w' next) :
    Session.Tracked { s with sender := next } w' where
  tracks := tracks
  logged := by
    intro i above below
    rw [rewanted.base] at above
    rw [rewanted.next] at below
    exact tracked.logged i above below
  bounded := by
    intro i member
    rw [rewanted.next]
    exact tracked.bounded i member

theorem Session.Tracked.of_emits (tracked : s.Tracked w) {initialSeq : SeqNumber}
    {w' : SendWindow BufEntry} {next : Sender} {emitted : Option (Nat × DataPacket)}
    (tracks : Tracks w' next) (emits : Emits initialSeq w w' emitted) :
    Session.Tracked
      { sender := next, sent := s.sent ++ (emitted.map Prod.fst).toList } w' := by
  refine ⟨tracks, ?_, ?_⟩
  · intro i above below
    apply List.mem_append.mpr
    cases emits with
    | nothing rewanted =>
        rw [rewanted.base] at above
        rw [rewanted.next] at below
        exact Or.inl (tracked.logged i above below)
    | again index entry rewanted =>
        rw [rewanted.base] at above
        rw [rewanted.next] at below
        exact Or.inl (tracked.logged i above below)
    | first entry stream base next =>
        rw [base] at above
        rcases Nat.lt_or_eq_of_le (Nat.le_of_lt_succ (next ▸ below)) with old | new
        · exact Or.inl (tracked.logged i above old)
        · exact Or.inr (List.mem_singleton.mpr new)
  · intro i member
    rcases List.mem_append.mp member with old | new
    · exact Nat.lt_of_lt_of_le (tracked.bounded i old) emits.later.next_le
    · cases emits with
      | nothing => cases new
      | again index entry rewanted inFlight =>
          rw [rewanted.next, List.mem_singleton.mp new]
          exact inFlight.2
      | first entry stream base next =>
          rw [next, List.mem_singleton.mp new]
          exact Nat.lt_succ_self _

/-- What a call does to the window. -/
inductive Moves (P : Primitives) (s : Session) (w : SendWindow BufEntry) :
    Call -> SendWindow BufEntry -> Prop
  | refuses {now : Instant} {payload : Bytes} {crypto : Option Crypto} {err : SrtError}
      (refused : s.sender.push P now payload crypto = .error err) :
      Moves P s w (.push now payload crypto) w
  | submits {now : Instant} {payload : Bytes} {crypto crypto' : Option Crypto}
      {flags : EncryptionFlags} {wirePayload : Bytes} {room : SendWindow BufEntry}
      (pushed : s.sender.push P now payload crypto =
        .ok ((s.sender.makeRoom now payload.length).append now flags wirePayload, crypto'))
      (advanced : SendWindow.Advanced w room)
      (late : w.base + s.sender.tlpktdropCount now ≤ room.base)
      (tracks : Tracks room (s.sender.makeRoom now payload.length)) :
      Moves P s w (.push now payload crypto)
        (room.submit ((s.sender.makeRoom now payload.length).submitted now flags wirePayload))
  | acknowledges {now : Instant} {ackNumber : Nat} {cif : AckCif} {w' : SendWindow BufEntry}
      (advanced : SendWindow.Advanced w w') : Moves P s w (.handleAck now ackNumber cif) w'
  | requests {now : Instant} {ranges : List LossRange} {w' : SendWindow BufEntry}
      (rewanted : SendWindow.Rewanted w w') : Moves P s w (.handleNak now ranges) w'
  | expires {now : Instant} {w' : SendWindow BufEntry} (advanced : SendWindow.Advanced w w')
      (late : w'.base = w.base + s.sender.tlpktdropCount now) : Moves P s w (.onTimer now) w'
  | transmits {now : Instant} {w' : SendWindow BufEntry}
      (emits : Emits s.sender.cfg.initialSeq w w' (s.sender.pollTransmitAt now).2) :
      Moves P s w (.pollTransmit now) w'
  | reports : Moves P s w .pollControl w

theorem Session.Tracked.moves (tracked : s.Tracked w) (c : Call) :
    Exists fun w' => (s.step P c).Tracked w' ∧ Moves P s w c w' := by
  cases c with
  | push now payload crypto =>
      unfold Session.step Sender.submit
      dsimp only
      cases pushed : s.sender.push P now payload crypto with
      | error err => exact ⟨w, tracked, .refuses pushed⟩
      | ok result =>
          rcases result with ⟨next, crypto'⟩
          rcases push_ok pushed with ⟨_, flags, wirePayload, rfl, _⟩
          rcases tracked.tracks.makeRoom now payload.length with ⟨room, advanced, late, tracks⟩
          have moved := tracked.of_advanced advanced tracks
          exact ⟨_, ⟨tracks.append now flags wirePayload, moved.logged, moved.bounded⟩,
            .submits pushed advanced late tracks⟩
  | handleAck now ackNumber cif =>
      rcases tracked.tracks.acknowledge now ackNumber cif with ⟨w', advanced, tracks⟩
      exact ⟨w', tracked.of_advanced advanced tracks, .acknowledges advanced⟩
  | handleNak now ranges =>
      rcases tracked.tracks.handleNak now ranges with ⟨w', rewanted, tracks⟩
      exact ⟨w', tracked.of_rewanted rewanted tracks, .requests rewanted⟩
  | onTimer now =>
      rcases tracked.tracks.onTimer now with ⟨w', advanced, late, tracks⟩
      exact ⟨w', tracked.of_advanced advanced tracks, .expires advanced late⟩
  | pollTransmit now =>
      rcases tracked.tracks.pollTransmitAt now with ⟨w', tracks, emits⟩
      exact ⟨w', tracked.of_emits tracks emits, .transmits emits⟩
  | pollControl =>
      exact ⟨w, tracked.of_rewanted (.refl w) (tracked.tracks.of_core_eq rfl), .reports⟩

theorem Session.Tracked.step (tracked : s.Tracked w) (c : Call) :
    Exists fun w' => (s.step P c).Tracked w' := by
  rcases tracked.moves c with ⟨w', after, _⟩
  exact ⟨w', after⟩

end Stepping

theorem reachable_tracked {P : Primitives} {s : Session} (reachable : (machine P).Reachable s) :
    Exists fun w => s.Tracked w := by
  refine reachable.invariant (fun s => Exists fun w => s.Tracked w) ?_ ?_
  · rintro s ⟨cfg, rfl⟩
    refine ⟨SendWindow.start, tracks_new cfg, ?_, ?_⟩
    · intro i _ below
      exact absurd below (Nat.not_lt_zero i)
    · intro i member
      cases member
  · rintro s c ⟨w, tracked⟩ _
    exact tracked.step c

end Sender
end Rsrt

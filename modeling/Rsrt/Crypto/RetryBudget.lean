import Rsrt.Basis.Resend
import Rsrt.Crypto.Installing

namespace Rsrt

open Rsrt.Basis

/-!
# The retry budget of the key exchange

An engine repeats its outstanding KM message on acknowledgements until it is answered.  Over a
run of the engine, with any calls in any order, the outstanding message is a slot of the
resending library: a refresh posts a message, a due acknowledgement sends it again, the echo
confirms it and a status word cancels it.

A run carries the messages that have been outstanding so far, and a refresh may not yield one
of them: this is the assumption that different refreshes yield different messages.
-/

namespace Crypto

variable (P : Primitives)

/-- The engine after a call. -/
def after (c : Crypto) : Call -> Crypto
  | .encrypt seq payload => (c.encrypt P seq payload).1
  | .decrypt seq kk payload => (c.decrypt P seq kk payload).1
  | .onAck now srttUs fresh => (c.onAck P now srttUs fresh).1
  | .handleKmreq payload => (c.handleKmreq P payload).1
  | .handleKmrsp payload => (c.handleKmrsp payload).1

/-- The KM message that a call returns. -/
def returned (c : Crypto) : Call -> Option Bytes
  | .onAck now srttUs fresh => (c.onAck P now srttUs fresh).2
  | _ => none

/-- The KM message of a refresh that the call makes. -/
def refreshed (c : Crypto) (call : Call) : Option Bytes :=
  if c.announcing then c.returned P call else none

/-- What a call does to the outstanding message. -/
def slotMove (c : Crypto) : Call -> Resending.Move Bytes Instant
  | .onAck now srttUs fresh =>
      match (c.onAck P now srttUs fresh).2 with
      | none => .rest
      | some blob =>
          if c.announcing then .post blob now
          else .resend now fun last => last + Duration.fromMicros (srttUs * 3 / 2)
  | .handleKmrsp payload =>
      match KmResponse.parse payload with
      | .error _ => .rest
      | .ok (.status _) => .cancel
      | .ok (.echo echo) =>
          if c.outstanding.map OutstandingKmReq.blob = some echo then .confirm else .rest
  | _ => .rest

def toSlot (out : OutstandingKmReq) : Basis.Slot Bytes Instant where
  msg := out.blob
  left := out.retries
  last := out.lastSend

variable {P}

/-! ## One call -/

/-- An acknowledgement posts the message of a refresh, sends the outstanding message again if
it may and it is due, or returns nothing. -/
theorem onAck_slot (c : Crypto) (now : Instant) (srttUs : Nat) (fresh : SecretKey) :
    (c.announcing ∧ Exists fun blob => (c.onAck P now srttUs fresh).2 = some blob ∧
      (c.onAck P now srttUs fresh).1.outstanding =
        some { blob, retries := kmMaxRetry, lastSend := some now }) ∨
    (¬ c.announcing ∧ Exists fun out => c.outstanding = some out ∧ 0 < out.retries ∧
      (forall last, out.lastSend = some last ->
        last + Duration.fromMicros (srttUs * 3 / 2) ≤ now) ∧
      (c.onAck P now srttUs fresh).2 = some out.blob ∧
      (c.onAck P now srttUs fresh).1.outstanding =
        some { out with retries := out.retries - 1, lastSend := some now }) ∨
    (¬ c.announcing ∧ (c.onAck P now srttUs fresh).2 = none ∧
      (c.onAck P now srttUs fresh).1.outstanding = c.outstanding) := by
  by_cases unsecured : c.sndState = .unsecured
  · have silent : c.onAck P now srttUs fresh = (c, none) := if_pos unsecured
    rw [silent]
    exact Or.inr (Or.inr ⟨fun announces => announces.1 unsecured, rfl, rfl⟩)
  unfold Crypto.onAck
  rw [if_neg unsecured]
  rcases tickRefresh_cases c fresh with ⟨announces, ticked⟩ | ⟨quiet, silent, ticks⟩
  · rw [ticked]
    exact Or.inl ⟨⟨unsecured, announces⟩, _, rfl, rfl⟩
  · have kept := ticks.keeps.outstanding
    rcases evaluated : c.tickRefresh P fresh with ⟨ticked, message⟩
    rw [evaluated] at silent kept
    cases silent
    dsimp only at kept ⊢
    right
    cases pending : ticked.outstanding with
    | none =>
        rw [pending] at kept
        exact Or.inr ⟨fun announces => quiet announces.2, rfl, pending.trans kept⟩
    | some out =>
        rw [pending] at kept
        dsimp only
        split_ifs with exhausted early
        · exact Or.inr ⟨fun announces => quiet announces.2, rfl, pending.trans kept⟩
        · exact Or.inr ⟨fun announces => quiet announces.2, rfl, pending.trans kept⟩
        · refine Or.inl ⟨fun announces => quiet announces.2, out, kept.symm,
            Nat.pos_of_ne_zero exhausted, ?_, rfl, rfl⟩
          intro last sent
          rw [sent] at early
          exact not_lt.mp (fun soon => early (decide_eq_true soon))

theorem decrypt_outstanding (c : Crypto) (seq : SeqNumber) (kk : EncryptionFlags)
    (payload : Bytes) : (c.decrypt P seq kk payload).1.outstanding = c.outstanding := by
  unfold Crypto.decrypt
  split
  · rfl
  · split_ifs
    · rfl
    · rfl
    · split <;> rfl

end Crypto

/-- An engine with the KM messages that have been outstanding, oldest first. -/
structure Keying where
  engine : Crypto
  posted : List Bytes
  known : forall out, engine.outstanding = some out -> out.blob ∈ posted

namespace Keying

open Crypto

variable {P : Primitives}

/-- The outstanding message as a slot. -/
def slots (k : Keying) : Resending Bytes Instant where
  slot := k.engine.outstanding.map toSlot
  posted := k.posted
  known := by
    intro held found
    rcases Option.map_eq_some_iff.mp found with ⟨out, present, rfl⟩
    exact k.known out present

/-- The moves that a response makes. -/
theorem slotMove_kmrsp (c : Crypto) (payload : Bytes) :
    (c.slotMove P (.handleKmrsp payload) = .rest ∧
      (c.handleKmrsp payload).1.outstanding = c.outstanding) ∨
    (c.slotMove P (.handleKmrsp payload) = .cancel ∧
      (c.handleKmrsp payload).1.outstanding =
        c.outstanding.map fun out => { out with retries := 0 }) ∨
    (c.slotMove P (.handleKmrsp payload) = .confirm ∧
      (c.handleKmrsp payload).1.outstanding = none) := by
  unfold slotMove handleKmrsp
  dsimp only
  cases KmResponse.parse payload with
  | error err => exact Or.inl ⟨rfl, rfl⟩
  | ok response =>
      cases response with
      | status state => exact Or.inr (Or.inl ⟨rfl, rfl⟩)
      | echo echo =>
          dsimp only
          split_ifs
          · exact Or.inr (Or.inr ⟨rfl, rfl⟩)
          · exact Or.inl ⟨rfl, rfl⟩

/-- The moves that an acknowledgement makes. -/
theorem slotMove_onAck (c : Crypto) (now : Instant) (srttUs : Nat) (fresh : SecretKey) :
    (c.announcing ∧ Exists fun blob =>
      c.slotMove P (.onAck now srttUs fresh) = .post blob now ∧
      (c.onAck P now srttUs fresh).2 = some blob ∧
      (c.onAck P now srttUs fresh).1.outstanding =
        some { blob, retries := kmMaxRetry, lastSend := some now }) ∨
    (¬ c.announcing ∧ Exists fun out =>
      c.slotMove P (.onAck now srttUs fresh) =
        .resend now (fun last => last + Duration.fromMicros (srttUs * 3 / 2)) ∧
      c.outstanding = some out ∧ 0 < out.retries ∧
      (forall last, out.lastSend = some last ->
        last + Duration.fromMicros (srttUs * 3 / 2) ≤ now) ∧
      (c.onAck P now srttUs fresh).2 = some out.blob ∧
      (c.onAck P now srttUs fresh).1.outstanding =
        some { out with retries := out.retries - 1, lastSend := some now }) ∨
    (¬ c.announcing ∧ c.slotMove P (.onAck now srttUs fresh) = .rest ∧
      (c.onAck P now srttUs fresh).2 = none ∧
      (c.onAck P now srttUs fresh).1.outstanding = c.outstanding) := by
  unfold slotMove
  rcases onAck_slot c now srttUs fresh with ⟨announces, blob, sent, posts⟩ |
    ⟨quiet, out, present, some, due, sent, resends⟩ | ⟨quiet, silent, kept⟩
  · refine Or.inl ⟨announces, blob, ?_, sent, posts⟩
    dsimp only
    rw [sent]
    exact if_pos announces
  · refine Or.inr (Or.inl ⟨quiet, out, ?_, present, some, due, sent, resends⟩)
    dsimp only
    rw [sent]
    exact if_neg quiet
  · refine Or.inr (Or.inr ⟨quiet, ?_, silent, kept⟩)
    dsimp only
    rw [silent]

variable (P) in
theorem slots_slot (k : Keying) (call : Call) :
    (k.slots.next kmMaxRetry (k.engine.slotMove P call)).slot =
      (k.engine.after P call).outstanding.map toSlot := by
  cases call with
  | encrypt seq payload => rfl
  | decrypt seq kk payload => exact congrArg (Option.map toSlot) (decrypt_outstanding _ _ _ _).symm
  | handleKmreq payload =>
      exact congrArg (Option.map toSlot) (handleKmreq_sendingKept k.engine payload).outstanding.symm
  | handleKmrsp payload =>
      change _ = (k.engine.handleKmrsp payload).1.outstanding.map toSlot
      rcases @slotMove_kmrsp P k.engine payload with ⟨move, kept⟩ | ⟨move, kept⟩ | ⟨move, kept⟩
      · rw [move, kept]
        rfl
      · rw [move, kept]
        change (k.engine.outstanding.map toSlot).map _ = _
        rw [Option.map_map, Option.map_map]
        rfl
      · rw [move, kept]
        rfl
  | onAck now srttUs fresh =>
      change _ = (k.engine.onAck P now srttUs fresh).1.outstanding.map toSlot
      rcases @slotMove_onAck P k.engine now srttUs fresh with ⟨_, blob, move, _, kept⟩ |
        ⟨_, out, move, present, _, _, _, kept⟩ | ⟨_, move, _, kept⟩
      · rw [move, kept]
        rfl
      · rw [move, kept]
        change (k.engine.outstanding.map toSlot).map _ = _
        rw [present]
        rfl
      · rw [move, kept]
        rfl

variable (P) in
theorem slots_posted (k : Keying) (call : Call) :
    (k.slots.next kmMaxRetry (k.engine.slotMove P call)).posted =
      k.posted ++ (k.engine.refreshed P call).toList := by
  have calm {move : Resending.Move Bytes Instant}
      (same : (k.slots.next kmMaxRetry move).posted = k.posted)
      (nothing : k.engine.refreshed P call = none) :
      (k.slots.next kmMaxRetry move).posted = k.posted ++ (k.engine.refreshed P call).toList := by
    rw [same, nothing]
    exact (List.append_nil _).symm
  have without (silent : k.engine.returned P call = none) : k.engine.refreshed P call = none := by
    unfold refreshed
    rw [silent, ite_self]
  cases call with
  | encrypt seq payload => exact calm rfl (without rfl)
  | decrypt seq kk payload => exact calm rfl (without rfl)
  | handleKmreq payload => exact calm rfl (without rfl)
  | handleKmrsp payload =>
      rcases @slotMove_kmrsp P k.engine payload with ⟨move, _⟩ | ⟨move, _⟩ | ⟨move, _⟩
      · rw [move]
        exact calm rfl (without rfl)
      · rw [move]
        exact calm rfl (without rfl)
      · rw [move]
        exact calm rfl (without rfl)
  | onAck now srttUs fresh =>
      rcases @slotMove_onAck P k.engine now srttUs fresh with ⟨announces, blob, move, sent, _⟩ |
        ⟨quiet, out, move, _⟩ | ⟨quiet, move, _⟩
      · have posts : k.engine.refreshed P (.onAck now srttUs fresh) = some blob :=
          (if_pos announces).trans sent
        rw [move, posts]
        rfl
      · rw [move]
        exact calm rfl (if_neg quiet)
      · rw [move]
        exact calm rfl (if_neg quiet)

variable (P) in
/-- The engine takes the call; the message of a refresh joins the list. -/
def step (k : Keying) (call : Call) : Keying where
  engine := k.engine.after P call
  posted := k.posted ++ (k.engine.refreshed P call).toList
  known := by
    intro out present
    rw [← k.slots_posted P call]
    apply (k.slots.next kmMaxRetry (k.engine.slotMove P call)).known (toSlot out)
    rw [k.slots_slot P call, present]
    rfl

variable (P) in
/-- Runs of an engine with the given first message, in which every refresh yields a message
that has not been outstanding before. -/
def machine (opened : Crypto) (initial : Bytes) : Machine Keying Call where
  start := fun k => k.engine = opened ∧ k.posted = [initial]
  guard := fun k call => forall blob, k.engine.refreshed P call = some blob -> blob ∉ k.posted
  next := step P

instance (opened : Crypto) (initial : Bytes) (k : Keying) (call : Call) :
    Decidable ((machine P opened initial).guard k call) :=
  inferInstanceAs (Decidable (forall blob, blob ∈ k.engine.refreshed P call -> blob ∉ k.posted))

/-- A new engine with the message of its handshake and the number of copies that it may send
of it: the initiator's retries, and none for the adopted message of a responder. -/
inductive Opens (P : Primitives) : Crypto -> Bytes -> Nat -> Prop
  | initiator (cfg : CryptoConfig) (salt : Salt) (sek : SecretKey) :
      Opens P (newInitiator P cfg salt sek) (handshakeRequest P cfg salt sek).encode 10
  | responder {cfg : CryptoConfig} {kmreq : Bytes} {engine : Crypto}
      (accepted : newResponder P cfg kmreq = .ok engine) : Opens P engine kmreq 0

theorem Opens.outstanding {opened : Crypto} {initial : Bytes} {budget : Nat}
    (opens : Opens P opened initial budget) :
    opened.outstanding = some { blob := initial, retries := budget, lastSend := none } := by
  cases opens with
  | initiator cfg salt sek => rfl
  | responder accepted =>
      unfold Crypto.newResponder at accepted
      split at accepted
      · cases accepted
      · dsimp only at accepted
        split at accepted
        · cases accepted
        · cases accepted
        · cases accepted
          rfl

theorem slots_next (k : Keying) (call : Call) :
    k.slots.next kmMaxRetry (k.engine.slotMove P call) = (k.step P call).slots :=
  Resending.ext (k.slots_slot P call) (k.slots_posted P call)

/-- The slot sends what the call returns. -/
theorem slots_sent (k : Keying) (call : Call) :
    k.slots.sent (k.engine.slotMove P call) = k.engine.returned P call := by
  cases call with
  | encrypt seq payload => rfl
  | decrypt seq kk payload => rfl
  | handleKmreq payload => rfl
  | handleKmrsp payload =>
      rcases @slotMove_kmrsp P k.engine payload with ⟨move, _⟩ | ⟨move, _⟩ | ⟨move, _⟩
      · rw [move]
        rfl
      · rw [move]
        rfl
      · rw [move]
        rfl
  | onAck now srttUs fresh =>
      change _ = (k.engine.onAck P now srttUs fresh).2
      rcases @slotMove_onAck P k.engine now srttUs fresh with ⟨_, blob, move, sent, _⟩ |
        ⟨_, out, move, present, _, _, sent, _⟩ | ⟨_, move, silent, _⟩
      · rw [move, sent]
        rfl
      · rw [move, sent]
        change (k.engine.outstanding.map toSlot).map Basis.Slot.msg = _
        rw [present]
        rfl
      · rw [move, silent]
        rfl

/-- The slot allows what a call does to it, if a refresh yields a new message. -/
theorem slots_allows {k : Keying} {call : Call}
    (fresh : forall blob, k.engine.refreshed P call = some blob -> blob ∉ k.posted) :
    k.slots.Allows (k.engine.slotMove P call) := by
  cases call with
  | encrypt seq payload => trivial
  | decrypt seq kk payload => trivial
  | handleKmreq payload => trivial
  | handleKmrsp payload =>
      rcases @slotMove_kmrsp P k.engine payload with ⟨move, _⟩ | ⟨move, _⟩ | ⟨move, _⟩
      · rw [move]
        trivial
      · rw [move]
        trivial
      · rw [move]
        trivial
  | onAck now srttUs key =>
      rcases @slotMove_onAck P k.engine now srttUs key with ⟨announces, blob, move, sent, _⟩ |
        ⟨_, out, move, present, some, due, _⟩ | ⟨_, move, _⟩
      · rw [move]
        exact fresh blob ((if_pos announces).trans sent)
      · rw [move]
        refine ⟨toSlot out, ?_, some, due⟩
        change k.engine.outstanding.map toSlot = _
        rw [present]
        rfl
      · rw [move]
        trivial

/-- An acknowledgement that returns a message sends it at its own time. -/
theorem slotMove_instant {c : Crypto} {now : Instant} {srttUs : Nat} {fresh : SecretKey}
    {blob : Bytes} (sent : c.returned P (.onAck now srttUs fresh) = some blob) :
    c.slotMove P (.onAck now srttUs fresh) = .post blob now ∨
      c.slotMove P (.onAck now srttUs fresh) =
        .resend now (fun last => last + Duration.fromMicros (srttUs * 3 / 2)) := by
  change (c.onAck P now srttUs fresh).2 = some blob at sent
  unfold slotMove
  dsimp only
  rw [sent]
  dsimp only
  split_ifs
  · exact Or.inl rfl
  · exact Or.inr rfl

/-! ## Whole runs -/

/-- The entry of the slot's run. -/
def slotEntry (P : Primitives) (entry : Keying × Call) :
    Resending Bytes Instant × Resending.Move Bytes Instant :=
  (entry.1.slots, entry.1.engine.slotMove P entry.2)

/-- The slot of a new engine. -/
def openedSlots (initial : Bytes) (budget : Nat) : Resending Bytes Instant where
  slot := some { msg := initial, left := budget, last := none }
  posted := [initial]
  known := by
    intro held found
    cases found
    exact List.mem_singleton_self _

theorem run_slots {opened : Crypto} {initial : Bytes} {budget : Nat}
    (opens : Opens P opened initial budget) {history : List (Keying × Call)} {k : Keying}
    (run : (machine P opened initial).Run history k) :
    (Resending.machine kmMaxRetry (openedSlots initial budget)).Run
      (history.map (slotEntry P)) k.slots := by
  apply run.simulate slots (fun k call => k.engine.slotMove P call)
  · rintro k ⟨engine, posted⟩
    apply Resending.ext
    · change k.engine.outstanding.map toSlot = _
      rw [engine, opens.outstanding]
      rfl
    · exact posted
  · intro k call fresh
    exact ⟨slots_allows fresh, k.slots_next call⟩

/-- The life of the message ends: with its echo, with any status word, or with a newer
refresh. -/
def Ends (P : Primitives) (blob : Bytes) (entry : Keying × Call) : Prop :=
  (Exists fun payload => entry.2 = .handleKmrsp payload ∧
    (KmResponse.parse payload = .ok (.echo blob) ∨
      Exists fun state => KmResponse.parse payload = .ok (.status state))) ∨
  Exists fun newer => entry.1.engine.refreshed P entry.2 = some newer

/-- Nothing remains of a message whose life has ended. -/
theorem Ends.spent {blob : Bytes} {k : Keying} {call : Call} (ends : Ends P blob (k, call))
    (fresh : forall blob, k.engine.refreshed P call = some blob -> blob ∉ k.posted)
    (posted : blob ∈ k.posted) : (k.step P call).slots.remaining kmMaxRetry blob = 0 := by
  apply Resending.remaining_spent
  · exact List.mem_append_left _ posted
  intro held found same
  rcases Option.map_eq_some_iff.mp found with ⟨out, present, rfl⟩
  rcases ends with ⟨payload, rfl, echo | ⟨state, status⟩⟩ | ⟨newer, refreshes⟩
  · change (k.engine.handleKmrsp payload).1.outstanding = some out at present
    unfold handleKmrsp at present
    rw [echo] at present
    dsimp only at present
    split_ifs at present with confirmed
    apply absurd _ confirmed
    change k.engine.outstanding = some out at present
    rw [present]
    exact congrArg some same
  · change (k.engine.handleKmrsp payload).1.outstanding = some out at present
    unfold handleKmrsp at present
    rw [status] at present
    rcases Option.map_eq_some_iff.mp present with ⟨before, _, rfl⟩
    rfl
  · -- The slot holds the message of the refresh, which is a new one.
    have new := fresh newer refreshes
    unfold refreshed at refreshes
    split_ifs at refreshes with announces
    cases call with
    | onAck now srttUs key =>
        change (k.engine.onAck P now srttUs key).2 = some newer at refreshes
        change (k.engine.onAck P now srttUs key).1.outstanding = some out at present
        rcases @onAck_slot P k.engine now srttUs key with ⟨_, blob', sent, posts⟩ | ⟨quiet, _⟩ |
          ⟨quiet, _⟩
        · rw [posts] at present
          cases present
          rw [sent] at refreshes
          cases refreshes
          change newer = blob at same
          subst same
          exact absurd posted new
        · exact absurd announces quiet
        · exact absurd announces quiet
    | encrypt seq payload => cases refreshes
    | decrypt seq kk payload => cases refreshes
    | handleKmreq payload => cases refreshes
    | handleKmrsp payload => cases refreshes

theorem countP_slots (history : List (Keying × Call)) (blob : Bytes) :
    ((history.map (slotEntry P)).countP fun entry => entry.1.sent entry.2 = some blob) =
      history.countP fun entry => entry.1.engine.returned P entry.2 = some blob := by
  rw [List.countP_map]
  congr 1
  funext entry
  change decide (entry.1.slots.sent (entry.1.engine.slotMove P entry.2) = some blob) = _
  rw [slots_sent]

/-- The retry budget.  Over a run with any calls at any times, in which different refreshes
yield different messages: the message of a refresh is returned at most eleven times, the one of
the handshake at most as often as its engine may; two consecutive copies of a message are at
least one and a half times the round trip of the later call apart; and a message is not
returned once its life has ended. -/
theorem retry_budget {opened : Crypto} {initial : Bytes} {budget : Nat}
    (opens : Opens P opened initial budget) {history : List (Keying × Call)} {k : Keying}
    (run : (machine P opened initial).Run history k) :
    (forall blob, blob ≠ initial ->
      (history.countP fun entry => entry.1.engine.returned P entry.2 = some blob) ≤ 11) ∧
    (history.countP fun entry => entry.1.engine.returned P entry.2 = some initial) ≤ budget ∧
    (forall (early middle late : List (Keying × Call)) (first second : Keying) (blob : Bytes)
        (before now : Instant) (srttBefore srttUs : Nat) (freshBefore fresh : SecretKey),
      history = early ++ (first, .onAck before srttBefore freshBefore) ::
        (middle ++ (second, .onAck now srttUs fresh) :: late) ->
      first.engine.returned P (.onAck before srttBefore freshBefore) = some blob ->
      (forall entry, entry ∈ middle -> entry.1.engine.returned P entry.2 ≠ some blob) ->
      second.engine.returned P (.onAck now srttUs fresh) = some blob ->
        before + Duration.fromMicros (srttUs * 3 / 2) ≤ now) ∧
    forall (early late : List (Keying × Call)) (ending entry : Keying × Call) (blob : Bytes),
      history = early ++ ending :: late -> blob ∈ ending.1.posted -> Ends P blob ending ->
      entry ∈ late -> entry.1.engine.returned P entry.2 ≠ some blob := by
  have slots := run_slots opens run
  refine ⟨?_, ?_, ?_, ?_⟩
  · intro blob other
    have bound := Resending.count_le slots blob
    have whole : (openedSlots initial budget).remaining kmMaxRetry blob = 11 :=
      Resending.remaining_new (fun member => other (List.mem_singleton.mp member))
    rw [countP_slots, whole] at bound
    exact le_trans (Nat.le_add_right _ _) bound
  · have bound := Resending.count_le slots initial
    have held : (openedSlots initial budget).slot =
        some { msg := initial, left := budget, last := none } := rfl
    rw [countP_slots, Resending.remaining_held held rfl] at bound
    exact le_trans (Nat.le_add_right _ _) bound
  · intro early middle late first second blob before now srttBefore srttUs freshBefore fresh
      split sent between again
    subst split
    have allowed := run.at_entry.2
    rw [List.map_append, List.map_cons, List.map_append, List.map_cons] at slots
    have stamped : (first.slots.next kmMaxRetry
        (first.engine.slotMove P (.onAck before srttBefore freshBefore))).Stamped blob before := by
      apply Resending.stamped_of_sent (slots_allows allowed) ((slots_sent _ _).trans sent)
      rcases slotMove_instant sent with posts | resends
      · exact Or.inl ⟨_, posts⟩
      · exact Or.inr ⟨_, resends⟩
    rcases Resending.paced slots stamped (by
        intro entry member
        rcases List.mem_map.mp member with ⟨concrete, listed, rfl⟩
        exact fun copied => between concrete listed ((slots_sent _ _).symm.trans copied))
      ((slots_sent _ _).trans again) with ⟨time, earliest, move, due⟩
    rcases slotMove_instant again with posts | resends
    · rw [posts] at move
      cases move
    · rw [resends] at move
      cases move
      exact due
  · intro early late ending entry blob split posted ends member
    subst split
    rcases ending with ⟨ending, call⟩
    have spent := ends.spent run.at_entry.2 posted
    rw [← slots_next] at spent
    rw [List.map_append, List.map_cons] at slots
    rw [← slots_sent]
    exact Resending.silent_of_spent slots spent (List.mem_map_of_mem member)

def hastyKeying : Keying where
  engine := hastySession.engine
  posted := [hastySession.initial]
  known := by
    intro out present
    cases present
    exact List.mem_singleton_self _

/-- Two copies of the first message, a refresh, a status word, and one more acknowledgement. -/
def hastyRetries : List Call :=
  [.onAck 0 100 (sampleKey 2), .onAck 150000 100 (sampleKey 2), .encrypt (SeqNumber.new 5) [1],
    .onAck 150000 100 (sampleKey 2), .handleKmrsp [4, 0, 0, 0], .onAck 900000 100 (sampleKey 3)]

theorem retry_budget_hastyRetries :
    ((machine .sample hastySession.engine hastySession.initial).trace hastyKeying
      hastyRetries).map (fun entry => (entry.1.engine.returned .sample entry.2).isSome) =
        [true, true, false, true, false, false] ∧
    (((machine .sample hastySession.engine hastySession.initial).trace hastyKeying
      hastyRetries).countP fun entry =>
        entry.1.engine.returned .sample entry.2 = some hastySession.initial) ≤ 10 ∧
    (0 : Instant) + Duration.fromMicros (100 * 3 / 2) ≤ 150000 := by
  have opens : Opens .sample hastySession.engine hastySession.initial 10 :=
    .initiator hastyConfig sampleSalt (sampleKey 1)
  have run := Machine.run_exec (M := machine .sample hastySession.engine hastySession.initial)
    (⟨rfl, rfl⟩ : hastyKeying.engine = hastySession.engine ∧ _)
    (by decide +kernel : Machine.Allowed _ hastyKeying hastyRetries)
  rcases retry_budget opens run with ⟨_, count, paces, _⟩
  refine ⟨by decide +kernel, count, ?_⟩
  exact paces [] [] _ _ _ hastySession.initial 0 150000 100 100 _ _ rfl (by decide +kernel)
    (fun _ member => absurd member List.not_mem_nil) (by decide +kernel)

end Keying
end Rsrt

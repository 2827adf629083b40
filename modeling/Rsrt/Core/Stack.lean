import Rsrt.Core.Connection

namespace Rsrt

/-!
# The components of an established connection

An established connection drives a sender, a receiver and an encryption engine.
Whatever input it gets, it makes a short list of calls on these three, and a caller
that completes its handshake opens them and makes the calls that were held back.  A
property of the components that survives every call therefore holds at all times.

Beside the components a log keeps what went in: the payloads that were accepted for
sending and the data packets that were fed to the receiver, each with the engine of
that moment.  No call reads it.
-/

namespace Connection

variable (P : Primitives) (now : Instant) (r : Receiver) (crypto : Option Crypto)
  (data : DataPacket)

/-- Decrypted or not, a packet comes to the receiver with its sequence and its size. -/
theorem ingestData_arrives :
    Exists fun pkt => Exists fun undecryptable => pkt.seq = data.seq ∧
      pkt.payload.length = data.payload.length ∧
      (ingestData P now r crypto data).1 = r.ingest now pkt undecryptable := by
  unfold ingestData
  cases crypto with
  | none =>
      dsimp only
      split_ifs
      · exact ⟨_, false, rfl, rfl, rfl⟩
      · exact ⟨_, true, rfl, rfl, rfl⟩
  | some engine =>
      dsimp only
      split
      case h_1 decrypted =>
        refine ⟨{ data with encryption := .none, payload := _ }, false, rfl, ?_, rfl⟩
        unfold Crypto.decrypt at decrypted
        repeat' split at decrypted
        all_goals cases decrypted
        exact CtrCipher.applyKeystream_length _ _ _ _ _
      case h_2 => exact ⟨_, true, rfl, rfl, rfl⟩

/-- The engine is left as it was after the decryption. -/
theorem ingestData_crypto :
    (ingestData P now r crypto data).2 = crypto.map fun engine =>
      (engine.decrypt P data.seq data.encryption data.payload).1 := by
  unfold ingestData
  cases crypto with
  | none => dsimp only; split_ifs <;> rfl
  | some engine =>
      dsimp only
      split
      case h_1 evaluated | h_2 evaluated => rw [Option.map_some, evaluated]

end Connection

structure Stack where
  sender : Sender
  receiver : Receiver
  crypto : Option Crypto
deriving DecidableEq

/-- A payload that the sender accepted, under the sequence that it got. -/
structure Submission where
  seq : SeqNumber
  payload : Bytes
  engine : Option Crypto
deriving DecidableEq

/-- A data packet that was fed to the receiver. -/
structure Reception where
  packet : DataPacket
  engine : Option Crypto
deriving DecidableEq

structure Log where
  submitted : List Submission := []
  received : List Reception := []
deriving DecidableEq

namespace Stack

/-- The calls that a connection makes. -/
inductive Call
  | push (now : Instant) (payload : Bytes)
  | data (now : Instant) (packet : DataPacket)
  | ack (now : Instant) (ackNumber : Nat) (cif : AckCif) (fresh : SecretKey)
  | nak (now : Instant) (ranges : List LossRange)
  | ackAck (now : Instant) (ackNumber : Nat) (ts : Timestamp)
  | dropRequest (now : Instant) (msgNumber : MsgNumber) (first last : SeqNumber)
  | kmReq (payload : Bytes)
  | kmRsp (payload : Bytes)
  | timer (now : Instant)
  | anchor (instant : Instant) (ts : Timestamp)
  | transmit (now : Instant)
  | deliver (now : Instant)
deriving DecidableEq

/-- The next packet: control messages of the receiver, then of the sender, then data
with its index. -/
def poll (self : Stack) (now : Instant) : Stack × Option (Option Nat × Packet) :=
  match self.receiver.pollControl now with
  | (receiver, some message) => ({ self with receiver }, some (none, control message))
  | (receiver, none) =>
      match self.sender.pollControl with
      | (sender, some message) => ({ self with sender, receiver }, some (none, control message))
      | (sender, none) =>
          let (sender, emitted) := sender.pollTransmitAt now
          ({ self with sender, receiver },
            emitted.map fun (index, packet) => (some index, .data packet))

theorem poll_receiver (self : Stack) (now : Instant) :
    (self.poll now).1.receiver = (self.receiver.pollControl now).1 := by
  unfold poll
  split
  case h_1 evaluated => rw [evaluated]
  case h_2 evaluated =>
    rw [evaluated]
    split <;> rfl

theorem poll_crypto (self : Stack) (now : Instant) : (self.poll now).1.crypto = self.crypto := by
  unfold poll
  split
  · rfl
  · split <;> rfl

variable (P : Primitives)

def call (self : Stack) : Call -> Stack
  | .push now payload =>
      match self.sender.push P now payload self.crypto with
      | .ok (sender, crypto) => { self with sender, crypto }
      | .error _ => self
  | .data now packet =>
      let (receiver, crypto) := Connection.ingestData P now self.receiver self.crypto packet
      { self with receiver, crypto }
  | .ack now ackNumber cif fresh =>
      match self.sender.handleAck now ackNumber cif with
      | (sender, .ok _) =>
          { self with
              sender
              crypto := (Connection.refreshKeys P self.crypto now sender.rtt.1 fresh).1 }
      | (sender, .error _) => { self with sender }
  | .nak now ranges => { self with sender := self.sender.handleNak now ranges }
  | .ackAck now ackNumber ts =>
      { self with receiver := self.receiver.handleAckack now ackNumber ts }
  | .dropRequest now msgNumber first last =>
      { self with receiver := self.receiver.handleDropreq now msgNumber first last }
  | .kmReq payload =>
      { self with crypto := self.crypto.map fun engine => (engine.handleKmreq P payload).1 }
  | .kmRsp payload =>
      { self with crypto := self.crypto.map fun engine => (engine.handleKmrsp payload).1 }
  | .timer now =>
      { self with sender := self.sender.onTimer now, receiver := self.receiver.onTimer now }
  | .anchor instant ts => { self with receiver := self.receiver.setHsAnchor instant ts }
  | .transmit now => (self.poll now).1
  | .deliver now => { self with receiver := (self.receiver.pollDeliver now).1 }

@[simp] theorem call_push_receiver (self : Stack) (now : Instant) (payload : Bytes) :
    (self.call P (.push now payload)).receiver = self.receiver := by
  unfold call
  dsimp only
  split <;> rfl

@[simp] theorem call_ack_receiver (self : Stack) (now : Instant) (ackNumber : Nat) (cif : AckCif)
    (fresh : SecretKey) : (self.call P (.ack now ackNumber cif fresh)).receiver = self.receiver := by
  unfold call
  dsimp only
  split <;> rfl

@[simp] theorem call_ack_sender (self : Stack) (now : Instant) (ackNumber : Nat) (cif : AckCif)
    (fresh : SecretKey) : (self.call P (.ack now ackNumber cif fresh)).sender =
      (self.sender.handleAck now ackNumber cif).1 := by
  unfold call
  dsimp only
  rcases self.sender.handleAck now ackNumber cif with ⟨sender, err | reply⟩ <;> rfl

/-- What a push would record. -/
def submission (self : Stack) (now : Instant) (payload : Bytes) : Option Submission :=
  if self.sender.cfg.maxPayload < payload.length then none
  else
    let room := self.sender.makeRoom now payload.length
    some
      { seq := room.seqAt (room.baseIndex + room.buffer.length)
        payload
        engine := self.crypto }

/-- The components together with the log. -/
structure Session where
  stack : Stack
  log : Log := {}
deriving DecidableEq

/-- What a call adds to the log. -/
def note (self : Stack) (log : Log) : Call -> Log
  | .push now payload =>
      { log with submitted := log.submitted ++ (self.submission now payload).toList }
  | .data _ packet => { log with received := log.received ++ [⟨packet, self.crypto⟩] }
  | _ => log

def Session.step (s : Session) (call : Call) : Session where
  stack := s.stack.call P call
  log := s.stack.note s.log call

/-- All calls of a list, in order. -/
def Session.run (s : Session) (calls : List Call) : Session := calls.foldl (Session.step P) s

theorem Session.run_invariant {P : Primitives} {Holds : Session -> Prop}
    (preserved : forall s call, Holds s -> Holds (s.step P call)) {s : Session} (holds : Holds s)
    (calls : List Call) : Holds (s.run P calls) := by
  induction calls generalizing s with
  | nil => exact holds
  | cons call rest ih => exact ih (preserved s call holds)

theorem Session.run_stack (s : Session) (calls : List Call) :
    (s.run P calls).stack = calls.foldl (call P) s.stack := by
  induction calls generalizing s with
  | nil => rfl
  | cons call rest ih => exact ih (s.step P call)

end Stack

end Rsrt

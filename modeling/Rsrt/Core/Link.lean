import Rsrt.Core.ReceiverReports
import Rsrt.Core.SenderReports

namespace Rsrt

open Rsrt.Basis SeqNumber

/-!
# A sender and a receiver joined by a network

One sender and one receiver, created with the same initial sequence number and
without encryption, over a network that may lose, duplicate, delay and reorder
packets in both directions but never forges one.

The network is the collection of everything ever put on it.  An event that hands
a packet to an endpoint names a packet of the collection, so a packet that is
never named is lost, one that is named twice is duplicated, and the order of the
names is the order of arrival.  A control message belongs to the collection from
the moment it is queued: the time until the owner polls it is part of its delay.

Each packet is recorded with the true positions of the sequence numbers it
carries, counted from the initial sequence without wrapping.  The endpoints never
see them.  They serve to say that a packet arrives while its position is within
`2^29` of the base of the endpoint that it is handed to.
-/

/-- The sequence numbers that a control message carries, in order. -/
def ControlType.sequences : ControlType -> List SeqNumber
  | .ack _ cif => [cif.lastAckSeq]
  | .nak ranges => ranges.flatMap fun range => [range.first, range.last]
  | .dropRequest _ first last => [first, last]
  | _ => []

/-- A control message on the network, with the true positions of its sequence
numbers. -/
structure Carried where
  message : ControlType
  positions : List Int
deriving DecidableEq

structure Link where
  sender : Sender
  session : Receiver.Session
  /-- Payloads of the accepted pushes, oldest first. -/
  pushed : List Bytes := []
  /-- Data packets ever transmitted, with their indices. -/
  data : List (Nat × DataPacket) := []
  /-- Control messages from the sender to the receiver. -/
  forward : List Carried := []
  /-- Control messages from the receiver to the sender. -/
  backward : List Carried := []
deriving DecidableEq

namespace Link

/-- The operations of both endpoints.  Those that take a packet from the network
name it together with its true positions. -/
inductive Event
  | push (now : Instant) (payload : Bytes)
  | pollTransmit (now : Instant)
  | senderOnTimer (now : Instant)
  | senderPollControl
  | handleAck (now : Instant) (ackNumber : Nat) (cif : AckCif) (position : Int)
  | handleNak (now : Instant) (ranges : List LossRange) (positions : List Int)
  | setHsAnchor (instant : Instant) (ts : Timestamp)
  | setMaxPayload (bytes : Nat)
  | handleData (now : Instant) (index : Nat) (pkt : DataPacket)
  | handleAckack (now : Instant) (ackNumber : Nat) (ts : Timestamp)
  | handleDropreq (now : Instant) (msgNumber : MsgNumber) (first last : SeqNumber)
      (positions : List Int)
  | receiverOnTimer (now : Instant)
  | receiverPollControl (now : Instant)
  | pollDeliver (now : Instant)
deriving DecidableEq

/-- Within `2^29` of an endpoint's base. -/
def CloseTo (base position : Int) : Prop :=
  -2 ^ 29 ≤ position - base ∧ position - base ≤ 2 ^ 29

instance (base position : Int) : Decidable (CloseTo base position) :=
  inferInstanceAs (Decidable (_ ∧ _))

/-- A packet is handed over only if the network carries it, and only while its
positions are close to the base of the endpoint. -/
def Admissible (l : Link) : Event -> Prop
  | .handleAck _ ackNumber cif position =>
      ⟨.ack ackNumber cif, [position]⟩ ∈ l.backward ∧ CloseTo l.sender.baseIndex position
  | .handleNak _ ranges positions =>
      ⟨.nak ranges, positions⟩ ∈ l.backward ∧
        forall position, position ∈ positions -> CloseTo l.sender.baseIndex position
  | .handleData _ index pkt => (index, pkt) ∈ l.data ∧ CloseTo l.session.position index
  | .handleAckack _ ackNumber _ => ⟨.ackAck ackNumber, []⟩ ∈ l.forward
  | .handleDropreq _ msgNumber first last positions =>
      ⟨.dropRequest msgNumber first last, positions⟩ ∈ l.forward ∧
        forall position, position ∈ positions -> CloseTo l.session.position position
  | _ => True

instance (l : Link) : forall event, Decidable (l.Admissible event)
  | .handleAck .. | .handleNak .. | .handleData .. | .handleDropreq .. =>
      inferInstanceAs (Decidable (_ ∧ _))
  | .handleAckack .. => inferInstanceAs (Decidable (_ ∈ _))
  | .push .. | .pollTransmit _ | .senderOnTimer _ | .senderPollControl | .setHsAnchor .. |
    .setMaxPayload _ | .receiverOnTimer _ | .receiverPollControl _ | .pollDeliver _ => .isTrue trivial

/-- The sender moves on, and what it queued meanwhile is on the network. -/
def sends (l : Link) (sender : Sender) (locate : ControlType -> List Int) : Link :=
  { l with
      sender
      forward := l.forward ++ (sender.controlQueue.drop l.sender.controlQueue.length).map
        fun message => ⟨message, locate message⟩ }

/-- The receiver takes a call, and what it queued meanwhile is on the network. -/
def receives (l : Link) (call : Receiver.Call) : Link :=
  { l with
      session := l.session.step call
      backward := l.backward ++ (Receiver.queued (l.session, call)).map fun message =>
        ⟨message, message.sequences.map (l.session.step call).unwrap⟩ }

/-- The true positions of a too-late drop: what is taken from the buffer front. -/
def lateSpan (s : Sender) (now : Instant) (_ : ControlType) : List Int :=
  [s.baseIndex, s.baseIndex + s.tlpktdropCount now - 1]

/-- The ACKACK that an accepted ACK is answered with. -/
def ackackOf : Except SrtError (Option Nat) -> List Carried
  | .ok (some ackNumber) => [⟨.ackAck ackNumber, []⟩]
  | _ => []

def next (P : Primitives) (l : Link) : Event -> Link
  | .push now payload =>
      match l.sender.push P now payload none with
      | .ok (sender, _) =>
          { l.sends sender (lateSpan l.sender now) with pushed := l.pushed ++ [payload] }
      | .error _ => l
  | .pollTransmit now =>
      let result := l.sender.pollTransmitAt now
      { l with sender := result.1, data := l.data ++ result.2.toList }
  | .senderOnTimer now => l.sends (l.sender.onTimer now) (lateSpan l.sender now)
  | .senderPollControl => { l with sender := l.sender.pollControl.1 }
  | .handleAck now ackNumber cif _ =>
      let result := l.sender.handleAck now ackNumber cif
      { l with sender := result.1, forward := l.forward ++ ackackOf result.2 }
  | .handleNak now ranges _ =>
      l.sends (l.sender.handleNak now ranges) fun message =>
        message.sequences.map l.sender.extOf
  | .setHsAnchor instant ts => l.receives (.setHsAnchor instant ts)
  | .setMaxPayload bytes => l.receives (.setMaxPayload bytes)
  | .handleData now _ pkt => l.receives (.handleData now pkt)
  | .handleAckack now ackNumber ts => l.receives (.handleAckack now ackNumber ts)
  | .handleDropreq now msgNumber first last _ =>
      l.receives (.handleDropreq now msgNumber first last)
  | .receiverOnTimer now => l.receives (.onTimer now)
  | .receiverPollControl now => l.receives (.pollControl now)
  | .pollDeliver now => l.receives (.pollDeliver now)

def new (now : Instant) (sender : SenderConfig) (receiver : ReceiverConfig) : Link where
  sender := Sender.new sender
  session := Receiver.Session.new now receiver

/-- All interleavings.  A push carries no encryption engine, so the primitives do
not matter. -/
def machine (P : Primitives) : Machine Link Event where
  start := fun l => Exists fun now => Exists fun sender => Exists fun receiver =>
    receiver.initialSeq = sender.initialSeq ∧ l = new now sender receiver
  guard := Admissible
  next := next P

instance (P : Primitives) (l : Link) (event : Event) : Decidable ((machine P).guard l event) :=
  inferInstanceAs (Decidable (l.Admissible event))

theorem start_new (P : Primitives) (now : Instant) {sender : SenderConfig}
    {receiver : ReceiverConfig} (same : receiver.initialSeq = sender.initialSeq) :
    (machine P).start (new now sender receiver) :=
  ⟨now, sender, receiver, same, rfl⟩

/-- The payloads handed out so far, oldest first. -/
def delivered (l : Link) : List Bytes := l.session.delivered

end Link

end Rsrt

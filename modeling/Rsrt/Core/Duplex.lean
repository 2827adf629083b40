import Rsrt.Basis.Machine
import Rsrt.Core.Connection
import Rsrt.Crypto.Refresh

namespace Rsrt

open Rsrt.Basis

/-!
# Two connections over a lossless network

Two connections from the moment at which the handshake has established both, and
the packets in flight between them.  The network
loses nothing and keeps the order: what one connection emits joins the end of the
other's inbox, and a connection receives the oldest packet of its own.  Both
applications may call their connection at any instant, so every interleaving of
submissions, polls, arrivals and timers is a run.

Each endpoint also records the payloads its `send` accepted and those that its
`pollDeliver` returned, and data packets travel with their index.  No operation
reads any of these.
-/

/-- A packet in flight; a data packet with the index of its payload. -/
abbrev Flying := Option Nat × Packet

structure Endpoint where
  conn : Connection
  /-- Packets on their way here, oldest first. -/
  inbox : List Flying := []
  accepted : List Bytes := []
  delivered : List Bytes := []
deriving DecidableEq

/-- What can happen at an endpoint. -/
inductive Action
  | send (now : Instant) (payload : Bytes)
  | poll (now : Instant)
  /-- The oldest packet arrives; `draw` is what a refresh would generate. -/
  | receive (now : Instant) (draw : Draw)
  | timer (now : Instant)
  | deliver (now : Instant)
  | anchor (instant : Instant) (ts : Timestamp)
  | close (now : Instant)
deriving DecidableEq

/-- The encryption engine of an open connection. -/
def Connection.engine (self : Connection) : Option Crypto :=
  match self.state with
  | .established _ _ crypto => crypto
  | _ => none

namespace Endpoint

variable (P : Primitives)

/-- The endpoint after an action, and the packet that it emits. -/
def act (self : Endpoint) : Action -> Endpoint × Option Flying
  | .send now payload =>
      match self.conn.send P now payload with
      | .ok conn => ({ self with conn, accepted := self.accepted ++ [payload] }, none)
      | .error _ => (self, none)
  | .poll now =>
      ({ self with conn := (self.conn.pollTransmitAt now).1 }, (self.conn.pollTransmitAt now).2)
  | .receive now draw =>
      match self.inbox with
      | [] => (self, none)
      | flying :: rest =>
          ({ self with conn := self.conn.handlePacket P now flying.2 draw, inbox := rest }, none)
  | .timer now => ({ self with conn := self.conn.handleTimer now }, none)
  | .deliver now =>
      ({ self with
          conn := (self.conn.pollDeliver now).1
          delivered := self.delivered ++ (self.conn.pollDeliver now).2.toList },
        none)
  | .anchor instant ts => ({ self with conn := self.conn.setHsAnchor instant ts }, none)
  | .close now => ({ self with conn := self.conn.close now }, none)

/-- Takes a packet from the network. -/
def enqueue (self : Endpoint) (emitted : Option Flying) : Endpoint :=
  { self with inbox := self.inbox ++ emitted.toList }

/-- A key is drawn with the length that the engine asks for. -/
def Permits (self : Endpoint) : Action -> Prop
  | .receive _ draw =>
      forall engine, engine ∈ self.conn.engine -> draw.key.bytes.length = engine.cfg.keyLen.bytes
  | _ => True

instance (self : Endpoint) : (action : Action) -> Decidable (self.Permits action)
  | .receive _ draw => inferInstanceAs (Decidable (forall engine, engine ∈ self.conn.engine ->
      draw.key.bytes.length = engine.cfg.keyLen.bytes))
  | .send .. | .poll _ | .timer _ | .deliver _ | .anchor .. | .close _ => .isTrue trivial

end Endpoint

inductive Side
  | caller
  | listener
deriving DecidableEq

def Side.other : Side -> Side
  | caller => listener
  | listener => caller

structure Duplex where
  caller : Endpoint
  listener : Endpoint
deriving DecidableEq

/-- What both sides bring to the moment at which the handshake ends. -/
structure Setup where
  callerOpts : SrtOptions
  listenerOpts : SrtOptions
  caller : Negotiated
  listener : Negotiated
  callerTimebase : Timebase
  listenerTimebase : Timebase
  /-- When the caller started to connect, and when the response reached it. -/
  connectedAt : Instant
  callerNow : Instant
  listenerNow : Instant
  /-- The conclusion response and its timestamp. -/
  hsReply : HandshakeCif
  hsTs : Timestamp
deriving DecidableEq

namespace Setup

/-- Each side knows the other's socket, and both directions start at the sequence
that the caller chose. -/
def Consistent (setup : Setup) : Prop :=
  setup.caller.peerSocketId = setup.listener.localSocketId ∧
    setup.listener.peerSocketId = setup.caller.localSocketId ∧
    setup.listener.recvInitialSeq = setup.caller.sendInitialSeq ∧
    setup.caller.recvInitialSeq = setup.listener.sendInitialSeq

/-- Both sides have the same valid passphrase, and their engines come from the key
exchange.  The key length of the caller may have been replaced by the one that the
listener advertised. -/
def Keyed (P : Primitives) (setup : Setup) : Prop :=
  Exists fun callerCfg => Exists fun listenerCfg => Exists fun keyLen => Exists fun salt =>
    Exists fun sek => Exists fun first => Exists fun second =>
    setup.callerOpts.cryptoConfig = .ok (some callerCfg) ∧
    setup.listenerOpts.cryptoConfig = .ok (some listenerCfg) ∧
    listenerCfg.passphrase = callerCfg.passphrase ∧
    sek.bytes.length = keyLen.bytes ∧
    Crypto.keyExchange P { callerCfg with keyLen } listenerCfg salt sek = some (first, second) ∧
    setup.caller.crypto = some first ∧ setup.listener.crypto = some second

def callerConn (P : Primitives) (setup : Setup) : Connection :=
  (Connection.connectWithTimebase setup.connectedAt setup.caller.remote
    setup.caller.localSocketId setup.caller.sendInitialSeq setup.callerOpts
    setup.callerTimebase).establish P setup.callerNow setup.hsTs setup.caller

def listenerConn (setup : Setup) : Connection :=
  Connection.acceptedWithTimebase setup.listenerNow setup.listener
    (control (.handshake setup.hsReply)) setup.listenerOpts setup.listenerTimebase

def duplex (P : Primitives) (setup : Setup) : Duplex where
  caller := { conn := setup.callerConn P }
  listener := { conn := setup.listenerConn }

end Setup

namespace Duplex

variable (P : Primitives)

def endpoint (d : Duplex) : Side -> Endpoint
  | .caller => d.caller
  | .listener => d.listener

/-- One side acts, and the other takes what it emits. -/
def next (d : Duplex) (event : Side × Action) : Duplex :=
  match event.1 with
  | .caller =>
      { caller := (d.caller.act P event.2).1
        listener := d.listener.enqueue (d.caller.act P event.2).2 }
  | .listener =>
      { caller := d.caller.enqueue (d.listener.act P event.2).2
        listener := (d.listener.act P event.2).1 }

/-- Every run of two encrypted connections. -/
def machine : Machine Duplex (Side × Action) where
  start d := Exists fun setup : Setup => setup.Consistent ∧ setup.Keyed P ∧ d = setup.duplex P
  guard d event := (d.endpoint event.1).Permits event.2
  next := next P

instance (d : Duplex) (event : Side × Action) : Decidable ((machine P).guard d event) :=
  inferInstanceAs (Decidable ((d.endpoint event.1).Permits event.2))

end Duplex

end Rsrt

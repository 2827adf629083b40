import Rsrt.Core.Connection
import Rsrt.Packet.ControlCodec
import Mathlib.Data.List.AList

namespace Rsrt

/-!
# The listener driver

One UDP socket serves every accepted connection.  The driver routes a datagram for a socket
by its local id, and a handshake for destination zero by the address and the socket id of its
sender: a known peer repeats its handshake to its connection, a new one is answered by the
listener, and an accepted one gets a connection of its own.  When a connection ends, its reap
guard takes its routes away.

The queues towards the connections and the socket are outside of the driver.  A datagram that
it hands over or a packet that it sends is an output here, and what the queue of accepted
sockets says to a reservation is an argument, as are the ids that the generator rolls.
-/

/-- Most accepted sockets that wait for the application. -/
def acceptBacklog : Nat := 64

/-- Demux entry of one accepted connection. -/
structure ConnEntry where
  /-- The queue of the connection: its number among the connections spawned. -/
  tx : Nat
  /-- Source address and peer socket id. -/
  peer : SocketAddrV4 × SocketId
deriving DecidableEq

structure ListenerDriver where
  core : Listener
  timebase : Timebase
  opts : SrtOptions
  /-- False once the handle is dropped. -/
  acceptOpen : Bool := true
  /-- Local socket id to connection. -/
  conns : AList (fun _ : SocketId => ConnEntry) := ∅
  /-- Peer address and peer socket id to local socket id. -/
  byPeer : AList (fun _ : SocketAddrV4 × SocketId => SocketId) := ∅
  /-- Connections spawned so far. -/
  spawned : Nat := 0

/-- What the driver does with a datagram, if it does not drop it. -/
inductive ListenerOutput
  /-- The datagram joins the queue of a connection. -/
  | forward (tx : Nat) (datagram : Bytes)
  | send (packet : Packet) (dest : SocketAddrV4)
  /-- A connection is started, and its socket joins the accept queue. -/
  | spawn (conn : Connection)
deriving DecidableEq

namespace ListenerDriver

/-- A driver that was just bound. -/
def bound (core : Listener) : ListenerDriver where
  core := core
  timebase := core.timebase
  opts := core.opts

/-- The first rolled id that no live connection uses; nothing if the generator has not come
to one. -/
def unusedSocketId (self : ListenerDriver) (rolls : List SocketId) : Option SocketId :=
  rolls.find? fun id => (self.conns.lookup id).isNone

/-- Echoes the request with the type replaced and the extensions stripped. -/
def rejection (self : ListenerDriver) (now : Instant) (cif : HandshakeCif) (code : Nat) : Packet :=
  .control
    { timestamp := self.timebase.timestamp now
      dstSocketId := cif.socketId
      controlType := .handshake { cif with handshakeType := .rejection code, extensions := [] } }

/-- Traffic for a socket goes to its connection if it comes from the connection's peer. -/
def onTraffic (self : ListenerDriver) (source : SocketAddrV4) (dst : SocketId) (datagram : Bytes) :
    Option ListenerOutput :=
  match self.conns.lookup dst with
  | some entry => if entry.peer.1 = source then some (.forward entry.tx datagram) else none
  | none => none

/-- The connection of an accepted peer, with the anchor from its conclusion. -/
def connectionOf (self : ListenerDriver) (now : Instant) (hsTs : Timestamp) (reply : Packet)
    (negotiated : Negotiated) : Connection :=
  (Connection.accepted now negotiated reply self.opts).setHsAnchor now hsTs

/-- Registers an accepted connection under both of its keys. -/
def register (self : ListenerDriver) (source : SocketAddrV4) (negotiated : Negotiated) :
    ListenerDriver :=
  let peer := (source, negotiated.peerSocketId)
  { self with
      conns := self.conns.insert negotiated.localSocketId ⟨self.spawned, peer⟩
      byPeer := self.byPeer.insert peer negotiated.localSocketId
      spawned := self.spawned + 1 }

variable (P : Primitives)

/-- The handshake of a peer without a connection.  The place in the accept queue is reserved
before anything is started. -/
def onNewPeer (self : ListenerDriver) (now : Instant) (source : SocketAddrV4) (hsTs : Timestamp)
    (cif : HandshakeCif) (newId : SocketId) (permit : Bool) :
    ListenerDriver × Option ListenerOutput :=
  match self.core.handleHandshake P now source cif newId with
  | .reply reply => (self, some (.send reply source))
  | .drop => (self, none)
  | .accept reply negotiated =>
      if permit then
        (self.register source negotiated, some (.spawn (self.connectionOf now hsTs reply negotiated)))
      else (self, some (.send (self.rejection now cif Reject.backlog) source))

/-- A handshake for destination zero. -/
def onHandshake (self : ListenerDriver) (now : Instant) (source : SocketAddrV4) (hsTs : Timestamp)
    (cif : HandshakeCif) (datagram : Bytes) (rolls : List SocketId) (permit : Bool) :
    ListenerDriver × Option ListenerOutput :=
  match self.byPeer.lookup (source, cif.socketId) with
  -- The peer has not seen the reply, and its connection repeats it.
  | some localId => (self, (self.conns.lookup localId).map fun entry => .forward entry.tx datagram)
  | none =>
      if ¬self.acceptOpen then
        (self,
          if cif.handshakeType = .conclusion then
            some (.send (self.rejection now cif Reject.close) source)
          else none)
      else
        match self.unusedSocketId rolls with
        | some newId => self.onNewPeer P now source hsTs cif newId permit
        | none => (self, none)

def onDatagram (self : ListenerDriver) (now : Instant) (source : SocketAddrV4) (datagram : Bytes)
    (rolls : List SocketId) (permit : Bool) : ListenerDriver × Option ListenerOutput :=
  if datagram.length < 16 then (self, none)
  else
    match readU32 datagram 12 with
    | .error _ => (self, none)
    | .ok word =>
        let dst : SocketId := ⟨.ofNat word⟩
        if dst ≠ .handshake then (self, self.onTraffic source dst datagram)
        else
          match Packet.parse datagram with
          | .ok (.control { timestamp := hsTs, controlType := .handshake cif, .. }) =>
              self.onHandshake P now source hsTs cif datagram rolls permit
          | _ => (self, none)

/-- The connection with the id has ended. -/
def reap (self : ListenerDriver) (id : SocketId) : ListenerDriver :=
  match self.conns.lookup id with
  | some entry =>
      { self with
          conns := self.conns.erase id
          byPeer :=
            if self.byPeer.lookup entry.peer = some id then self.byPeer.erase entry.peer
            else self.byPeer }
  | none => self

/-- Nothing is left to do: no handle, and no connection. -/
def finished (self : ListenerDriver) : Bool := !self.acceptOpen && self.conns.entries.isEmpty

end ListenerDriver

end Rsrt

import Rsrt.Packet.Types

namespace Rsrt

/-!
# Handshake control information

The handshake CIF and its extension blocks as the codec hands them to the
connection core.  Text fields are the bytes of their encoding.
-/

/-- SRT library version that we advertise. -/
def srtVersion : Nat := 0x00010404

/-- Marks HSv5 support in the listener's INDUCTION response. -/
def srtMagic : Nat := 0x4A17

/-! Extension Field bits of the CONCLUSION handshake. -/

def hsExtHsreq : Nat := 0x1

def hsExtKmreq : Nat := 0x2

def hsExtConfig : Nat := 0x4

inductive HandshakeType
  /-- Rendezvous only; parsed but never answered. -/
  | waveahand
  | induction
  | conclusion
  | agreement
  /-- The connection is rejected with a code of at least 1000. -/
  | rejection (code : Nat)
deriving DecidableEq

/-! ## Rejection reasons -/

namespace Reject

def peer : Nat := 1002

def rogue : Nat := 1004

def backlog : Nat := 1005

def close : Nat := 1007

def version : Nat := 1008

def badSecret : Nat := 1010

def unsecure : Nat := 1011

def messageApi : Nat := 1012

def congestion : Nat := 1013

def filter : Nat := 1014

end Reject

/-! ## Extensions -/

/-- SRT flags of HSREQ and HSRSP. -/
structure HsFlags where
  bits : Nat
deriving DecidableEq

namespace HsFlags

def tsbpdSnd : Nat := 0x01

def tsbpdRcv : Nat := 0x02

def crypt : Nat := 0x04

def tlpktdrop : Nat := 0x08

def periodicNak : Nat := 0x10

def rexmitFlg : Nat := 0x20

/-- File mode marker, never set in live mode. -/
def stream : Nat := 0x40

def contains (self : HsFlags) (bits : Nat) : Bool := self.bits &&& bits = bits

/-- The flag set that a live-mode endpoint sends. -/
def liveDefaults : HsFlags :=
  ⟨tsbpdSnd ||| tsbpdRcv ||| crypt ||| tlpktdrop ||| periodicNak ||| rexmitFlg⟩

end HsFlags

/-- Payload of HSREQ and HSRSP; latencies are 16-bit millisecond counts. -/
structure HsExtFields where
  srtVersion : Nat
  flags : HsFlags
  recvLatencyMs : Nat
  sendLatencyMs : Nat
deriving DecidableEq

def srtCmdFilter : Nat := 7

/-- A handshake extension block. -/
inductive HsExtension
  | hsReq (fields : HsExtFields)
  | hsRsp (fields : HsExtFields)
  | streamId (sid : Bytes)
  | kmReq (data : Bytes)
  | kmRsp (data : Bytes)
  | congestion (name : Bytes)
  /-- A recognized command whose content failed validation. -/
  | invalid (cmd : Nat) (data : Bytes)
  | unknown (cmd : Nat) (data : Bytes)
deriving DecidableEq

/-- The name of the live congestion controller. -/
def congestionLive : Bytes := [0x6C, 0x69, 0x76, 0x65]

structure SocketAddrV4 where
  /-- The four octets of the address. -/
  ip : Bytes
  port : Nat
deriving DecidableEq

/-- Handshake Control Information Field. -/
structure HandshakeCif where
  version : Nat
  /-- Advertised key length. -/
  encryption : Nat
  extensionField : Nat
  initialSeq : SeqNumber
  mss : Nat
  flowWindow : Nat
  handshakeType : HandshakeType
  /-- The sender's socket id. -/
  socketId : SocketId
  cookie : Nat
  peerIp : Bytes
  extensions : List HsExtension
deriving DecidableEq

namespace HandshakeCif

/-- The 16-byte Peer IP field: the address with its bytes reversed, then zeros. -/
def encodePeerIp (addr : SocketAddrV4) : Bytes :=
  addr.ip.reverse ++ List.replicate 12 0

/-- The first HSREQ or HSRSP block. -/
def hsExt (self : HandshakeCif) : Option HsExtFields :=
  self.extensions.findSome? fun
    | .hsReq fields => some fields
    | .hsRsp fields => some fields
    | _ => none

/-- The first HSRSP block. -/
def hsRsp (self : HandshakeCif) : Option HsExtFields :=
  self.extensions.findSome? fun
    | .hsRsp fields => some fields
    | _ => none

def streamId (self : HandshakeCif) : Option Bytes :=
  self.extensions.findSome? fun
    | .streamId sid => some sid
    | _ => none

/-- The first KMREQ block. -/
def kmReq (self : HandshakeCif) : Option Bytes :=
  self.extensions.findSome? fun
    | .kmReq data => some data
    | _ => none

/-- The first KMRSP block. -/
def kmRsp (self : HandshakeCif) : Option Bytes :=
  self.extensions.findSome? fun
    | .kmRsp data => some data
    | _ => none

/-- Some block carries key material. -/
def hasKm (self : HandshakeCif) : Bool :=
  self.extensions.any fun
    | .kmReq _ => true
    | .kmRsp _ => true
    | _ => false

end HandshakeCif

end Rsrt

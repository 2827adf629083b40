import Rsrt.Packet.Handshake

namespace Rsrt

/-!
# Packets

Data packets and control packets as the codec hands them to the connection
core.
-/

/-- Packet position within a message. -/
inductive PacketPosition
  | middle
  | last
  | first
  | only
deriving DecidableEq

/-- KK field: which stream encryption key encrypted the payload. -/
inductive EncryptionFlags
  | none
  | even
  | odd
  | both
deriving DecidableEq

/-- SRT data packet. -/
structure DataPacket where
  seq : SeqNumber
  position : PacketPosition
  order : Bool
  encryption : EncryptionFlags
  retransmitted : Bool
  msgNumber : MsgNumber
  timestamp : Timestamp
  dstSocketId : SocketId
  payload : Bytes
deriving DecidableEq

/-- A data packet of a plain stream, for runs on concrete inputs. -/
def plainPacket (seq : SeqNumber) (us : UInt32) (payload : Bytes) : DataPacket where
  seq
  position := .only
  order := false
  encryption := .none
  retransmitted := false
  msgNumber := MsgNumber.new 1
  timestamp := ⟨us⟩
  dstSocketId := ⟨7⟩
  payload

/-- ACK control information.  A light ACK carries `lastAckSeq` alone. -/
structure AckCif where
  lastAckSeq : SeqNumber
  rttUs : Option Nat := none
  rttVarUs : Option Nat := none
  availBufPkts : Option Nat := none
  recvRatePkts : Option Nat := none
  linkCapacityPkts : Option Nat := none
  recvRateBytes : Option Nat := none
deriving DecidableEq

/-- Inclusive range of lost sequence numbers. -/
structure LossRange where
  first : SeqNumber
  last : SeqNumber
deriving DecidableEq

/-- Control packet type with its control information. -/
inductive ControlType
  | handshake (cif : HandshakeCif)
  | keepAlive
  | ack (ackNumber : Nat) (cif : AckCif)
  | nak (ranges : List LossRange)
  | congestionWarning
  | shutdown
  | ackAck (ackNumber : Nat)
  | dropRequest (msgNumber : MsgNumber) (first last : SeqNumber)
  | peerError (code : Nat)
  | kmReq (payload : Bytes)
  | kmRsp (payload : Bytes)
deriving DecidableEq

structure ControlPacket where
  timestamp : Timestamp
  dstSocketId : SocketId
  controlType : ControlType
deriving DecidableEq

inductive Packet
  | data (packet : DataPacket)
  | control (packet : ControlPacket)
deriving DecidableEq

end Rsrt

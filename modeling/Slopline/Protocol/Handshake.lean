import Slopline.Core.Endian
import Slopline.Core.Errors

/-! Connection-establishment handshake codec and its validation policy
(`hotline/protocol/handshake.h`, `handshake.cpp`). -/

set_option autoImplicit false

namespace Slopline.Protocol

open Endian

def kProtocolTrTp : UInt32 := fourCc 'T' 'R' 'T' 'P'
def kProtocolNick : UInt32 := fourCc 'N' 'I' 'C' 'K'
def kSubProtocolHotl : UInt32 := fourCc 'H' 'O' 'T' 'L'
def kProtocolVersion : UInt16 := 1
def kClientSubVersion : UInt16 := 2
def kClientHandshakeSize : Nat := 12
def kServerHandshakeReplySize : Nat := 8

structure ClientHandshake where
  protocol : UInt32 := kProtocolTrTp
  subProtocol : UInt32 := kSubProtocolHotl
  version : UInt16 := kProtocolVersion
  subVersion : UInt16 := kClientSubVersion
  deriving DecidableEq, Repr

structure ServerHandshakeReply where
  protocol : UInt32 := kProtocolTrTp
  error : UInt32 := 0
  deriving DecidableEq, Repr

def encodeClientHandshake (handshake : ClientHandshake) : Bytes :=
  writeU32be handshake.protocol ++ writeU32be handshake.subProtocol ++
    writeU16be handshake.version ++ writeU16be handshake.subVersion

def decodeClientHandshake (bytes : Bytes) : ClientHandshake where
  protocol := readU32be bytes
  subProtocol := readU32be (bytes.drop 4)
  version := readU16be (bytes.drop 8)
  subVersion := readU16be (bytes.drop 10)

def encodeServerHandshakeReply (reply : ServerHandshakeReply) : Bytes :=
  writeU32be reply.protocol ++ writeU32be reply.error

def decodeServerHandshakeReply (bytes : Bytes) : ServerHandshakeReply where
  protocol := readU32be bytes
  error := readU32be (bytes.drop 4)

def tryDecodeClientHandshake (bytes : Bytes) : Except DecodeError ClientHandshake :=
  if bytes.length < kClientHandshakeSize then .error .truncated
  else if kClientHandshakeSize < bytes.length then .error .trailingBytes
  else .ok (decodeClientHandshake bytes)

def tryDecodeServerHandshakeReply (bytes : Bytes) : Except DecodeError ServerHandshakeReply :=
  if bytes.length < kServerHandshakeReplySize then .error .truncated
  else if kServerHandshakeReplySize < bytes.length then .error .trailingBytes
  else .ok (decodeServerHandshakeReply bytes)

inductive ClientHandshakeValidation where
  | accepted
  | notTransactionClient
  | incompatibleVersion
  deriving DecidableEq, Repr

def validateClientHandshake (handshake : ClientHandshake) : ClientHandshakeValidation :=
  if handshake.protocol ≠ kProtocolTrTp ∧ handshake.protocol ≠ kProtocolNick then
    .notTransactionClient
  else if handshake.version ≠ kProtocolVersion then .incompatibleVersion
  else .accepted

inductive ServerHandshakeReplyValidation where
  | accepted
  | formatUnknown
  | versionUnknown
  deriving DecidableEq, Repr

def validateServerHandshakeReply (reply : ServerHandshakeReply) : ServerHandshakeReplyValidation :=
  if reply.protocol ≠ kProtocolTrTp ∧ reply.protocol ≠ kProtocolNick then .formatUnknown
  else if reply.error ≠ 0 then .versionUnknown
  else .accepted

def normalizeRejectReason (reason : UInt32) : UInt32 := if reason = 0 then 1 else reason

@[simp] theorem length_encodeClientHandshake (handshake : ClientHandshake) :
    (encodeClientHandshake handshake).length = kClientHandshakeSize := rfl

@[simp] theorem length_encodeServerHandshakeReply (reply : ServerHandshakeReply) :
    (encodeServerHandshakeReply reply).length = kServerHandshakeReplySize := rfl

@[simp] theorem tryDecodeClientHandshake_exact {bytes : Bytes} (size : bytes.length = kClientHandshakeSize) :
    tryDecodeClientHandshake bytes = .ok (decodeClientHandshake bytes) := by
  simp [tryDecodeClientHandshake, size]

@[simp] theorem tryDecodeServerHandshakeReply_exact {bytes : Bytes}
    (size : bytes.length = kServerHandshakeReplySize) :
    tryDecodeServerHandshakeReply bytes = .ok (decodeServerHandshakeReply bytes) := by
  simp [tryDecodeServerHandshakeReply, size]

@[simp] theorem decodeClientHandshake_encode (handshake : ClientHandshake) :
    decodeClientHandshake (encodeClientHandshake handshake) = handshake := by
  have first : encodeClientHandshake handshake =
      writeU32be handshake.protocol ++ (encodeClientHandshake handshake).drop 4 := rfl
  have second : (encodeClientHandshake handshake).drop 4 =
      writeU32be handshake.subProtocol ++ (encodeClientHandshake handshake).drop 8 := rfl
  have third : (encodeClientHandshake handshake).drop 8 =
      writeU16be handshake.version ++ (encodeClientHandshake handshake).drop 10 := rfl
  have fourth : (encodeClientHandshake handshake).drop 10 = writeU16be handshake.subVersion ++ [] := rfl
  have protocol : readU32be (encodeClientHandshake handshake) = handshake.protocol := by
    rw [first, readU32be_writeU32be]
  simp only [decodeClientHandshake, protocol, fourth, third, second, readU32be_writeU32be,
    readU16be_writeU16be]

@[simp] theorem decodeServerHandshakeReply_encode (reply : ServerHandshakeReply) :
    decodeServerHandshakeReply (encodeServerHandshakeReply reply) = reply := by
  have first : encodeServerHandshakeReply reply =
      writeU32be reply.protocol ++ (encodeServerHandshakeReply reply).drop 4 := rfl
  have second : (encodeServerHandshakeReply reply).drop 4 = writeU32be reply.error ++ [] := rfl
  have protocol : readU32be (encodeServerHandshakeReply reply) = reply.protocol := by
    rw [first, readU32be_writeU32be]
  simp only [decodeServerHandshakeReply, protocol, second, readU32be_writeU32be]

end Slopline.Protocol

import Slopline.Core.Endian

/-! Transaction header codec (`hotline/protocol/transaction.h`, `constants.h`). -/

set_option autoImplicit false

namespace Slopline.Protocol

open Endian

/-- The source's `enum class TransactionType : std::uint16_t`: a header field is cast
to it unchecked, so every 16-bit value is one. -/
abbrev TransactionType := UInt16

def TransactionType.error : TransactionType := 100

def TransactionType.login : TransactionType := 107

def TransactionType.agreed : TransactionType := 121

def TransactionType.keepConnectionAlive : TransactionType := 500

def kTransactionHeaderSize : Nat := 20

structure TransactionHeader where
  flag : UInt8 := 0
  isReply : UInt8 := 0
  type : TransactionType := TransactionType.error
  id : UInt32 := 0
  error : UInt32 := 0
  totalSize : UInt32 := 0
  dataSize : UInt32 := 0
  deriving DecidableEq, Repr, Inhabited

def encodeHeader (header : TransactionHeader) : Bytes :=
  [header.flag, header.isReply] ++ writeU16be header.type ++ writeU32be header.id ++
    writeU32be header.error ++ writeU32be header.totalSize ++ writeU32be header.dataSize

def decodeHeader (bytes : Bytes) : TransactionHeader where
  flag := bytes.getD 0 0
  isReply := bytes.getD 1 0
  type := readU16be (bytes.drop 2)
  id := readU32be (bytes.drop 4)
  error := readU32be (bytes.drop 8)
  totalSize := readU32be (bytes.drop 12)
  dataSize := readU32be (bytes.drop 16)

@[simp] theorem length_encodeHeader (header : TransactionHeader) :
    (encodeHeader header).length = kTransactionHeaderSize := rfl

@[simp] theorem decodeHeader_encodeHeader (header : TransactionHeader) :
    decodeHeader (encodeHeader header) = header := by
  have type : (encodeHeader header).drop 2 = writeU16be header.type ++ (encodeHeader header).drop 4 := rfl
  have id : (encodeHeader header).drop 4 = writeU32be header.id ++ (encodeHeader header).drop 8 := rfl
  have error : (encodeHeader header).drop 8 = writeU32be header.error ++ (encodeHeader header).drop 12 := rfl
  have total : (encodeHeader header).drop 12 =
      writeU32be header.totalSize ++ (encodeHeader header).drop 16 := rfl
  have size : (encodeHeader header).drop 16 = writeU32be header.dataSize ++ [] := rfl
  simp only [decodeHeader, size, total, error, id, type, readU16be_writeU16be, readU32be_writeU32be]
  rfl

theorem encodeHeader_decodeHeader {bytes : Bytes} (size : bytes.length = kTransactionHeaderSize) :
    encodeHeader (decodeHeader bytes) = bytes := by
  match bytes, size with
  | [b0, b1, b2, b3, b4, b5, b6, b7, b8, b9, b10, b11, b12, b13, b14, b15, b16, b17, b18, b19], _ =>
    have type : writeU16be (readU16be [b2, b3]) = [b2, b3] := writeU16be_readU16be rfl
    have id : writeU32be (readU32be [b4, b5, b6, b7]) = [b4, b5, b6, b7] := writeU32be_readU32be rfl
    have error : writeU32be (readU32be [b8, b9, b10, b11]) = [b8, b9, b10, b11] := writeU32be_readU32be rfl
    have total : writeU32be (readU32be [b12, b13, b14, b15]) = [b12, b13, b14, b15] := writeU32be_readU32be rfl
    have size : writeU32be (readU32be [b16, b17, b18, b19]) = [b16, b17, b18, b19] := writeU32be_readU32be rfl
    calc encodeHeader (decodeHeader _)
        = [b0, b1] ++ writeU16be (readU16be [b2, b3]) ++ writeU32be (readU32be [b4, b5, b6, b7]) ++
            writeU32be (readU32be [b8, b9, b10, b11]) ++ writeU32be (readU32be [b12, b13, b14, b15]) ++
            writeU32be (readU32be [b16, b17, b18, b19]) := rfl
      _ = _ := by
        rw [type, id, error, total, size]
        rfl

end Slopline.Protocol

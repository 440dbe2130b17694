import Slopline.Net.Address

/-! The system's form of an address (`appwarrior/net/socket.cpp`, `to_sockaddr` and `from_sockaddr`).

An integer of the structure is the value the host reads there, so the host's byte order is in the
conversions alone. The `flowinfo` word stays zero and nothing reads it.
-/

set_option autoImplicit false

namespace Slopline.Net

open Endian

inductive ByteOrder where
  | little
  | big
  deriving DecidableEq, Repr

def swapBytes16 (value : UInt16) : UInt16 := (value <<< 8) ||| (value >>> 8)

def swapBytes32 (value : UInt32) : UInt32 :=
  (value <<< 24) ||| ((value &&& (0xFF00 : UInt32)) <<< 8) ||| ((value >>> 8) &&& (0xFF00 : UInt32)) |||
    (value >>> 24)

def htons (host : ByteOrder) (value : UInt16) : UInt16 :=
  match host with
  | .little => swapBytes16 value
  | .big => value

def ntohs (host : ByteOrder) (value : UInt16) : UInt16 := htons host value

def htonl (host : ByteOrder) (value : UInt32) : UInt32 :=
  match host with
  | .little => swapBytes32 value
  | .big => value

/-- `sockaddr_storage` by its family: a `sockaddr_in` or a `sockaddr_in6`. -/
inductive SockAddr where
  | inet (port : UInt16) (address : UInt32)
  | inet6 (port : UInt16) (address : Vector UInt8 16) (scopeId : UInt32)
  deriving DecidableEq

def toSockaddr (host : ByteOrder) (address : IpAddress) : SockAddr :=
  match address.family with
  | .ipv4 => .inet (htons host address.port) (htonl host address.networkAddress)
  | .ipv6 => .inet6 (htons host address.port) address.bytes address.scopeId

def fromSockaddr (host : ByteOrder) : SockAddr → IpAddress
  | .inet6 port address scopeId => .ipv6 address (ntohs host port) scopeId
  | .inet port network =>
    .ipv4 (network &&& 0xFF).toUInt8 ((network >>> 8) &&& 0xFF).toUInt8 ((network >>> 16) &&& 0xFF).toUInt8
      ((network >>> 24) &&& 0xFF).toUInt8 (ntohs host port)

theorem swapBytes16_swapBytes16 (value : UInt16) : swapBytes16 (swapBytes16 value) = value := by
  apply UInt16.eq_of_toBitVec_eq
  apply BitVec.eq_of_getLsbD_eq
  intro i bound
  simp only [swapBytes16, UInt16.toBitVec_or, UInt16.toBitVec_shiftLeft, UInt16.toBitVec_shiftRight,
    BitVec.getLsbD_or]
  interval_cases i <;> simp

/-- A swapped value is written low byte first as the value is written high byte first. -/
theorem writeU32le_swapBytes32 (value : UInt32) : writeU32le (swapBytes32 value) = writeU32be value := by
  simp only [writeU32le, writeU32be, List.cons.injEq, and_true]
  refine ⟨?_, ?_, ?_, ?_⟩ <;>
  · apply UInt8.eq_of_toBitVec_eq
    apply BitVec.eq_of_getLsbD_eq
    intro i bound
    simp only [swapBytes32, UInt32.toBitVec_toUInt8, UInt32.toBitVec_and, UInt32.toBitVec_shiftRight,
      UInt32.toBitVec_or, UInt32.toBitVec_shiftLeft]
    interval_cases i <;> simp

theorem ntohs_htons (host : ByteOrder) (value : UInt16) : ntohs host (htons host value) = value := by
  cases host with
  | little => exact swapBytes16_swapBytes16 value
  | big => rfl

/-- The octets that are read from a word are its bytes from the low one on, whatever the host. -/
theorem fromSockaddr_inet (host : ByteOrder) (port : UInt16) (network : UInt32) {a b c d : UInt8}
    (bytes : writeU32le network = [a, b, c, d]) :
    fromSockaddr host (.inet port network) = .ipv4 a b c d (ntohs host port) := by
  simp only [writeU32le, List.cons.injEq, and_true] at bytes
  obtain ⟨first, second, third, fourth⟩ := bytes
  rw [fromSockaddr, first, second, third, fourth]

theorem writeU32be_networkAddress (a b c d : UInt8) (port : UInt16) :
    writeU32be (IpAddress.ipv4 a b c d port).networkAddress = [a, b, c, d] := by
  have read : (IpAddress.ipv4 a b c d port).networkAddress = readU32be [a, b, c, d] := rfl
  rw [read, writeU32be_readU32be rfl]

/-- An IPv4 address comes back from a little-endian host as it is and from a big-endian one with its
octets in reverse, where the word in memory is not swapped. -/
theorem fromSockaddr_ipv4 (host : ByteOrder) (a b c d : UInt8) (port : UInt16) :
    fromSockaddr host (toSockaddr host (.ipv4 a b c d port)) =
      match host with
      | .little => .ipv4 a b c d port
      | .big => .ipv4 d c b a port := by
  have bytes := writeU32be_networkAddress a b c d port
  cases host with
  | little =>
    have order := (writeU32le_swapBytes32 _).trans bytes
    have back := fromSockaddr_inet .little (htons .little port) _ order
    rwa [ntohs_htons] at back
  | big =>
    have order : writeU32le (IpAddress.ipv4 a b c d port).networkAddress = [d, c, b, a] := by
      rw [writeU32le_eq_reverse, bytes]
      rfl
    exact fromSockaddr_inet .big port _ order

theorem fromSockaddr_ipv6 (host : ByteOrder) (bytes : Vector UInt8 16) (port : UInt16) (scopeId : UInt32) :
    fromSockaddr host (toSockaddr host (.ipv6 bytes port scopeId)) = .ipv6 bytes port scopeId := by
  change IpAddress.ipv6 bytes (ntohs host (htons host port)) scopeId = _
  rw [ntohs_htons]

def IpAddress.Palindrome (address : IpAddress) : Prop :=
  (address.bytes.toList.take 4).reverse = address.bytes.toList.take 4

theorem IpAddress.palindrome_ipv4 (a b c d : UInt8) (port : UInt16) :
    (ipv4 a b c d port).Palindrome ↔ ipv4 d c b a port = ipv4 a b c d port := by
  have octets (a b c d : UInt8) : (ipv4 a b c d port).bytes.toList.take 4 = [a, b, c, d] := rfl
  constructor
  · intro same
    rw [Palindrome, octets] at same
    obtain ⟨first, second, third, fourth⟩ : d = a ∧ c = b ∧ b = c ∧ a = d := by simpa using same
    rw [first, second]
  · intro same
    have turned : [a, b, c, d].reverse = [d, c, b, a] := rfl
    rw [Palindrome, octets, turned, ← octets d c b a, same, octets]

/-- Where the conversion loses nothing. -/
theorem fromSockaddr_toSockaddr_iff (host : ByteOrder) (address : IpAddress) :
    fromSockaddr host (toSockaddr host address) = address ↔
      host = .little ∨ address.family = .ipv6 ∨ address.Palindrome := by
  cases family : address.family with
  | ipv4 =>
    rw [IpAddress.eq_ipv4 family, fromSockaddr_ipv4, IpAddress.palindrome_ipv4]
    cases host with
    | little => simp
    | big => simp
  | ipv6 =>
    rw [IpAddress.eq_ipv6 family, fromSockaddr_ipv6]
    simp

theorem fromSockaddr_reversed :
    fromSockaddr .big (toSockaddr .big (.ipv4 1 2 3 4 0)) ≠ .ipv4 1 2 3 4 0 := by decide

end Slopline.Net

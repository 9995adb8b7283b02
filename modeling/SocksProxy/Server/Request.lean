import Mathlib.Data.Vector.Basic
import SocksProxy.Server.Negotiation
import SocksProxy.Server.Auth

/-!
# Requests and replies

`request.c`: the parser of `VER CMD RSV ATYP DST.ADDR DST.PORT` and the replies
of RFC 1928 §6, together with the part of `netutils.c` that takes a socket
address apart. The parser does not judge the command; its caller does.
-/

namespace SocksProxy

def SOCKS5_ATYP_IPV4 : UInt8 := 0x01

def SOCKS5_ATYP_DOMAIN : UInt8 := 0x03

def SOCKS5_ATYP_IPV6 : UInt8 := 0x04

def SOCKS5_CMD_CONNECT : UInt8 := 0x01

def SOCKS5_REP_SUCCESS : UInt8 := 0x00

def SOCKS5_REP_GENERAL_FAILURE : UInt8 := 0x01

def SOCKS5_REP_NETWORK_UNREACHABLE : UInt8 := 0x03

def SOCKS5_REP_HOST_UNREACHABLE : UInt8 := 0x04

def SOCKS5_REP_CONNECTION_REFUSED : UInt8 := 0x05

def SOCKS5_REP_TTL_EXPIRED : UInt8 := 0x06

def SOCKS5_REP_CMD_NOT_SUPPORTED : UInt8 := 0x07

/-- `req_state`. -/
inductive ReqState where
  | ver
  | cmd
  | rsv
  | atyp
  | dlen
  | daddr
  | dport
  | done
  | error
  deriving DecidableEq, Repr

/-- `struct socks5_request`. -/
structure Socks5Request where
  state : ReqState
  cmd : UInt8
  atyp : UInt8
  dstAddr : ByteTable
  addrLen : UInt8
  addrRead : UInt8
  dstPort : UInt16
  portRead : UInt8

/-- `request_parser_init`: `dst_addr` keeps whatever it held. -/
def requestParserInit (p : Socks5Request) : Socks5Request :=
  { p with
    state := .ver
    cmd := 0
    atyp := 0
    addrLen := 0
    addrRead := 0
    dstPort := 0
    portRead := 0 }

namespace Socks5Request

/-- The structure as `calloc` leaves it. -/
def zero : Socks5Request where
  state := .ver
  cmd := 0
  atyp := 0
  dstAddr := ByteTable.zero
  addrLen := 0
  addrRead := 0
  dstPort := 0
  portRead := 0

/-- The `REQ_ATYP` case: the address type fixes the length, or the next byte does. -/
def takeAtyp (p : Socks5Request) (c : UInt8) : Socks5Request :=
  if c = SOCKS5_ATYP_IPV4 then { p with atyp := c, addrLen := 4, state := .daddr }
  else if c = SOCKS5_ATYP_IPV6 then { p with atyp := c, addrLen := 16, state := .daddr }
  else if c = SOCKS5_ATYP_DOMAIN then { p with atyp := c, state := .dlen }
  else { p with atyp := c, state := .error }

/-- The `REQ_DADDR` case: a NUL inside a domain name is refused. -/
def takeAddr (p : Socks5Request) (c : UInt8) : Socks5Request :=
  if p.atyp = SOCKS5_ATYP_DOMAIN ∧ c = 0 then { p with state := .error }
  else
    let q := { p with dstAddr := p.dstAddr.set p.addrRead c, addrRead := p.addrRead + 1 }
    if q.addrRead = q.addrLen then { q with state := .dport } else q

/-- The `REQ_DPORT` case: two bytes, the high one first. -/
def takePort (p : Socks5Request) (c : UInt8) : Socks5Request :=
  let q := { p with dstPort := (p.dstPort <<< 8) ||| c.toUInt16, portRead := p.portRead + 1 }
  if q.portRead = 2 then { q with state := .done } else q

/-- The body of the `switch` in `request_parser_feed`. -/
def step (p : Socks5Request) (c : UInt8) : Socks5Request :=
  match p.state with
  | .ver => { p with state := if c = SOCKS5_VERSION then .cmd else .error }
  | .cmd => { p with cmd := c, state := .rsv }
  | .rsv => { p with state := if c = 0 then .atyp else .error }
  | .atyp => p.takeAtyp c
  | .dlen => { p with addrLen := c, state := if c = 0 then .error else .daddr }
  | .daddr => p.takeAddr c
  | .dport => p.takePort c
  | .done | .error => p

/-- The loop of `request_parser_feed` stops on a complete or an invalid request. -/
def stopped (p : Socks5Request) : Bool := p.state = .done || p.state = .error

/-- The request parser as a byte consumer. -/
def consumer : Consumer Socks5Request UInt8 where
  step := step
  final := stopped

/-- The destination bytes received: `addr_len` bytes of `dst_addr`. -/
def address (p : Socks5Request) : List UInt8 := p.dstAddr.take p.addrLen.toNat

end Socks5Request

/-- `request_parser_feed`. -/
def requestParserFeed (p : Socks5Request) (b : Buffer) : Socks5Request × Buffer :=
  b.feed Socks5Request.consumer p

/-- `request_done`. -/
def requestDone (p : Socks5Request) : Bool := p.state = .done

/-- A port as it lies in a socket address: two bytes in network order. -/
structure NetPort where
  high : UInt8
  low : UInt8
  deriving DecidableEq, Repr

/-- `ntohs`. -/
def ntohs (port : NetPort) : UInt16 := (port.high.toUInt16 <<< 8) ||| port.low.toUInt16

/-- `htons`. -/
def htons (port : UInt16) : NetPort := ⟨(port >>> 8).toUInt8, (port &&& 0xFF).toUInt8⟩

/-- `struct sockaddr` for the families the proxy tells apart. -/
inductive Sockaddr where
  | inet (addr : List.Vector UInt8 4) (port : NetPort)
  | inet6 (addr : List.Vector UInt8 16) (port : NetPort)
  | other
  deriving DecidableEq

/-- `sockaddr_get_addr_port`: address bytes and host-order port. -/
def sockaddrGetAddrPort : Sockaddr → Option (List UInt8 × UInt16)
  | .inet addr port => some (addr.toList, ntohs port)
  | .inet6 addr port => some (addr.toList, ntohs port)
  | .other => none

/-- The bytes of a reply, in the order `write_request_reply` writes them. -/
def requestReply (rep atyp : UInt8) (addr : List UInt8) (port : UInt16) : List UInt8 :=
  SOCKS5_VERSION :: rep :: 0x00 :: atyp :: addr ++
    [(port >>> 8).toUInt8, (port &&& 0xFF).toUInt8]

/-- `write_request_reply`, where the zeros written for a `NULL` address are given. -/
def writeRequestReply (b : Buffer) (rep atyp : UInt8) (addr : List UInt8) (port : UInt16) :
    Buffer :=
  b.writeBytes (requestReply rep atyp addr port)

/-- `fill_request_reply`. -/
def fillRequestReply (b : Buffer) (rep atyp : UInt8) : Buffer :=
  let atyp := if atyp ≠ SOCKS5_ATYP_IPV6 then SOCKS5_ATYP_IPV4 else atyp
  let addrLen := if atyp = SOCKS5_ATYP_IPV6 then 16 else 4
  writeRequestReply b rep atyp (List.replicate addrLen 0) 0

/-- The address type for `sa_family`. -/
def Sockaddr.atyp : Sockaddr → UInt8
  | .inet6 _ _ => SOCKS5_ATYP_IPV6
  | _ => SOCKS5_ATYP_IPV4

/-- `fill_request_reply_addr`: `none` where the source returns `false`. -/
def fillRequestReplyAddr (b : Buffer) (rep : UInt8) (sa : Sockaddr) : Option Buffer :=
  match sockaddrGetAddrPort sa with
  | none => none
  | some (addr, port) => some (writeRequestReply b rep sa.atyp addr port)

/-- The error reply of `fill_request_reply` for an address type: no address and no port. -/
def nullReply (rep atyp : UInt8) : List UInt8 :=
  if atyp = SOCKS5_ATYP_IPV6 then requestReply rep SOCKS5_ATYP_IPV6 (List.replicate 16 0) 0
  else requestReply rep SOCKS5_ATYP_IPV4 (List.replicate 4 0) 0

/-- The reply of `fill_request_reply_addr`, when the address family allows one. -/
def addrReply (rep : UInt8) (sa : Sockaddr) : Option (List UInt8) :=
  (sockaddrGetAddrPort sa).map fun pair => requestReply rep sa.atyp pair.1 pair.2

theorem fillRequestReply_eq (b : Buffer) (rep atyp : UInt8) :
    fillRequestReply b rep atyp = b.writeBytes (nullReply rep atyp) := by
  by_cases six : atyp = SOCKS5_ATYP_IPV6
  · simp [fillRequestReply, nullReply, writeRequestReply, six]
  · have four : SOCKS5_ATYP_IPV4 ≠ SOCKS5_ATYP_IPV6 := by decide
    simp [fillRequestReply, nullReply, writeRequestReply, six, four]

theorem fillRequestReplyAddr_eq (b : Buffer) (rep : UInt8) (sa : Sockaddr) :
    fillRequestReplyAddr b rep sa = (addrReply rep sa).map b.writeBytes := by
  cases sa <;> rfl

/-- A complete RFC 1928 reply: 10 bytes with an IPv4 address or 22 with an IPv6 one. -/
inductive IsReply : UInt8 → List UInt8 → Prop where
  | ipv4 (rep : UInt8) (addr : List.Vector UInt8 4) (port : NetPort) :
      IsReply rep (SOCKS5_VERSION :: rep :: 0x00 :: SOCKS5_ATYP_IPV4 :: addr.toList ++
        [port.high, port.low])
  | ipv6 (rep : UInt8) (addr : List.Vector UInt8 16) (port : NetPort) :
      IsReply rep (SOCKS5_VERSION :: rep :: 0x00 :: SOCKS5_ATYP_IPV6 :: addr.toList ++
        [port.high, port.low])

theorem IsReply.length_eq {rep : UInt8} {reply : List UInt8} (complete : IsReply rep reply) :
    reply.length = 10 ∨ reply.length = 22 := by
  cases complete with
  | ipv4 addr port => left; simp
  | ipv6 addr port => right; simp

theorem IsReply.ne_nil {rep : UInt8} {reply : List UInt8} (complete : IsReply rep reply) :
    reply ≠ [] := by
  rintro rfl
  simpa using complete.length_eq

theorem toNat_ntohs (port : NetPort) :
    (ntohs port).toNat = port.high.toNat * 256 + port.low.toNat := by
  have highBound := port.high.toNat_lt
  have lowBound := port.low.toNat_lt
  simp only [ntohs, UInt16.toNat_or, UInt16.toNat_shiftLeft, UInt8.toNat_toUInt16,
    UInt16.reduceToNat, Nat.reduceMod]
  rw [Nat.shiftLeft_eq, Nat.mod_eq_of_lt (by omega), ← Nat.shiftLeft_eq,
    ← Nat.shiftLeft_add_eq_or_of_lt (by omega), Nat.shiftLeft_eq]

theorem high_ntohs (port : NetPort) : (ntohs port >>> 8).toUInt8 = port.high := by
  have lowBound := port.low.toNat_lt
  have portBound := (ntohs port).toNat_lt
  apply UInt8.toNat_inj.mp
  have shifted : (ntohs port >>> 8).toUInt8.toNat = (ntohs port).toNat / 256 := by
    simp [Nat.shiftRight_eq_div_pow]
    omega
  rw [shifted, toNat_ntohs]
  omega

theorem low_ntohs (port : NetPort) : (ntohs port &&& 0xFF).toUInt8 = port.low := by
  have lowBound := port.low.toNat_lt
  apply UInt8.toNat_inj.mp
  have masked : (ntohs port &&& 0xFF).toUInt8.toNat = (ntohs port).toNat % 256 := by
    simp only [UInt16.toNat_toUInt8, UInt16.toNat_and, UInt16.reduceToNat]
    rw [show (255 : Nat) = 2 ^ 8 - 1 from rfl, Nat.and_two_pow_sub_one_eq_mod]
    omega
  rw [masked, toNat_ntohs]
  omega

/-- The bytes `sa` contributes to a reply: its address and its port, both in network order. -/
def sockaddrBytes : Sockaddr → List UInt8
  | .inet addr port => addr.toList ++ [port.high, port.low]
  | .inet6 addr port => addr.toList ++ [port.high, port.low]
  | .other => []

/-- A reply built from a socket address is complete and carries that address and port. -/
theorem isReply_of_addrReply {rep : UInt8} {sa : Sockaddr} {reply : List UInt8}
    (built : addrReply rep sa = some reply) :
    IsReply rep reply ∧ reply.drop 4 = sockaddrBytes sa := by
  cases sa with
  | inet addr port =>
      simp only [addrReply, sockaddrGetAddrPort, Sockaddr.atyp, requestReply, high_ntohs,
        low_ntohs, Option.map_some, Option.some.injEq] at built
      subst built
      exact ⟨.ipv4 rep addr port, by simp [sockaddrBytes]⟩
  | inet6 addr port =>
      simp only [addrReply, sockaddrGetAddrPort, Sockaddr.atyp, requestReply, high_ntohs,
        low_ntohs, Option.map_some, Option.some.injEq] at built
      subst built
      exact ⟨.ipv6 rep addr port, by simp [sockaddrBytes]⟩
  | other => simp [addrReply, sockaddrGetAddrPort] at built

theorem isReply_nullReply (rep : UInt8) : IsReply rep (nullReply rep SOCKS5_ATYP_IPV4) :=
  IsReply.ipv4 rep ⟨[0, 0, 0, 0], rfl⟩ ⟨0, 0⟩

end SocksProxy

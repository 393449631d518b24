import Mathlib.Data.UInt
import SessionRouter.Address.IpRange
import SessionRouter.Lib.OnesComplement
import SessionRouter.Lib.Wire

/-!
# IP packets
-/

namespace SessionRouter.Net

open Lib OnesComplement Address

namespace IPProtocol

def ICMP : UInt8 := 0x01
def TCP : UInt8 := 0x06
def UDP : UInt8 := 0x11
def ICMP6 : UInt8 := 0x3A
def UDP_LITE : UInt8 := 0x88

end IPProtocol

def MIN_PACKET_SIZE : Nat := 20
def ipHeaderSize : Nat := 20
def ipv6HeaderSize : Nat := 40
def TCP_CSUM_OFF : Nat := 16
def UDP_CSUM_OFF : Nat := 6
def ICMP_CSUM_OFF : Nat := 2
def ICMPv4_HEADER_SIZE : Nat := 8
def ICMPv6_HEADER_SIZE : Nat := 4

@[ext] structure IPPacket where
  buf : Bytes
  minSize : buf = [] ∨ MIN_PACKET_SIZE ≤ buf.length
  deriving DecidableEq

def hostToBig (host : ByteOrder) (value : Nat) : UInt32 :=
  UInt32.ofNat (host.load (storeBig 4 value))

variable (oldSum : UInt16) (oldSrc oldDest newSrc newDest : UInt32) (host : ByteOrder) (value : Nat)

theorem toNat_hostToBig : (hostToBig host value).toNat = host.load (storeBig 4 value) := by
  have hlt := host.load_lt (storeBig 4 value)
  rw [length_storeBig] at hlt
  exact UInt32.toNat_ofNat_of_lt' hlt

theorem store_hostToBig : host.store 4 (hostToBig host value).toNat = storeBig 4 value := by
  have h := host.store_load (storeBig 4 value)
  rwa [length_storeBig, ← toNat_hostToBig] at h

theorem toNat_halves_hostToBig :
    (halves (hostToBig host value)).toNat = wordSum host (storeBig 4 value) :=
  toNat_halves_load host (length_storeBig 4 value)

def add32Cs (x : UInt32) : UInt32 :=
  halves x

def sub32Cs (x : UInt32) : UInt32 :=
  add32Cs (~~~x)

theorem toNat_ipv4Sum :
    (oldSum.toUInt32 + add32Cs oldSrc + add32Cs oldDest + sub32Cs newSrc + sub32Cs newDest).toNat =
      oldSum.toNat + (halves oldSrc).toNat + (halves oldDest).toNat +
        (halves (~~~newSrc)).toNat + (halves (~~~newDest)).toNat := by
  have hsum := oldSum.toNat_lt
  have hsrc := toNat_halves_not oldSrc
  have hdest := toNat_halves_not oldDest
  have hsrc' := toNat_halves_not newSrc
  have hdest' := toNat_halves_not newDest
  simp only [UInt32.toNat_add, UInt16.toNat_toUInt32, sub32Cs, add32Cs]
  omega

def updateIpv4Checksum (oldSum : UInt16) (oldSrc oldDest newSrc newDest : UInt32) : UInt16 :=
  fold (oldSum.toUInt32 + add32Cs oldSrc + add32Cs oldDest + sub32Cs newSrc + sub32Cs newDest)

theorem updateIpv4Checksum_modEq :
    (updateIpv4Checksum oldSum oldSrc oldDest newSrc newDest).toNat + (halves newSrc).toNat +
        (halves newDest).toNat ≡
      oldSum.toNat + (halves oldSrc).toNat + (halves oldDest).toNat [MOD 65535] := by
  obtain ⟨_, hmod, _⟩ := fold_folds
    (oldSum.toUInt32 + add32Cs oldSrc + add32Cs oldDest + sub32Cs newSrc + sub32Cs newDest)
  rw [toNat_ipv4Sum] at hmod
  have hsrc := toNat_halves_not newSrc
  have hdest := toNat_halves_not newDest
  unfold updateIpv4Checksum
  unfold Nat.ModEq at hmod ⊢
  omega

theorem updateIpv4Checksum_ne_zero {oldSum : UInt16} (h : oldSum ≠ 0)
    (oldSrc oldDest newSrc newDest : UInt32) :
    updateIpv4Checksum oldSum oldSrc oldDest newSrc newDest ≠ 0 := by
  obtain ⟨_, _, hzero⟩ := fold_folds
    (oldSum.toUInt32 + add32Cs oldSrc + add32Cs oldDest + sub32Cs newSrc + sub32Cs newDest)
  rw [toNat_ipv4Sum] at hzero
  rw [Ne, ← UInt16.toNat_inj] at h ⊢
  change oldSum.toNat ≠ 0 at h
  change (updateIpv4Checksum oldSum oldSrc oldDest newSrc newDest).toNat ≠ 0
  unfold updateIpv4Checksum
  omega

def updateIpv4TcpChecksum (oldSum : UInt16) (oldSrc oldDest newSrc newDest : UInt32) : UInt16 :=
  let newSum := updateIpv4Checksum oldSum oldSrc oldDest newSrc newDest
  -- minus zero never appears in a checksum over something that is not zero
  if newSum = 0xFFFF then 0 else newSum

def updateIpv4UdpChecksum (oldSum : UInt16) (oldSrc oldDest newSrc newDest : UInt32) : UInt16 :=
  -- zero says that there is no checksum
  if oldSum = 0 then oldSum else updateIpv4Checksum oldSum oldSrc oldDest newSrc newDest

def add32x4Cs (xs : List UInt32) : UInt32 :=
  (xs.map add32Cs).sum

def sub32x4Cs (xs : List UInt32) : UInt32 :=
  (xs.map sub32Cs).sum

def updateIpv6Checksum (oldSum : UInt16) (oldSrc oldDest newSrc newDest : List UInt32) : UInt16 :=
  fold (oldSum.toUInt32 + add32x4Cs oldSrc + add32x4Cs oldDest + sub32x4Cs newSrc +
    sub32x4Cs newDest)

def ipChecksum (host : ByteOrder) (buf : Bytes) : UInt16 :=
  ~~~fold (UInt32.ofNat (wordSum host buf))

namespace IPPacket

def size (pkt : IPPacket) : Nat :=
  pkt.buf.length

def byte (pkt : IPPacket) (pos : Nat) : UInt8 :=
  pkt.buf.getD pos 0

def field (pkt : IPPacket) (pos count : Nat) : Bytes :=
  (pkt.buf.drop pos).take count

def word (host : ByteOrder) (pkt : IPPacket) (pos : Nat) : UInt16 :=
  UInt16.ofNat (host.load (pkt.field pos 2))

def dword (host : ByteOrder) (pkt : IPPacket) (pos : Nat) : UInt32 :=
  UInt32.ofNat (host.load (pkt.field pos 4))

def write (pkt : IPPacket) (pos : Nat) (bytes : Bytes) : IPPacket where
  buf := Wire.overwrite pkt.buf pos bytes
  minSize := by
    have h := pkt.minSize
    rw [← List.length_eq_zero_iff] at h ⊢
    rwa [Wire.length_overwrite]

def writeWord (host : ByteOrder) (pkt : IPPacket) (pos : Nat) (value : UInt16) : IPPacket :=
  pkt.write pos (host.store 2 value.toNat)

def writeDword (host : ByteOrder) (pkt : IPPacket) (pos : Nat) (value : UInt32) : IPPacket :=
  pkt.write pos (host.store 4 value.toNat)

variable (pkt : IPPacket)

@[simp] theorem size_write (pos : Nat) (bytes : Bytes) :
    (pkt.write pos bytes).size = pkt.size :=
  Wire.length_overwrite _ _ _

theorem field_add (pos first second : Nat) :
    pkt.field pos (first + second) = pkt.field pos first ++ pkt.field (pos + first) second := by
  rw [field, field, field, List.take_add, List.drop_drop]

theorem length_field {pkt : IPPacket} {pos count : Nat} (h : pos + count ≤ pkt.size) :
    (pkt.field pos count).length = count := by
  rw [field, List.length_take, List.length_drop]
  unfold size at h
  omega

theorem getElem?_field (pos count i : Nat) :
    (pkt.field pos count)[i]? = if i < count then pkt.buf[pos + i]? else none := by
  rw [field, List.getElem?_take, List.getElem?_drop]

theorem field_write_self {pkt : IPPacket} {pos : Nat} {bytes : Bytes}
    (h : pos + bytes.length ≤ pkt.size) :
    (pkt.write pos bytes).field pos bytes.length = bytes := by
  unfold size at h
  apply List.ext_getElem?
  intro i
  rw [getElem?_field, write, Wire.getElem?_overwrite]
  split
  next hi => rw [if_pos (by omega), Nat.add_sub_cancel_left]
  next hi => rw [List.getElem?_eq_none (by omega)]

theorem field_write_of_disjoint {pos other count : Nat} {bytes : Bytes}
    (h : other + count ≤ pos ∨ pos + bytes.length ≤ other) :
    (pkt.write pos bytes).field other count = pkt.field other count := by
  apply List.ext_getElem?
  intro i
  rw [getElem?_field, getElem?_field, write, Wire.getElem?_overwrite]
  split
  next hi => rw [if_neg (by omega)]
  next hi => rfl

theorem getD_field {pos count i : Nat} (h : i < count) :
    (pkt.field pos count).getD i 0 = pkt.byte (pos + i) := by
  rw [byte, List.getD_eq_getElem?_getD, List.getD_eq_getElem?_getD, getElem?_field, if_pos h]

theorem byte_eq_getD_field (pos : Nat) :
    pkt.byte pos = (pkt.field pos 1).getD 0 0 :=
  (pkt.getD_field Nat.one_pos).symm

def version (pkt : IPPacket) : Nat :=
  (pkt.byte 0).toNat / 16

def headerLen (pkt : IPPacket) : Nat :=
  (pkt.byte 0).toNat % 16

def fragOff (pkt : IPPacket) : Nat :=
  loadBig (pkt.field 6 2) % 0x2000 * 8

def isIpv4 (pkt : IPPacket) : Bool :=
  ipHeaderSize ≤ pkt.size && pkt.version = 4

def isIpv6 (pkt : IPPacket) : Bool :=
  ipv6HeaderSize ≤ pkt.size && pkt.version = 6

theorem le_size_of_isIpv4 {pkt : IPPacket} (h : pkt.isIpv4) : 20 ≤ pkt.size := by
  simp only [isIpv4, Bool.and_eq_true, decide_eq_true_eq] at h
  exact h.1

theorem le_size_of_isIpv6 {pkt : IPPacket} (h : pkt.isIpv6) : 40 ≤ pkt.size := by
  simp only [isIpv6, Bool.and_eq_true, decide_eq_true_eq] at h
  exact h.1

def protocol (pkt : IPPacket) : UInt8 :=
  if pkt.isIpv4 then pkt.byte 9 else if pkt.isIpv6 then pkt.byte 6 else 0

def sourceIpv4 (pkt : IPPacket) : Ipv4 :=
  BitVec.ofNat 32 (loadBig (pkt.field 12 4))

def destIpv4 (pkt : IPPacket) : Ipv4 :=
  BitVec.ofNat 32 (loadBig (pkt.field 16 4))

def sourceIpv6 (pkt : IPPacket) : Ipv6 :=
  BitVec.ofNat 128 (loadBig (pkt.field 8 16))

def destIpv6 (pkt : IPPacket) : Ipv6 :=
  BitVec.ofNat 128 (loadBig (pkt.field 24 16))

def updateIpv4Transport (host : ByteOrder) (pkt : IPPacket) (src dst : Ipv4) : IPPacket :=
  let ihs := pkt.headerLen * 4
  let update (compute : UInt16 → UInt32 → UInt32 → UInt32 → UInt32 → UInt16) (off : Nat) :=
    pkt.writeWord host (ihs + off)
      (compute (pkt.word host (ihs + off)) (pkt.dword host 12) (pkt.dword host 16)
        (hostToBig host src.toNat) (hostToBig host dst.toNat))
  if ihs ≤ pkt.size then
    let payloadSize := pkt.size - ihs
    let proto := pkt.byte 9
    if proto = IPProtocol.TCP then
      if pkt.fragOff ≤ TCP_CSUM_OFF ∧ TCP_CSUM_OFF - pkt.fragOff + 2 ≤ payloadSize then
        update updateIpv4TcpChecksum TCP_CSUM_OFF
      else pkt
    else if proto = IPProtocol.UDP ∨ proto = IPProtocol.UDP_LITE then
      if pkt.fragOff ≤ UDP_CSUM_OFF ∧ UDP_CSUM_OFF + 2 ≤ payloadSize then
        update updateIpv4UdpChecksum UDP_CSUM_OFF
      else pkt
    else pkt
  else pkt

def updateIpv4Address (host : ByteOrder) (pkt : IPPacket) (src dst : Ipv4) : IPPacket :=
  let pkt := pkt.updateIpv4Transport host src dst
  let newSrc := hostToBig host src.toNat
  let newDest := hostToBig host dst.toNat
  let pkt := pkt.writeWord host 10
    (updateIpv4Checksum (pkt.word host 10) (pkt.dword host 12) (pkt.dword host 16) newSrc newDest)
  let pkt := pkt.writeDword host 12 newSrc
  pkt.writeDword host 16 newDest

def dwords (host : ByteOrder) (pkt : IPPacket) (pos : Nat) : List UInt32 :=
  [pkt.dword host pos, pkt.dword host (pos + 4), pkt.dword host (pos + 8),
    pkt.dword host (pos + 12)]

def extensionHeaders (nextproto : UInt8) (start : Nat) (payload : Bytes) :
    Option (UInt8 × Nat × Nat) :=
  if nextproto = 0 ∨ nextproto = 43 ∨ nextproto = 60 then
    let addlen := ((payload.getD 1 0).toNat + 1) * 8
    if payload.length < addlen then none
    else extensionHeaders (payload.getD 0 0) (start + addlen) (payload.drop addlen)
  else if nextproto = 44 then
    let fragoff := (payload.getD 2 0).toNat * 256 + (payload.getD 3 0).toNat / 4 * 4
    if payload.length < 8 then none
    else if fragoff ≠ 0 then some (payload.getD 0 0, fragoff, start + 8)
    else extensionHeaders (payload.getD 0 0) (start + 8) (payload.drop 8)
  else some (nextproto, 0, start)
termination_by payload.length
decreasing_by
  · simp only [List.length_drop]
    omega
  · simp only [List.length_drop]
    omega

def updateIpv6ProtoChecksum (host : ByteOrder) (pkt : IPPacket) (start fragoff chksumoff : Nat)
    (oldSrc oldDest newSrc newDest : List UInt32) : IPPacket :=
  if chksumoff < fragoff ∨ pkt.size - start < chksumoff - fragoff + 2 then pkt
  else
    let pos := start + chksumoff - fragoff
    let check := updateIpv6Checksum (pkt.word host pos) oldSrc oldDest newSrc newDest
    pkt.writeWord host pos (if check = 0xFFFF then 0 else check)

def csumOff (proto : UInt8) : Option Nat :=
  if proto = IPProtocol.TCP then some TCP_CSUM_OFF
  else if proto = IPProtocol.ICMP6 then some ICMP_CSUM_OFF
  else if proto = IPProtocol.UDP ∨ proto = IPProtocol.UDP_LITE then some UDP_CSUM_OFF
  else none

def setFlowlabel (host : ByteOrder) (pkt : IPPacket) (label : UInt32) : IPPacket :=
  let flowHi := (pkt.byte 1).toNat / 16 * 16 + label.toNat / 65536 % 16
  let flowLo := (hostToBig host (label.toNat % 65536)).toUInt16
  (pkt.write 1 [UInt8.ofNat flowHi]).writeWord host 2 flowLo

def updateIpv6Address (host : ByteOrder) (pkt : IPPacket) (src dst : Ipv6)
    (flowlabel : Option UInt32) : IPPacket :=
  if pkt.size ≤ ipv6HeaderSize then pkt
  else
    let pkt := match flowlabel with
      | some label => pkt.setFlowlabel host label
      | none => pkt
    let oldSrc := pkt.dwords host 8
    let oldDest := pkt.dwords host 24
    let pkt := (pkt.write 8 (storeBig 16 src.toNat)).write 24 (storeBig 16 dst.toNat)
    let payload := pkt.buf.drop ipv6HeaderSize
    match extensionHeaders (pkt.byte 6) ipv6HeaderSize payload with
    | none => pkt
    | some (proto, fragoff, start) =>
      match csumOff proto with
      | none => pkt
      | some off =>
        pkt.updateIpv6ProtoChecksum host start fragoff off oldSrc oldDest
          (pkt.dwords host 8) (pkt.dwords host 24)

def clearAddresses (host : ByteOrder) (pkt : IPPacket) : IPPacket :=
  if pkt.isIpv4 then pkt.updateIpv4Address host 0 0
  else if pkt.isIpv6 then pkt.updateIpv6Address host 0 0 none
  else pkt

def replyHeader (pkt : IPPacket) (pktSize : Nat) (checksum : Bytes) : Bytes :=
  [0x45, 0] ++ storeBig 2 pktSize ++ [0, 0, 0x40, 0, pkt.byte 8, IPProtocol.ICMP] ++ checksum ++
    pkt.field 16 4 ++ pkt.field 12 4

def icmpMessage (type code : UInt8) (checksum cause : Bytes) : Bytes :=
  [type, code] ++ checksum ++ [0, 0, 0, 0] ++ cause

theorem length_icmpMessage (type code : UInt8) (checksum cause : Bytes) :
    (icmpMessage type code checksum cause).length = 6 + checksum.length + cause.length := by
  simp [icmpMessage]
  omega

def icmpv4Unreachable (host : ByteOrder) (pkt : IPPacket) : IPPacket :=
  let cause := pkt.buf.take (pkt.headerLen * 4 + 32)
  let header := pkt.replyHeader (ipHeaderSize + ICMPv4_HEADER_SIZE + cause.length)
  let icmp := fun checksum => icmpMessage 3 1 checksum cause
  let sum := fun bytes => host.store 2 (ipChecksum host bytes).toNat
  { buf := header (sum (header [0, 0])) ++ icmp (sum (icmp [0, 0]))
    minSize := by
      refine Or.inr ?_
      simp only [sum, header, icmp, replyHeader, List.length_append, length_icmpMessage,
        ByteOrder.length_store, length_storeBig, List.length_cons, List.length_nil,
        MIN_PACKET_SIZE]
      omega }

def icmpv6Unreachable (host : ByteOrder) (pkt : IPPacket) (h : pkt.isIpv6) : IPPacket :=
  let cause := pkt.buf.take (ipv6HeaderSize + 32)
  let cause := cause.take (cause.length / 4 * 4)
  let payloadLen := storeBig 2 (ICMPv6_HEADER_SIZE + 4 + cause.length)
  let addresses := pkt.field 24 16 ++ pkt.field 8 16
  let icmp := fun checksum => icmpMessage 1 3 checksum cause
  let sum := ipChecksum host
    (addresses ++ payloadLen ++ [0, IPProtocol.ICMP6] ++ icmp [0, 0])
  { buf := [0x60, 0, 0, 0] ++ payloadLen ++ [IPProtocol.ICMP6, pkt.byte 7] ++ addresses ++
      icmp (host.store 2 sum.toNat)
    minSize := by
      refine Or.inr ?_
      simp only [icmp, addresses, payloadLen, List.length_append, length_icmpMessage,
        ByteOrder.length_store, length_storeBig, List.length_cons, List.length_nil,
        length_field (show 24 + 16 ≤ pkt.size from (le_size_of_isIpv6 h)),
        MIN_PACKET_SIZE]
      omega }

def makeIcmpUnreachable (host : ByteOrder) (pkt : IPPacket) : Option IPPacket :=
  if pkt.isIpv4 then some (pkt.icmpv4Unreachable host)
  else if h : pkt.isIpv6 then some (pkt.icmpv6Unreachable host h)
  else none

end IPPacket
end SessionRouter.Net

import SessionRouter.Contact.ContactEncoding
import SessionRouter.Net.IPPacket

/-!
# Traffic that an exit policy allows
-/

namespace SessionRouter.Net

open Lib Bencode Address

def Ipv4Range.contains (r : Ipv4Range) (ip : Ipv4) : Bool :=
  toBase r.mask.toNat ip = toBase r.mask.toNat (BitVec.ofNat 32 r.ip.toNat)

def Ipv6Range.contains (r : Ipv6Range) (ip : Ipv6) : Bool :=
  toBase r.mask.toNat ip =
    toBase r.mask.toNat (BitVec.ofNat 128 (r.hi.toNat * 2 ^ 64 + r.lo.toNat))

def IPPacket.headerSize (pkt : IPPacket) : Nat :=
  if pkt.isIpv4 then pkt.headerLen * 4 else if pkt.isIpv6 then ipv6HeaderSize else 0

def IPPacket.destPort (pkt : IPPacket) : Option UInt16 :=
  if (pkt.protocol = IPProtocol.TCP ∨ pkt.protocol = IPProtocol.UDP) ∧
      pkt.headerSize + 4 ≤ pkt.size then
    some (UInt16.ofNat (loadBig (pkt.field (pkt.headerSize + 2) 2)))
  else none

def ProtocolInfo.matchesPacketProto (info : ProtocolInfo) (pkt : IPPacket) : Bool :=
  pkt.protocol = info.protocol

namespace ExitPolicy

variable (policy : ExitPolicy) (pkt : IPPacket)

def acceptRange : Bool :=
  if pkt.isIpv4 then policy.ranges.any (·.contains pkt.destIpv4)
  else if pkt.isIpv6 then policy.rangesV6.any (·.contains pkt.destIpv6)
  else false

def allowIpTraffic : Bool :=
  if !policy.acceptRange pkt then false
  else if policy.protocols ≠ ∅ ∧ ∀ info ∈ policy.protocols, info.matchesPacketProto pkt = false
    then false
  else true

/-- An entry that names a port stands for packets to that port only. -/
def Lists (info : ProtocolInfo) : Prop :=
  info ∈ policy.protocols ∧ info.protocol = pkt.protocol ∧ ∀ port ∈ info.port,
    pkt.destPort = some port

/-- What a policy is documented to let through. -/
def Allows : Prop :=
  ((pkt.isIpv4 ∧ ∃ r ∈ policy.ranges, r.contains pkt.destIpv4) ∨
      (pkt.isIpv6 ∧ ∃ r ∈ policy.rangesV6, r.contains pkt.destIpv6)) ∧
    (policy.protocols = ∅ ∨ ∃ info, policy.Lists pkt info)

variable {policy pkt}

theorem acceptRange_iff : policy.acceptRange pkt ↔
    (pkt.isIpv4 ∧ ∃ r ∈ policy.ranges, r.contains pkt.destIpv4) ∨
      (pkt.isIpv6 ∧ ∃ r ∈ policy.rangesV6, r.contains pkt.destIpv6) := by
  have hexclusive : pkt.isIpv4 → ¬pkt.isIpv6 := by
    simp only [IPPacket.isIpv4, IPPacket.isIpv6, Bool.and_eq_true, decide_eq_true_eq]
    omega
  rw [acceptRange]
  split
  · next h4 => simp [h4, hexclusive h4]
  · next h4 => split <;> simp_all

theorem allowIpTraffic_iff : policy.allowIpTraffic pkt ↔ policy.acceptRange pkt ∧
    (policy.protocols = ∅ ∨ ∃ info ∈ policy.protocols, info.protocol = pkt.protocol) := by
  have hmatches (info : ProtocolInfo) :
      info.matchesPacketProto pkt = false ↔ ¬info.protocol = pkt.protocol := by
    simp [ProtocolInfo.matchesPacketProto, eq_comm]
  simp only [allowIpTraffic, hmatches]
  cases policy.acceptRange pkt with
  | false => simp
  | true =>
    by_cases hempty : policy.protocols = ∅
    · simp [hempty]
    · simp [hempty]

theorem allows_iff (policy : ExitPolicy) (pkt : IPPacket) :
    ((policy.allowIpTraffic pkt ↔ policy.Allows pkt) ↔
      (policy.acceptRange pkt → (∃ info ∈ policy.protocols, info.protocol = pkt.protocol) →
        ∃ info, policy.Lists pkt info)) ∧
    (policy.Valid → readDict decode policy.btEncode = some (policy, [])) := by
  refine ⟨?_, fun hvalid => by simpa using (readsBack hvalid).2 []⟩
  have hlists : (∃ info, policy.Lists pkt info) →
      ∃ info ∈ policy.protocols, info.protocol = pkt.protocol :=
    fun ⟨info, hmem, hprotocol, _⟩ => ⟨info, hmem, hprotocol⟩
  rw [allowIpTraffic_iff, Allows, ← acceptRange_iff]
  by_cases hempty : policy.protocols = ∅
  · simp [hempty]
  · simp only [hempty, false_or]
    rw [and_congr_right_iff]
    exact forall_congr' fun _ => ⟨Iff.mp, fun h => ⟨h, hlists⟩⟩

/-- Only `udp/53` is listed, but a packet to port 80 passes. -/
theorem udp53_allows_port80 :
    let policy : ExitPolicy := ⟨[⟨0, 0⟩], [], {⟨IPProtocol.UDP, some 53⟩}⟩
    let pkt : IPPacket := ⟨[0x45, 0, 0, 28, 0, 0, 0, 0, 64, 17, 0, 0, 10, 0, 0, 1, 10, 0, 0, 2,
      0, 7, 0, 80, 0, 8, 0, 0], by decide⟩
    policy.allowIpTraffic pkt = true ∧ pkt.destPort = some 80 := by
  decide +kernel

end ExitPolicy
end SessionRouter.Net

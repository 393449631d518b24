import SessionRouter.Handlers.TunAddresses
import SessionRouter.Net.AddressRewrite

/-!
# Packets from the local interface
-/

namespace SessionRouter.Tun

open Lib Address Net IPPacket

structure Env (Session : Type) where
  host : ByteOrder
  isApple : Bool
  config : Config
  getSession : NetworkAddress → Option Session
  initiateRemoteSession : NetworkAddress → Option Session

/-- What becomes of a packet. -/
inductive Delivery (Session : Type) where
  | toNetIf (pkt : IPPacket)
  | toSession (session : Session) (pkt : IPPacket) (proto : UInt8)
deriving DecidableEq

variable {Session : Type}

def toOurselves (config : Config) (pkt : IPPacket) : Bool :=
  if pkt.isIpv4 then pkt.destIpv4 = config.net4.ip else pkt.destIpv6 = config.net6.ip

def rewritten (host : ByteOrder) (pkt : IPPacket) : IPPacket :=
  if pkt.isIpv4 then pkt.updateIpv4Address host pkt.sourceIpv4 pkt.destIpv4
  else pkt.updateIpv6Address host pkt.sourceIpv6 pkt.destIpv6 none

def remoteFor (state : TunAddresses) (pkt : IPPacket) : Option NetworkAddress :=
  if pkt.isIpv4 then state.v4.map.remoteOf pkt.destIpv4 else state.v6.map.remoteOf pkt.destIpv6

def handleOutboundPacket (env : Env Session) (state : TunAddresses) (pkt : IPPacket) :
    Option (Delivery Session) :=
  if !pkt.isIpv4 && !pkt.isIpv6 then none
  else if env.isApple && toOurselves env.config pkt then
    some (.toNetIf (rewritten env.host pkt))
  else
    match remoteFor state pkt with
    | some remote =>
      let pkt := pkt.clearAddresses env.host
      match env.getSession remote with
      | some session => some (.toSession session pkt pkt.protocol)
      | none =>
        (env.initiateRemoteSession remote).map fun session => .toSession session pkt pkt.protocol
    | none => (pkt.makeIcmpUnreachable env.host).map .toNetIf

def addressFields (pkt : IPPacket) : Bytes :=
  if pkt.isIpv4 then pkt.field 12 8 else pkt.field 8 32

def Cleared (pkt : IPPacket) : Prop :=
  ∀ byte ∈ addressFields pkt, byte = 0

instance (pkt : IPPacket) : Decidable (Cleared pkt) :=
  inferInstanceAs (Decidable (∀ byte ∈ _, byte = 0))

variable {host : ByteOrder} {pkt : IPPacket}

theorem isIpv4_congr {other : IPPacket} (hbyte : other.byte 0 = pkt.byte 0)
    (hsize : other.size = pkt.size) : other.isIpv4 = pkt.isIpv4 := by
  rw [isIpv4, isIpv4, version, version, hbyte, hsize]

theorem cleared_updateIpv4Address (hv4 : pkt.isIpv4) :
    Cleared (pkt.updateIpv4Address host 0 0) := by
  have hsize := le_size_of_isIpv4 hv4
  have hbyte : (pkt.updateIpv4Address host 0 0).byte 0 = pkt.byte 0 := by
    rw [byte_eq_getD_field, byte_eq_getD_field, field_updateIpv4Address (Or.inl (by decide)),
      field_updateIpv4Transport (by unfold UDP_CSUM_OFF; omega)]
  have hfields : addressFields (pkt.updateIpv4Address host 0 0) =
      storeBig 4 (0 : Ipv4).toNat ++ storeBig 4 (0 : Ipv4).toNat := by
    rw [addressFields, isIpv4_congr hbyte size_updateIpv4Address, if_pos hv4,
      show 8 = 4 + 4 from rfl, field_add, field_updateIpv4Address_src hsize,
      field_updateIpv4Address_dst hsize]
  unfold Cleared
  rw [hfields]
  decide +kernel

theorem le_of_extensionHeaders {nextproto proto : UInt8} {start fragoff position : Nat}
    {payload : Bytes}
    (h : extensionHeaders nextproto start payload = some (proto, fragoff, position)) :
    start ≤ position := by
  fun_induction extensionHeaders nextproto start payload with
  | case1 => cases h
  | case2 nextproto start payload _ addlen _ ih => exact Nat.le_of_add_right_le (ih h)
  | case3 => cases h
  | case4 | case6 =>
    simp only [Option.some.injEq, Prod.mk.injEq] at h
    omega
  | case5 _ _ _ _ _ _ ih => exact Nat.le_of_add_right_le (ih h)

theorem field_updateIpv6ProtoChecksum {start fragoff off pos count : Nat}
    {oldSrc oldDest newSrc newDest : List UInt32} (h : pos + count ≤ start) :
    (pkt.updateIpv6ProtoChecksum host start fragoff off oldSrc oldDest newSrc newDest).field
      pos count = pkt.field pos count := by
  unfold updateIpv6ProtoChecksum
  split
  · rfl
  next hfit =>
    rw [not_or] at hfit
    exact pkt.field_write_of_disjoint (Or.inl (by omega))

@[simp] theorem size_updateIpv6ProtoChecksum {start fragoff off : Nat}
    {oldSrc oldDest newSrc newDest : List UInt32} :
    (pkt.updateIpv6ProtoChecksum host start fragoff off oldSrc oldDest newSrc newDest).size =
      pkt.size := by
  unfold updateIpv6ProtoChecksum
  split
  · rfl
  · exact size_write _ _ _

def addressed (pkt : IPPacket) (src dst : Ipv6) : IPPacket :=
  (pkt.write 8 (storeBig 16 src.toNat)).write 24 (storeBig 16 dst.toNat)

theorem updateIpv6Address_spec (hsize : 40 < pkt.size) (src dst : Ipv6) :
    (pkt.updateIpv6Address host src dst none).size = pkt.size ∧
      ∀ pos count, pos + count ≤ 40 →
        (pkt.updateIpv6Address host src dst none).field pos count =
          (addressed pkt src dst).field pos count := by
  have hwritten : (addressed pkt src dst).size = pkt.size := by simp [addressed]
  unfold updateIpv6Address
  rw [if_neg (by unfold ipv6HeaderSize; omega)]
  dsimp only
  rw [← addressed]
  cases hext : extensionHeaders ((addressed pkt src dst).byte 6) ipv6HeaderSize
      ((addressed pkt src dst).buf.drop ipv6HeaderSize) with
  | none => exact ⟨hwritten, fun _ _ _ => rfl⟩
  | some found =>
    obtain ⟨proto, fragoff, start⟩ := found
    have hstart : 40 ≤ start := le_of_extensionHeaders hext
    dsimp only
    cases csumOff proto with
    | none => exact ⟨hwritten, fun _ _ _ => rfl⟩
    | some off =>
      refine ⟨by simpa using hwritten, fun pos count hpos => ?_⟩
      exact field_updateIpv6ProtoChecksum (by omega)

theorem field_addressed (hsize : 40 ≤ pkt.size) (src dst : Ipv6) :
    (addressed pkt src dst).field 8 32 = storeBig 16 src.toNat ++ storeBig 16 dst.toNat := by
  have hsrc : (pkt.write 8 (storeBig 16 src.toNat)).field 8 16 = storeBig 16 src.toNat := by
    have hself := @field_write_self pkt 8 (storeBig 16 src.toNat) (by simp; omega)
    rwa [length_storeBig] at hself
  have hdst : (addressed pkt src dst).field 24 16 = storeBig 16 dst.toNat := by
    have hself := @field_write_self (pkt.write 8 (storeBig 16 src.toNat)) 24
      (storeBig 16 dst.toNat) (by simp; omega)
    rwa [length_storeBig] at hself
  rw [show 32 = 16 + 16 from rfl, field_add, hdst, addressed,
    field_write_of_disjoint _ (Or.inl (by decide)), hsrc]

theorem cleared_updateIpv6Address (hsize : 40 < pkt.size) (hv4 : pkt.isIpv4 = false) :
    Cleared (pkt.updateIpv6Address host 0 0 none) := by
  obtain ⟨hkept, hfield⟩ := @updateIpv6Address_spec host pkt hsize 0 0
  have hbyte : (pkt.updateIpv6Address host 0 0 none).byte 0 = pkt.byte 0 := by
    rw [byte_eq_getD_field, byte_eq_getD_field, hfield 0 1 (by decide), addressed,
      field_write_of_disjoint _ (Or.inl (by decide)),
      field_write_of_disjoint _ (Or.inl (by decide))]
  have hfields : addressFields (pkt.updateIpv6Address host 0 0 none) =
      storeBig 16 (0 : Ipv6).toNat ++ storeBig 16 (0 : Ipv6).toNat := by
    rw [addressFields, isIpv4_congr hbyte hkept, hv4, if_neg (by decide), hfield 8 32 (by decide),
      field_addressed (by omega)]
  unfold Cleared
  rw [hfields]
  decide +kernel

theorem cleared_clearAddresses_iff (hip : pkt.isIpv4 ∨ pkt.isIpv6) :
    Cleared (pkt.clearAddresses host) ↔
      pkt.isIpv4 ∨ pkt.size ≠ ipv6HeaderSize ∨ Cleared pkt := by
  unfold clearAddresses
  by_cases hv4 : pkt.isIpv4
  · rw [if_pos hv4]
    exact iff_of_true (cleared_updateIpv4Address hv4) (Or.inl hv4)
  have hv6 := hip.resolve_left hv4
  have hle := le_size_of_isIpv6 hv6
  rw [if_neg hv4, if_pos hv6]
  by_cases hsize : pkt.size = ipv6HeaderSize
  · have hsame : pkt.updateIpv6Address host 0 0 none = pkt := by
      rw [updateIpv6Address, if_pos (Nat.le_of_eq hsize)]
    rw [hsame]
    simp [hv4, hsize]
  · refine iff_of_true (cleared_updateIpv6Address ?_ (Bool.not_eq_true _ ▸ hv4))
      (Or.inr (Or.inl hsize))
    unfold ipv6HeaderSize at hsize
    omega

theorem handleOutboundPacket_toSession {env : Env Session} {state : TunAddresses}
    {session : Session} {sent : IPPacket} {proto : UInt8}
    (h : handleOutboundPacket env state pkt = some (.toSession session sent proto)) :
    (pkt.isIpv4 ∨ pkt.isIpv6) ∧ sent = pkt.clearAddresses env.host := by
  unfold handleOutboundPacket at h
  split at h
  · cases h
  next hip =>
    refine ⟨by simpa [imp_iff_not_or] using hip, ?_⟩
    split at h
    · cases h
    · cases hremote : remoteFor state pkt with
      | none =>
        rw [hremote] at h
        simp at h
      | some remote =>
        rw [hremote] at h
        dsimp only at h
        cases hsession : env.getSession remote with
        | some found =>
          rw [hsession] at h
          cases h
          rfl
        | none =>
          rw [hsession] at h
          obtain ⟨found, -, heq⟩ := Option.map_eq_some_iff.mp h
          cases heq
          rfl

/-- A packet that is forwarded into a session has its addresses cleared exactly if it is an
IPv4 packet, or is not just an IPv6 header, or had no addresses in the first place. -/
theorem forwarded_cleared_iff (env : Env Session) (state : TunAddresses) (pkt : IPPacket)
    (session : Session) (sent : IPPacket) (proto : UInt8)
    (h : handleOutboundPacket env state pkt = some (.toSession session sent proto)) :
    Cleared sent ↔ pkt.isIpv4 ∨ pkt.size ≠ ipv6HeaderSize ∨ Cleared pkt := by
  obtain ⟨hip, rfl⟩ := handleOutboundPacket_toSession h
  exact cleared_clearAddresses_iff hip

def openEnv : Env Unit where
  host := .little
  isApple := false
  config := smallConfig 0
  getSession := fun _ => some ()
  initiateRemoteSession := fun _ => none

theorem forwarded_cleared_iff_smallDatagram :
    handleOutboundPacket openEnv (after (smallConfig 0) [.map4 (someone 2)]) smallDatagram =
        some (.toSession () (smallDatagram.clearAddresses .little) IPProtocol.UDP) ∧
      Cleared (smallDatagram.clearAddresses .little) :=
  have hsent : handleOutboundPacket openEnv (after (smallConfig 0) [.map4 (someone 2)])
      smallDatagram =
        some (.toSession () (smallDatagram.clearAddresses .little) IPProtocol.UDP) := by
    decide +kernel
  ⟨hsent, (forwarded_cleared_iff _ _ _ _ _ _ hsent).mpr (Or.inl (by decide +kernel))⟩

def bareHeader : IPPacket where
  buf := [0x60, 0, 0, 0, 0, 0, 59, 64] ++ [0xFD, 0, 0, 0, 0, 0, 0, 0, 0, 0, 0, 0, 0, 0, 0, 1] ++
    [0xFD, 0, 0, 0, 0, 0, 0, 0, 2, 2, 2, 2, 2, 2, 2, 2]
  minSize := Or.inr (by decide)

theorem bareHeader_not_cleared :
    handleOutboundPacket openEnv (after (smallConfig 0) [.map6 (someone 2)]) bareHeader =
        some (.toSession () bareHeader 59) ∧
      ¬ Cleared bareHeader := by
  decide +kernel

end SessionRouter.Tun

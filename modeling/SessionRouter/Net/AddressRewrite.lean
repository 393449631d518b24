import SessionRouter.Net.IPPacket

/-!
# Rewriting addresses keeps checksums valid

Packets leave a client with their addresses cleared and get new ones at the other end.  Each rewrite
adjusts the header checksum and that of the transport incrementally, from the old and the new
addresses only.  `updateIpv4Address_keeps_checksums` says that the adjusted checksums are those of
the new addresses whenever the old ones were right.
-/

namespace SessionRouter.Net

open Lib OnesComplement Address

variable (oldSum : UInt16) (oldSrc oldDest newSrc newDest : UInt32)

theorem updateIpv4TcpChecksum_modEq :
    (updateIpv4TcpChecksum oldSum oldSrc oldDest newSrc newDest).toNat + (halves newSrc).toNat +
        (halves newDest).toNat ≡
      oldSum.toNat + (halves oldSrc).toNat + (halves oldDest).toNat [MOD 65535] := by
  have hmod := updateIpv4Checksum_modEq oldSum oldSrc oldDest newSrc newDest
  rw [updateIpv4TcpChecksum]
  split
  next hminus =>
    rw [hminus] at hmod
    unfold Nat.ModEq at hmod ⊢
    rw [← hmod]
    change (0 + _ + _) % 65535 = (65535 + _ + _) % 65535
    omega
  next => exact hmod

theorem updateIpv4TcpChecksum_lt :
    (updateIpv4TcpChecksum oldSum oldSrc oldDest newSrc newDest).toNat < 65535 := by
  rw [updateIpv4TcpChecksum]
  split
  next => decide
  next hminus =>
    have hlt := (updateIpv4Checksum oldSum oldSrc oldDest newSrc newDest).toNat_lt
    have hne : (updateIpv4Checksum oldSum oldSrc oldDest newSrc newDest).toNat ≠ 65535 := by
      intro heq
      exact hminus (UInt16.toNat_inj.mp heq)
    omega

theorem updateIpv4UdpChecksum_eq_zero_iff :
    updateIpv4UdpChecksum oldSum oldSrc oldDest newSrc newDest = 0 ↔ oldSum = 0 := by
  rw [updateIpv4UdpChecksum]
  split
  next => rfl
  next hne => exact iff_of_false (updateIpv4Checksum_ne_zero hne _ _ _ _) hne

theorem updateIpv4TcpChecksum_compose (oldSrc oldDest midSrc midDest newSrc newDest : UInt32) :
    updateIpv4TcpChecksum (updateIpv4TcpChecksum oldSum oldSrc oldDest midSrc midDest)
        midSrc midDest newSrc newDest =
      updateIpv4TcpChecksum oldSum oldSrc oldDest newSrc newDest := by
  have hfirst := updateIpv4TcpChecksum_modEq oldSum oldSrc oldDest midSrc midDest
  have hsecond := updateIpv4TcpChecksum_modEq
    (updateIpv4TcpChecksum oldSum oldSrc oldDest midSrc midDest) midSrc midDest newSrc newDest
  have hdirect := updateIpv4TcpChecksum_modEq oldSum oldSrc oldDest newSrc newDest
  have hsame := (hsecond.trans hfirst).trans hdirect.symm
  have hlt := updateIpv4TcpChecksum_lt
    (updateIpv4TcpChecksum oldSum oldSrc oldDest midSrc midDest) midSrc midDest newSrc newDest
  have hlt' := updateIpv4TcpChecksum_lt oldSum oldSrc oldDest newSrc newDest
  apply UInt16.toNat_inj.mp
  unfold Nat.ModEq at hsame
  omega

theorem updateIpv4UdpChecksum_compose (oldSrc oldDest midSrc midDest newSrc newDest : UInt32) :
    updateIpv4UdpChecksum (updateIpv4UdpChecksum oldSum oldSrc oldDest midSrc midDest)
        midSrc midDest newSrc newDest =
      updateIpv4UdpChecksum oldSum oldSrc oldDest newSrc newDest := by
  by_cases hzero : oldSum = 0
  · simp only [updateIpv4UdpChecksum, if_pos hzero]
  have hmid := updateIpv4Checksum_ne_zero hzero oldSrc oldDest midSrc midDest
  simp only [updateIpv4UdpChecksum, if_neg hzero, if_neg hmid]
  have hfirst := updateIpv4Checksum_modEq oldSum oldSrc oldDest midSrc midDest
  have hsecond := updateIpv4Checksum_modEq
    (updateIpv4Checksum oldSum oldSrc oldDest midSrc midDest) midSrc midDest newSrc newDest
  have hdirect := updateIpv4Checksum_modEq oldSum oldSrc oldDest newSrc newDest
  have hsame := (hsecond.trans hfirst).trans hdirect.symm
  have hne := updateIpv4Checksum_ne_zero hmid midSrc midDest newSrc newDest
  have hne' := updateIpv4Checksum_ne_zero hzero oldSrc oldDest newSrc newDest
  rw [Ne, ← UInt16.toNat_inj] at hne hne'
  change _ ≠ 0 at hne hne'
  have hlt := UInt16.toNat_lt (updateIpv4Checksum
    (updateIpv4Checksum oldSum oldSrc oldDest midSrc midDest) midSrc midDest newSrc newDest)
  have hlt' := UInt16.toNat_lt (updateIpv4Checksum oldSum oldSrc oldDest newSrc newDest)
  apply UInt16.toNat_inj.mp
  unfold Nat.ModEq at hsame
  omega

namespace IPPacket

def transportCsum (proto : UInt8) :
    Option (Nat × (UInt16 → UInt32 → UInt32 → UInt32 → UInt32 → UInt16)) :=
  if proto = IPProtocol.TCP then some (TCP_CSUM_OFF, updateIpv4TcpChecksum)
  else if proto = IPProtocol.UDP ∨ proto = IPProtocol.UDP_LITE then
    some (UDP_CSUM_OFF, updateIpv4UdpChecksum)
  else none

variable {host : ByteOrder} {pkt : IPPacket} {src dst : Ipv4}

theorem updateIpv4Transport_of_fragOff (hfrag : pkt.fragOff = 0) :
    pkt.updateIpv4Transport host src dst =
      match transportCsum (pkt.byte 9) with
      | none => pkt
      | some (off, compute) =>
        if pkt.headerLen * 4 + off + 2 ≤ pkt.size then
          pkt.writeWord host (pkt.headerLen * 4 + off)
            (compute (pkt.word host (pkt.headerLen * 4 + off)) (pkt.dword host 12)
              (pkt.dword host 16) (hostToBig host src.toNat) (hostToBig host dst.toNat))
        else pkt := by
  simp only [updateIpv4Transport, transportCsum, hfrag, TCP_CSUM_OFF, UDP_CSUM_OFF]
  grind

variable {pos : Nat}

theorem field_updateIpv4Transport {count : Nat}
    (h : pos + count ≤ pkt.headerLen * 4 + UDP_CSUM_OFF) :
    (pkt.updateIpv4Transport host src dst).field pos count = pkt.field pos count := by
  have hwrite : ∀ off value, UDP_CSUM_OFF ≤ off →
      (pkt.writeWord host (pkt.headerLen * 4 + off) value).field pos count =
        pkt.field pos count := by
    intro off value hoff
    exact pkt.field_write_of_disjoint (Or.inl (by omega))
  simp only [updateIpv4Transport]
  split
  · split
    · split
      · exact hwrite _ _ (by decide)
      · rfl
    · split
      · split
        · exact hwrite _ _ (by decide)
        · rfl
      · rfl
  · rfl

@[simp] theorem size_updateIpv4Transport :
    (pkt.updateIpv4Transport host src dst).size = pkt.size := by
  simp only [updateIpv4Transport, writeWord]
  grind [size_write]

@[simp] theorem size_updateIpv4Address : (pkt.updateIpv4Address host src dst).size = pkt.size := by
  simp [updateIpv4Address, writeWord, writeDword]

theorem word_updateIpv4Transport (h : pos + 2 ≤ pkt.headerLen * 4) :
    (pkt.updateIpv4Transport host src dst).word host pos = pkt.word host pos := by
  rw [word, word, field_updateIpv4Transport (by omega)]

theorem dword_updateIpv4Transport (h : pos + 4 ≤ pkt.headerLen * 4) :
    (pkt.updateIpv4Transport host src dst).dword host pos = pkt.dword host pos := by
  rw [dword, dword, field_updateIpv4Transport (by omega)]

theorem field_updateIpv4Address_dst (hsize : 20 ≤ pkt.size) :
    (pkt.updateIpv4Address host src dst).field 16 4 = storeBig 4 dst.toNat := by
  rw [updateIpv4Address, writeDword, store_hostToBig]
  nth_rewrite 2 [← length_storeBig 4 dst.toNat]
  exact field_write_self (by simpa [writeWord, writeDword] using hsize)

theorem field_updateIpv4Address_src (hsize : 20 ≤ pkt.size) :
    (pkt.updateIpv4Address host src dst).field 12 4 = storeBig 4 src.toNat := by
  rw [updateIpv4Address, writeDword, field_write_of_disjoint _ (Or.inl (by decide)), writeDword,
    store_hostToBig]
  nth_rewrite 2 [← length_storeBig 4 src.toNat]
  refine field_write_self ?_
  simp only [writeWord, size_write, size_updateIpv4Transport, length_storeBig]
  omega

theorem field_updateIpv4Address {count : Nat} (h : pos + count ≤ 10 ∨ 20 ≤ pos) :
    (pkt.updateIpv4Address host src dst).field pos count =
      (pkt.updateIpv4Transport host src dst).field pos count := by
  rw [updateIpv4Address, writeDword, field_write_of_disjoint _ (by simp; omega), writeDword,
    field_write_of_disjoint _ (by simp; omega), writeWord,
    field_write_of_disjoint _ (by simp; omega)]

theorem field_updateIpv4Address_csum (hsize : 20 ≤ pkt.size) (hlen : 5 ≤ pkt.headerLen) :
    (pkt.updateIpv4Address host src dst).field 10 2 =
      host.store 2 (updateIpv4Checksum (pkt.word host 10) (pkt.dword host 12) (pkt.dword host 16)
        (hostToBig host src.toNat) (hostToBig host dst.toNat)).toNat := by
  rw [updateIpv4Address, writeDword, field_write_of_disjoint _ (Or.inl (by decide)), writeDword,
    field_write_of_disjoint _ (Or.inl (by decide)), word_updateIpv4Transport (by omega),
    dword_updateIpv4Transport (by omega), dword_updateIpv4Transport (by omega), writeWord]
  nth_rewrite 2 [← host.length_store 2 (updateIpv4Checksum _ _ _ _ _).toNat]
  refine field_write_self ?_
  simp only [size_updateIpv4Transport, ByteOrder.length_store]
  omega

theorem byte_updateIpv4Address (h : pos < 10) (hlen : 5 ≤ pkt.headerLen) :
    (pkt.updateIpv4Address host src dst).byte pos = pkt.byte pos := by
  rw [byte_eq_getD_field, byte_eq_getD_field, field_updateIpv4Address (Or.inl (by omega)),
    field_updateIpv4Transport (by omega)]

theorem headerLen_updateIpv4Address (hlen : 5 ≤ pkt.headerLen) :
    (pkt.updateIpv4Address host src dst).headerLen = pkt.headerLen := by
  rw [headerLen, headerLen, byte_updateIpv4Address (by decide) hlen]

theorem fragOff_updateIpv4Address (hlen : 5 ≤ pkt.headerLen) :
    (pkt.updateIpv4Address host src dst).fragOff = pkt.fragOff := by
  rw [fragOff, fragOff, field_updateIpv4Address (Or.inl (by decide)),
    field_updateIpv4Transport (by omega)]

def HeaderChecks (pkt : IPPacket) : Prop :=
  Checks (pkt.field 0 (pkt.headerLen * 4))

def pseudoHeader (pkt : IPPacket) (len : Nat) : Bytes :=
  pkt.field 12 4 ++ pkt.field 16 4 ++ [0, pkt.byte 9] ++ storeBig 2 len

def SegmentChecks (pkt : IPPacket) (off len : Nat) : Prop :=
  off + 2 ≤ len ∧ pkt.headerLen * 4 + len ≤ pkt.size ∧
    Checks (pkt.pseudoHeader len ++ pkt.field (pkt.headerLen * 4) len)

def TcpChecks (pkt : IPPacket) (len : Nat) : Prop :=
  pkt.SegmentChecks TCP_CSUM_OFF len

def udpChecksum (host : ByteOrder) (pkt : IPPacket) : UInt16 :=
  pkt.word host (pkt.headerLen * 4 + UDP_CSUM_OFF)

def UdpChecks (host : ByteOrder) (pkt : IPPacket) (len : Nat) : Prop :=
  pkt.udpChecksum host = 0 ∨ pkt.SegmentChecks UDP_CSUM_OFF len

instance : Decidable pkt.HeaderChecks :=
  inferInstanceAs (Decidable (Checks _))

instance (off len : Nat) : Decidable (pkt.SegmentChecks off len) :=
  inferInstanceAs (Decidable (_ ∧ _ ∧ Checks _))

instance (len : Nat) : Decidable (pkt.UdpChecks host len) :=
  inferInstanceAs (Decidable (_ ∨ _))

theorem toNat_word (h : pos + 2 ≤ pkt.size) :
    (pkt.word host pos).toNat = wordSum host (pkt.field pos 2) := by
  have hlength := length_field h
  have hlt := host.load_lt (pkt.field pos 2)
  rw [hlength] at hlt
  rw [wordSum_of_length_two host hlength, word, UInt16.toNat_ofNat_of_lt' hlt]

theorem toNat_halves_dword (h : pos + 4 ≤ pkt.size) :
    (halves (pkt.dword host pos)).toNat = wordSum host (pkt.field pos 4) :=
  toNat_halves_load host (length_field h)

theorem wordSum_store (value : UInt16) : wordSum host (host.store 2 value.toNat) = value.toNat := by
  rw [wordSum_of_length_two host (host.length_store 2 _), host.load_store value.toNat_lt]

theorem wordSum_field_add {first second : Nat} (hfit : pos + first ≤ pkt.size)
    (heven : first % 2 = 0) :
    wordSum host (pkt.field pos (first + second)) =
      wordSum host (pkt.field pos first) + wordSum host (pkt.field (pos + first) second) := by
  rw [field_add, wordSum_append host (by rwa [length_field hfit])]

theorem wordSum_header (hsize : 20 ≤ pkt.size) (hlen : 5 ≤ pkt.headerLen) :
    wordSum host (pkt.field 0 (pkt.headerLen * 4)) =
      wordSum host (pkt.field 0 10) + wordSum host (pkt.field 10 2) +
        wordSum host (pkt.field 12 4) + wordSum host (pkt.field 16 4) +
        wordSum host (pkt.field 20 (pkt.headerLen * 4 - 20)) := by
  have hcount : pkt.headerLen * 4 = 10 + (2 + (4 + (4 + (pkt.headerLen * 4 - 20)))) := by omega
  rw [hcount, wordSum_field_add (by omega) (by decide), wordSum_field_add (by omega) (by decide),
    wordSum_field_add (by omega) (by decide), wordSum_field_add (by omega) (by decide)]
  simp only [Nat.zero_add, Nat.reduceAdd, Nat.add_assoc]
  congr 6
  omega

theorem wordSum_ne_zero_of_byte {bytes : Bytes} (h : bytes.getD pos 0 ≠ 0) :
    wordSum host bytes ≠ 0 := by
  rw [Ne, wordSum_eq_zero_iff]
  intro hall
  apply h
  rw [List.getD_eq_getElem?_getD]
  cases hbyte : bytes[pos]? with
  | none => rfl
  | some byte => exact hall byte (List.mem_of_getElem? hbyte)

theorem headerChecks_updateIpv4Address (hsize : 20 ≤ pkt.size) (hlen : 5 ≤ pkt.headerLen)
    (h : pkt.HeaderChecks) : (pkt.updateIpv4Address host src dst).HeaderChecks := by
  unfold HeaderChecks at h ⊢
  rw [checks_iff host, wordSum_header hsize hlen] at h
  have hmod := updateIpv4Checksum_modEq (pkt.word host 10) (pkt.dword host 12)
    (pkt.dword host 16) (hostToBig host src.toNat) (hostToBig host dst.toNat)
  rw [toNat_halves_hostToBig, toNat_halves_hostToBig, toNat_word (by omega),
    toNat_halves_dword (by omega), toNat_halves_dword (by omega)] at hmod
  -- the first byte holds the header length, so the words cannot all be zero
  have hfirst : wordSum host (pkt.field 0 10) ≠ 0 := by
    refine @wordSum_ne_zero_of_byte host 0 _ ?_
    rw [getD_field _ (by decide)]
    intro hzero
    rw [headerLen, show pkt.byte 0 = 0 from hzero] at hlen
    exact absurd hlen (by decide)
  have hlen' : (pkt.updateIpv4Address host src dst).headerLen = pkt.headerLen :=
    headerLen_updateIpv4Address hlen
  rw [checks_iff host, wordSum_header (by simpa using hsize) (by omega), hlen',
    field_updateIpv4Address (Or.inl (by decide)), field_updateIpv4Transport (by omega),
    field_updateIpv4Address_csum hsize hlen, field_updateIpv4Address_src hsize,
    field_updateIpv4Address_dst hsize, field_updateIpv4Address (Or.inr (by decide)),
    field_updateIpv4Transport (by omega), wordSum_store]
  unfold Nat.ModEq at hmod
  omega

theorem wordSum_segment {off len : Nat} (hsize : 20 ≤ pkt.size)
    (heven : off % 2 = 0) (hoff : off + 2 ≤ len) (hfit : pkt.headerLen * 4 + len ≤ pkt.size) :
    wordSum host (pkt.pseudoHeader len ++ pkt.field (pkt.headerLen * 4) len) =
      wordSum host (pkt.field 12 4) + wordSum host (pkt.field 16 4) +
        wordSum host [0, pkt.byte 9] + wordSum host (storeBig 2 len) +
        wordSum host (pkt.field (pkt.headerLen * 4) off) +
        wordSum host (pkt.field (pkt.headerLen * 4 + off) 2) +
        wordSum host (pkt.field (pkt.headerLen * 4 + off + 2) (len - off - 2)) := by
  have hlen : len = off + (2 + (len - off - 2)) := by omega
  have hsrc : (pkt.field 12 4).length = 4 := length_field (by omega)
  have hdst : (pkt.field 16 4).length = 4 := length_field (by omega)
  have hsegment : wordSum host (pkt.field (pkt.headerLen * 4) len) =
      wordSum host (pkt.field (pkt.headerLen * 4) off) +
        (wordSum host (pkt.field (pkt.headerLen * 4 + off) 2) +
          wordSum host (pkt.field (pkt.headerLen * 4 + off + 2) (len - off - 2))) := by
    nth_rewrite 1 [hlen]
    rw [wordSum_field_add (by omega) heven, wordSum_field_add (by omega) (by decide)]
  unfold pseudoHeader
  rw [wordSum_append host (by simp [hsrc, hdst]), wordSum_append host (by simp [hsrc, hdst]),
    wordSum_append host (by simp [hsrc, hdst]), wordSum_append host (by simp [hsrc]), hsegment]
  omega

theorem SegmentChecks.updateIpv4Address {off len : Nat} {value : UInt16}
    (h : pkt.SegmentChecks off len) (hsize : 20 ≤ pkt.size) (hlen : 5 ≤ pkt.headerLen)
    (heven : off % 2 = 0) (hproto : pkt.byte 9 ≠ 0)
    (htransport : pkt.updateIpv4Transport host src dst =
      pkt.writeWord host (pkt.headerLen * 4 + off) value)
    (hmod : value.toNat + (halves (hostToBig host src.toNat)).toNat +
        (halves (hostToBig host dst.toNat)).toNat ≡
      (pkt.word host (pkt.headerLen * 4 + off)).toNat + (halves (pkt.dword host 12)).toNat +
        (halves (pkt.dword host 16)).toNat [MOD 65535]) :
    (pkt.updateIpv4Address host src dst).SegmentChecks off len := by
  obtain ⟨hoff, hfit, hchecks⟩ := h
  have hlen' : (pkt.updateIpv4Address host src dst).headerLen = pkt.headerLen :=
    headerLen_updateIpv4Address hlen
  have hproto' : (pkt.updateIpv4Address host src dst).byte 9 = pkt.byte 9 :=
    byte_updateIpv4Address (by decide) hlen
  rw [toNat_halves_hostToBig, toNat_halves_hostToBig, toNat_word (by omega),
    toNat_halves_dword (by omega), toNat_halves_dword (by omega)] at hmod
  have hfield : ∀ pos count, pkt.headerLen * 4 ≤ pos →
      (pkt.updateIpv4Address host src dst).field pos count =
        (pkt.writeWord host (pkt.headerLen * 4 + off) value).field pos count := by
    intro pos count hpos
    rw [field_updateIpv4Address (Or.inr (by omega)), htransport]
  have hvalue : (pkt.writeWord host (pkt.headerLen * 4 + off) value).field
      (pkt.headerLen * 4 + off) 2 = host.store 2 value.toNat := by
    have hself := @field_write_self pkt (pkt.headerLen * 4 + off) (host.store 2 value.toNat)
      (by rw [ByteOrder.length_store]; omega)
    rwa [ByteOrder.length_store] at hself
  -- the protocol is part of the pseudo header, so the words cannot all be zero
  have hpseudo : wordSum host [0, pkt.byte 9] ≠ 0 := @wordSum_ne_zero_of_byte host 1 _ hproto
  refine ⟨hoff, by simpa [hlen'] using hfit, ?_⟩
  rw [checks_iff host, wordSum_segment hsize heven hoff hfit] at hchecks
  rw [checks_iff host,
    wordSum_segment (by simpa using hsize) heven hoff (by simpa [hlen'] using hfit),
    hlen', hproto', field_updateIpv4Address_src hsize, field_updateIpv4Address_dst hsize,
    hfield _ _ (by omega), hfield _ _ (by omega), hfield _ _ (by omega), hvalue, wordSum_store,
    writeWord, field_write_of_disjoint _ (Or.inl (by omega)),
    field_write_of_disjoint _ (Or.inr (by simp))]
  unfold Nat.ModEq at hmod
  omega

theorem tcpChecks_updateIpv4Address {len : Nat} (hsize : 20 ≤ pkt.size) (hlen : 5 ≤ pkt.headerLen)
    (hfrag : pkt.fragOff = 0) (hproto : pkt.byte 9 = IPProtocol.TCP) (h : pkt.TcpChecks len) :
    (pkt.updateIpv4Address host src dst).TcpChecks len := by
  have hfit : pkt.headerLen * 4 + TCP_CSUM_OFF + 2 ≤ pkt.size := by
    obtain ⟨hoff, hfit, _⟩ := h
    omega
  refine h.updateIpv4Address hsize hlen (by decide) (by rw [hproto]; decide) ?_
    (updateIpv4TcpChecksum_modEq _ _ _ _ _)
  rw [updateIpv4Transport_of_fragOff hfrag, hproto]
  exact if_pos hfit

theorem updateIpv4Transport_of_udp (hfrag : pkt.fragOff = 0) (hproto : pkt.byte 9 = IPProtocol.UDP)
    (hfit : pkt.headerLen * 4 + UDP_CSUM_OFF + 2 ≤ pkt.size) :
    pkt.updateIpv4Transport host src dst =
      pkt.writeWord host (pkt.headerLen * 4 + UDP_CSUM_OFF)
        (updateIpv4UdpChecksum (pkt.udpChecksum host) (pkt.dword host 12) (pkt.dword host 16)
          (hostToBig host src.toNat) (hostToBig host dst.toNat)) := by
  rw [updateIpv4Transport_of_fragOff hfrag, hproto]
  exact if_pos hfit

theorem word_writeWord_self (h : pos + 2 ≤ pkt.size) (value : UInt16) :
    (pkt.writeWord host pos value).word host pos = value := by
  have hself := @field_write_self pkt pos (host.store 2 value.toNat)
    (by rwa [ByteOrder.length_store])
  rw [ByteOrder.length_store] at hself
  rw [word, writeWord, hself, host.load_store value.toNat_lt, UInt16.ofNat_toNat]

theorem word_updateIpv4Address {value : UInt16}
    (htransport : pkt.updateIpv4Transport host src dst = pkt.writeWord host pos value)
    (hfit : pos + 2 ≤ pkt.size) (hpos : 20 ≤ pos) :
    (pkt.updateIpv4Address host src dst).word host pos = value := by
  rw [word, field_updateIpv4Address (Or.inr hpos), htransport]
  exact word_writeWord_self hfit value

theorem udpChecksum_updateIpv4Address (hlen : 5 ≤ pkt.headerLen)
    (hfrag : pkt.fragOff = 0) (hproto : pkt.byte 9 = IPProtocol.UDP)
    (hfit : pkt.headerLen * 4 + UDP_CSUM_OFF + 2 ≤ pkt.size) :
    (pkt.updateIpv4Address host src dst).udpChecksum host =
      updateIpv4UdpChecksum (pkt.udpChecksum host) (pkt.dword host 12) (pkt.dword host 16)
        (hostToBig host src.toNat) (hostToBig host dst.toNat) := by
  rw [udpChecksum, headerLen_updateIpv4Address hlen]
  exact word_updateIpv4Address (updateIpv4Transport_of_udp hfrag hproto hfit) hfit (by omega)

theorem udpChecksum_updateIpv4Address_eq_zero_iff (hlen : 5 ≤ pkt.headerLen)
    (hfrag : pkt.fragOff = 0) (hproto : pkt.byte 9 = IPProtocol.UDP) :
    (pkt.updateIpv4Address host src dst).udpChecksum host = 0 ↔ pkt.udpChecksum host = 0 := by
  by_cases hfit : pkt.headerLen * 4 + UDP_CSUM_OFF + 2 ≤ pkt.size
  · rw [udpChecksum_updateIpv4Address hlen hfrag hproto hfit, updateIpv4UdpChecksum_eq_zero_iff]
  · have hsame : pkt.updateIpv4Transport host src dst = pkt := by
      rw [updateIpv4Transport_of_fragOff hfrag, hproto]
      exact if_neg hfit
    rw [udpChecksum, udpChecksum, headerLen_updateIpv4Address hlen, word, word,
      field_updateIpv4Address (Or.inr (by omega)), hsame]

theorem udpChecks_updateIpv4Address {len : Nat} (hsize : 20 ≤ pkt.size) (hlen : 5 ≤ pkt.headerLen)
    (hfrag : pkt.fragOff = 0) (hproto : pkt.byte 9 = IPProtocol.UDP)
    (h : pkt.UdpChecks host len) : (pkt.updateIpv4Address host src dst).UdpChecks host len := by
  have hzero := @udpChecksum_updateIpv4Address_eq_zero_iff host pkt src dst hlen hfrag hproto
  by_cases hsum : pkt.udpChecksum host = 0
  · exact Or.inl (hzero.mpr hsum)
  have hchecks := h.resolve_left hsum
  have hfit : pkt.headerLen * 4 + UDP_CSUM_OFF + 2 ≤ pkt.size := by
    obtain ⟨hoff, hfit, _⟩ := hchecks
    omega
  refine Or.inr (hchecks.updateIpv4Address hsize hlen (by decide) (by rw [hproto]; decide)
    (updateIpv4Transport_of_udp hfrag hproto hfit) ?_)
  rw [updateIpv4UdpChecksum, if_neg hsum]
  exact updateIpv4Checksum_modEq _ _ _ _ _

theorem transportCsum_compose {proto : UInt8} {off : Nat}
    {compute : UInt16 → UInt32 → UInt32 → UInt32 → UInt32 → UInt16}
    (h : transportCsum proto = some (off, compute)) (oldSum : UInt16)
    (oldSrc oldDest midSrc midDest newSrc newDest : UInt32) :
    compute (compute oldSum oldSrc oldDest midSrc midDest) midSrc midDest newSrc newDest =
      compute oldSum oldSrc oldDest newSrc newDest := by
  unfold transportCsum at h
  split at h
  · cases h
    exact updateIpv4TcpChecksum_compose _ _ _ _ _ _ _
  · split at h
    · cases h
      exact updateIpv4UdpChecksum_compose _ _ _ _ _ _ _
    · cases h

theorem drop_updateIpv4Address {start : Nat} (h : 20 ≤ start) :
    (pkt.updateIpv4Address host src dst).buf.drop start =
      (pkt.updateIpv4Transport host src dst).buf.drop start := by
  have hfield := @field_updateIpv4Address host pkt src dst start pkt.size (Or.inr h)
  have hleft := @size_updateIpv4Address host pkt src dst
  have hright := @size_updateIpv4Transport host pkt src dst
  unfold size at hleft hright
  unfold field size at hfield
  rwa [List.take_of_length_le (by rw [List.length_drop]; omega),
    List.take_of_length_le (by rw [List.length_drop]; omega)] at hfield

theorem dword_updateIpv4Address_src (hsize : 20 ≤ pkt.size) :
    (pkt.updateIpv4Address host src dst).dword host 12 = hostToBig host src.toNat := by
  rw [dword, field_updateIpv4Address_src hsize, hostToBig]

theorem dword_updateIpv4Address_dst (hsize : 20 ≤ pkt.size) :
    (pkt.updateIpv4Address host src dst).dword host 16 = hostToBig host dst.toNat := by
  rw [dword, field_updateIpv4Address_dst hsize, hostToBig]

theorem drop_writeWord {start : Nat} (h : start ≤ pos) (value : UInt16) :
    (pkt.writeWord host pos value).buf.drop start =
      Wire.overwrite (pkt.buf.drop start) (pos - start) (host.store 2 value.toNat) :=
  Wire.drop_overwrite _ h _

theorem drop_updateIpv4Address_compose (hsize : 20 ≤ pkt.size) (hlen : 5 ≤ pkt.headerLen)
    (hfrag : pkt.fragOff = 0) (midSrc midDst : Ipv4) :
    ((pkt.updateIpv4Address host midSrc midDst).updateIpv4Address host src dst).buf.drop
        (pkt.headerLen * 4) =
      (pkt.updateIpv4Address host src dst).buf.drop (pkt.headerLen * 4) := by
  have hfrag' : (pkt.updateIpv4Address host midSrc midDst).fragOff = 0 := by
    rw [fragOff_updateIpv4Address hlen, hfrag]
  have hmid := @drop_updateIpv4Address host pkt midSrc midDst (pkt.headerLen * 4) (by omega)
  rw [drop_updateIpv4Address (by omega), drop_updateIpv4Address (by omega),
    updateIpv4Transport_of_fragOff hfrag', byte_updateIpv4Address (by decide) hlen,
    headerLen_updateIpv4Address hlen, size_updateIpv4Address]
  rw [updateIpv4Transport_of_fragOff hfrag] at hmid ⊢
  cases hcsum : transportCsum (pkt.byte 9) with
  | none =>
    rw [hcsum] at hmid
    exact hmid
  | some csum =>
    obtain ⟨off, compute⟩ := csum
    rw [hcsum] at hmid
    dsimp only at hmid ⊢
    split
    · rename_i hfit
      have htransport := @updateIpv4Transport_of_fragOff host pkt midSrc midDst hfrag
      rw [hcsum] at htransport
      dsimp only at htransport
      rw [if_pos hfit] at hmid htransport
      rw [word_updateIpv4Address htransport hfit (by omega), dword_updateIpv4Address_src hsize,
        dword_updateIpv4Address_dst hsize, transportCsum_compose hcsum,
        drop_writeWord (by omega), drop_writeWord (by omega), hmid,
        drop_writeWord (by omega), Wire.overwrite_overwrite _ _ (by simp)]
    · rename_i hfit
      rw [if_neg hfit] at hmid
      exact hmid

/-- The rewritten packet has the new addresses, and checksums that were right are right for them. -/
theorem updateIpv4Address_keeps_checksums (host : ByteOrder) (pkt : IPPacket) (src dst : Ipv4)
    (hv4 : pkt.isIpv4) (hlen : 5 ≤ pkt.headerLen) (hfrag : pkt.fragOff = 0) :
    ((pkt.updateIpv4Address host src dst).field 12 4 = storeBig 4 src.toNat ∧
      (pkt.updateIpv4Address host src dst).field 16 4 = storeBig 4 dst.toNat) ∧
      (pkt.HeaderChecks → (pkt.updateIpv4Address host src dst).HeaderChecks) ∧
      (pkt.protocol = IPProtocol.TCP → ∀ len, pkt.TcpChecks len →
        (pkt.updateIpv4Address host src dst).TcpChecks len) ∧
      (pkt.protocol = IPProtocol.UDP →
        (∀ len, pkt.UdpChecks host len →
          (pkt.updateIpv4Address host src dst).UdpChecks host len) ∧
        ((pkt.updateIpv4Address host src dst).udpChecksum host = 0 ↔
          pkt.udpChecksum host = 0)) ∧
      ((pkt.clearAddresses host).updateIpv4Address host src dst).buf.drop (pkt.headerLen * 4) =
        (pkt.updateIpv4Address host src dst).buf.drop (pkt.headerLen * 4) := by
  have hsize := le_size_of_isIpv4 hv4
  have hproto : pkt.protocol = pkt.byte 9 := by rw [protocol, if_pos hv4]
  rw [hproto]
  refine ⟨⟨field_updateIpv4Address_src hsize, field_updateIpv4Address_dst hsize⟩,
    headerChecks_updateIpv4Address hsize hlen, ?_, ?_, ?_⟩
  · intro htcp len
    exact tcpChecks_updateIpv4Address hsize hlen hfrag htcp
  · intro hudp
    refine ⟨?_, udpChecksum_updateIpv4Address_eq_zero_iff hlen hfrag hudp⟩
    intro len
    exact udpChecks_updateIpv4Address hsize hlen hfrag hudp
  · rw [clearAddresses, if_pos hv4]
    exact drop_updateIpv4Address_compose hsize hlen hfrag 0 0

def smallDatagram : IPPacket where
  buf := [0x45, 0, 0, 29, 0, 0, 0, 0, 64, 17, 0x66, 0xCE, 10, 0, 0, 1, 10, 0, 0, 2,
    0, 1, 0, 2, 0, 9, 0x8A, 0xD6, 0x61]
  minSize := Or.inr (by decide)

theorem updateIpv4Address_keeps_checksums_smallDatagram :
    smallDatagram.isIpv4 ∧ smallDatagram.HeaderChecks ∧
      smallDatagram.SegmentChecks UDP_CSUM_OFF 9 ∧
      (smallDatagram.updateIpv4Address .little 0xC0A80001 0xC0A80002).field 12 4 =
        [192, 168, 0, 1] ∧
      (smallDatagram.updateIpv4Address .little 0xC0A80001 0xC0A80002).HeaderChecks ∧
      (smallDatagram.updateIpv4Address .little 0xC0A80001 0xC0A80002).UdpChecks .little 9 := by
  have hsegment : smallDatagram.SegmentChecks UDP_CSUM_OFF 9 := by decide +kernel
  have hkeeps := updateIpv4Address_keeps_checksums .little smallDatagram 0xC0A80001 0xC0A80002
    (by decide +kernel) (by decide +kernel) (by decide +kernel)
  have hudp := hkeeps.2.2.2.1 (by decide +kernel)
  exact ⟨by decide +kernel, by decide +kernel, hsegment, hkeeps.1.1.trans (by decide +kernel),
    hkeeps.2.1 (by decide +kernel), hudp.1 9 (Or.inr hsegment)⟩

end IPPacket
end SessionRouter.Net

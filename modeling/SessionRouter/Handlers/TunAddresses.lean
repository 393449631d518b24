import SessionRouter.Address.AddressMap
import SessionRouter.Address.IpRange
import SessionRouter.Handlers.SessionTable

/-!
# The addresses a tun interface hands out
-/

namespace SessionRouter.Tun

open Lib Address

/-- What `TunEndpoint` is configured with. -/
structure Config where
  me : NetworkAddress
  net4 : IpNet 32
  net6 : IpNet 128
  reserved4 : List (NetworkAddress × Ipv4)
  reserved6 : List (NetworkAddress × Ipv6)
  expiredAddressCache : Nat

structure Family (width : Nat) where
  map : AddressMap (BitVec width) NetworkAddress
  range : IPRangeIterator width

structure TunAddresses where
  v4 : Family 32
  v6 : Family 128
  expired : List NetworkAddress

def addMapping {width : Nat} (net : IpNet width) (map : AddressMap (BitVec width) NetworkAddress)
    (entry : NetworkAddress × BitVec width) : AddressMap (BitVec width) NetworkAddress :=
  if !net.contains entry.2 then map
  else if map.containsRemote entry.1 then map
  else if map.containsLocal entry.2 then map
  else (map.insert entry.2 entry.1).1

def Family.setup {width : Nat} (net : IpNet width) (me : NetworkAddress)
    (reserved : List (NetworkAddress × BitVec width)) : Family width where
  map := reserved.foldl (addMapping net) (AddressMap.empty.insert net.ip me).1
  range := IPRangeIterator.ofNet net

def setup (config : Config) : TunAddresses where
  v4 := Family.setup config.net4 config.me config.reserved4
  v6 := Family.setup config.net6 config.me config.reserved6
  expired := []

def keyAddress (net : IpNet 128) (rid : RouterID) : Ipv6 :=
  let addrBits := 128 - net.mask
  let addrBytes := addrBits / 8
  let hi := net.ip.toNat / 2 ^ 64
  let lo := net.ip.toNat % 2 ^ 64
  let hi := if 8 < addrBytes then hi ||| loadBig (rid.data.take (addrBytes - 8)) else hi
  let lo :=
    if 8 ≤ addrBytes then loadBig ((rid.data.drop (addrBytes - 8)).take 8)
    else lo ||| loadBig (rid.data.take addrBytes)
  BitVec.ofNat 128 (hi * 2 ^ 64 + lo)

abbrev Next (width : Nat) := Option (BitVec width) × IPRangeIterator width

def getNextLocalIpv4 (state : TunAddresses) : Next 32 :=
  state.v4.range.getNextLocal state.v4.map.containsLocal

def getNextLocalIpv6 (config : Config) (state : TunAddresses) (remote : NetworkAddress) :
    Next 128 :=
  let toTry := keyAddress config.net6 remote.pubkey
  if !state.v6.map.containsLocal toTry && toTry ≠ config.net6.ip && toTry ≠ config.net6.base then
    (some toTry, state.v6.range)
  else state.v6.range.getNextLocal state.v6.map.containsLocal

def Family.mapRemote {width : Nat} (family : Family width) (next : Next width)
    (remote : NetworkAddress) : Option (BitVec width) × Family width :=
  match family.map.localOf remote with
  | some ip => (some ip, family)
  | none =>
    match next with
    | (some ip, range) => (some ip, ⟨(family.map.insert ip remote).1, range⟩)
    | (none, range) => (none, { family with range })

def map4 (state : TunAddresses) (remote : NetworkAddress) : Option Ipv4 × TunAddresses :=
  let (ip, v4) := state.v4.mapRemote (getNextLocalIpv4 state) remote
  (ip, { state with v4 })

def map6 (config : Config) (state : TunAddresses) (remote : NetworkAddress) :
    Option Ipv6 × TunAddresses :=
  let (ip, v6) := state.v6.mapRemote (getNextLocalIpv6 config state remote) remote
  (ip, { state with v6 })

def requeued (state : TunAddresses) (remote : NetworkAddress) : List NetworkAddress :=
  state.expired.erase remote ++ [remote]

def pruned (config : Config) (state : TunAddresses) (remote : NetworkAddress) :
    List NetworkAddress :=
  (requeued state remote).take ((requeued state remote).length - config.expiredAddressCache)

def Family.erase {width : Nat} (family : Family width) (remotes : List NetworkAddress) :
    Family width :=
  { family with map := remotes.foldl AddressMap.erase family.map }

def expire (config : Config) (state : TunAddresses) (remote : NetworkAddress) : TunAddresses :=
  { state with
    v4 := state.v4.erase (pruned config state remote)
    v6 := state.v6.erase (pruned config state remote)
    expired := (requeued state remote).drop
      ((requeued state remote).length - config.expiredAddressCache) }

inductive Op where
  | map4 (remote : NetworkAddress)
  | map6 (remote : NetworkAddress)
  | expire (remote : NetworkAddress)
deriving DecidableEq

def step (config : Config) (state : TunAddresses) : Op → TunAddresses
  | .map4 remote => (map4 state remote).2
  | .map6 remote => (map6 config state remote).2
  | .expire remote => expire config state remote

def after (config : Config) (ops : List Op) : TunAddresses :=
  Run.run (step config) (setup config) ops

theorem lor_div_two_pow {x y k : Nat} (h : y < 2 ^ k) : (x ||| y) / 2 ^ k = x / 2 ^ k := by
  rw [← Nat.shiftRight_eq_div_pow, ← Nat.shiftRight_eq_div_pow, Nat.shiftRight_or_distrib,
    Nat.shiftRight_eq_div_pow y, Nat.div_eq_of_lt h, Nat.or_zero]

theorem loadBig_take_lt (bytes : Bytes) (k : Nat) : loadBig (bytes.take k) < 2 ^ (8 * k) := by
  have hlength : (bytes.take k).length ≤ k := List.length_take_le k bytes
  calc loadBig (bytes.take k) < 256 ^ (bytes.take k).length := loadBig_lt _
    _ ≤ 256 ^ k := Nat.pow_le_pow_right (by decide) hlength
    _ = 2 ^ (8 * k) := by rw [Nat.pow_mul]

theorem join_div_of_le {hi lo k : Nat} (hlo : lo < 2 ^ 64) (hk : 64 ≤ k) :
    (hi * 2 ^ 64 + lo) / 2 ^ k = hi / 2 ^ (k - 64) := by
  have hsplit : 2 ^ k = 2 ^ 64 * 2 ^ (k - 64) := by
    rw [← Nat.pow_add]
    congr 1
    omega
  rw [hsplit, ← Nat.div_div_eq_div_mul]
  congr 1
  omega

theorem join_div_of_lt {hi lo k : Nat} (hk : k < 64) :
    (hi * 2 ^ 64 + lo) / 2 ^ k = hi * 2 ^ (64 - k) + lo / 2 ^ k := by
  have hsplit : 2 ^ 64 = 2 ^ (64 - k) * 2 ^ k := by
    rw [← Nat.pow_add]
    congr 1
    omega
  rw [hsplit, ← Nat.mul_assoc, Nat.add_comm, Nat.add_mul_div_right _ _ (Nat.two_pow_pos k),
    Nat.add_comm]

theorem contains_keyAddress (net : IpNet 128) (rid : RouterID) :
    net.contains (keyAddress net rid) := by
  have hmask := net.mask_le
  have hip := net.ip.isLt
  -- the halves of our own address
  obtain ⟨hi, lo, hhi, hlo, hjoin⟩ : ∃ hi lo, hi < 2 ^ 64 ∧ lo < 2 ^ 64 ∧
      net.ip.toNat = hi * 2 ^ 64 + lo := by
    exact ⟨net.ip.toNat / 2 ^ 64, net.ip.toNat % 2 ^ 64, by omega, by omega, by omega⟩
  have hhigh : net.ip.toNat / 2 ^ 64 = hi := by omega
  have hlow : net.ip.toNat % 2 ^ 64 = lo := by omega
  obtain ⟨bits, hbits⟩ : ∃ bits, bits = 128 - net.mask := ⟨_, rfl⟩
  suffices h : (keyAddress net rid).toNat / 2 ^ bits = net.ip.toNat / 2 ^ bits by
    simp only [IpNet.contains, decide_eq_true_eq]
    apply BitVec.eq_of_toNat_eq
    rw [IpNet.base, toNat_toBase, toNat_toBase, ← hbits, h]
  rw [keyAddress, hhigh, hlow, ← hbits, hjoin]
  by_cases hbytes : 8 ≤ bits / 8
  · have hkey : loadBig ((rid.data.drop (bits / 8 - 8)).take 8) < 2 ^ 64 :=
      loadBig_take_lt _ 8
    have hfront := loadBig_take_lt rid.data (bits / 8 - 8)
    have hle : 2 ^ (8 * (bits / 8 - 8)) ≤ 2 ^ (bits - 64) :=
      Nat.pow_le_pow_right (by decide) (by omega)
    have hle' : 2 ^ (bits - 64) ≤ 2 ^ 64 := Nat.pow_le_pow_right (by decide) (by omega)
    rw [if_pos hbytes, BitVec.toNat_ofNat]
    split
    · have hor : hi ||| loadBig (rid.data.take (bits / 8 - 8)) < 2 ^ 64 :=
        Nat.or_lt_two_pow hhi (by omega)
      rw [Nat.mod_eq_of_lt (by omega), join_div_of_le hkey (by omega),
        join_div_of_le hlo (by omega), lor_div_two_pow (by omega)]
    · rw [Nat.mod_eq_of_lt (by omega), join_div_of_le hkey (by omega),
        join_div_of_le hlo (by omega)]
  · have hkey := loadBig_take_lt rid.data (bits / 8)
    have hle : 2 ^ (8 * (bits / 8)) ≤ 2 ^ bits := Nat.pow_le_pow_right (by decide) (by omega)
    have hle' : 2 ^ bits ≤ 2 ^ 64 := Nat.pow_le_pow_right (by decide) (by omega)
    have hor : lo ||| loadBig (rid.data.take (bits / 8)) < 2 ^ 64 :=
      Nat.or_lt_two_pow hlo (by omega)
    rw [if_neg hbytes, if_neg (by omega), BitVec.toNat_ofNat, Nat.mod_eq_of_lt (by omega),
      join_div_of_lt (by omega), join_div_of_lt (by omega), lor_div_two_pow (by omega)]

namespace Family

variable {width : Nat} {net : IpNet width} {me : NetworkAddress} {family : Family width}

structure Sound (net : IpNet width) (family : Family width) : Prop where
  inverse : family.map.Inverse
  within : family.range.Within net.base net.maxIp

def Own (net : IpNet width) (me : NetworkAddress) (family : Family width) : Prop :=
  family.map.remoteOf net.ip = some me

structure Fit (net : IpNet width) (family : Family width) (ip : BitVec width) : Prop where
  contains : net.contains ip
  ne_base : ip ≠ net.base
  free : family.map.remoteOf ip = none

structure Proper (net : IpNet width) (family : Family width) (next : Next width) : Prop where
  fit : ∀ ip, next.1 = some ip → Fit net family ip
  within : next.2.Within net.base net.maxIp

theorem Sound.proper_getNextLocal (h : Sound net family) :
    Proper net family (family.range.getNextLocal family.map.containsLocal) := by
  obtain ⟨hwithin, hfound⟩ := IPRangeIterator.within_getNextLocal h.within family.map.containsLocal
  refine ⟨fun ip hip => ?_, hwithin⟩
  obtain ⟨hlow, hhigh, hfree⟩ := hfound ip hip
  refine ⟨net.contains_of_le (BitVec.le_of_lt hlow) hhigh, ?_,
    AddressMap.containsLocal_eq_false_iff.mp hfree⟩
  rintro rfl
  exact BitVec.lt_irrefl _ hlow

theorem addMapping_keeps {map : AddressMap (BitVec width) NetworkAddress} (h : map.Inverse)
    (hown : map.remoteOf net.ip = some me) (entry : NetworkAddress × BitVec width) :
    (addMapping net map entry).Inverse ∧ (addMapping net map entry).remoteOf net.ip = some me := by
  unfold addMapping
  split
  · exact ⟨h, hown⟩
  split
  · exact ⟨h, hown⟩
  next hremote =>
    split
    · exact ⟨h, hown⟩
    next hlocal =>
      rw [Bool.not_eq_true] at hremote hlocal
      have hfree := AddressMap.containsLocal_eq_false_iff.mp hlocal
      have hfresh := AddressMap.containsRemote_eq_false_iff.mp hremote
      refine ⟨h.insert hfree hfresh, ?_⟩
      rw [AddressMap.remoteOf_insert hfree hfresh, if_neg, hown]
      intro heq
      rw [← heq, hown] at hfree
      cases hfree

theorem sound_setup (reserved : List (NetworkAddress × BitVec width)) :
    Sound net (setup net me reserved) ∧ Own net me (setup net me reserved) := by
  have hkeeps : ∀ (reserved : List (NetworkAddress × BitVec width)) map,
      AddressMap.Inverse map → map.remoteOf net.ip = some me →
        (reserved.foldl (addMapping net) map).Inverse ∧
          (reserved.foldl (addMapping net) map).remoteOf net.ip = some me := by
    intro reserved
    induction reserved with
    | nil => exact fun map hinverse hown => ⟨hinverse, hown⟩
    | cons entry reserved ih =>
      intro map hinverse hown
      obtain ⟨hinverse', hown'⟩ := addMapping_keeps hinverse hown entry
      exact ih _ hinverse' hown'
  have hinverse := (AddressMap.inverse_empty).insert
    (show (AddressMap.empty : AddressMap (BitVec width) NetworkAddress).remoteOf net.ip = none
      from rfl) (show AddressMap.empty.localOf me = none from rfl)
  have hown : (AddressMap.empty.insert net.ip me).1.remoteOf net.ip = some me := by
    rw [AddressMap.remoteOf_insert rfl rfl, if_pos rfl]
  obtain ⟨hall, hmine⟩ := hkeeps reserved _ hinverse hown
  exact ⟨⟨hall, IPRangeIterator.within_ofNet net⟩, hmine⟩

variable {next : Next width} {remote : NetworkAddress}

theorem mapRemote_of_fresh (hfresh : family.map.localOf remote = none) :
    (family.mapRemote next remote).1 = next.1 := by
  unfold mapRemote
  rw [hfresh]
  obtain ⟨_ | ip, range⟩ := next <;> rfl

theorem Sound.mapRemote (h : Sound net family) (hnext : Proper net family next) :
    Sound net (family.mapRemote next remote).2 := by
  unfold Family.mapRemote
  cases hmapped : family.map.localOf remote with
  | some ip => exact h
  | none =>
    obtain ⟨_ | ip, range⟩ := next
    · exact ⟨h.inverse, hnext.within⟩
    · exact ⟨h.inverse.insert (hnext.fit ip rfl).free hmapped, hnext.within⟩

theorem Own.mapRemote (hown : Own net me family) (hnext : Proper net family next) :
    Own net me (family.mapRemote next remote).2 := by
  unfold Family.mapRemote
  cases hmapped : family.map.localOf remote with
  | some ip => exact hown
  | none =>
    obtain ⟨_ | ip, range⟩ := next
    · exact hown
    · have hfree := (hnext.fit ip rfl).free
      unfold Own at hown ⊢
      dsimp only
      rw [AddressMap.remoteOf_insert hfree hmapped, if_neg, hown]
      intro heq
      rw [← heq, hown] at hfree
      cases hfree

theorem Sound.erase (h : Sound net family) (remotes : List NetworkAddress) :
    Sound net (family.erase remotes) := by
  refine ⟨?_, h.within⟩
  have hkeeps : ∀ map : AddressMap (BitVec width) NetworkAddress, map.Inverse →
      (remotes.foldl AddressMap.erase map).Inverse := by
    induction remotes with
    | nil => exact fun map hmap => hmap
    | cons remote remotes ih => exact fun map hmap => ih _ (hmap.erase remote)
  exact hkeeps family.map h.inverse

theorem Own.erase (hown : Own net me family) (h : Sound net family)
    {remotes : List NetworkAddress} (hme : me ∉ remotes) : Own net me (family.erase remotes) := by
  have hkeeps : ∀ map : AddressMap (BitVec width) NetworkAddress, map.Inverse →
      map.remoteOf net.ip = some me →
        (remotes.foldl AddressMap.erase map).remoteOf net.ip = some me := by
    induction remotes with
    | nil => exact fun map _ hmine => hmine
    | cons remote remotes ih =>
      intro map hinverse hmine
      rw [List.mem_cons, not_or] at hme
      refine ih hme.2 _ (hinverse.erase remote) ?_
      rw [hinverse.remoteOf_erase, hmine, if_neg]
      simpa using hme.1
  exact hkeeps family.map h.inverse hown

end Family

variable {config : Config} {state : TunAddresses}

def Sound (config : Config) (state : TunAddresses) : Prop :=
  Family.Sound config.net4 state.v4 ∧ Family.Sound config.net6 state.v6

theorem Sound.proper_getNextLocalIpv4 (h : Sound config state) :
    Family.Proper config.net4 state.v4 (getNextLocalIpv4 state) :=
  h.1.proper_getNextLocal

theorem Sound.proper_getNextLocalIpv6 (h : Sound config state) (remote : NetworkAddress) :
    Family.Proper config.net6 state.v6 (getNextLocalIpv6 config state remote) := by
  unfold getNextLocalIpv6
  dsimp only
  split
  next havailable =>
    simp only [Bool.and_eq_true, Bool.not_eq_true', decide_eq_true_eq] at havailable
    obtain ⟨⟨hfree, _⟩, hbase⟩ := havailable
    refine ⟨?_, h.2.within⟩
    rintro ip ⟨rfl⟩
    exact ⟨contains_keyAddress _ _, hbase, AddressMap.containsLocal_eq_false_iff.mp hfree⟩
  next => exact h.2.proper_getNextLocal

theorem Sound.step (h : Sound config state) (op : Op) : Sound config (step config state op) := by
  cases op with
  | map4 remote => exact ⟨h.1.mapRemote h.proper_getNextLocalIpv4, h.2⟩
  | map6 remote => exact ⟨h.1, h.2.mapRemote (h.proper_getNextLocalIpv6 remote)⟩
  | expire remote => exact ⟨h.1.erase _, h.2.erase _⟩

theorem sound_setup (config : Config) : Sound config (setup config) :=
  ⟨(Family.sound_setup _).1, (Family.sound_setup _).1⟩

theorem sound_after (config : Config) (ops : List Op) : Sound config (after config ops) :=
  @Run.run_invariant_of_step _ _ (step config) (Sound config) (fun _ op h => h.step op) _ ops
    (sound_setup config)

structure Kept (config : Config) (state : TunAddresses) : Prop where
  own4 : Family.Own config.net4 config.me state.v4
  own6 : Family.Own config.net6 config.me state.v6
  queued : config.me ∉ state.expired

theorem not_mem_requeued {me remote : NetworkAddress} (hqueued : me ∉ state.expired)
    (hne : remote ≠ me) : me ∉ requeued state remote := by
  rw [requeued, List.mem_append, List.mem_singleton, not_or]
  exact ⟨fun hmem => hqueued (List.mem_of_mem_erase hmem), hne.symm⟩

theorem Kept.step (hkept : Kept config state) (h : Sound config state) {op : Op}
    (hop : op ≠ .expire config.me) : Kept config (step config state op) := by
  cases op with
  | map4 remote => exact ⟨hkept.own4.mapRemote h.proper_getNextLocalIpv4, hkept.own6, hkept.queued⟩
  | map6 remote =>
    exact ⟨hkept.own4, hkept.own6.mapRemote (h.proper_getNextLocalIpv6 remote), hkept.queued⟩
  | expire remote =>
    have hne : remote ≠ config.me := by
      rintro rfl
      exact hop rfl
    have hqueue := not_mem_requeued hkept.queued hne
    have hpruned : config.me ∉ pruned config state remote :=
      fun hmem => hqueue (List.mem_of_mem_take hmem)
    exact ⟨hkept.own4.erase h.1 hpruned, hkept.own6.erase h.2 hpruned,
      fun hmem => hqueue (List.mem_of_mem_drop hmem)⟩

theorem kept_after (config : Config) {ops : List Op} (hops : .expire config.me ∉ ops) :
    Kept config (after config ops) := by
  have hmeets : Run.Meets (step config) (fun _ op => op ≠ .expire config.me) (setup config)
      ops := by
    generalize setup config = state
    induction ops generalizing state with
    | nil => trivial
    | cons op ops ih =>
      rw [List.mem_cons, not_or] at hops
      exact ⟨Ne.symm hops.1, ih hops.2 _⟩
  have hinit : Sound config (setup config) ∧ Kept config (setup config) :=
    ⟨sound_setup config, (Family.sound_setup _).2, (Family.sound_setup _).2, List.not_mem_nil⟩
  have hboth := @Run.run_invariant _ _ (step config) (fun _ op => op ≠ .expire config.me)
    (fun state => Sound config state ∧ Kept config state)
    (fun _ op h hop => ⟨h.1.step op, h.2.step h.1 hop⟩) _ _ hinit hmeets
  exact hboth.2

structure Assignable {width : Nat} (net : IpNet width) (ip : BitVec width) : Prop where
  contains : net.contains ip
  ne_base : ip ≠ net.base
  ne_own : ip ≠ net.ip

theorem Family.Fit.assignable {width : Nat} {net : IpNet width} {me : NetworkAddress}
    {family : Family width} {ip : BitVec width} (h : Family.Fit net family ip)
    (hown : Family.Own net me family) : Assignable net ip := by
  refine ⟨h.contains, h.ne_base, ?_⟩
  rintro rfl
  have hfree := h.free
  rw [Family.Own] at hown
  rw [hown] at hfree
  cases hfree

def Bijective {width : Nat} (family : Family width) : Prop :=
  family.map.Inverse ∧ ∀ remote ip other, family.map.remoteOf ip = some remote →
      family.map.remoteOf other = some remote → ip = other

theorem Family.Sound.bijective {width : Nat} {net : IpNet width} {family : Family width}
    (h : Family.Sound net family) : Bijective family := by
  refine ⟨h.inverse, fun remote ip other hip hother => ?_⟩
  have hlocal := (h.inverse ip remote).mp hip
  rw [(h.inverse other remote).mp hother] at hlocal
  exact (Option.some.inj hlocal).symm

/-- In every run in which we do not expire ourselves, the tables are inverse to each other and
whatever is assigned to a remote without an address lies in the network, and is neither its
base nor our own address. -/
theorem after_assigns_inside (config : Config) (ops : List Op) (hops : .expire config.me ∉ ops) :
    Bijective (after config ops).v4 ∧ Bijective (after config ops).v6 ∧
      (∀ remote ip, (after config ops).v4.map.localOf remote = none →
        (map4 (after config ops) remote).1 = some ip → Assignable config.net4 ip) ∧
      ∀ remote ip, (after config ops).v6.map.localOf remote = none →
        (map6 config (after config ops) remote).1 = some ip → Assignable config.net6 ip := by
  have hsound := sound_after config ops
  have hkept := kept_after config hops
  refine ⟨hsound.1.bijective, hsound.2.bijective, ?_, ?_⟩
  · intro remote ip hfresh hmapped
    rw [map4, Family.mapRemote_of_fresh hfresh] at hmapped
    exact (hsound.proper_getNextLocalIpv4.fit ip hmapped).assignable hkept.own4
  · intro remote ip hfresh hmapped
    rw [map6, Family.mapRemote_of_fresh hfresh] at hmapped
    exact ((hsound.proper_getNextLocalIpv6 remote).fit ip hmapped).assignable hkept.own6

def someone (byte : UInt8) : NetworkAddress :=
  ⟨FixedBytes.filled 32 byte, true⟩

def smallConfig (cache : Nat) : Config where
  me := someone 1
  net4 := ⟨0x0A000001, 30, 0x0A000002, by decide, by decide, by decide +kernel⟩
  net6 := ⟨0xFD000000000000000000000000000001, 64, 0xFD00000000000000FFFFFFFFFFFFFFFE,
    by decide, by decide, by decide +kernel⟩
  reserved4 := []
  reserved6 := []
  expiredAddressCache := cache

theorem after_assigns_inside_first :
    (after (smallConfig 0) [.map4 (someone 2)]).v4.map.localOf (someone 2) = some 0x0A000002 ∧
      Bijective (after (smallConfig 0) [.map4 (someone 2)]).v4 :=
  ⟨by decide +kernel, (after_assigns_inside (smallConfig 0) [.map4 (someone 2)] (by decide)).1⟩

theorem own_address_assigned :
    (after (smallConfig 0) [.expire (someone 1), .map4 (someone 2)]).v4.map.localOf (someone 3) =
        none ∧
      (map4 (after (smallConfig 0) [.expire (someone 1), .map4 (someone 2)]) (someone 3)).1 =
        some (smallConfig 0).net4.ip := by
  decide +kernel

variable {config : Config}

def inUse (remote : NetworkAddress) (used : Bool) : Op → Bool
  | .map4 other => used || other = remote
  | .map6 other => used || other = remote
  | .expire other => used && other ≠ remote

def mappedSince (ops : List Op) (remote : NetworkAddress) : Bool :=
  ops.foldl (inUse remote) false

def Config.Reserved (config : Config) (remote : NetworkAddress) : Prop :=
  remote ∈ config.reserved4.map Prod.fst ∨ remote ∈ config.reserved6.map Prod.fst

instance (remote : NetworkAddress) : Decidable (config.Reserved remote) :=
  inferInstanceAs (Decidable (_ ∨ _))

structure Disposable (config : Config) (ops : List Op) (remote : NetworkAddress) : Prop where
  unused : mappedSince ops remote = false
  unreserved : ¬ config.Reserved remote
  ne_me : remote ≠ config.me

def Undisturbed (config : Config) (state : TunAddresses) : Op → Prop
  | .map4 remote => remote ∉ state.expired
  | .map6 remote => remote ∉ state.expired
  | .expire remote => ¬ config.Reserved remote ∧ remote ≠ config.me

theorem mappedSince_append (ops : List Op) (op : Op) (remote : NetworkAddress) :
    mappedSince (ops ++ [op]) remote = inUse remote (mappedSince ops remote) op := by
  rw [mappedSince, List.foldl_append]
  rfl

theorem after_append (config : Config) (ops : List Op) (op : Op) :
    after config (ops ++ [op]) = step config (after config ops) op := by
  rw [after, Run.run_append]
  rfl

theorem mem_requeued {state : TunAddresses} {remote other : NetworkAddress}
    (h : other ∈ requeued state remote) : other ∈ state.expired ∨ other = remote := by
  rw [requeued, List.mem_append, List.mem_singleton] at h
  exact h.imp_left List.mem_of_mem_erase

variable {ops : List Op}

theorem disposable_requeued {remote : NetworkAddress}
    (h : ∀ other ∈ (after config ops).expired, Disposable config ops other)
    (hstep : Undisturbed config (after config ops) (.expire remote)) :
    ∀ other ∈ requeued (after config ops) remote,
      Disposable config (ops ++ [.expire remote]) other := by
  intro other hmem
  by_cases heq : other = remote
  · subst heq
    refine ⟨?_, hstep.1, hstep.2⟩
    rw [mappedSince_append]
    simp [inUse]
  · obtain ⟨hunused, hunreserved, hne⟩ := h other ((mem_requeued hmem).resolve_right heq)
    refine ⟨?_, hunreserved, hne⟩
    rw [mappedSince_append, hunused]
    rfl

theorem disposable_of_unused {op : Op} {remote other : NetworkAddress}
    (h : Disposable config ops other) (hne : other ≠ remote)
    (hop : op = .map4 remote ∨ op = .map6 remote) : Disposable config (ops ++ [op]) other := by
  refine ⟨?_, h.unreserved, h.ne_me⟩
  rw [mappedSince_append, h.unused]
  rcases hop with rfl | rfl <;> simp [inUse, hne.symm]

theorem disposable_expired
    (hmeets : Run.Meets (step config) (Undisturbed config) (setup config) ops) :
    ∀ other ∈ (after config ops).expired, Disposable config ops other := by
  -- from the right: the history of a remote grows at its end
  induction ops using List.reverseRecOn with
  | nil =>
    intro other hmem
    exact absurd hmem List.not_mem_nil
  | append_singleton ops op ih =>
    obtain ⟨hfront, hlast, -⟩ := (Run.meets_append _ _ _ ops [op]).mp hmeets
    have hqueue := ih hfront
    rw [after_append]
    intro other hmem
    cases op with
    | map4 remote =>
      have hne : other ≠ remote := by
        rintro rfl
        exact hlast hmem
      exact disposable_of_unused (hqueue other hmem) hne (Or.inl rfl)
    | map6 remote =>
      have hne : other ≠ remote := by
        rintro rfl
        exact hlast hmem
      exact disposable_of_unused (hqueue other hmem) hne (Or.inr rfl)
    | expire remote => exact disposable_requeued hqueue hlast other (List.mem_of_mem_drop hmem)

theorem pruned_disposable (config : Config) (ops : List Op)
    (hmeets : Run.Meets (step config) (Undisturbed config) (setup config) ops)
    (front back : List Op) (remote : NetworkAddress)
    (hsplit : ops = front ++ .expire remote :: back) :
    ∀ other ∈ pruned config (after config front) remote,
      Disposable config (front ++ [.expire remote]) other := by
  subst hsplit
  obtain ⟨hfront, hlast, -⟩ := (Run.meets_append _ _ _ front _).mp hmeets
  intro other hmem
  exact disposable_requeued (disposable_expired hfront) hlast other (List.mem_of_mem_take hmem)

theorem pruned_disposable_two : someone 2 ∈ pruned (smallConfig 1)
        (after (smallConfig 1) [.map6 (someone 2), .expire (someone 2), .map6 (someone 3)])
        (someone 3) ∧
      ∀ other ∈ pruned (smallConfig 1)
          (after (smallConfig 1) [.map6 (someone 2), .expire (someone 2), .map6 (someone 3)])
          (someone 3),
        Disposable (smallConfig 1) ([.map6 (someone 2), .expire (someone 2), .map6 (someone 3)] ++
          [.expire (someone 3)]) other :=
  ⟨by decide +kernel, pruned_disposable (smallConfig 1)
      [.map6 (someone 2), .expire (someone 2), .map6 (someone 3), .expire (someone 3)]
      (by
        simp only [Run.Meets, Undisturbed]
        decide +kernel) _ [] _ rfl⟩

theorem pruned_in_use : someone 2 ∈ pruned (smallConfig 1) (after (smallConfig 1)
          [.map6 (someone 2), .map6 (someone 3), .expire (someone 2), .map6 (someone 2)])
        (someone 3) ∧
      mappedSince [.map6 (someone 2), .map6 (someone 3), .expire (someone 2), .map6 (someone 2),
          .expire (someone 3)] (someone 2) = true ∧
      (after (smallConfig 1)
        [.map6 (someone 2), .map6 (someone 3), .expire (someone 2), .map6 (someone 2),
          .expire (someone 3)]).v6.map.localOf (someone 2) = none := by
  decide +kernel

end SessionRouter.Tun

import Mathlib.Data.BitVec
import Mathlib.Tactic

/-!
# IP addresses, networks and the walk through a range
-/

namespace SessionRouter.Address

abbrev Ipv4 := BitVec 32

abbrev Ipv6 := BitVec 128

variable {width : Nat}

def toBase (mask : Nat) (ip : BitVec width) : BitVec width :=
  BitVec.ofNat width (ip.toNat / 2 ^ (width - mask) * 2 ^ (width - mask))

theorem toNat_toBase (mask : Nat) (ip : BitVec width) :
    (toBase mask ip).toNat = ip.toNat / 2 ^ (width - mask) * 2 ^ (width - mask) := by
  have hle := Nat.div_mul_le_self ip.toNat (2 ^ (width - mask))
  rw [toBase, BitVec.toNat_ofNat, Nat.mod_eq_of_lt (Nat.lt_of_le_of_lt hle ip.isLt)]

theorem toBase_le (mask : Nat) (ip : BitVec width) : toBase mask ip ≤ ip := by
  rw [BitVec.le_def, toNat_toBase]
  exact Nat.div_mul_le_self _ _

structure IpNet (width : Nat) where
  ip : BitVec width
  mask : Nat
  maxIp : BitVec width
  mask_le : mask ≤ width
  ip_le_maxIp : ip ≤ maxIp
  maxIp_mem : toBase mask maxIp = toBase mask ip

namespace IpNet

variable (net : IpNet width)

def base : BitVec width :=
  toBase net.mask net.ip

def contains (ip : BitVec width) : Bool :=
  toBase net.mask ip = net.base

theorem base_le_ip : net.base ≤ net.ip := toBase_le net.mask net.ip

theorem contains_of_le {ip : BitVec width} (hlow : net.base ≤ ip) (hhigh : ip ≤ net.maxIp) :
    net.contains ip := by
  have hmem := congrArg BitVec.toNat net.maxIp_mem
  rw [toNat_toBase, toNat_toBase] at hmem
  have hbase : net.base.toNat / 2 ^ (width - net.mask) = net.ip.toNat / 2 ^ (width - net.mask) := by
    rw [base, toNat_toBase, Nat.mul_div_cancel _ (Nat.two_pow_pos _)]
  have hprefix := Nat.eq_of_mul_eq_mul_right (Nat.two_pow_pos _) hmem
  have hlow' := Nat.div_le_div_right (c := 2 ^ (width - net.mask)) (BitVec.le_def.mp hlow)
  have hhigh' := Nat.div_le_div_right (c := 2 ^ (width - net.mask)) (BitVec.le_def.mp hhigh)
  have hsame : ip.toNat / 2 ^ (width - net.mask) = net.ip.toNat / 2 ^ (width - net.mask) := by omega
  simp only [contains, decide_eq_true_eq]
  apply BitVec.eq_of_toNat_eq
  rw [base, toNat_toBase, toNat_toBase, hsame]

end IpNet

def nextAddress (ip : BitVec width) : Option (BitVec width) :=
  if ip.toNat + 1 < 2 ^ width then some (BitVec.ofNat width (ip.toNat + 1)) else none

@[ext] structure IPRangeIterator (width : Nat) where
  curr : BitVec width
  base : BitVec width
  last : BitVec width

namespace IPRangeIterator

def ofNet (net : IpNet width) : IPRangeIterator width :=
  ⟨net.ip, net.base, net.maxIp⟩

def nextIp (it : IPRangeIterator width) : Option (BitVec width × IPRangeIterator width) :=
  if it.curr = it.last then none
  else (nextAddress it.curr).map fun next => (next, { it with curr := next })

def reset (it : IPRangeIterator width) : IPRangeIterator width :=
  { it with curr := it.base }

def scan (assigned : BitVec width → Bool) :
    Nat → IPRangeIterator width → Option (BitVec width) × IPRangeIterator width
  | 0, it => (none, it)
  | fuel + 1, it =>
    match it.nextIp with
    | none => (none, it)
    | some (ip, it) => if assigned ip then scan assigned fuel it else (some ip, it)

def getNextLocal (assigned : BitVec width → Bool) (it : IPRangeIterator width) :
    Option (BitVec width) × IPRangeIterator width :=
  match scan assigned (2 ^ width) it with
  | (some ip, it) => (some ip, it)
  | (none, it) => scan assigned (2 ^ width) it.reset

/-- The iterator stands inside the range it walks. -/
structure Within (it : IPRangeIterator width) (low high : BitVec width) : Prop where
  base : it.base = low
  last : it.last = high
  low_le : low ≤ it.curr
  le_high : it.curr ≤ high

variable {it next : IPRangeIterator width} {low high ip : BitVec width}

theorem within_ofNet (net : IpNet width) : (ofNet net).Within net.base net.maxIp :=
  ⟨rfl, rfl, net.base_le_ip, net.ip_le_maxIp⟩

section

variable (h : it.Within low high)

include h

theorem Within.reset : it.reset.Within low high :=
  ⟨h.base, h.last, BitVec.le_of_eq h.base.symm,
    BitVec.le_trans (BitVec.le_of_eq h.base) (BitVec.le_trans h.low_le h.le_high)⟩

theorem within_nextIp (hnext : it.nextIp = some (ip, next)) :
    next.Within low high ∧ next.curr = ip ∧ ip.toNat = it.curr.toNat + 1 := by
  unfold nextIp nextAddress at hnext
  split at hnext
  · cases hnext
  next hne =>
    split at hnext
    next hlt =>
      cases hnext
      have htoNat : (BitVec.ofNat width (it.curr.toNat + 1)).toNat = it.curr.toNat + 1 := by
        rw [BitVec.toNat_ofNat, Nat.mod_eq_of_lt hlt]
      have hlow := BitVec.le_def.mp h.low_le
      have hhigh := BitVec.le_def.mp h.le_high
      have hdiffer : it.curr.toNat ≠ high.toNat := by
        intro heq
        exact hne (by rw [h.last]; exact BitVec.eq_of_toNat_eq heq)
      refine ⟨⟨h.base, h.last, ?_, ?_⟩, rfl, htoNat⟩
      · rw [BitVec.le_def, htoNat]
        omega
      · rw [BitVec.le_def, htoNat]
        omega
    · cases hnext

theorem within_scan (assigned : BitVec width → Bool) (fuel : Nat) :
    (scan assigned fuel it).2.Within low high ∧ ∀ ip, (scan assigned fuel it).1 = some ip →
        it.curr < ip ∧ ip ≤ high ∧ assigned ip = false := by
  induction fuel generalizing it with
  | zero => exact ⟨h, by simp [scan]⟩
  | succ fuel ih =>
    rw [scan]
    cases hnext : it.nextIp with
    | none => exact ⟨h, by simp⟩
    | some found =>
      obtain ⟨ip, next⟩ := found
      obtain ⟨hwithin, hcurr, hsucc⟩ := within_nextIp h hnext
      have hlt : it.curr < ip := by
        rw [BitVec.lt_def]
        omega
      dsimp only
      split
      · obtain ⟨hafter, hfound⟩ := ih hwithin
        refine ⟨hafter, fun other hother => ?_⟩
        obtain ⟨hbehind, hrest⟩ := hfound other hother
        exact ⟨BitVec.lt_trans hlt (hcurr ▸ hbehind), hrest⟩
      next hfree =>
        refine ⟨hwithin, ?_⟩
        rintro other ⟨rfl⟩
        exact ⟨hlt, hcurr ▸ hwithin.le_high, Bool.eq_false_iff.mpr hfree⟩

theorem within_getNextLocal (assigned : BitVec width → Bool) :
    (it.getNextLocal assigned).2.Within low high ∧ ∀ ip, (it.getNextLocal assigned).1 = some ip →
        low < ip ∧ ip ≤ high ∧ assigned ip = false := by
  obtain ⟨hfirst, hfound⟩ := within_scan h assigned (2 ^ width)
  rw [getNextLocal]
  rcases hscan : scan assigned (2 ^ width) it with ⟨found, after⟩
  rw [hscan] at hfirst hfound
  cases found with
  | some ip =>
    refine ⟨hfirst, fun other hother => ?_⟩
    obtain ⟨hbehind, hrest⟩ := hfound other hother
    refine ⟨?_, hrest⟩
    rw [BitVec.lt_def] at hbehind ⊢
    exact Nat.lt_of_le_of_lt (BitVec.le_def.mp h.low_le) hbehind
  | none =>
    obtain ⟨hagain, hfound'⟩ := within_scan hfirst.reset assigned (2 ^ width)
    refine ⟨hagain, fun other hother => ?_⟩
    obtain ⟨hbehind, hrest⟩ := hfound' other hother
    exact ⟨hfirst.base ▸ hbehind, hrest⟩

end

end IPRangeIterator
end SessionRouter.Address

namespace SessionRouter.Address.IPRangeIterator

variable {width : Nat} (assigned : BitVec width → Bool)

/-- The loop of `get_next_local_ipvX`; there is no result while it still runs. -/
def getNextLocalIpvX : Nat → Bool → IPRangeIterator width →
    Option (Option (BitVec width) × IPRangeIterator width)
  | 0, _, _ => none
  | fuel + 1, hasReset, it =>
    match it.nextIp with
    | some (ip, it) => if assigned ip then getNextLocalIpvX fuel hasReset it else some (some ip, it)
    | none => if hasReset then some (none, it) else getNextLocalIpvX fuel true it.reset

variable {assigned} {it : IPRangeIterator width} {low high : BitVec width}

theorem curr_eq_of_nextIp_eq_none (h : it.Within low high) (hnext : it.nextIp = none) :
    it.curr = high := by
  unfold nextIp nextAddress at hnext
  split at hnext
  · next heq => rw [heq, h.last]
  · split at hnext
    · cases hnext
    · have hcurr := it.curr.isLt
      have hhigh := high.isLt
      have hle := BitVec.le_def.mp h.le_high
      apply BitVec.eq_of_toNat_eq
      omega

variable (assigned) in
/-- One pass: it ends at a free address, or at the end of the range when there is none. -/
theorem exists_pass (hasReset : Bool) (h : it.Within low high) :
    ∃ steps after, after.Within low high ∧
      ((∃ ip, (∀ fuel, getNextLocalIpvX assigned (fuel + steps) hasReset it =
            some (some ip, after)) ∧ it.curr < ip ∧ ip ≤ high ∧ assigned ip = false) ∨
        after.nextIp = none ∧
          (∀ fuel, getNextLocalIpvX assigned (fuel + steps) hasReset it =
            getNextLocalIpvX assigned fuel hasReset after) ∧
          ∀ ip, it.curr < ip → ip ≤ high → assigned ip) := by
  -- the pass has as many steps as there are addresses left
  induction hleft : high.toNat - it.curr.toNat generalizing it with
  | zero =>
    have hle := BitVec.le_def.mp h.le_high
    have hnone : it.nextIp = none := by
      cases hnext : it.nextIp with
      | none => rfl
      | some found =>
        obtain ⟨hwithin, hcurr, hsucc⟩ := within_nextIp h hnext
        have hle' := BitVec.le_def.mp hwithin.le_high
        rw [hcurr] at hle'
        omega
    refine ⟨0, it, h, .inr ⟨hnone, fun _ => rfl, fun ip hlt hhigh => ?_⟩⟩
    rw [BitVec.lt_def] at hlt
    rw [BitVec.le_def] at hhigh
    omega
  | succ left ih =>
    cases hnext : it.nextIp with
    | none =>
      rw [curr_eq_of_nextIp_eq_none h hnext] at hleft
      omega
    | some found =>
      obtain ⟨next, after⟩ := found
      obtain ⟨hwithin, rfl, hsucc⟩ := within_nextIp h hnext
      have hstep (fuel : Nat) : getNextLocalIpvX assigned (fuel + 1) hasReset it =
          if assigned after.curr then getNextLocalIpvX assigned fuel hasReset after
          else some (some after.curr, after) := by
        rw [getNextLocalIpvX, hnext]
      have hlt : it.curr < after.curr := by
        rw [BitVec.lt_def]
        omega
      by_cases hfree : assigned after.curr
      · obtain ⟨steps, last, hlast, hends⟩ := ih hwithin (by omega)
        have hfirst (fuel : Nat) : getNextLocalIpvX assigned (fuel + (steps + 1)) hasReset it =
            getNextLocalIpvX assigned (fuel + steps) hasReset after := by
          rw [← Nat.add_assoc, hstep, if_pos hfree]
        refine ⟨steps + 1, last, hlast, ?_⟩
        rcases hends with ⟨ip, hfound, hbehind, hrest⟩ | ⟨hend, hsame, hall⟩
        · exact .inl ⟨ip, fun fuel => (hfirst fuel).trans (hfound fuel),
            BitVec.lt_trans hlt hbehind, hrest⟩
        · refine .inr ⟨hend, fun fuel => (hfirst fuel).trans (hsame fuel), ?_⟩
          intro ip hbehind hhigh
          by_cases heq : ip = after.curr
          · rwa [heq]
          · refine hall ip ?_ hhigh
            have hne : ip.toNat ≠ after.curr.toNat := fun hsame => heq (BitVec.eq_of_toNat_eq hsame)
            rw [BitVec.lt_def] at hbehind ⊢
            omega
      · refine ⟨1, after, hwithin, .inl ⟨after.curr, fun fuel => ?_, hlt, hwithin.le_high,
          Bool.eq_false_iff.mpr hfree⟩⟩
        rw [hstep, if_neg hfree]

theorem getNextLocalIpvX_returns (net : IpNet width) (assigned : BitVec width → Bool)
    {it : IPRangeIterator width} (h : it.Within net.base net.maxIp) :
    ∃ fuel result after, getNextLocalIpvX assigned fuel false it = some (result, after) ∧
      after.Within net.base net.maxIp ∧
      (result = none ↔ ∀ ip, net.base < ip → ip ≤ net.maxIp → assigned ip) ∧
      ∀ ip ∈ result, net.base < ip ∧ ip ≤ net.maxIp ∧ assigned ip = false := by
  have hfree {ip : BitVec width} (hlow : net.base < ip) (hhigh : ip ≤ net.maxIp)
      (hfree : assigned ip = false) :
      (some ip = none ↔ ∀ ip, net.base < ip → ip ≤ net.maxIp → assigned ip) ∧
        ∀ other ∈ some ip, net.base < other ∧ other ≤ net.maxIp ∧ assigned other = false := by
    refine ⟨iff_of_false (by simp) fun hall => ?_, ?_⟩
    · rw [hall ip hlow hhigh] at hfree
      cases hfree
    · rintro _ ⟨rfl⟩
      exact ⟨hlow, hhigh, hfree⟩
  obtain ⟨steps, last, hlast, ⟨ip, hfound, hlt, hhigh, hip⟩ | ⟨hend, hfirst, -⟩⟩ :=
    exists_pass assigned false h
  · exact ⟨0 + steps, some ip, last, hfound 0, hlast,
      hfree (Nat.lt_of_le_of_lt (BitVec.le_def.mp h.low_le) hlt) hhigh hip⟩
  have hreset (fuel : Nat) : getNextLocalIpvX assigned (fuel + 1 + steps) false it =
      getNextLocalIpvX assigned fuel true last.reset := by
    rw [hfirst, getNextLocalIpvX, hend]
    rfl
  have hbase : last.reset.curr = net.base := hlast.base
  obtain ⟨again, final, hfinal, ⟨ip, hfound, hlt, hhigh, hip⟩ | ⟨hend', hsecond, hall⟩⟩ :=
    exists_pass assigned true hlast.reset
  · exact ⟨_, some ip, final, (hreset _).trans (hfound 0), hfinal, hfree (hbase ▸ hlt) hhigh hip⟩
  · refine ⟨_, none, final, (hreset (1 + again)).trans ?_, hfinal, ?_, by simp⟩
    · rw [hsecond, getNextLocalIpvX, hend']
      rfl
    · rw [hbase] at hall
      exact iff_of_true rfl hall

theorem getNextLocalIpvX_returns_ofNet :
    let net : IpNet 4 := ⟨1, 2, 2, by decide, by decide, by decide⟩
    ∃ fuel result after, getNextLocalIpvX (· = 2) fuel false (ofNet net) = some (result, after) ∧
      result ≠ none := by
  intro net
  obtain ⟨fuel, result, after, hreturns, -, hnone, -⟩ :=
    getNextLocalIpvX_returns net (· = 2) (within_ofNet net)
  exact ⟨fuel, result, after, hreturns, fun h => absurd (hnone.mp h 1 (by decide) (by decide))
    (by decide)⟩

end SessionRouter.Address.IPRangeIterator

import SessionRouter.Lib.Reservoir
import SessionRouter.Path.Build
import Mathlib.Data.List.Nodup

/-!
# The hops of a new path
-/

namespace SessionRouter

open Lib Reservoir

def profilingChances : Nat := 4

/-- What the selection reads of a relay contact. -/
structure HopContact where
  routerId : RouterID
  addr : BitVec 32
  timestamp : Int
  deriving DecidableEq

structure KnownRcs where
  rcs : List HopContact
  nodup : (rcs.map HopContact.routerId).Nodup

namespace KnownRcs

def getRc (known : KnownRcs) (rid : RouterID) : Option HopContact :=
  known.rcs.find? fun rc => rc.routerId = rid

theorem routerId_of_getRc {known : KnownRcs} {rid : RouterID} {rc : HopContact}
    (h : known.getRc rid = some rc) : rc.routerId = rid := by
  simpa using List.find?_some h

end KnownRcs

/-- What the selection depends on. -/
structure PathSelector where
  isServiceNode : Bool
  id : RouterID
  knownRcs : KnownRcs
  currentRelays : List RouterID
  blacklist : RouterID → Bool
  isBadForPath : RouterID → Nat → Bool
  netmask : Nat
  numHops : Nat
  now : Int

structure HopDraws where
  edge : Nat → Draw
  hop : Nat → Draw

def addrRange (netmask : Nat) (addr : BitVec 32) : BitVec 32 :=
  addr &&& (BitVec.allOnes 32 <<< (32 - netmask))

/-- What must not be chosen again. -/
structure Exclusions where
  toExclude : List RouterID
  excludedRanges : List (BitVec 32)

namespace PathSelector

variable (sel : PathSelector)

def range (rc : HopContact) : BitVec 32 :=
  addrRange sel.netmask rc.addr

def exclude (excluded : Exclusions) (rc : HopContact) : Exclusions where
  toExclude := rc.routerId :: excluded.toExclude
  excludedRanges :=
    if sel.netmask ≠ 0 then excluded.excludedRanges ++ [sel.range rc]
    else excluded.excludedRanges

def filter (excluded : Exclusions) (rc : HopContact) : Bool :=
  rc.routerId ∉ excluded.toExclude &&
    (sel.netmask == 0 || excluded.excludedRanges.all fun range => sel.range rc != range) &&
    !sel.isBadForPath rc.routerId 1

def firstHopCandidates (pred : HopContact → Bool) : List HopContact :=
  (sel.currentRelays.filterMap sel.knownRcs.getRc).filter fun rc =>
    pred rc && !sel.isBadForPath rc.routerId profilingChances

def selectFirstHop (draw : Draw) (pred : HopContact → Bool) : Option HopContact :=
  (sample draw 1 (sel.firstHopCandidates pred)).head?

def admissible (rc : HopContact) : Bool :=
  !decide (int64 ((rc.timestamp + RelayContact.lifetime) * 1000) ≤ sel.now) &&
    if sel.isServiceNode then rc.routerId != sel.id else !sel.blacklist rc.routerId

def sampleRcs (draw : Draw) (n : Nat) (pred : HopContact → Bool) : List HopContact :=
  sample draw n (sel.knownRcs.rcs.filter fun rc => sel.admissible rc && pred rc)

def getRandomRc (draw : Draw) (pred : HopContact → Bool) : Option HopContact :=
  (sel.sampleRcs draw 1 pred).head?

def selectEdge (draws : HopDraws) (excluded : Exclusions) (pivot : RouterID) :
    Option (HopContact × Bool) :=
  let ranged := if sel.netmask ≠ 0 then sel.selectFirstHop (draws.edge 0) (sel.filter excluded)
    else none
  match ranged with
  | some first => some (first, false)
  | none =>
    let extendPath := decide (sel.netmask ≠ 0)
    match sel.selectFirstHop (draws.edge 1) fun rc => rc.routerId != pivot with
    | some first => some (first, extendPath)
    | none =>
      match sel.knownRcs.getRc pivot with
      | some first => some (first, true)
      | none => (sel.selectFirstHop (draws.edge 2) fun _ => true).map fun first => (first, true)

def selectHopsBetween (draws : HopDraws) : Nat → Nat → Exclusions → Option (List HopContact)
  | _, 0, _ => some []
  | i, hopsNeeded + 1, excluded =>
    match sel.getRandomRc (draws.hop i) (sel.filter excluded) with
    | none => none
    | some hop =>
      (selectHopsBetween draws (i + 1) hopsNeeded (sel.exclude excluded hop)).map (hop :: ·)

def hopsBetween (extendPath : Bool) : Nat :=
  let hopsNeeded := sel.numHops - 2
  if extendPath ∧ hopsNeeded < buildLength - 2 then hopsNeeded + 1 else hopsNeeded

def selectHopsToRemote (draws : HopDraws) (pivot : RouterID) : Option (List HopContact) :=
  match sel.knownRcs.getRc pivot with
  | none => none
  | some pivotRc =>
    if sel.numHops ≤ 1 then some [pivotRc]
    else
      -- the set starts with the pivot, which is excluded once more
      let excluded := sel.exclude ⟨[pivot], []⟩ pivotRc
      match sel.selectEdge draws excluded pivot with
      | none => none
      | some (first, extendPath) =>
        (sel.selectHopsBetween draws 0 (sel.hopsBetween extendPath)
          (sel.exclude excluded first)).map fun hops => first :: hops ++ [pivotRc]

variable {sel} {draws : HopDraws} {excluded : Exclusions} {pivot : RouterID} {rc other : HopContact}

variable (sel) in
def Apart (rc other : HopContact) : Prop :=
  rc.routerId ≠ other.routerId ∧ (sel.netmask ≠ 0 → sel.range rc ≠ sel.range other)

theorem Apart.symm (h : sel.Apart rc other) : sel.Apart other rc :=
  ⟨h.1.symm, fun hmask => (h.2 hmask).symm⟩

theorem filter_exclude_iff : sel.filter (sel.exclude excluded other) rc = true ↔
      sel.filter excluded rc = true ∧ sel.Apart rc other := by
  by_cases hmask : sel.netmask = 0
  · simp only [filter, exclude, Apart, hmask, ne_eq, not_true_eq_false, if_false, List.mem_cons,
      not_or, Bool.and_eq_true, decide_eq_true_eq, beq_self_eq_true, Bool.true_or, false_implies]
    tauto
  · simp only [filter, exclude, Apart, hmask, ne_eq, not_false_eq_true, if_true, List.mem_cons,
      not_or, Bool.and_eq_true, decide_eq_true_eq, List.all_append, List.all_cons, List.all_nil,
      Bool.and_true, bne_iff_ne, Bool.or_eq_true, beq_iff_eq, false_or, true_implies]
    tauto

theorem getRandomRc_spec {draw : Draw} {pred : HopContact → Bool}
    (h : sel.getRandomRc draw pred = some rc) :
    rc ∈ sel.knownRcs.rcs ∧ sel.admissible rc = true ∧ pred rc = true := by
  have hmem := mem_of_mem_sample (List.mem_of_mem_head? h)
  rw [List.mem_filter, Bool.and_eq_true] at hmem
  exact hmem

theorem selectFirstHop_spec {draw : Draw} {pred : HopContact → Bool}
    (h : sel.selectFirstHop draw pred = some rc) :
    rc.routerId ∈ sel.currentRelays ∧ sel.knownRcs.getRc rc.routerId = some rc ∧
      pred rc = true ∧ sel.isBadForPath rc.routerId profilingChances = false := by
  have hmem := mem_of_mem_sample (List.mem_of_mem_head? h)
  rw [firstHopCandidates, List.mem_filter, Bool.and_eq_true, List.mem_filterMap] at hmem
  obtain ⟨⟨rid, hrid, hrc⟩, hpred, hgood⟩ := hmem
  have hid := KnownRcs.routerId_of_getRc hrc
  exact ⟨hid.symm ▸ hrid, hid.symm ▸ hrc, hpred, by simpa using hgood⟩

theorem selectHopsBetween_spec {i hopsNeeded : Nat} {hops : List HopContact}
    (h : sel.selectHopsBetween draws i hopsNeeded excluded = some hops) :
    hops.length = hopsNeeded ∧
      (∀ hop ∈ hops, hop ∈ sel.knownRcs.rcs ∧ sel.admissible hop = true ∧
        sel.filter excluded hop = true) ∧
      hops.Pairwise sel.Apart := by
  induction hopsNeeded generalizing i excluded hops with
  | zero =>
    cases h
    exact ⟨rfl, by simp, .nil⟩
  | succ hopsNeeded ih =>
    rw [selectHopsBetween] at h
    split at h
    · cases h
    · next hop hhop =>
      obtain ⟨rest, hrest, rfl⟩ := Option.map_eq_some_iff.mp h
      obtain ⟨hlength, hrest, hapart⟩ := ih hrest
      -- the later hops have been filtered with this one excluded
      have hlater : ∀ later ∈ rest, sel.filter excluded later = true ∧ sel.Apart later hop :=
        fun later hmem => filter_exclude_iff.mp (hrest later hmem).2.2
      refine ⟨congrArg (· + 1) hlength, ?_, ?_⟩
      · rintro chosen (_ | ⟨_, hmem⟩)
        · exact getRandomRc_spec hhop
        · exact ⟨(hrest chosen hmem).1, (hrest chosen hmem).2.1, (hlater chosen hmem).1⟩
      · exact List.pairwise_cons.mpr ⟨fun later hmem => (hlater later hmem).2.symm, hapart⟩

theorem one_le_hopsBetween_true : 1 ≤ sel.hopsBetween true := by
  unfold hopsBetween buildLength
  simp only [true_and]
  split
  · omega
  · omega

theorem extendPath_of_selectEdge {first : HopContact} {extendPath : Bool}
    (hexcluded : pivot ∈ excluded.toExclude)
    (h : sel.selectEdge draws excluded pivot = some (first, extendPath))
    (hpivot : first.routerId = pivot) : extendPath = true := by
  unfold selectEdge at h
  dsimp only at h
  split at h
  · next ranged hranged =>
    cases h
    split at hranged
    · have hfilter := (selectFirstHop_spec hranged).2.2.1
      rw [filter, hpivot] at hfilter
      simp [hexcluded] at hfilter
    · cases hranged
  · split at h
    · next second hsecond =>
      cases h
      have hother := (selectFirstHop_spec hsecond).2.2.1
      simp [hpivot] at hother
    · split at h
      · cases h
        rfl
      · obtain ⟨last, -, heq⟩ := Option.map_eq_some_iff.mp h
        cases heq
        rfl

/-- What is promised of a path. -/
structure WellFormed (sel : PathSelector) (pivot : RouterID) (path : List HopContact) : Prop where
  ends : path.getLast?.map HopContact.routerId = some pivot
  length : path.length = sel.numHops ∨ path.length = sel.numHops + 1
  length_le : path.length ≤ buildLength
  distinct : ∀ i j rc other, path[i]? = some rc → path[j]? = some other → i < j →
    rc.routerId = other.routerId → i = 0 ∧ j + 1 = path.length ∧ 3 ≤ path.length
  ranges : sel.netmask ≠ 0 → ∀ i j rc other, path[i]? = some rc → path[j]? = some other → i < j →
    ¬ (i = 0 ∧ j + 1 = path.length) → sel.range rc ≠ sel.range other

theorem related_but_ends {α : Type} {R : α → α → Prop} {first last : α} {between : List α}
    (hfirst : ∀ x ∈ between, R first x) (hrest : (between ++ [last]).Pairwise R) {i j : Nat}
    {x y : α} (hx : (first :: between ++ [last])[i]? = some x)
    (hy : (first :: between ++ [last])[j]? = some y) (hlt : i < j) :
    R x y ∨ i = 0 ∧ j = between.length + 1 ∧ x = first := by
  obtain ⟨j, rfl⟩ : ∃ k, j = k + 1 := ⟨j - 1, by omega⟩
  rw [List.cons_append, List.getElem?_cons_succ] at hy
  cases i with
  | zero =>
    rw [List.cons_append, List.getElem?_cons_zero] at hx
    cases hx
    by_cases hj : j < between.length
    · rw [List.getElem?_append_left hj] at hy
      exact .inl (hfirst y (List.mem_of_getElem? hy))
    · have hbound : j < (between ++ [last]).length := (List.getElem?_eq_some_iff.mp hy).1
      rw [List.length_append, List.length_singleton] at hbound
      exact .inr ⟨rfl, by omega, rfl⟩
  | succ i =>
    rw [List.cons_append, List.getElem?_cons_succ] at hx
    obtain ⟨hi, rfl⟩ := List.getElem?_eq_some_iff.mp hx
    obtain ⟨hj, rfl⟩ := List.getElem?_eq_some_iff.mp hy
    exact .inl (List.pairwise_iff_getElem.mp hrest i j hi hj (by omega))

/-- Every path of the selection is well formed, whatever is known, connected, excluded by the
configuration, and drawn. -/
theorem selectHopsToRemote_wellFormed (sel : PathSelector) (draws : HopDraws) (pivot : RouterID)
    (path : List HopContact) (hmin : 2 ≤ sel.numHops) (hmax : sel.numHops ≤ 8)
    (h : sel.selectHopsToRemote draws pivot = some path) : sel.WellFormed pivot path := by
  unfold selectHopsToRemote at h
  cases hpivot : sel.knownRcs.getRc pivot with
  | none =>
    rw [hpivot] at h
    cases h
  | some pivotRc =>
    rw [hpivot] at h
    dsimp only at h
    rw [if_neg (by omega)] at h
    split at h
    · cases h
    · next first extendPath hedge =>
      obtain ⟨hops, hhops, rfl⟩ := Option.map_eq_some_iff.mp h
      obtain ⟨hlength, hmem, hapart⟩ := selectHopsBetween_spec hhops
      have hfilter := fun hop hhop => filter_exclude_iff.mp (hmem hop hhop).2.2
      have hid := KnownRcs.routerId_of_getRc hpivot
      have hfirst : ∀ hop ∈ hops, sel.Apart first hop := fun hop hhop => (hfilter hop hhop).2.symm
      have hlast : ∀ hop ∈ hops, sel.Apart hop pivotRc := fun hop hhop =>
        (filter_exclude_iff.mp (hfilter hop hhop).1).2
      have hrest : (hops ++ [pivotRc]).Pairwise sel.Apart := by
        rw [List.pairwise_append]
        refine ⟨hapart, List.pairwise_singleton _ _, fun hop hmem last hend => ?_⟩
        rw [List.mem_singleton.mp hend]
        exact hlast hop hmem
      have hsize : (first :: hops ++ [pivotRc]).length = sel.hopsBetween extendPath + 2 := by
        simp [hlength]
      have hbetween : sel.hopsBetween extendPath = sel.numHops - 2 ∨
          sel.hopsBetween extendPath = sel.numHops - 1 ∧ sel.numHops ≤ 7 := by
        unfold hopsBetween buildLength
        dsimp only
        split
        · right
          omega
        · exact .inl rfl
      refine ⟨?_, by omega, by unfold buildLength; omega, ?_, ?_⟩
      · rw [List.getLast?_append_of_ne_nil _ (by simp)]
        exact congrArg some hid
      · intro i j x y hx hy hlt hsame
        rcases related_but_ends hfirst hrest hx hy hlt with happart | ⟨rfl, hj, rfl⟩
        · exact absurd hsame happart.1
        · -- the edge is the pivot, so that a hop has been added
          have hy' : y = pivotRc := by
            rw [hj, List.cons_append, List.getElem?_cons_succ,
              List.getElem?_append_right le_rfl] at hy
            simpa using hy.symm
          have hextended : extendPath = true := by
            refine extendPath_of_selectEdge (by simp [exclude]) hedge ?_
            rw [hsame, hy', hid]
          refine ⟨rfl, by omega, ?_⟩
          have hbetween := @one_le_hopsBetween_true sel
          rw [hsize, hextended]
          omega
      · intro hmask i j x y hx hy hlt hends
        rcases related_but_ends hfirst hrest hx hy hlt with happart | ⟨rfl, hj, -⟩
        · exact happart.2 hmask
        · exact absurd ⟨rfl, by omega⟩ hends

/-! ### Two relays -/

namespace TwoRelays

def contact (byte : UInt8) : HopContact where
  routerId := FixedBytes.filled 32 byte
  addr := BitVec.ofNat 32 (byte.toNat * 65536)
  timestamp := 0

def client : PathSelector where
  isServiceNode := false
  id := FixedBytes.filled 32 9
  knownRcs := ⟨[contact 1, contact 2], by decide⟩
  currentRelays := [FixedBytes.filled 32 1]
  blacklist _ := false
  isBadForPath _ _ := false
  netmask := 24
  numHops := 2
  now := 0

def zeroDraws : HopDraws where
  edge _ k := ⟨0, k.succ_pos⟩
  hop _ k := ⟨0, k.succ_pos⟩

end TwoRelays

theorem selectHopsToRemote_wellFormed_edge :
    TwoRelays.client.selectHopsToRemote TwoRelays.zeroDraws (FixedBytes.filled 32 1) =
        some [TwoRelays.contact 1, TwoRelays.contact 2, TwoRelays.contact 1] ∧
      TwoRelays.client.WellFormed (FixedBytes.filled 32 1)
        [TwoRelays.contact 1, TwoRelays.contact 2, TwoRelays.contact 1] := by
  have hpath : TwoRelays.client.selectHopsToRemote TwoRelays.zeroDraws (FixedBytes.filled 32 1) =
      some [TwoRelays.contact 1, TwoRelays.contact 2, TwoRelays.contact 1] := by
    decide +kernel
  exact ⟨hpath, selectHopsToRemote_wellFormed TwoRelays.client TwoRelays.zeroDraws _ _ (by decide)
    (by decide) hpath⟩

end PathSelector
end SessionRouter

namespace SessionRouter.PathSelector

open Lib Reservoir Finset

variable (sel : PathSelector)

def candidates (rcs : KnownRcs) (pred : HopContact → Bool) : List HopContact :=
  rcs.rcs.filter fun rc => sel.admissible rc && pred rc

end SessionRouter.PathSelector

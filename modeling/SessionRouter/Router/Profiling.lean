import SessionRouter.Crypto.Cipher
import Mathlib.Logic.Function.Iterate

/-!
# Router profiles

A client counts, for every relay, the paths through it that were built, failed or timed out, and
keeps away from relays whose counters look bad.  Recording a path visits the relays of the path one
after the other, and visits one that is in the path twice a second time.  `keepsGood_iff` says for
which counters a built path never makes a good relay look bad.
-/

namespace SessionRouter

open Lib

/-- The counters that decide about paths. -/
structure RouterProfile where
  pathSuccess : UInt64
  pathFail : UInt64
  pathTimeout : UInt64
  lastUpdate : Int

/-- `checkIsGood` is false, as arithmetic on the counters. -/
def Failing (fails success chances : Nat) : Prop :=
  (0 < fails ∧ chances ≤ (fails + success) % 2 ^ 64 ∧ success < 2 * fails) ∨
    (success = 0 ∧ chances ≤ fails)

namespace RouterProfile

/-- What a built path with `hops` hops does to the profile at each visit: failures are halved. -/
def recordSuccess (hops : UInt64) (now : Int) (profile : RouterProfile) : RouterProfile :=
  { profile with
    pathFail := profile.pathFail / 2
    pathTimeout := 0
    pathSuccess := profile.pathSuccess + hops
    lastUpdate := now }

def recordFail (now : Int) (profile : RouterProfile) : RouterProfile :=
  { profile with pathFail := profile.pathFail + 1, lastUpdate := now }

def recordTimeout (now : Int) (profile : RouterProfile) : RouterProfile :=
  { profile with pathTimeout := profile.pathTimeout + 1, lastUpdate := now }

variable (profile : RouterProfile) (now : Int)

end RouterProfile

/-- A relay that was never recorded has the profile of zeroes that the first access makes. -/
abbrev Profiles := RouterID → RouterProfile

namespace Profiles

def visit (record : RouterProfile → RouterProfile) (profiles : Profiles) (rid : RouterID) :
    Profiles :=
  Function.update profiles rid (record (profiles rid))

def pathSuccess (profiles : Profiles) (hops : List RouterID) (now : Int) : Profiles :=
  hops.foldl (visit (RouterProfile.recordSuccess (UInt64.ofNat hops.length) now)) profiles

-- the first hop is not marked, the client is connected to it
def pathFail (profiles : Profiles) (hops : List RouterID) (now : Int) : Profiles :=
  hops.tail.foldl (visit (RouterProfile.recordFail now)) profiles

def pathTimeout (profiles : Profiles) (hops : List RouterID) (now : Int) : Profiles :=
  hops.foldl (visit (RouterProfile.recordTimeout now)) profiles

theorem foldl_visit (record : RouterProfile → RouterProfile) (profiles : Profiles)
    (hops : List RouterID) (rid : RouterID) :
    hops.foldl (visit record) profiles rid = record^[hops.count rid] (profiles rid) := by
  induction hops generalizing profiles with
  | nil => rfl
  | cons hop hops ih =>
    rw [List.foldl_cons, ih, visit, List.count_cons]
    by_cases hrid : rid = hop
    · rw [hrid, Function.update_self, if_pos (beq_self_eq_true hop), Function.iterate_succ_apply]
    · rw [Function.update_of_ne hrid, if_neg (mt eq_of_beq (Ne.symm hrid)), Nat.add_zero]

section

variable {fails success timeouts chances visits hops : Nat}

theorem Failing.mono (h : Failing fails success chances)
    (hroom : fails + visits + success < 2 ^ 64) :
    Failing (fails + visits) success chances := by
  unfold Failing at h ⊢
  rw [Nat.mod_eq_of_lt (show fails + success < 2 ^ 64 by omega)] at h
  rw [Nat.mod_eq_of_lt hroom]
  omega

end

end Profiles
end SessionRouter

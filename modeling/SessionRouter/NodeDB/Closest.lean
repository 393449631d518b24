import SessionRouter.Contact.RelayContact
import SessionRouter.Lib.PartialSort

/-!
# The relays closest to a key
-/

namespace SessionRouter

open Lib

namespace NodeDB

def xorCondense (x : FixedBytes 32) : UInt64 :=
  let word (i : Nat) : UInt64 := UInt64.ofNat (loadLittle ((x.data.drop (8 * i)).take 8))
  word 0 ^^^ word 1 ^^^ word 2 ^^^ word 3

def closer (blindedPk : PubKey) (left right : RouterID) : Prop :=
  let l := xorCondense left ^^^ xorCondense blindedPk
  let r := xorCondense right ^^^ xorCondense blindedPk
  l < r ∨ (l = r ∧ left.data < right.data)

instance (blindedPk : PubKey) : DecidableRel (closer blindedPk) := fun _ _ =>
  inferInstanceAs (Decidable (_ ∨ _))

structure RegisteredRelays where
  relays : List RouterID
  nodup : relays.Nodup

def findManyClosestTo (registered : RegisteredRelays) (blindedPk : PubKey) (numRouters : Int) :
    List RouterID :=
  if numRouters ≤ 0 then []
  else
    smallest (closer blindedPk) (min numRouters.toNat registered.relays.length) registered.relays

variable {blindedPk : PubKey}

theorem closer_irrefl (rid : RouterID) : ¬ closer blindedPk rid rid := by
  rintro (h | ⟨-, h⟩)
  · exact UInt64.lt_irrefl _ h
  · exact List.lt_irrefl _ h

theorem closer_trans {a b c : RouterID} (hab : closer blindedPk a b) (hbc : closer blindedPk b c) :
    closer blindedPk a c := by
  unfold closer at *
  dsimp only at *
  rcases hab with hab | ⟨hab, hids⟩
  · rcases hbc with hbc | ⟨hbc, -⟩
    · exact Or.inl (UInt64.lt_trans hab hbc)
    · exact Or.inl (hbc ▸ hab)
  · rcases hbc with hbc | ⟨hbc, hids'⟩
    · exact Or.inl (hab ▸ hbc)
    · exact Or.inr ⟨hab.trans hbc, List.lt_trans hids hids'⟩

theorem closer_trichotomous {a b : RouterID} (hab : ¬ closer blindedPk a b)
    (hba : ¬ closer blindedPk b a) : a = b := by
  unfold closer at *
  dsimp only at *
  rw [not_or, UInt64.not_lt] at hab hba
  have hdistance := UInt64.le_antisymm hba.1 hab.1
  refine FixedBytes.ext (List.le_antisymm ?_ ?_)
  · exact fun hids => hba.2 ⟨hdistance.symm, hids⟩
  · exact fun hids => hab.2 ⟨hdistance, hids⟩

instance (blindedPk : PubKey) : IsStrictTotalOrder RouterID (closer blindedPk) where
  trichotomous _ _ := closer_trichotomous
  irrefl := closer_irrefl
  trans _ _ _ := closer_trans

variable {registered registered' : RegisteredRelays}

theorem findManyClosestTo_eq_smallest (registered : RegisteredRelays) (blindedPk : PubKey)
    (numRouters : Int) :
    findManyClosestTo registered blindedPk numRouters =
      smallest (closer blindedPk) numRouters.toNat registered.relays := by
  have htake : smallest (closer blindedPk) (min numRouters.toNat registered.relays.length)
      registered.relays = smallest (closer blindedPk) numRouters.toNat registered.relays := by
    rw [smallest, smallest, ← (increasing_perm (closer blindedPk) registered.relays).length_eq,
      ← List.take_eq_take_min]
  unfold findManyClosestTo
  split
  · next hnum =>
    rw [Int.toNat_of_nonpos hnum]
    rfl
  · exact htake

theorem findManyClosestTo_eq_of_perm (h : registered.relays.Perm registered'.relays)
    (blindedPk : PubKey) (numRouters : Int) :
    findManyClosestTo registered blindedPk numRouters =
      findManyClosestTo registered' blindedPk numRouters := by
  rw [findManyClosestTo_eq_smallest, findManyClosestTo_eq_smallest, smallest_eq_of_perm h]

theorem findManyClosestTo_isPrefix (registered : RegisteredRelays) (blindedPk : PubKey)
    {k k' : Int} (h : k ≤ k') :
    findManyClosestTo registered blindedPk k <+: findManyClosestTo registered blindedPk k' := by
  rw [findManyClosestTo_eq_smallest, findManyClosestTo_eq_smallest]
  exact smallest_isPrefix _ (Int.toNat_le_toNat h) _

theorem length_findManyClosestTo (registered : RegisteredRelays) (blindedPk : PubKey)
    (numRouters : Int) :
    (findManyClosestTo registered blindedPk numRouters).length =
      min numRouters.toNat registered.relays.length := by
  rw [findManyClosestTo_eq_smallest, length_smallest]

theorem findManyClosestTo_nodup (registered : RegisteredRelays) (blindedPk : PubKey)
    (numRouters : Int) : (findManyClosestTo registered blindedPk numRouters).Nodup := by
  rw [findManyClosestTo_eq_smallest]
  refine (smallest_sorted registered.nodup _).imp fun {a b} hab => ?_
  rintro rfl
  exact closer_irrefl a hab

theorem getElem?_findManyClosestTo {k k' : Int} (h : k ≤ k') {i : Nat}
    (hi : i < (findManyClosestTo registered blindedPk k).length) :
    (findManyClosestTo registered blindedPk k')[i]? =
      (findManyClosestTo registered blindedPk k)[i]? := by
  obtain ⟨rest, hrest⟩ := findManyClosestTo_isPrefix registered blindedPk h
  rw [← hrest, List.getElem?_append_left hi]

end NodeDB
end SessionRouter

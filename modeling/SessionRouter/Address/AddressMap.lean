import SessionRouter.Lib.Run
import SessionRouter.Lib.Table

/-!
# The two tables of an address map
-/

namespace SessionRouter.Address

open Lib

variable {Local Remote : Type} [DecidableEq Local] [DecidableEq Remote]

structure AddressMap (Local Remote : Type) where
  localToRemote : Table Local Remote
  remoteToLocal : Table Remote Local

namespace AddressMap

variable (map : AddressMap Local Remote)

def empty : AddressMap Local Remote :=
  ⟨∅, ∅⟩

def remoteOf (ip : Local) : Option Remote :=
  map.localToRemote.find ip

def localOf (remote : Remote) : Option Local :=
  map.remoteToLocal.find remote

def containsLocal (ip : Local) : Bool :=
  (map.remoteOf ip).isSome

def containsRemote (remote : Remote) : Bool :=
  (map.localOf remote).isSome

def insert (ip : Local) (remote : Remote) : AddressMap Local Remote × Bool :=
  if map.containsLocal ip then (map, false)
  else
    let map := { map with localToRemote := map.localToRemote.emplace ip remote }
    if map.containsRemote remote then (map, false)
    else ({ map with remoteToLocal := map.remoteToLocal.emplace remote ip }, true)

def erase (remote : Remote) : AddressMap Local Remote :=
  match map.localOf remote with
  | some ip => ⟨map.localToRemote.remove ip, map.remoteToLocal.remove remote⟩
  | none => map

def Inverse : Prop :=
  ∀ ip remote, map.remoteOf ip = some remote ↔ map.localOf remote = some ip

theorem inverse_empty : (empty : AddressMap Local Remote).Inverse := by
  intro ip remote
  simp [empty, remoteOf, localOf]

variable {map} {ip : Local} {remote : Remote}

omit [DecidableEq Remote] in
theorem containsLocal_eq_false_iff : map.containsLocal ip = false ↔ map.remoteOf ip = none := by
  simp [containsLocal]

omit [DecidableEq Local] in
theorem containsRemote_eq_false_iff :
    map.containsRemote remote = false ↔ map.localOf remote = none := by
  simp [containsRemote]

section Fresh

/-! ## Inserting what neither table has -/

variable (hip : map.remoteOf ip = none) (hremote : map.localOf remote = none)
include hip hremote

theorem insert_of_fresh : map.insert ip remote =
      (⟨map.localToRemote.emplace ip remote, map.remoteToLocal.emplace remote ip⟩, true) := by
  have hfirst := containsLocal_eq_false_iff.mpr hip
  have hsecond : containsRemote { map with
      localToRemote := map.localToRemote.emplace ip remote } remote = false :=
    containsRemote_eq_false_iff.mpr hremote
  simp only [insert, hfirst, hsecond, Bool.false_eq_true, if_false]

theorem remoteOf_insert (other : Local) : (map.insert ip remote).1.remoteOf other =
      if other = ip then some remote else map.remoteOf other := by
  rw [insert_of_fresh hip hremote, remoteOf, Table.find_emplace]
  simp only [show map.localToRemote.find ip = none from hip, and_true]
  rfl

theorem localOf_insert (other : Remote) : (map.insert ip remote).1.localOf other =
      if other = remote then some ip else map.localOf other := by
  rw [insert_of_fresh hip hremote, localOf, Table.find_emplace]
  simp only [show map.remoteToLocal.find remote = none from hremote, and_true]
  rfl

theorem Inverse.insert (h : map.Inverse) : (map.insert ip remote).1.Inverse := by
  intro other peer
  rw [remoteOf_insert hip hremote, localOf_insert hip hremote]
  have hother := h other peer
  grind

end Fresh

/-! ## Erasing -/

theorem localOf_erase (other : Remote) :
    (map.erase remote).localOf other = if other = remote then none else map.localOf other := by
  unfold erase
  cases hfind : map.localOf remote with
  | some ip => exact Table.find_remove _ _ _
  | none =>
    dsimp only
    split
    next heq => rw [heq, hfind]
    next => rfl

theorem Inverse.remoteOf_erase (h : map.Inverse) (other : Local) :
    (map.erase remote).remoteOf other =
      if map.remoteOf other = some remote then none else map.remoteOf other := by
  have hother := h other remote
  unfold erase
  cases hfind : map.localOf remote with
  | some ip =>
    have hremove := Table.find_remove map.localToRemote ip other
    dsimp only
    rw [remoteOf, hremove]
    rw [hfind, Option.some.injEq] at hother
    by_cases heq : other = ip
    · rw [if_pos heq, if_pos (hother.mpr heq.symm)]
    · rw [if_neg heq, if_neg (fun hmapped => heq (hother.mp hmapped).symm)]
      rfl
  | none =>
    rw [hfind] at hother
    rw [if_neg (by simp [hother])]

theorem Inverse.erase (h : map.Inverse) (remote : Remote) : (map.erase remote).Inverse := by
  intro ip other
  rw [h.remoteOf_erase, localOf_erase]
  have hip := h ip other
  grind

/-! ## Any sequence of operations -/

/-- `erase` with a local address. -/
def eraseLocal (map : AddressMap Local Remote) (ip : Local) : AddressMap Local Remote :=
  match map.remoteOf ip with
  | none => map
  | some remote =>
    { localToRemote := map.localToRemote.remove ip
      remoteToLocal := match map.localOf remote with
        | some _ => map.remoteToLocal.remove remote
        | none => map.remoteToLocal }

inductive MapAction (Local Remote : Type) where
  | insert (ip : Local) (remote : Remote)
  | erase (remote : Remote)
  | eraseLocal (ip : Local)

def step (map : AddressMap Local Remote) : MapAction Local Remote → AddressMap Local Remote
  | .insert ip remote => (map.insert ip remote).1
  | .erase remote => map.erase remote
  | .eraseLocal ip => map.eraseLocal ip

/-- The tables stay inverse, and an insert that throws changes nothing. -/
def StepOk (map : AddressMap Local Remote) (action : MapAction Local Remote) : Prop :=
  (map.step action).Inverse ∧ ∀ ip remote, action = .insert ip remote →
    (map.insert ip remote).2 = false → (map.insert ip remote).1 = map

/-- No insert comes with a new local address for a remote one that is mapped. -/
def SparesRemote (map : AddressMap Local Remote) (action : MapAction Local Remote) : Prop :=
  ∀ ip remote, action = .insert ip remote → map.containsRemote remote → map.containsLocal ip

theorem Inverse.eraseLocal (h : map.Inverse) (ip : Local) : (map.eraseLocal ip).Inverse := by
  cases hremote : map.remoteOf ip with
  | none => rwa [AddressMap.eraseLocal, hremote]
  | some remote =>
    have hlocal := (h ip remote).mp hremote
    have heq : map.eraseLocal ip = map.erase remote := by
      simp only [AddressMap.eraseLocal, AddressMap.erase, hremote, hlocal]
    rw [heq]
    exact h.erase remote

theorem Inverse.stepOk_iff (h : map.Inverse) (action : MapAction Local Remote) :
    map.StepOk action ↔ map.SparesRemote action := by
  cases action with
  | erase remote => exact iff_of_true ⟨h.erase remote, by simp⟩ (by simp [SparesRemote])
  | eraseLocal ip => exact iff_of_true ⟨h.eraseLocal ip, by simp⟩ (by simp [SparesRemote])
  | insert ip remote =>
    by_cases hip : map.containsLocal ip
    · have hinsert : map.insert ip remote = (map, false) := if_pos hip
      refine iff_of_true ⟨by rwa [step, hinsert], ?_⟩ ?_
      · rintro _ _ ⟨⟩ _
        rw [hinsert]
      · rintro _ _ ⟨⟩ _
        exact hip
    have hip' := containsLocal_eq_false_iff.mp (Bool.eq_false_iff.mpr hip)
    by_cases hremote : map.containsRemote remote
    · have hinsert : map.insert ip remote =
          ({ map with localToRemote := map.localToRemote.emplace ip remote }, false) := by
        rw [AddressMap.insert, if_neg hip]
        exact if_pos hremote
      refine iff_of_false (fun hok => ?_) fun hspares => hip (hspares ip remote rfl hremote)
      -- the address that was to be added has stayed behind in the first table
      have hsame := congrArg (remoteOf · ip) (hok.2 ip remote rfl (by rw [hinsert]))
      simp only [hinsert, remoteOf, Table.find_emplace] at hsame
      rw [if_pos ⟨trivial, hip'⟩] at hsame
      exact absurd (hsame.trans hip') (by simp)
    · have hremote' := containsRemote_eq_false_iff.mp (Bool.eq_false_iff.mpr hremote)
      refine iff_of_true ⟨h.insert hip' hremote', ?_⟩ ?_
      · rintro _ _ ⟨⟩ hthrew
        rw [insert_of_fresh hip' hremote'] at hthrew
        cases hthrew
      · rintro _ _ ⟨⟩ hcontains
        exact absurd hcontains hremote

theorem Inverse.meets_stepOk_iff (h : map.Inverse) (actions : List (MapAction Local Remote)) :
    Run.Meets step StepOk map actions ↔ Run.Meets step SparesRemote map actions := by
  induction actions generalizing map with
  | nil => exact Iff.rfl
  | cons action actions ih =>
    rw [Run.Meets, Run.Meets, h.stepOk_iff action]
    exact and_congr_right fun hspares => ih ((h.stepOk_iff action).mpr hspares).1

/-- From empty tables on, every operation is in order while no insert comes with a new local
address for a remote one that is mapped, and no longer. -/
theorem stepsOk_iff (actions : List (MapAction Local Remote)) :
    Run.Meets step StepOk empty actions ↔ Run.Meets step SparesRemote empty actions :=
  inverse_empty.meets_stepOk_iff actions

/-- The second insert throws, but the first table keeps its address. -/
theorem insert_keptLocal :
    let map := Run.run step (empty : AddressMap Nat Nat) [.insert 1 10]
    (map.insert 2 10).2 = false ∧ (map.insert 2 10).1.remoteOf 2 = some 10 ∧
      (map.insert 2 10).1.localOf 10 = some 1 := by
  decide

end AddressMap
end SessionRouter.Address

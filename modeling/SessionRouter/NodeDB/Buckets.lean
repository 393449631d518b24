import SessionRouter.Contact.RelayContact
import SessionRouter.Lib.BencodeValue
import SessionRouter.Lib.Digest
import SessionRouter.Lib.Run
import SessionRouter.Messages.Common

/-!
# The bucket digests of stored relay contacts
-/

namespace SessionRouter.NodeDB

open Lib Bencode

abbrev RCHash := FixedBytes 8

structure RcStore where
  knownRcs : Table RouterID RelayContact
  rcHashes : Fin 128 → Table RouterID RCHash
  rcBucketHashes : Fin 128 → RCHash

namespace RcStore

def empty : RcStore where
  knownRcs := ∅
  rcHashes _ := ∅
  rcBucketHashes _ := FixedBytes.zero 8

end RcStore

def bucketOf (rid : RouterID) : Fin 128 :=
  ⟨(rid.data.getD 16 0 &&& 0x7f).toNat, by
    rw [UInt8.toNat_and]
    exact Nat.lt_succ_of_le Nat.and_le_right⟩

def outdatedAge : Int := 12 * 3600

def hashedBytes (serializedRc : Bytes) : Option Bytes := do
  let c ← DictConsumer.ofBytes serializedRc
  let (hasTime, c) ← c.skipUntil (ascii "t") (skipFuel c.data)
  guard hasTime
  let beforeTime := serializedRc.take (serializedRc.length - (c.data.length + 1))
  let (_, rest) ← readUnsigned 64 c.data
  let c ← DictConsumer.consumeKey ⟨none, rest⟩
  let (key, _) ← c.key
  if key = ascii "~" then return beforeTime
  let afterTime := key ++ c.data
  let (hasSignature, c) ← c.skipUntil (ascii "~") (skipFuel c.data)
  guard hasSignature
  let _ ← readString c.data
  return beforeTime ++ afterTime.take (afterTime.length - (c.data.length + 1))

section

variable (blake2b : Bytes → RCHash)

def bucketHash (serializedRc : Bytes) : RCHash :=
  blake2b ((hashedBytes serializedRc).getD [])

def updateRcBuckets (store : RcStore) (rc : RelayContact) (added : Bool) : RcStore :=
  let rid := rc.routerId
  let bucket := bucketOf rid
  let hashes := (store.rcHashes bucket).emplace rid (FixedBytes.zero 8)
  let recorded := (hashes.find rid).getD (FixedBytes.zero 8)
  -- the hash that was recorded, not one of the RC at hand
  let without := store.rcBucketHashes bucket ^^^ recorded
  if added then
    { store with
      rcHashes := Function.update store.rcHashes bucket
        (hashes.insertOrAssign rid (bucketHash blake2b rc.payload))
      rcBucketHashes := Function.update store.rcBucketHashes bucket
        (without ^^^ bucketHash blake2b rc.payload) }
  else
    { store with
      rcHashes := Function.update store.rcHashes bucket (hashes.remove rid)
      rcBucketHashes := Function.update store.rcBucketHashes bucket without }

def putRc (self : RouterID) (isServiceNode : Bool) (store : RcStore) (rc : RelayContact) :
    RcStore × Bool × Bool :=
  match store.knownRcs.find rc.routerId with
  | none =>
    let store := { store with knownRcs := store.knownRcs.emplace rc.routerId rc }
    (updateRcBuckets blake2b store rc true, true, isServiceNode)
  | some stored =>
    if !rc.newerThan stored RelayContact.minGossipRcAge then (store, false, false)
    else
      let significantChange := bucketHash blake2b rc.payload ≠ bucketHash blake2b stored.payload
      let shouldGossip := rc.routerId = self ∨ rc.newerThan stored outdatedAge = true ∨
        significantChange
      let store := { store with knownRcs := store.knownRcs.insertOrAssign rc.routerId rc }
      (if significantChange then updateRcBuckets blake2b store rc true else store,
        true, shouldGossip && isServiceNode)

def removeEntry (remove : RelayContact → Bool) (acc : RcStore × List RouterID)
    (entry : Sigma fun _ : RouterID => RelayContact) : RcStore × List RouterID :=
  if remove entry.2 then
    let store := updateRcBuckets blake2b acc.1 entry.2 false
    ({ store with knownRcs := store.knownRcs.remove entry.1 }, acc.2 ++ [entry.1])
  else acc

def removeRcsIf (remove : RelayContact → Bool) (store : RcStore) : RcStore × List RouterID :=
  store.knownRcs.entries.foldl (removeEntry blake2b remove) (store, [])

structure DiskFile where
  filenameRid : RouterID
  rc : Option RelayContact

structure Loaded where
  knownRcs : Table RouterID RelayContact
  knownRids : List RouterID
  purge : List DiskFile

def loadFile (isServiceNode : Bool) (now : Int) (loaded : Loaded) (file : DiskFile) : Loaded :=
  match file.rc with
  | none => { loaded with purge := loaded.purge ++ [file] }
  | some rc =>
    if rc.isExpired now || rc.routerId ≠ file.filenameRid then
      { loaded with purge := loaded.purge ++ [file] }
    else
      { loaded with
        knownRcs := loaded.knownRcs.emplace rc.routerId rc
        knownRids :=
          if isServiceNode then loaded.knownRids else loaded.knownRids.insert rc.routerId }

def loadFromDisk (isServiceNode : Bool) (now : Int) (files : List DiskFile) : RcStore :=
  let knownRcs := (files.foldl (loadFile isServiceNode now) ⟨∅, [], []⟩).knownRcs
  knownRcs.entries.foldl (fun store entry => updateRcBuckets blake2b store entry.2 true)
    { RcStore.empty with knownRcs }

/-- What happens to the store of a running node. -/
inductive RcAction where
  | put (rc : RelayContact)
  | removeIf (remove : RelayContact → Bool)

def rcStep (self : RouterID) (isServiceNode : Bool) (store : RcStore) : RcAction → RcStore
  | .put rc => (putRc blake2b self isServiceNode store rc).1
  | .removeIf remove => (removeRcsIf blake2b remove store).1

end

def fetchRcsRequest (store : RcStore) : Bytes :=
  encodeDict [(ascii "b",
    encodeList ((List.finRange 128).map fun bucket =>
      encodeString (store.rcBucketHashes bucket).data))]

def parseBuckets (body : Bytes) : Option (List RCHash) := do
  let c ← DictConsumer.ofBytes body
  let (span, _) ← c.require (readSpan 0x6c) (ascii "b")
  let (buckets, rest) ← readCount (readFixed 8) 128 span.tail
  if skipList (skipFuel rest) rest = some [] then return buckets else none

def bucketRcs (store : RcStore) (bucket : Fin 128) : List RelayContact :=
  (store.rcHashes bucket).entries.filterMap fun entry => store.knownRcs.find entry.1

def differingRcs (store : RcStore) (buckets : List RCHash) : List RelayContact :=
  (List.finRange 128).flatMap fun bucket =>
    if store.rcBucketHashes bucket ≠ buckets.getD bucket (FixedBytes.zero 8) then
      bucketRcs store bucket
    else []

def handleFetchRcs (store : RcStore) (body : Bytes) : Bytes :=
  match parseBuckets body with
  | some buckets =>
    encodeDict [(ascii "r",
      encodeList ((differingRcs store buckets).map fun rc => encodeString rc.payload))]
  | none => Messages.errorResponse

section

variable {blake2b : Bytes → RCHash}

variable (blake2b) in
structure Exact (store : RcStore) : Prop where
  keyed : ∀ rid rc, store.knownRcs.find rid = some rc → rc.routerId = rid
  recorded : ∀ bucket rid, (store.rcHashes bucket).find rid =
    if bucketOf rid = bucket then
      (store.knownRcs.find rid).map fun rc => bucketHash blake2b rc.payload
    else none
  digests : ∀ bucket, store.rcBucketHashes bucket = (store.rcHashes bucket).digest

@[simp] theorem knownRcs_updateRcBuckets (store : RcStore) (rc : RelayContact) (added : Bool) :
    (updateRcBuckets blake2b store rc added).knownRcs = store.knownRcs := by
  unfold updateRcBuckets
  cases added <;> rfl

theorem find_rcHashes_updateRcBuckets (store : RcStore) (rc : RelayContact) (added : Bool)
    (bucket : Fin 128) (rid : RouterID) :
    ((updateRcBuckets blake2b store rc added).rcHashes bucket).find rid =
      if bucketOf rid = bucket ∧ rid = rc.routerId then
        if added then some (bucketHash blake2b rc.payload) else none
      else (store.rcHashes bucket).find rid := by
  by_cases hbucket : bucket = bucketOf rc.routerId
  · subst hbucket
    by_cases hrid : rid = rc.routerId
    · subst hrid
      cases added
      · simp [updateRcBuckets, Table.find_remove]
      · simp [updateRcBuckets, Table.find_insertOrAssign]
    · cases added
      · simp [updateRcBuckets, Table.find_remove, Table.find_emplace, hrid]
      · simp [updateRcBuckets, Table.find_insertOrAssign, Table.find_emplace, hrid]
  · have hother : ¬ (bucketOf rid = bucket ∧ rid = rc.routerId) := by
      rintro ⟨rfl, rfl⟩
      exact hbucket rfl
    rw [if_neg hother]
    cases added <;> simp [updateRcBuckets, Function.update_of_ne hbucket]

variable {store : RcStore}

theorem digests_updateRcBuckets
    (h : ∀ bucket, store.rcBucketHashes bucket = (store.rcHashes bucket).digest) (rc : RelayContact)
    (added : Bool) (bucket : Fin 128) :
    (updateRcBuckets blake2b store rc added).rcBucketHashes bucket =
      ((updateRcBuckets blake2b store rc added).rcHashes bucket).digest := by
  by_cases hbucket : bucket = bucketOf rc.routerId
  · subst hbucket
    cases added
    · simp only [updateRcBuckets, Bool.false_eq_true, if_false, Function.update_self,
        Table.digest_remove, Table.digest_emplace_zero, h]
    · simp only [updateRcBuckets, if_true, Function.update_self, Table.digest_insertOrAssign,
        Table.digest_emplace_zero, h]
  · cases added <;> simp [updateRcBuckets, Function.update_of_ne hbucket, h]

variable {knownRcs : Table RouterID RelayContact}

theorem Exact.updated (h : Exact blake2b store) (rc : RelayContact)
    (added : Bool)
    (hknown : ∀ rid, knownRcs.find rid =
      if rid = rc.routerId then if added then some rc else none else store.knownRcs.find rid) :
    Exact blake2b { updateRcBuckets blake2b store rc added with knownRcs } where
  keyed rid other hfind := by
    rw [hknown] at hfind
    split at hfind
    · next hrid =>
      cases added with
      | false => cases hfind
      | true =>
        cases hfind
        exact hrid.symm
    · exact h.keyed rid other hfind
  recorded bucket rid := by
    change ((updateRcBuckets blake2b store rc added).rcHashes bucket).find rid =
      if bucketOf rid = bucket then (knownRcs.find rid).map fun rc => bucketHash blake2b rc.payload
      else none
    rw [find_rcHashes_updateRcBuckets, hknown, h.recorded]
    by_cases hrid : rid = rc.routerId
    · by_cases hbucket : bucketOf rid = bucket
      · rw [if_pos ⟨hbucket, hrid⟩, if_pos hbucket, if_pos hrid]
        cases added <;> rfl
      · rw [if_neg fun hboth => hbucket hboth.1, if_neg hbucket, if_neg hbucket]
    · rw [if_neg fun hboth => hrid hboth.2, if_neg hrid]
  digests bucket := digests_updateRcBuckets h.digests rc added bucket

theorem Exact.refreshed (h : Exact blake2b store) {rc stored : RelayContact}
    (hstored : store.knownRcs.find rc.routerId = some stored)
    (hsame : bucketHash blake2b rc.payload = bucketHash blake2b stored.payload) :
    Exact blake2b
      { store with knownRcs := store.knownRcs.insertOrAssign rc.routerId rc } := by
  refine ⟨?_, ?_, h.digests⟩
  · intro rid other hfind
    rw [Table.find_insertOrAssign] at hfind
    split at hfind
    · next hrid =>
      cases hfind
      exact hrid.symm
    · exact h.keyed rid other hfind
  · intro bucket rid
    rw [h.recorded, Table.find_insertOrAssign]
    by_cases hrid : rid = rc.routerId
    · rw [if_pos hrid, hrid, hstored, Option.map_some, Option.map_some, hsame]
    · rw [if_neg hrid]

theorem updateRcBuckets_withKnownRcs (store : RcStore) (knownRcs : Table RouterID RelayContact)
    (rc : RelayContact) (added : Bool) :
    updateRcBuckets blake2b { store with knownRcs } rc added =
      { updateRcBuckets blake2b store rc added with knownRcs } := by
  unfold updateRcBuckets
  cases added <;> rfl

theorem Exact.putRc (h : Exact blake2b store) (self : RouterID) (isServiceNode : Bool)
    (rc : RelayContact) : Exact blake2b (putRc blake2b self isServiceNode store rc).1 := by
  unfold NodeDB.putRc
  cases hfind : store.knownRcs.find rc.routerId with
  | none =>
    dsimp only
    rw [updateRcBuckets_withKnownRcs]
    apply h.updated
    intro rid
    simp [Table.find_emplace, hfind]
  | some stored =>
    dsimp only
    split
    · -- seen too recently
      exact h
    · by_cases hchange : bucketHash blake2b rc.payload = bucketHash blake2b stored.payload
      · simpa [hchange] using h.refreshed hfind hchange
      · have hupdated := h.updated rc true
          (Table.find_insertOrAssign store.knownRcs rc.routerId · rc)
        simpa [hchange, updateRcBuckets_withKnownRcs] using hupdated

theorem Exact.foldl_removeEntry (remove : RelayContact → Bool)
    {entries : List (Sigma fun _ : RouterID => RelayContact)}
    (hkeyed : ∀ entry ∈ entries, entry.2.routerId = entry.1) {acc : RcStore × List RouterID}
    (h : Exact blake2b acc.1) :
    Exact blake2b (entries.foldl (removeEntry blake2b remove) acc).1 := by
  induction entries generalizing acc with
  | nil => exact h
  | cons entry entries ih =>
    rw [List.foldl_cons]
    apply ih fun other hmem => hkeyed other (List.mem_cons_of_mem _ hmem)
    unfold removeEntry
    split
    · apply h.updated
      intro rid
      rw [knownRcs_updateRcBuckets, Table.find_remove, hkeyed entry List.mem_cons_self]
      rfl
    · exact h

theorem Exact.removeRcsIf (h : Exact blake2b store) (remove : RelayContact → Bool) :
    Exact blake2b (removeRcsIf blake2b remove store).1 := by
  apply Exact.foldl_removeEntry remove _ h
  rintro ⟨rid, rc⟩ hmem
  exact h.keyed rid rc (Table.find_eq_some_iff.mpr hmem)

theorem Exact.congr (h : Exact blake2b store)
    (hfind : ∀ rid, knownRcs.find rid = store.knownRcs.find rid) :
    Exact blake2b { store with knownRcs } where
  keyed rid rc hrc := h.keyed rid rc (by rw [← hfind]; exact hrc)
  recorded bucket rid := by
    rw [h.recorded, hfind]
  digests := h.digests

theorem exact_empty : Exact blake2b RcStore.empty where
  keyed rid rc hfind := by cases hfind
  recorded bucket rid := by simp [RcStore.empty]
  digests bucket := rfl

theorem keyed_loadFile {isServiceNode : Bool} {now : Int} (files : List DiskFile) {loaded : Loaded}
    (h : ∀ rid rc, loaded.knownRcs.find rid = some rc → rc.routerId = rid) :
    ∀ rid rc, (files.foldl (loadFile isServiceNode now) loaded).knownRcs.find rid = some rc →
      rc.routerId = rid := by
  induction files generalizing loaded with
  | nil => exact h
  | cons file files ih =>
    rw [List.foldl_cons]
    apply ih
    unfold loadFile
    cases file.rc with
    | none => exact h
    | some loadedRc =>
      dsimp only
      split
      · exact h
      · intro rid rc hfind
        dsimp only at hfind
        rw [Table.find_emplace] at hfind
        split at hfind
        · next hrid =>
          cases hfind
          exact hrid.1.symm
        · exact h rid rc hfind

theorem knownRcs_foldl_updateRcBuckets (entries : List (Sigma fun _ : RouterID => RelayContact))
    (store : RcStore) :
    (entries.foldl (fun store entry => updateRcBuckets blake2b store entry.2 true)
      store).knownRcs = store.knownRcs := by
  induction entries generalizing store with
  | nil => rfl
  | cons entry entries ih => rw [List.foldl_cons, ih, knownRcs_updateRcBuckets]

variable (blake2b) in
theorem exact_foldl_updateRcBuckets
    (hkeyed : ∀ rid rc, knownRcs.find rid = some rc → rc.routerId = rid)
    (entries : List (Sigma fun _ : RouterID => RelayContact))
    (hstored : ∀ entry ∈ entries, knownRcs.find entry.1 = some entry.2) :
    ∃ done : Table RouterID RelayContact,
      (∀ rid, done.find rid = if rid ∈ entries.keys then knownRcs.find rid else none) ∧
      Exact blake2b
        { entries.foldl (fun store entry => updateRcBuckets blake2b store entry.2 true)
            { RcStore.empty with knownRcs } with knownRcs := done } := by
  induction entries using List.reverseRecOn with
  | nil => exact ⟨∅, by simp, exact_empty⟩
  | append_singleton entries entry ih =>
    obtain ⟨done, hdone, hexact⟩ := ih fun other hmem => hstored other (by simp [hmem])
    have hentry : knownRcs.find entry.1 = some entry.2 := hstored entry (by simp)
    have hknown (rid : RouterID) : (done.insertOrAssign entry.1 entry.2).find rid =
        if rid = entry.2.routerId then if true then some entry.2 else none
        else done.find rid := by
      rw [Table.find_insertOrAssign, hkeyed entry.1 entry.2 hentry]
      rfl
    refine ⟨done.insertOrAssign entry.1 entry.2, ?_, ?_⟩
    · intro rid
      rw [Table.find_insertOrAssign, hdone]
      by_cases hrid : rid = entry.1
      · simp [hrid, hentry]
      · simp [hrid]
    · rw [List.foldl_append, List.foldl_cons, List.foldl_nil]
      have hupdated := hexact.updated entry.2 true hknown
      rw [updateRcBuckets_withKnownRcs] at hupdated
      exact hupdated

theorem exact_loadFromDisk (isServiceNode : Bool) (now : Int) (files : List DiskFile) :
    Exact blake2b (loadFromDisk blake2b isServiceNode now files) := by
  let knownRcs := (files.foldl (loadFile isServiceNode now) ⟨∅, [], []⟩).knownRcs
  have hkeyed : ∀ rid rc, knownRcs.find rid = some rc → rc.routerId = rid :=
    keyed_loadFile files fun _ _ hfind => (nomatch hfind)
  obtain ⟨done, hdone, hexact⟩ := exact_foldl_updateRcBuckets blake2b hkeyed
    knownRcs.entries fun entry hmem => Table.find_eq_some_iff.mpr hmem
  -- all RCs have had their turn
  have hall (rid : RouterID) :
      (loadFromDisk blake2b isServiceNode now files).knownRcs.find rid = done.find rid := by
    have hknown : (loadFromDisk blake2b isServiceNode now files).knownRcs = knownRcs :=
      knownRcs_foldl_updateRcBuckets _ _
    rw [hknown, hdone]
    split
    · rfl
    · next hnot => simpa using fun hsome => hnot (Table.mem_keys_iff.mpr hsome)
  exact hexact.congr hall

theorem Exact.rcHashes_find_congr {left right : RcStore} (hleft : Exact blake2b left)
    (hright : Exact blake2b right)
    (hsame : ∀ rid, left.knownRcs.find rid = right.knownRcs.find rid) (bucket : Fin 128)
    (rid : RouterID) : (left.rcHashes bucket).find rid = (right.rcHashes bucket).find rid := by
  rw [hleft.recorded, hright.recorded, hsame]

theorem Exact.rcBucketHashes_eq {left right : RcStore} (hleft : Exact blake2b left)
    (hright : Exact blake2b right)
    (hsame : ∀ rid, left.knownRcs.find rid = right.knownRcs.find rid) :
    left.rcBucketHashes = right.rcBucketHashes := by
  funext bucket
  rw [hleft.digests, hright.digests]
  exact Table.digest_congr (hleft.rcHashes_find_congr hright hsame bucket)

end

theorem parseBuckets_fetchRcsRequest (store : RcStore) :
    parseBuckets (fetchRcsRequest store) =
      some ((List.finRange 128).map store.rcBucketHashes) := by
  let buckets := (List.finRange 128).map store.rcBucketHashes
  let value := encodeList (buckets.map fun bucket => encodeString bucket.data)
  have hrequest : fetchRcsRequest store = encodeDict [(ascii "b", value)] := by
    simp [fetchRcsRequest, value, buckets, Function.comp_def]
  have hvalue : IsValue value := by
    refine .list fun item hmem => ?_
    obtain ⟨bucket, -, rfl⟩ := List.mem_map.mp hmem
    exact .string bucket.data
  have hspan := (DictConsumer.Before.start [(ascii "b", value)]).require
    ⟨hvalue, @IsValue.readSpan _ hvalue 0x6c rfl⟩
  have hlist : readCount (readFixed 8) 128
      ((buckets.map fun bucket => encodeString bucket.data).flatten ++ [0x65]) =
        some (buckets, [0x65]) := by
    have hcount : buckets.length = 128 := by simp [buckets]
    rw [← hcount]
    exact readCount_flatten readFixed_encodeString buckets [0x65]
  unfold parseBuckets
  rw [hrequest, DictConsumer.ofBytes_encodeDict]
  have htail : value.tail =
      (buckets.map fun bucket => encodeString bucket.data).flatten ++ [0x65] := rfl
  simp only [Option.bind_eq_bind, Option.bind_some, hspan, htail, hlist]
  rfl

theorem handleFetchRcs_of_eq {left right : RcStore}
    (h : left.rcBucketHashes = right.rcBucketHashes) :
    handleFetchRcs right (fetchRcsRequest left) = encodeDict [(ascii "r", encodeList [])] := by
  have hnone : differingRcs right ((List.finRange 128).map left.rcBucketHashes) = [] := by
    unfold differingRcs
    rw [List.flatMap_eq_nil_iff]
    intro bucket _
    rw [if_neg]
    simp [h]
  unfold handleFetchRcs
  rw [parseBuckets_fetchRcsRequest]
  simp only [hnone, List.map_nil]

structure History where
  self : RouterID
  isServiceNode : Bool
  now : Int
  files : List DiskFile
  actions : List RcAction

namespace History

def store (blake2b : Bytes → RCHash) (node : History) : RcStore :=
  Run.run (rcStep blake2b node.self node.isServiceNode)
    (loadFromDisk blake2b node.isServiceNode node.now node.files) node.actions

theorem exact_store (blake2b : Bytes → RCHash) (node : History) :
    Exact blake2b (node.store blake2b) := by
  refine Run.run_invariant_of_step _ ?_ node.actions (exact_loadFromDisk _ _ _)
  intro store action h
  cases action with
  | put rc => exact h.putRc node.self node.isServiceNode rc
  | removeIf remove => exact h.removeRcsIf remove

end History

/-- The digests are an exact summary of the stored RCs, and two nodes that store the same
RCs have nothing to send to each other. -/
theorem bucketDigests_exact (blake2b : Bytes → RCHash) (node : History) :
    let store := node.store blake2b
    (∀ bucket rid, rid ∈ (store.rcHashes bucket).keys ↔
      rid ∈ store.knownRcs.keys ∧ bucketOf rid = bucket) ∧
    (∀ bucket rid hash, (store.rcHashes bucket).find rid = some hash →
      ∃ rc, store.knownRcs.find rid = some rc ∧ rc.routerId = rid ∧
        hash = bucketHash blake2b rc.payload) ∧
    (∀ bucket, store.rcBucketHashes bucket =
      ((store.rcHashes bucket).entries.map Sigma.snd).foldr (· ^^^ ·) (FixedBytes.zero 8)) ∧
    ∀ other : History,
      (∀ rid, (other.store blake2b).knownRcs.find rid = store.knownRcs.find rid) →
        (other.store blake2b).rcBucketHashes = store.rcBucketHashes ∧
        handleFetchRcs store (fetchRcsRequest (other.store blake2b)) =
          encodeDict [(ascii "r", encodeList [])] := by
  intro store
  have hexact : Exact blake2b store := node.exact_store blake2b
  refine ⟨?_, ?_, ?_, ?_⟩
  · intro bucket rid
    rw [Table.mem_keys_iff, Table.mem_keys_iff, hexact.recorded]
    by_cases hbucket : bucketOf rid = bucket
    · simp [hbucket]
    · simp [hbucket]
  · intro bucket rid hash hfind
    rw [hexact.recorded] at hfind
    split at hfind
    · obtain ⟨rc, hrc, rfl⟩ := Option.map_eq_some_iff.mp hfind
      exact ⟨rc, hrc, hexact.keyed rid rc hrc, rfl⟩
    · cases hfind
  · intro bucket
    rw [hexact.digests, List.foldr_map]
    rfl
  · intro other hsame
    have hdigests := (other.exact_store blake2b).rcBucketHashes_eq hexact hsame
    exact ⟨hdigests, handleFetchRcs_of_eq hdigests⟩

/-! ### Two histories of one relay's RC -/

namespace Refresh

def rcAt (relay : UInt8) (time : Nat) : RelayContact where
  routerId := FixedBytes.filled 32 relay
  routerVersion := (1, 1, 0)
  timestamp := time
  payload := encodeSigned
    [(ascii "p", encodeString (List.replicate 32 relay)), (ascii "t", encodeInt time),
      (ascii "v", encodeString [1, 1, 0])] (ascii "~") fun signed => signed.take 64

def refreshed : History where
  self := FixedBytes.zero 32
  isServiceNode := true
  now := 0
  files := [⟨FixedBytes.filled 32 1, some (rcAt 1 5)⟩]
  actions := [.put (rcAt 1 1000), .put (rcAt 2 7),
    .removeIf fun rc => rc.routerId = FixedBytes.filled 32 2]

def fresh : History where
  self := FixedBytes.filled 32 9
  isServiceNode := false
  now := 0
  files := []
  actions := [.put (rcAt 1 1000)]

end Refresh

theorem bucketDigests_exact_refreshed :
    (Refresh.fresh.store (FixedBytes.ofBytes 8)).rcBucketHashes =
        (Refresh.refreshed.store (FixedBytes.ofBytes 8)).rcBucketHashes ∧
      handleFetchRcs (Refresh.refreshed.store (FixedBytes.ofBytes 8))
          (fetchRcsRequest (Refresh.fresh.store (FixedBytes.ofBytes 8))) =
        encodeDict [(ascii "r", encodeList [])] := by
  have hentries : (Refresh.fresh.store (FixedBytes.ofBytes 8)).knownRcs.entries =
      (Refresh.refreshed.store (FixedBytes.ofBytes 8)).knownRcs.entries := by
    decide +kernel
  apply (bucketDigests_exact (FixedBytes.ofBytes 8) Refresh.refreshed).2.2.2 Refresh.fresh
  intro rid
  rw [AList.ext hentries]

end SessionRouter.NodeDB

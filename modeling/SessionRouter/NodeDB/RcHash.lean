import SessionRouter.NodeDB.Buckets

/-!
# What the hash of an RC covers
-/

namespace SessionRouter.NodeDB

open Lib Bencode

structure SerializedRc where
  before : List (UInt8 × Bytes)
  time : Nat
  after : List (UInt8 × Bytes)
  signature : Bytes
  values : ∀ entry ∈ before ++ after, IsValue entry.2
  keys_before : ∀ entry ∈ before, entry.1 < 0x74
  keys_after : ∀ entry ∈ after, 0x74 < entry.1 ∧ entry.1 < 0x7e
  time_lt : time < 2 ^ 64

namespace SerializedRc

def entries (fields : List (UInt8 × Bytes)) : List (Bytes × Bytes) :=
  fields.map fun field => ([field.1], field.2)

def serialize (rc : SerializedRc) : Bytes :=
  encodeDict (entries rc.before ++ (ascii "t", encodeInt rc.time) :: (entries rc.after ++
    [(ascii "~", encodeString rc.signature)]))

variable (rc : SerializedRc)

def fields : List (UInt8 × Bytes) := rc.before ++ rc.after

theorem take_before_key (front : Bytes) (key : UInt8) (back : Bytes) :
    (front ++ key :: back).take ((front ++ key :: back).length - (back.length + 1)) = front := by
  rw [List.length_append, List.length_cons, Nat.add_sub_cancel, List.take_left]

variable {fields : List (UInt8 × Bytes)}

theorem isValue_entries (h : ∀ field ∈ fields, IsValue field.2) :
    ∀ entry ∈ entries fields, IsValue entry.2 :=
  List.forall_mem_map.mpr h

theorem lt_entries {key : UInt8}
    (h : ∀ field ∈ fields, field.1 < key) :
    ∀ entry ∈ entries fields, entry.1 < [key] :=
  List.forall_mem_map.mpr fun field hmem => List.cons_lt_cons_iff.mpr (.inl (h field hmem))

theorem hashedBytes_serialize : hashedBytes rc.serialize =
      some (0x64 :: (encodeEntries (entries rc.fields) ++ ascii "1:")) := by
  have hkeyTime : encodeString (ascii "t") = ascii "1:" ++ [0x74] := by decide
  have hkeySignature : encodeString (ascii "~") = ascii "1:" ++ [0x7e] := by decide
  have hvalues := List.forall_mem_append.mp rc.values
  -- the bytes behind the keys "~" and "t"
  let afterSignature := encodeString rc.signature ++ [0x65]
  let afterTime := encodeEntries (entries rc.after) ++ (encodeString (ascii "~") ++ afterSignature)
  have hwhole : rc.serialize = (0x64 :: (encodeEntries (entries rc.before) ++ ascii "1:")) ++
      0x74 :: (encodeInt rc.time ++ afterTime) := by
    simp [serialize, encodeDict, encodeEntries, afterTime, afterSignature, hkeyTime]
  have hofBytes : DictConsumer.ofBytes rc.serialize = some ⟨none,
      encodeEntries (entries rc.before) ++
        (encodeString (ascii "t") ++ (encodeInt rc.time ++ afterTime))⟩ := by
    rw [hwhole]
    simp [DictConsumer.ofBytes, hkeyTime]
  have hskipTime : DictConsumer.skipUntil (ascii "t")
      (skipFuel (encodeEntries (entries rc.before) ++
        (encodeString (ascii "t") ++ (encodeInt rc.time ++ afterTime))))
      ⟨none, encodeEntries (entries rc.before) ++
        (encodeString (ascii "t") ++ (encodeInt rc.time ++ afterTime))⟩ =
    some (true, ⟨some (ascii "t", encodeString (ascii "t") ++ (encodeInt rc.time ++ afterTime)),
      encodeInt rc.time ++ afterTime⟩) := by
    refine DictConsumer.skipUntil_entries (isValue_entries hvalues.1) (lt_entries rc.keys_before)
      (.int rc.time) _ ?_
    have hle := length_le_length_encodeEntries (entries rc.before)
    rw [skipFuel, List.length_append]
    omega
  have hread : readUnsigned 64 (encodeInt rc.time ++ afterTime) = some (rc.time, afterTime) :=
    readUnsigned_encodeInt rc.time_lt _
  have hlast : readString afterSignature = some (rc.signature, [0x65]) :=
    readString_encodeString _ _
  unfold hashedBytes
  simp only [hofBytes, hskipTime, hread, guard, if_true, Option.pure_def, Option.bind_eq_bind,
    Option.bind_some]
  rw [hwhole, take_before_key]
  cases hafter : rc.after with
  | nil =>
    have hkey : DictConsumer.consumeKey ⟨none, afterTime⟩ =
        some ⟨some (ascii "~", afterTime), afterSignature⟩ := by
      simp only [afterTime, hafter]
      exact DictConsumer.consumeKey_value (.string rc.signature) _
    simp only [hkey, Option.bind_some, if_true, fields, hafter, List.append_nil]
  | cons field after =>
    obtain ⟨key, value⟩ := field
    obtain ⟨hvalue, hvalues⟩ := List.forall_mem_cons.mp (hafter ▸ hvalues.2)
    obtain ⟨hkeys, hrest⟩ := List.forall_mem_cons.mp (hafter ▸ rc.keys_after)
    dsimp only at hvalue hkeys
    have htilde : ascii "~" = [0x7e] := by decide
    have hlt : [key] < ascii "~" := by
      rw [htilde]
      exact List.cons_lt_cons_iff.mpr (.inl hkeys.2)
    have hkeyNext : encodeString [key] = ascii "1:" ++ [key] := by
      rw [encodeString, List.length_singleton, (by decide : decimal 1 = [0x31]),
        (by decide : ascii "1:" = [0x31, 0x3a])]
      rfl
    let afterKey := value ++ (encodeEntries (entries after) ++
      (encodeString (ascii "~") ++ afterSignature))
    have hbytes : afterTime = encodeString [key] ++ afterKey := by
      simp [afterTime, hafter, entries, afterKey]
    have hkey : DictConsumer.consumeKey ⟨none, afterTime⟩ =
        some ⟨some ([key], afterTime), afterKey⟩ := by
      rw [hbytes]
      exact DictConsumer.consumeKey_value hvalue _
    have hnot : [key] ≠ ascii "~" := fun heq => List.lt_irrefl _ (heq ▸ hlt)
    have hskip : DictConsumer.skipUntil (ascii "~") (skipFuel afterKey)
        ⟨some ([key], afterTime), afterKey⟩ =
          some (true, ⟨some (ascii "~", encodeString (ascii "~") ++ afterSignature),
            afterSignature⟩) := by
      have hle := length_le_length_encodeEntries (entries after)
      obtain ⟨fuel, hfuel⟩ : ∃ fuel, skipFuel afterKey = fuel + 1 := ⟨_, rfl⟩
      rw [hfuel, DictConsumer.skipUntil_of_lt hvalue hlt]
      refine DictConsumer.skipUntil_entries (isValue_entries hvalues)
        (lt_entries fun field hmem => (hrest field hmem).2) (.string rc.signature) [0x65] ?_
      have hlength : 2 * afterKey.length + 2 = fuel + 1 := hfuel
      simp only [afterKey, List.length_append] at hlength
      omega
    have hbetween : ([key] ++ afterKey).take
        (([key] ++ afterKey).length - (afterSignature.length + 1)) =
          key :: (value ++ encodeEntries (entries after) ++ ascii "1:") := by
      have hsplit : [key] ++ afterKey = (key :: (value ++ encodeEntries (entries after) ++
          ascii "1:")) ++ 0x7e :: afterSignature := by
        simp [afterKey, hkeySignature]
      rw [hsplit, take_before_key]
    simp only [hkey, Option.bind_some, if_neg hnot, hskip, if_true, hlast, hbetween]
    simp [fields, hafter, entries, encodeEntries, hkeyNext]

theorem fields_inj {rc other : SerializedRc} (h : rc.fields = other.fields) :
    rc.before = other.before ∧ rc.after = other.after := by
  have hbefore (rc : SerializedRc) :
      rc.fields.filter (fun field => field.1 < 0x74) = rc.before := by
    rw [fields, List.filter_append, List.filter_eq_self.mpr, List.filter_eq_nil_iff.mpr,
      List.append_nil]
    · intro field hmem
      simpa using UInt8.le_of_lt (rc.keys_after field hmem).1
    · intro field hmem
      simpa using rc.keys_before field hmem
  have heq := hbefore rc
  rw [h, hbefore other] at heq
  refine ⟨heq.symm, ?_⟩
  rw [fields, fields, heq] at h
  exact List.append_cancel_left h

theorem hashedBytes_eq_iff (rc other : SerializedRc) :
    hashedBytes rc.serialize = hashedBytes other.serialize ↔
      rc.before = other.before ∧ rc.after = other.after := by
  rw [hashedBytes_serialize, hashedBytes_serialize, Option.some.injEq, List.cons.injEq]
  constructor
  · rintro ⟨-, h⟩
    have hentries := encodeEntries_inj (isValue_entries rc.values) (isValue_entries other.values) h
    have hinj : Function.Injective fun field : UInt8 × Bytes => ([field.1], field.2) := by
      rintro ⟨key, value⟩ ⟨key', value'⟩ h
      simpa using h
    exact fields_inj (List.map_injective_iff.mpr hinj hentries)
  · rintro ⟨hbefore, hafter⟩
    rw [fields, fields, hbefore, hafter]
    exact ⟨rfl, rfl⟩

/-- The bytes that are hashed are the same exactly if all fields but the time stamp and the
signature are.  So if the hash tells the two RCs apart, an RC that replaces another one moves in the
buckets, and is gossiped for its contents, exactly if another field has changed. -/
theorem hash_covers (rc other : SerializedRc) :
    (hashedBytes rc.serialize = hashedBytes other.serialize ↔
      rc.before = other.before ∧ rc.after = other.after) ∧
    ∀ (blake2b : Bytes → RCHash) (self : RouterID) (isServiceNode : Bool) (store : RcStore)
      (new stored : RelayContact), new.payload = rc.serialize → stored.payload = other.serialize →
      (bucketHash blake2b rc.serialize = bucketHash blake2b other.serialize →
        hashedBytes rc.serialize = hashedBytes other.serialize) →
      store.knownRcs.find new.routerId = some stored →
      new.newerThan stored RelayContact.minGossipRcAge = true →
        putRc blake2b self isServiceNode store new =
          let kept := { store with knownRcs := store.knownRcs.insertOrAssign new.routerId new }
          if rc.before = other.before ∧ rc.after = other.after then
            (kept, true, (new.routerId = self ∨ new.newerThan stored outdatedAge = true) &&
              isServiceNode)
          else (updateRcBuckets blake2b kept new true, true, isServiceNode) := by
  refine ⟨hashedBytes_eq_iff rc other, ?_⟩
  intro blake2b self isServiceNode store new stored hnew hstored hhash hfind hnewer
  have hsignificant : bucketHash blake2b rc.serialize = bucketHash blake2b other.serialize ↔
      rc.before = other.before ∧ rc.after = other.after := by
    rw [← hashedBytes_eq_iff]
    exact ⟨hhash, fun h => by rw [bucketHash, bucketHash, h]⟩
  unfold putRc
  rw [hfind]
  simp only [hnewer, Bool.not_true, Bool.false_eq_true, if_false, hnew, hstored, ne_eq,
    hsignificant]
  split <;> simp_all

end SerializedRc
end SessionRouter.NodeDB

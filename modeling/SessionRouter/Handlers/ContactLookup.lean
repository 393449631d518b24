import SessionRouter.Contact.ClientContact
import SessionRouter.Lib.Int64
import SessionRouter.Lib.Run
import SessionRouter.Path.Control
import Mathlib.Data.List.MinMax

/-!
# Looking up a client's contact

The cache of client contacts, the requests for a contact that is not in it, and what their replies
do to it.  An entry lives as long as its contact; the expiry of a contact is a number of seconds
that nothing bounds, and the cache keeps it in milliseconds, in a signed 64-bit word.
`updateCcs_forward` says that the cache only moves to later signed contacts while that conversion
does not wrap.
-/

namespace SessionRouter.Handlers

open Lib Bencode

abbrev ContactCache := Table RouterID (Option ClientContact × Int)

def noCcCacheTime : Int := 15000

def signedLater (cc entry : Option ClientContact) : Bool :=
  match cc, entry with
  | some cc, some entry => entry.signedAt < cc.signedAt
  | _, _ => false

def newExp (cc : Option ClientContact) (now : Int) : Int :=
  match cc with
  | some cc => int64 (1000 * cc.expiry)
  | none => now + noCcCacheTime

def updateCc (cache : ContactCache) (remote : RouterID) (cc : Option ClientContact) (now : Int) :
    ContactCache × Option ClientContact :=
  match cache.find remote with
  | none => (cache.emplace remote (cc, newExp cc now), cc)
  | some (entry, exp) =>
    if entry.isNone || exp < now || signedLater cc entry then
      (cache.insertOrAssign remote (cc, newExp cc now), cc)
    else (cache, entry)

def replyRecord (resp : PathControlResponse) : Option Bytes :=
  if resp.ok then do
    let c ← DictConsumer.ofBytes resp.body
    let (status, c) ← c.maybe readString (ascii "!")
    if status.all (· = ascii "OK") then
      let (enccc, _) ← c.require readString (ascii "x")
      return enccc
    else none
  else none

variable (suite : CryptoSuite)

def contactOfReply (remote : RouterID) (resp : PathControlResponse) : Option ClientContact := do
  let enccc ← replyRecord resp
  ClientContact.decrypt suite enccc remote

structure Lookup where
  cache : ContactCache
  remaining : Int
  handed : List (Option ClientContact)

def responseHandler (remote : RouterID) (lookup : Lookup) (reply : Int × PathControlResponse) :
    Lookup :=
  let rem := lookup.remaining - 1
  match contactOfReply suite remote reply.2 with
  | some cc =>
    -- offered to the cache even if an earlier reply was handed on already
    let updated := updateCc lookup.cache remote (some cc) reply.1
    { cache := updated.1
      remaining := if 0 < rem then 0 else rem
      handed := if 0 ≤ rem then lookup.handed ++ [updated.2] else lookup.handed }
  | none =>
    if rem = 0 then
      let updated := updateCc lookup.cache remote none reply.1
      { cache := updated.1, remaining := rem, handed := lookup.handed ++ [updated.2] }
    else { lookup with remaining := rem }

inductive LookupStart where
  | answered (cc : Option ClientContact)
  | asked (remoteKey : PubKey) (lookup : Lookup)

def lookupClientIntro (self : RouterID) (own : Option ClientContact) (activePaths : Nat)
    (cache : ContactCache) (remote : RouterID) (allowCache : Bool) (now : Int) :
    ContactCache × LookupStart :=
  let query (cache : ContactCache) : ContactCache × LookupStart :=
    match Crypto.blind suite remote Crypto.clientContactDomain with
    | none =>
      let updated := updateCc cache remote none now
      (updated.1, .answered updated.2)
    | some remoteKey =>
      if activePaths = 0 then (cache, .answered none)
      else (cache, .asked remoteKey { cache, remaining := 4, handed := [] })
  if remote = self then (cache, .answered own)
  else if allowCache then
    match cache.find remote with
    | none => query cache
    | some (cc, exp) =>
      if exp ≤ now then query (cache.remove remote)
      else (cache, .answered cc)
  else query cache

variable {suite} {remote : RouterID}

theorem updateCc_cases (cache : ContactCache) (remote : RouterID) (cc : Option ClientContact)
    (now : Int) :
    ((updateCc cache remote cc now).2 = cc ∧
      ∀ other, (updateCc cache remote cc now).1.find other =
        if other = remote then some (cc, newExp cc now) else cache.find other) ∨
    (∃ entry exp, cache.find remote = some (entry, exp) ∧
      updateCc cache remote cc now = (cache, entry)) := by
  unfold updateCc
  cases hfind : cache.find remote with
  | none =>
    refine .inl ⟨rfl, fun other => ?_⟩
    simp [Table.find_emplace, hfind]
  | some stored =>
    rcases stored with ⟨entry, exp⟩
    by_cases hbetter : entry.isNone || exp < now || signedLater cc entry
    · refine .inl ⟨by simp [hbetter], fun other => ?_⟩
      simp only [hbetter, if_true]
      exact Table.find_insertOrAssign _ _ _ _
    · exact .inr ⟨entry, exp, rfl, by simp [hbetter]⟩

structure Lookup.All (Good : ClientContact → Prop) (remote : RouterID) (lookup : Lookup) :
    Prop where
  cached : ∀ cc exp, lookup.cache.find remote = some (some cc, exp) → Good cc
  handed : ∀ cc, some cc ∈ lookup.handed → Good cc

theorem updateCc_all {Good : ClientContact → Prop} {cache : ContactCache}
    (hcache : ∀ cc exp, cache.find remote = some (some cc, exp) → Good cc)
    (offer : Option ClientContact) (hoffer : ∀ cc, offer = some cc → Good cc) (now : Int) :
    (∀ cc exp, (updateCc cache remote offer now).1.find remote = some (some cc, exp) → Good cc) ∧
      ∀ cc, (updateCc cache remote offer now).2 = some cc → Good cc := by
  rcases updateCc_cases cache remote offer now with ⟨hresult, hfind⟩ | ⟨entry, exp, hfind, hsame⟩
  · constructor
    · intro cc exp' hstored
      rw [hfind remote, if_pos rfl] at hstored
      cases hstored
      exact hoffer cc rfl
    · rw [hresult]
      exact hoffer
  · rw [hsame]
    constructor
    · exact hcache
    · intro cc hentry
      have hentry : entry = some cc := hentry
      exact hcache cc exp (by rw [hfind, hentry])

theorem responseHandler_all {Good : ClientContact → Prop} {lookup : Lookup}
    (hall : lookup.All Good remote) {reply : Int × PathControlResponse}
    (hreply : ∀ cc, contactOfReply suite remote reply.2 = some cc → Good cc) :
    (responseHandler suite remote lookup reply).All Good remote := by
  have handed_append {ccc : Option ClientContact} (hccc : ∀ cc, ccc = some cc → Good cc) :
      ∀ cc, some cc ∈ lookup.handed ++ [ccc] → Good cc := by
    intro cc hmem
    rcases List.mem_append.mp hmem with hold | hnew
    · exact hall.handed cc hold
    · exact hccc cc (List.mem_singleton.mp hnew).symm
  unfold responseHandler
  cases hcontact : contactOfReply suite remote reply.2 with
  | some cc =>
    obtain ⟨hcached, hresult⟩ := updateCc_all hall.cached (some cc)
      (fun cc' h => hreply cc' (hcontact.trans h)) reply.1
    refine ⟨hcached, ?_⟩
    by_cases hrem : 0 ≤ lookup.remaining - 1
    · simpa only [hrem, if_true] using handed_append hresult
    · simpa only [hrem, if_false] using hall.handed
  | none =>
    by_cases hrem : lookup.remaining - 1 = 0
    · obtain ⟨hcached, hresult⟩ := updateCc_all hall.cached none (fun _ h => nomatch h) reply.1
      simp only [hrem, if_true]
      exact ⟨hcached, handed_append hresult⟩
    · simp only [hrem, if_false]
      exact ⟨hall.cached, hall.handed⟩

theorem run_responseHandler_all {Good : ClientContact → Prop} {lookup : Lookup}
    (hall : lookup.All Good remote) {replies : List (Int × PathControlResponse)}
    (hreplies : ∀ reply ∈ replies, ∀ cc, contactOfReply suite remote reply.2 = some cc → Good cc) :
    (Run.run (responseHandler suite remote) lookup replies).All Good remote := by
  induction replies generalizing lookup with
  | nil => exact hall
  | cons reply replies ih =>
    rw [Run.run_cons]
    apply ih
    · exact responseHandler_all hall (hreplies reply (List.mem_cons_self ..))
    · exact fun reply' hmem => hreplies reply' (List.mem_cons_of_mem _ hmem)

def cachedCc (cache : ContactCache) (remote : RouterID) : Option ClientContact :=
  (cache.find remote).bind Prod.fst

structure CcUpdate where
  cc : Option ClientContact
  now : Int

def updateCcs (remote : RouterID) (cache : ContactCache) (updates : List CcUpdate) :
    ContactCache :=
  Run.run (fun cache update => (updateCc cache remote update.cc update.now).1) cache updates

def knownCcs (remote : RouterID) (cache : ContactCache) (updates : List CcUpdate) :
    List ClientContact :=
  (cachedCc cache remote).toList ++ updates.filterMap CcUpdate.cc

/-- Nothing expires before the last update. -/
structure Unexpired (remote : RouterID) (cache : ContactCache) (updates : List CcUpdate) :
    Prop where
  cached : ∀ cc exp, cache.find remote = some (some cc, exp) →
    ∀ update ∈ updates, update.now ≤ exp
  offered : ∀ cc ∈ updates.filterMap CcUpdate.cc, ∀ update ∈ updates,
    update.now ≤ 1000 * cc.expiry

/-- The expiries of the offered contacts are ones that the cache can keep in milliseconds. -/
def Representable (updates : List CcUpdate) : Prop :=
  ∀ cc ∈ updates.filterMap CcUpdate.cc, FitsInt64 (1000 * cc.expiry)

instance (updates : List CcUpdate) : Decidable (Representable updates) :=
  inferInstanceAs (Decidable (∀ cc ∈ updates.filterMap CcUpdate.cc, FitsInt64 (1000 * cc.expiry)))

def SignedAfter (cc held : ClientContact) : Prop :=
  held.signedAt < cc.signedAt

instance : DecidableRel SignedAfter :=
  fun cc held => Int.decLt held.signedAt cc.signedAt

variable {cache : ContactCache} {updates : List CcUpdate} {update : CcUpdate}

theorem Representable.tail (h : Representable (update :: updates)) : Representable updates := by
  intro cc hcc
  obtain ⟨offer, hoffer, hsome⟩ := List.mem_filterMap.mp hcc
  exact h cc (List.mem_filterMap.mpr ⟨offer, List.mem_cons_of_mem _ hoffer, hsome⟩)

theorem cachedCc_updateCc (h : Unexpired remote cache (update :: updates)) :
    cachedCc (updateCc cache remote update.cc update.now).1 remote =
      update.cc.toList.foldl (List.argAux SignedAfter) (cachedCc cache remote) := by
  unfold updateCc cachedCc
  cases hfind : cache.find remote with
  | none => cases update.cc <;> simp [Table.find_emplace, hfind, List.argAux]
  | some stored =>
    obtain ⟨entry | held, exp⟩ := stored
    · cases update.cc <;> simp [Table.find_insertOrAssign, List.argAux]
    · have hexp : ¬ exp < update.now :=
        Int.not_lt.mpr (h.cached held exp hfind update (List.mem_cons_self ..))
      cases update.cc with
      | none => simp [hexp, signedLater, hfind]
      | some cc =>
        by_cases hlater : held.signedAt < cc.signedAt <;>
          simp [hexp, signedLater, hlater, hfind, Table.find_insertOrAssign, List.argAux,
            SignedAfter]

theorem Unexpired.updateCc (h : Unexpired remote cache (update :: updates))
    (hfits : Representable (update :: updates)) :
    Unexpired remote (updateCc cache remote update.cc update.now).1 updates where
  cached cc exp hfind later hlater := by
    have hmem := List.mem_cons_of_mem update hlater
    rcases updateCc_cases cache remote update.cc update.now with ⟨-, hstored⟩ | ⟨_, _, -, hsame⟩
    · rw [hstored, if_pos rfl] at hfind
      obtain ⟨hcc, rfl⟩ := Prod.mk.inj (Option.some.inj hfind)
      have hoffered : cc ∈ (update :: updates).filterMap CcUpdate.cc :=
        List.mem_filterMap.mpr ⟨update, List.mem_cons_self .., hcc⟩
      rw [hcc, newExp, int64_of_fits (hfits cc hoffered)]
      exact h.offered cc hoffered later hmem
    · rw [hsame] at hfind
      exact h.cached cc exp hfind later hmem
  offered cc hcc later hlater := by
    refine h.offered cc ?_ later (List.mem_cons_of_mem _ hlater)
    obtain ⟨offer, hoffer, hsome⟩ := List.mem_filterMap.mp hcc
    exact List.mem_filterMap.mpr ⟨offer, List.mem_cons_of_mem _ hoffer, hsome⟩

theorem cachedCc_updateCcs (h : Unexpired remote cache updates) (hfits : Representable updates) :
    cachedCc (updateCcs remote cache updates) remote =
      (knownCcs remote cache updates).argmax ClientContact.signedAt := by
  have hfold : cachedCc (updateCcs remote cache updates) remote =
      (updates.filterMap CcUpdate.cc).foldl (List.argAux SignedAfter) (cachedCc cache remote) := by
    induction updates generalizing cache with
    | nil => rfl
    | cons update updates ih =>
      rw [updateCcs, Run.run_cons]
      refine (ih (h.updateCc hfits) hfits.tail).trans ?_
      rw [cachedCc_updateCc h, List.filterMap_cons]
      cases update.cc <;> rfl
  rw [hfold, knownCcs, List.argmax, List.foldl_append]
  cases cachedCc cache remote <;> rfl

theorem Unexpired.updateCcs {front back : List CcUpdate}
    (h : Unexpired remote cache (front ++ back)) (hfits : Representable (front ++ back)) :
    Unexpired remote (updateCcs remote cache front) back := by
  induction front generalizing cache with
  | nil => exact h
  | cons update front ih => exact ih (h.updateCc hfits) hfits.tail

theorem Unexpired.perm {order : List CcUpdate} (h : Unexpired remote cache updates)
    (hperm : order.Perm updates) : Unexpired remote cache order where
  cached cc exp hfind later hlater := h.cached cc exp hfind later (hperm.mem_iff.mp hlater)
  offered cc hcc later hlater :=
    h.offered cc ((hperm.filterMap _).mem_iff.mp hcc) later (hperm.mem_iff.mp hlater)

theorem Representable.perm {order : List CcUpdate} (h : Representable updates)
    (hperm : order.Perm updates) : Representable order :=
  fun cc hcc => h cc ((hperm.filterMap _).mem_iff.mp hcc)

theorem argmax_signedAt_eq_of_perm {left right : List ClientContact} (hperm : left.Perm right)
    (hdistinct : (right.map ClientContact.signedAt).Nodup) :
    left.argmax ClientContact.signedAt = right.argmax ClientContact.signedAt := by
  cases hleft : left.argmax ClientContact.signedAt with
  | none =>
    rw [List.argmax_eq_none.mp hleft, List.nil_perm] at hperm
    rw [hperm, List.argmax_nil]
  | some cc =>
    have hcc := hperm.mem_iff.mp (List.argmax_mem hleft)
    cases hright : right.argmax ClientContact.signedAt with
    | none =>
      rw [List.argmax_eq_none.mp hright] at hcc
      exact absurd hcc List.not_mem_nil
    | some other =>
      have hother := List.argmax_mem hright
      have hle := List.le_of_mem_argmax hcc hright
      have hge := List.le_of_mem_argmax (hperm.mem_iff.mpr hother) hleft
      rw [List.inj_on_of_nodup_map hdistinct hcc hother (le_antisymm hle hge)]

/-- While nothing expires, the cache holds one of the latest signed contacts it was offered, in
whatever order they came, and never goes back from it. -/
theorem updateCcs_forward (remote : RouterID) (cache : ContactCache) (updates : List CcUpdate)
    (h : Unexpired remote cache updates) (hfits : Representable updates) :
    (∀ front update back, updates = front ++ update :: back →
      let before := updateCcs remote cache front
      let after := updateCc before remote update.cc update.now
      (∃ exp, after.1.find remote = some (after.2, exp)) ∧
        ∀ held, cachedCc before remote = some held →
          ∃ cc, cachedCc after.1 remote = some cc ∧
            (cc = held ∨ held.signedAt < cc.signedAt)) ∧
    (∀ order, order.Perm updates →
      (cachedCc (updateCcs remote cache order) remote = none ↔
        knownCcs remote cache updates = []) ∧
      ∀ cc, cachedCc (updateCcs remote cache order) remote = some cc →
        cc ∈ knownCcs remote cache updates ∧
          ∀ other ∈ knownCcs remote cache updates, other.signedAt ≤ cc.signedAt) ∧
    (((knownCcs remote cache updates).map ClientContact.signedAt).Nodup →
      ∀ order, order.Perm updates →
        cachedCc (updateCcs remote cache order) remote =
          cachedCc (updateCcs remote cache updates) remote) := by
  have horder (order : List CcUpdate) (hperm : order.Perm updates) :
      cachedCc (updateCcs remote cache order) remote =
          (knownCcs remote cache order).argmax ClientContact.signedAt ∧
        (knownCcs remote cache order).Perm (knownCcs remote cache updates) :=
    ⟨cachedCc_updateCcs (h.perm hperm) (hfits.perm hperm), (hperm.filterMap _).append_left _⟩
  refine ⟨?_, ?_, ?_⟩
  · rintro front update back rfl before after
    constructor
    · rcases updateCc_cases before remote update.cc update.now with
        ⟨hresult, hfind⟩ | ⟨entry, exp, hfind, hsame⟩
      · exact ⟨_, by rw [hfind, if_pos rfl, hresult]⟩
      · exact ⟨exp, by rw [show after = (before, entry) from hsame, hfind]⟩
    · intro held hheld
      rw [show cachedCc after.1 remote = _ from cachedCc_updateCc (h.updateCcs hfits), hheld]
      cases update.cc with
      | none => exact ⟨held, rfl, .inl rfl⟩
      | some cc =>
        by_cases hlater : held.signedAt < cc.signedAt
        · exact ⟨cc, if_pos hlater, .inr hlater⟩
        · exact ⟨held, if_neg hlater, .inl rfl⟩
  · intro order hperm
    obtain ⟨hcached, hknown⟩ := horder order hperm
    rw [hcached]
    refine ⟨?_, fun cc hcc => ⟨?_, fun other hother => ?_⟩⟩
    · rw [List.argmax_eq_none, ← List.length_eq_zero_iff, hknown.length_eq,
        List.length_eq_zero_iff]
    · exact hknown.mem_iff.mp (List.argmax_mem hcc)
    · exact List.le_of_mem_argmax (hknown.mem_iff.mpr hother) hcc
  · intro hdistinct order hperm
    obtain ⟨hcached, hknown⟩ := horder order hperm
    rw [hcached, cachedCc_updateCcs h hfits, argmax_signedAt_eq_of_perm hknown hdistinct]

def contactUntil (expiry signedAt : Int) : ClientContact where
  pubkey := default
  intros := [⟨default, default, expiry⟩]
  intros_sorted := List.pairwise_singleton _ _
  srv := []
  protos := 0
  signedAt := signedAt
  exitPolicy := none

def contactSignedAt (signedAt : Int) : ClientContact :=
  contactUntil 1000 signedAt

def threeUpdates (expiry : Int) : List CcUpdate :=
  [⟨some (contactUntil expiry 2), 5⟩, ⟨none, 6⟩, ⟨some (contactSignedAt 1), 7⟩]

theorem updateCcs_forward_older :
    cachedCc (updateCcs default ∅ (threeUpdates 1000).reverse) default =
      some (contactSignedAt 2) := by
  have h := updateCcs_forward default ∅ (threeUpdates 1000) ⟨by simp, by decide⟩ (by decide)
  exact (h.2.2 (by decide) _ (List.reverse_perm _)).trans (by decide +kernel)

/-- A contact that expires after `2 ^ 62` seconds is taken for expired at once, so a missing contact
takes its place, and then an older one. -/
theorem farExpiry_replaced :
    Unexpired default ∅ (threeUpdates (2 ^ 62)) ∧
      cachedCc (updateCcs default ∅ ((threeUpdates (2 ^ 62)).take 1)) default =
        some (contactUntil (2 ^ 62) 2) ∧
      cachedCc (updateCcs default ∅ ((threeUpdates (2 ^ 62)).take 2)) default = none ∧
      cachedCc (updateCcs default ∅ (threeUpdates (2 ^ 62))) default =
        some (contactSignedAt 1) :=
  ⟨⟨by simp, by decide⟩, by decide +kernel, by decide +kernel, by decide +kernel⟩

end SessionRouter.Handlers

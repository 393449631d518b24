import SessionRouter.Crypto.Cipher
import SessionRouter.Lib.Run
import SessionRouter.Lib.Table
import Mathlib.Data.Finset.Card
import Mathlib.Data.UInt

/-!
# The session table and the tag table
-/

namespace SessionRouter

open Lib

structure NetworkAddress where
  pubkey : RouterID
  isClient : Bool
deriving DecidableEq

/-- What the two tables depend on in a `Session`. -/
structure SessionRecord where
  remote : NetworkAddress
  inboundTag : SessionTag
  isOutbound : Bool
  closed : Bool
  unreachable : Bool
deriving DecidableEq

structure SessionTable where
  sessions : Table NetworkAddress Nat
  sessionTags : Table SessionTag Nat
  objects : List SessionRecord
  lastTag : SessionTag
  jobs : List Nat

/-- How the construction of an inbound session ends. -/
inductive InboundOutcome where
  | rejected
  | dropped
  | accepted

inductive OutboundOutcome where
  | threw
  | unreachable
  | made

inductive SessionAction where
  | inboundInit (remote : NetworkAddress) (outcome : InboundOutcome)
  | initiateRemoteSession (remote : NetworkAddress) (outcome : OutboundOutcome)
  | closeSession (session : Nat)
  | closeSessionByRemote (remote : NetworkAddress)
  | closeSessionByTag (tag : SessionTag)
  | tick (isExpired : Nat → Bool)
  | markUnreachable (session : Nat)
  | job

namespace SessionTable

def start (lastTag : SessionTag) : SessionTable :=
  ⟨∅, ∅, [], lastTag, []⟩

/-! ## Tags -/

def nextTagFrom (tags : Table SessionTag Nat) : Nat → SessionTag → Option SessionTag
  | 0, _ => none
  | fuel + 1, tag =>
    if (tags.find tag).isSome ∨ tag = 0 then nextTagFrom tags fuel (tag + 1) else some tag

def nextTag (state : SessionTable) : Option SessionTag :=
  nextTagFrom state.sessionTags (state.sessionTags.keys.length + 2) state.lastTag

/-! ## Sessions -/

def newSession (state : SessionTable) : Nat :=
  state.objects.length

def register (state : SessionTable) (remote : NetworkAddress) (tag : SessionTag)
    (isOutbound : Bool) : SessionTable :=
  { state with
    sessions := state.sessions.insertOrAssign remote state.newSession
    sessionTags := state.sessionTags.insertOrAssign tag state.newSession
    objects := state.objects ++ [⟨remote, tag, isOutbound, false, false⟩]
    lastTag := tag }

def clearTrampled (state : SessionTable) (remote : NetworkAddress) : SessionTable :=
  match (state.sessions.find remote).bind (state.objects[·]?) with
  | some record => { state with sessionTags := state.sessionTags.remove record.inboundTag }
  | none => state

def inboundInit (state : SessionTable) (remote : NetworkAddress) (outcome : InboundOutcome) :
    SessionTable :=
  match outcome, state.nextTag with
  | .rejected, _ => state
  | _, none => state
  | .dropped, some tag => { state with lastTag := tag }
  | .accepted, some tag => (state.clearTrampled remote).register remote tag false

def reusable (state : SessionTable) (remote : NetworkAddress) : Bool :=
  match (state.sessions.find remote).bind (state.objects[·]?) with
  | some record => !record.closed && !record.unreachable
  | none => false

def initiateRemoteSession (state : SessionTable) (remote : NetworkAddress)
    (outcome : OutboundOutcome) : SessionTable :=
  if state.reusable remote then state
  else
    match state.nextTag, outcome with
    | none, _ => state
    | some tag, .made => state.register remote tag true
    | some tag, _ => { state with lastTag := tag }

def closeSession (state : SessionTable) (session : Nat) : SessionTable :=
  if session < state.objects.length then
    { state with
      objects := state.objects.modify session ({ · with closed := true })
      jobs := state.jobs ++ [session] }
  else state

def closeFound (state : SessionTable) : Option Nat → SessionTable
  | some session => state.closeSession session
  | none => state

def closeSessionByRemote (state : SessionTable) (remote : NetworkAddress) : SessionTable :=
  state.closeFound (state.sessions.find remote)

def closeSessionByTag (state : SessionTable) (tag : SessionTag) : SessionTable :=
  state.closeFound (state.sessionTags.find tag)

def closeWhen (condition : SessionRecord → Bool) (state : SessionTable) (session : Nat) :
    SessionTable :=
  match state.objects[session]? with
  | some record => if condition record then state.closeSessionByTag record.inboundTag else state
  | none => state

def tickSession (isExpired : Nat → Bool) (state : SessionTable) (session : Nat) : SessionTable :=
  (state.closeWhen (fun _ => isExpired session) session).closeWhen
    (fun record => record.isOutbound && !record.closed && record.unreachable) session

def tick (state : SessionTable) (isExpired : Nat → Bool) : SessionTable :=
  state.sessions.values.foldl (tickSession isExpired) state

def markUnreachable (state : SessionTable) (session : Nat) : SessionTable :=
  { state with objects := state.objects.modify session ({ · with unreachable := true }) }

def removeClosed (state : SessionTable) (session : Nat) : SessionTable :=
  match state.objects[session]? with
  | none => state
  | some record =>
    if state.sessions.find record.remote = some session then
      { state with
        sessions := state.sessions.remove record.remote
        sessionTags := state.sessionTags.remove record.inboundTag }
    else state

def runJob (state : SessionTable) : SessionTable :=
  match state.jobs with
  | [] => state
  | session :: jobs => { state.removeClosed session with jobs := jobs }

def step (state : SessionTable) : SessionAction → SessionTable
  | .inboundInit remote outcome => state.inboundInit remote outcome
  | .initiateRemoteSession remote outcome => state.initiateRemoteSession remote outcome
  | .closeSession session => state.closeSession session
  | .closeSessionByRemote remote => state.closeSessionByRemote remote
  | .closeSessionByTag tag => state.closeSessionByTag tag
  | .tick isExpired => state.tick isExpired
  | .markUnreachable session => state.markUnreachable session
  | .job => state.runJob

/-! ## What a tag search finds -/

variable {tag : SessionTag}

variable {tags : Table SessionTag Nat} (lastTag : SessionTag) (actions : List SessionAction)

theorem nextTagFrom_eq_some {fuel : Nat} {from_ : SessionTag}
    (h : nextTagFrom tags fuel from_ = some tag) : tag ≠ 0 ∧ tags.find tag = none := by
  induction fuel generalizing from_ with
  | zero => cases h
  | succ fuel ih =>
    rw [nextTagFrom] at h
    split at h
    · exact ih h
    · next hfree =>
      cases h
      simpa [not_or, and_comm] using hfree

theorem nextTagFrom_eq_none {fuel : Nat} {from_ : SessionTag}
    (h : nextTagFrom tags fuel from_ = none) {skipped : Nat} (hskipped : skipped < fuel) :
    (tags.find (from_ + UInt32.ofNat skipped)).isSome = true ∨
      from_ + UInt32.ofNat skipped = 0 := by
  induction fuel generalizing from_ skipped with
  | zero => omega
  | succ fuel ih =>
    rw [nextTagFrom] at h
    split at h
    · next htaken =>
      cases skipped with
      | zero => simpa using htaken
      | succ skipped =>
        have hrest := ih h (show skipped < fuel by omega)
        rwa [add_assoc, add_comm 1, ← UInt32.ofNat_one, ← UInt32.ofNat_add] at hrest
    · cases h

variable {state : SessionTable}

theorem nextTag_eq_some (h : state.nextTag = some tag) :
    tag ≠ 0 ∧ state.sessionTags.find tag = none :=
  nextTagFrom_eq_some h

theorem add_ofNat_injOn (from_ : SessionTag) {fuel : Nat} (hfuel : fuel ≤ UInt32.size) :
    Set.InjOn (fun skipped => from_ + UInt32.ofNat skipped) (Finset.range fuel) := by
  intro first hfirst second hsecond heq
  have hofNat := congrArg UInt32.toNat (add_left_cancel heq)
  rw [Finset.coe_range, Set.mem_Iio] at hfirst hsecond
  rwa [UInt32.toNat_ofNat_of_lt' (by omega), UInt32.toNat_ofNat_of_lt' (by omega)] at hofNat

theorem nextTag_eq_none_iff : state.nextTag = none ↔
      ¬ ∃ tag, tag ≠ 0 ∧ state.sessionTags.find tag = none := by
  constructor
  · rintro hnone ⟨tag, hzero, hfree⟩
    have htaken {skipped : Nat} := @nextTagFrom_eq_none _ _ _ hnone skipped
    by_cases hfuel : UInt32.size ≤ state.sessionTags.keys.length + 2
    · -- the loop has come to every tag
      have hvisit := @htaken (tag - state.lastTag).toNat (lt_of_lt_of_le (UInt32.toNat_lt _) hfuel)
      rw [UInt32.ofNat_toNat, add_sub_cancel] at hvisit
      simp [hfree, hzero] at hvisit
    · -- the loop has skipped more tags than there are keys, and zero
      have hskipped : (Finset.range (state.sessionTags.keys.length + 2)).image
          (fun skipped => state.lastTag + UInt32.ofNat skipped) ⊆
            (0 :: state.sessionTags.keys).toFinset := by
        intro visited hvisited
        obtain ⟨skipped, hrange, rfl⟩ := Finset.mem_image.mp hvisited
        rw [List.mem_toFinset, List.mem_cons, Table.mem_keys_iff]
        exact (htaken (Finset.mem_range.mp hrange)).symm
      have hcard := Finset.card_le_card hskipped
      rw [Finset.card_image_of_injOn (add_ofNat_injOn _ (le_of_not_ge hfuel)),
        Finset.card_range] at hcard
      have hkeys := List.toFinset_card_le (0 :: state.sessionTags.keys)
      rw [List.length_cons] at hkeys
      omega
  · intro hall
    cases hnext : state.nextTag with
    | none => rfl
    | some tag => exact absurd ⟨tag, nextTag_eq_some hnext⟩ hall

/-! ## Consistency of the two tables -/

def identity (state : SessionTable) (session : Nat) : Option (NetworkAddress × SessionTag) :=
  state.objects[session]?.map fun record => (record.remote, record.inboundTag)

def InTable (state : SessionTable) (session : Nat) : Prop :=
  ∃ remote, state.sessions.find remote = some session

def TagsExact (state : SessionTable) : Prop :=
  ∀ tag session, state.sessionTags.find tag = some session ↔
    state.InTable session ∧ (state.objects[session]?.map SessionRecord.inboundTag) = some tag

def NoStaleTag (state : SessionTable) : Prop :=
  ∀ tag session, state.sessionTags.find tag = some session → state.InTable session

structure WiredBut (state : SessionTable) (trampled : Option NetworkAddress) : Prop where
  bySession : ∀ remote session, some remote ≠ trampled → state.sessions.find remote = some session →
      ∃ tag, state.identity session = some (remote, tag) ∧ state.sessionTags.find tag = some session
  byTag : ∀ tag session, state.sessionTags.find tag = some session →
    ∃ remote, state.identity session = some (remote, tag)

abbrev Wired (state : SessionTable) : Prop :=
  state.WiredBut none

theorem wired_start : (start lastTag).Wired where
  bySession remote session _ hfind := by cases hfind
  byTag tag session hfind := by cases hfind

variable {session : Nat}

theorem identity_lt {key : NetworkAddress × SessionTag} (h : state.identity session = some key) :
    session < state.newSession := by
  obtain ⟨record, hrecord, -⟩ := Option.map_eq_some_iff.mp h
  exact (List.getElem?_eq_some_iff.mp hrecord).1

theorem identity_of_record {record : SessionRecord} (h : state.objects[session]? = some record) :
    state.identity session = some (record.remote, record.inboundTag) := by
  rw [identity, h]
  rfl

variable {remote : NetworkAddress}

theorem Wired.tag_of_identity (h : state.Wired) (hfind : state.sessions.find remote = some session)
    (hidentity : state.identity session = some (remote, tag)) :
    state.sessionTags.find tag = some session := by
  obtain ⟨other, hother, htag⟩ := h.bySession remote session nofun hfind
  rw [hidentity] at hother
  cases hother
  exact htag

theorem Wired.tagsExact_iff (h : state.Wired) : state.TagsExact ↔ state.NoStaleTag := by
  constructor
  · intro hexact tag session hfind
    exact ((hexact tag session).mp hfind).1
  · intro hstale tag session
    constructor
    · intro hfind
      obtain ⟨remote, hidentity⟩ := h.byTag tag session hfind
      obtain ⟨record, hrecord, hkey⟩ := Option.map_eq_some_iff.mp hidentity
      cases hkey
      exact ⟨hstale _ session hfind, by rw [hrecord]; rfl⟩
    · rintro ⟨⟨remote, hfind⟩, htag⟩
      obtain ⟨record, hrecord, rfl⟩ := Option.map_eq_some_iff.mp htag
      obtain ⟨tag, hidentity, hresolves⟩ := h.bySession remote session nofun hfind
      rw [identity_of_record hrecord] at hidentity
      cases hidentity
      exact hresolves

theorem Wired.find_remove_tag (h : state.Wired) (hfind : state.sessions.find remote = some session)
    (hidentity : state.identity session = some (remote, tag)) (other : SessionTag) (found : Nat) :
    (state.sessionTags.remove tag).find other = some found ↔
      state.sessionTags.find other = some found ∧ found ≠ session := by
  refine Table.find_remove_eq_some_iff (h.tag_of_identity hfind hidentity) ?_ other found
  intro other hother
  obtain ⟨_, hsame⟩ := h.byTag other session hother
  rw [hidentity] at hsame
  cases hsame
  rfl

/-! ## Registering a session -/

theorem identity_register (state : SessionTable) (remote : NetworkAddress) (tag : SessionTag)
    (isOutbound : Bool) (session : Nat) :
    (state.register remote tag isOutbound).identity session =
      if session = state.newSession then some (remote, tag) else state.identity session := by
  rcases lt_trichotomy session state.newSession with hlt | rfl | hgt
  · rw [if_neg hlt.ne, identity, identity, register, List.getElem?_append_left hlt]
  · simp [identity, register, newSession]
  · rw [if_neg hgt.ne', identity, identity, register,
      List.getElem?_eq_none (by rw [List.length_append]; exact hgt), List.getElem?_eq_none hgt.le]

theorem WiredBut.register
    (h : state.WiredBut (some remote)) (hfree : state.sessionTags.find tag = none)
    (isOutbound : Bool) : (state.register remote tag isOutbound).Wired where
  bySession other session _ hfind := by
    simp only [SessionTable.register, Table.find_insertOrAssign] at hfind ⊢
    rw [← SessionTable.register, identity_register]
    split at hfind
    · next heq =>
      cases hfind
      exact ⟨tag, by simp [heq], by simp⟩
    · next hne =>
      obtain ⟨own, hidentity, hresolves⟩ := h.bySession other session (by simpa using hne) hfind
      refine ⟨own, ?_, ?_⟩
      · rw [if_neg (identity_lt hidentity).ne, hidentity]
      · rw [if_neg, hresolves]
        rintro rfl
        simp [hfree] at hresolves
  byTag other session hfind := by
    simp only [SessionTable.register, Table.find_insertOrAssign] at hfind
    rw [identity_register]
    split at hfind
    · next heq =>
      cases hfind
      exact ⟨remote, by simp [heq]⟩
    · obtain ⟨own, hidentity⟩ := h.byTag other session hfind
      exact ⟨own, by rw [if_neg (identity_lt hidentity).ne, hidentity]⟩

theorem WiredBut.noStaleTag_register_iff (h : state.WiredBut (some remote))
    (hfree : state.sessionTags.find tag = none) (isOutbound : Bool) :
    (state.register remote tag isOutbound).NoStaleTag ↔
      ∀ other session, state.sessionTags.find other = some session →
        ∃ address, address ≠ remote ∧ state.sessions.find address = some session := by
  simp only [NoStaleTag, InTable, SessionTable.register, Table.find_insertOrAssign]
  constructor
  · intro hstale other session hfind
    have hother : other ≠ tag := by
      rintro rfl
      simp [hfree] at hfind
    obtain ⟨address, haddress⟩ := hstale other session (by rwa [if_neg hother])
    split at haddress
    · -- the new session is none of those that have a tag already
      cases haddress
      obtain ⟨own, hidentity⟩ := h.byTag other _ hfind
      exact absurd (identity_lt hidentity) (lt_irrefl _)
    · next hne => exact ⟨address, hne, haddress⟩
  · intro hkept other session hfind
    split at hfind
    · exact ⟨remote, by simpa using hfind⟩
    · obtain ⟨address, hne, haddress⟩ := hkept other session hfind
      exact ⟨address, by rwa [if_neg hne]⟩

/-! ## The steps -/

theorem Wired.but (h : state.Wired) (remote : NetworkAddress) : state.WiredBut (some remote) where
  bySession other session _ := h.bySession other session nofun
  byTag := h.byTag

theorem Wired.record_cases (h : state.Wired) (remote : NetworkAddress) :
    state.sessions.find remote = none ∨ ∃ session record,
      state.sessions.find remote = some session ∧ state.objects[session]? = some record ∧
        state.identity session = some (remote, record.inboundTag) := by
  cases hfind : state.sessions.find remote with
  | none => exact .inl rfl
  | some session =>
    obtain ⟨tag, hidentity, -⟩ := h.bySession remote session nofun hfind
    obtain ⟨record, hrecord, hkey⟩ := Option.map_eq_some_iff.mp hidentity
    cases hkey
    exact .inr ⟨session, record, rfl, hrecord, hidentity⟩

theorem Wired.find_clearTrampled (h : state.Wired) (remote : NetworkAddress)
    (tag : SessionTag) (session : Nat) :
    (state.clearTrampled remote).sessionTags.find tag = some session ↔
      state.sessionTags.find tag = some session ∧ state.sessions.find remote ≠ some session := by
  rcases h.record_cases remote with hnone | ⟨trampled, record, hfind, hrecord, hidentity⟩
  · simp [clearTrampled, hnone]
  · simp only [clearTrampled, hfind, Option.bind_some, hrecord,
      h.find_remove_tag hfind hidentity, Option.some.injEq, ne_eq, @eq_comm _ trampled]

@[simp] theorem sessions_clearTrampled (state : SessionTable) (remote : NetworkAddress) :
    (state.clearTrampled remote).sessions = state.sessions := by
  unfold clearTrampled
  split <;> rfl

@[simp] theorem identity_clearTrampled (state : SessionTable) (remote : NetworkAddress) :
    (state.clearTrampled remote).identity = state.identity := by
  unfold clearTrampled
  split <;> rfl

theorem Wired.clearTrampled (h : state.Wired) (remote : NetworkAddress) :
    (state.clearTrampled remote).WiredBut (some remote) where
  bySession other session hne hfind := by
    rw [sessions_clearTrampled] at hfind
    obtain ⟨tag, hidentity, hresolves⟩ := h.bySession other session nofun hfind
    refine ⟨tag, by rw [identity_clearTrampled, hidentity],
      (h.find_clearTrampled remote tag session).mpr ⟨hresolves, fun htrampled => ?_⟩⟩
    -- the same session under two remotes would have both as its own
    obtain ⟨_, hsame, -⟩ := h.bySession remote session nofun htrampled
    rw [hidentity] at hsame
    cases hsame
    exact hne rfl
  byTag tag session hfind := by
    rw [identity_clearTrampled]
    exact h.byTag tag session ((h.find_clearTrampled remote tag session).mp hfind).1

structure SameTables (before after : SessionTable) : Prop where
  sessions : after.sessions = before.sessions
  sessionTags : after.sessionTags = before.sessionTags
  identity : after.identity = before.identity

variable {after : SessionTable}

theorem SameTables.noStaleTag_iff (h : SameTables state after) :
    after.NoStaleTag ↔ state.NoStaleTag := by
  rw [NoStaleTag, NoStaleTag, h.sessionTags]
  simp only [InTable, h.sessions]

theorem SameTables.wired (h : SameTables state after) (hwired : state.Wired) : after.Wired where
  bySession := by
    rw [h.sessions, h.sessionTags, h.identity]
    exact hwired.bySession
  byTag := by
    rw [h.sessionTags, h.identity]
    exact hwired.byTag

theorem SameTables.trans {middle : SessionTable} (hfirst : SameTables state middle)
    (hsecond : SameTables middle after) : SameTables state after where
  sessions := hsecond.sessions.trans hfirst.sessions
  sessionTags := hsecond.sessionTags.trans hfirst.sessionTags
  identity := hsecond.identity.trans hfirst.identity

theorem sameTables_refl (state : SessionTable) : SameTables state state := ⟨rfl, rfl, rfl⟩

theorem sameTables_lastTag (state : SessionTable) (tag : SessionTag) :
    SameTables state { state with lastTag := tag } :=
  ⟨rfl, rfl, rfl⟩

theorem Wired.inboundInit (h : state.Wired) (remote : NetworkAddress) (outcome : InboundOutcome) :
    (state.inboundInit remote outcome).Wired ∧
      ((state.inboundInit remote outcome).NoStaleTag ↔ state.NoStaleTag) := by
  cases hnext : state.nextTag with
  | none => cases outcome <;> simp [SessionTable.inboundInit, hnext, h]
  | some tag =>
    cases outcome with
    | rejected => simp [SessionTable.inboundInit, h]
    | dropped =>
      have hsame := state.sameTables_lastTag tag
      simp [SessionTable.inboundInit, hnext, hsame.wired h, hsame.noStaleTag_iff]
    | accepted =>
      have hcleared := h.clearTrampled remote
      have hfree : (state.clearTrampled remote).sessionTags.find tag = none := by
        rw [Option.eq_none_iff_forall_ne_some]
        intro session hfind
        have hkept := ((h.find_clearTrampled remote tag session).mp hfind).1
        simp [(nextTag_eq_some hnext).2] at hkept
      simp only [SessionTable.inboundInit, hnext]
      refine ⟨hcleared.register hfree false, ?_⟩
      rw [hcleared.noStaleTag_register_iff hfree, sessions_clearTrampled]
      simp only [h.find_clearTrampled]
      constructor
      · intro hkept other session hfind
        by_cases htrampled : state.sessions.find remote = some session
        · exact ⟨remote, htrampled⟩
        · obtain ⟨address, -, haddress⟩ := hkept other session ⟨hfind, htrampled⟩
          exact ⟨address, haddress⟩
      · rintro hstale other session ⟨hfind, htrampled⟩
        obtain ⟨address, haddress⟩ := hstale other session hfind
        refine ⟨address, ?_, haddress⟩
        rintro rfl
        exact htrampled haddress

def Replaces (state : SessionTable) (remote : NetworkAddress) : Prop :=
  (state.sessions.find remote).isSome = true ∧ state.reusable remote = false ∧
    ∃ tag, tag ≠ 0 ∧ state.sessionTags.find tag = none

theorem Wired.noStaleTag_register_iff (h : state.Wired) (hfree : state.sessionTags.find tag = none)
    (isOutbound : Bool) :
    (state.register remote tag isOutbound).NoStaleTag ↔
      state.NoStaleTag ∧ state.sessions.find remote = none := by
  rw [(h.but remote).noStaleTag_register_iff hfree]
  constructor
  · intro hkept
    refine ⟨fun other session hfind => ?_, ?_⟩
    · obtain ⟨address, -, haddress⟩ := hkept other session hfind
      exact ⟨address, haddress⟩
    · rw [Option.eq_none_iff_forall_ne_some]
      intro session hfind
      obtain ⟨own, hidentity, hresolves⟩ := h.bySession remote session nofun hfind
      obtain ⟨address, hne, haddress⟩ := hkept own session hresolves
      obtain ⟨_, hsame, -⟩ := h.bySession address session nofun haddress
      rw [hidentity] at hsame
      cases hsame
      exact hne rfl
  · rintro ⟨hstale, hnone⟩ other session hfind
    obtain ⟨address, haddress⟩ := hstale other session hfind
    refine ⟨address, ?_, haddress⟩
    rintro rfl
    simp [hnone] at haddress

theorem Wired.initiateRemoteSession (h : state.Wired) (remote : NetworkAddress)
    (outcome : OutboundOutcome) :
    (state.initiateRemoteSession remote outcome).Wired ∧
      ((state.initiateRemoteSession remote outcome).NoStaleTag ↔
        state.NoStaleTag ∧ (outcome = .made → ¬ state.Replaces remote)) := by
  unfold SessionTable.initiateRemoteSession Replaces
  cases hreuse : state.reusable remote with
  | true => simp [h]
  | false =>
    cases hnext : state.nextTag with
    | none => simp [h, nextTag_eq_none_iff.mp hnext]
    | some tag =>
      have hfree := nextTag_eq_some hnext
      have hsame := state.sameTables_lastTag tag
      cases outcome with
      | threw | unreachable => simp [hsame.wired h, hsame.noStaleTag_iff]
      | made =>
        have hexists : ∃ tag, tag ≠ 0 ∧ state.sessionTags.find tag = none := ⟨tag, hfree⟩
        simpa [hexists, h.noStaleTag_register_iff hfree.2] using
          (h.but remote).register hfree.2 true

/-! ### Closing -/

theorem identity_modify (state : SessionTable) (session : Nat)
    {change : SessionRecord → SessionRecord}
    (hremote : ∀ record, (change record).remote = record.remote)
    (htag : ∀ record, (change record).inboundTag = record.inboundTag) :
    { state with objects := state.objects.modify session change }.identity = state.identity := by
  funext other
  simp only [identity, List.getElem?_modify]
  split
  · simp [Option.map_map, Function.comp_def, hremote, htag]
  · simp

theorem sameTables_closeSession (state : SessionTable) (session : Nat) :
    SameTables state (state.closeSession session) := by
  unfold closeSession
  split
  · exact ⟨rfl, rfl, state.identity_modify session (fun _ => rfl) fun _ => rfl⟩
  · exact state.sameTables_refl

theorem sameTables_closeFound (state : SessionTable) (found : Option Nat) :
    SameTables state (state.closeFound found) := by
  cases found with
  | none => exact state.sameTables_refl
  | some session => exact state.sameTables_closeSession session

theorem sameTables_closeWhen (condition : SessionRecord → Bool) (state : SessionTable)
    (session : Nat) : SameTables state (state.closeWhen condition session) := by
  unfold closeWhen
  split
  · split
    · exact state.sameTables_closeFound _
    · exact state.sameTables_refl
  · exact state.sameTables_refl

theorem sameTables_tickSession (isExpired : Nat → Bool) (state : SessionTable)
    (session : Nat) : SameTables state (state.tickSession isExpired session) :=
  (state.sameTables_closeWhen (fun _ => isExpired session) session).trans
    (sameTables_closeWhen _ _ session)

theorem sameTables_tick (state : SessionTable) (isExpired : Nat → Bool) :
    SameTables state (state.tick isExpired) := by
  suffices ∀ (ticked : List Nat) (state : SessionTable),
      SameTables state (ticked.foldl (tickSession isExpired) state) from this _ state
  intro ticked
  induction ticked with
  | nil => exact sameTables_refl
  | cons session ticked ih =>
    intro state
    exact (sameTables_tickSession isExpired state session).trans (ih _)

theorem sameTables_markUnreachable (state : SessionTable) (session : Nat) :
    SameTables state (state.markUnreachable session) :=
  ⟨rfl, rfl, state.identity_modify session (fun _ => rfl) fun _ => rfl⟩

/-! ### The deferred removal -/

/-- A removal takes a session out of both tables. -/
structure Removed (before after : SessionTable) (session : Nat) : Prop where
  inTable : before.InTable session
  identity : after.identity = before.identity
  find_sessions : ∀ remote found, after.sessions.find remote = some found ↔
    before.sessions.find remote = some found ∧ found ≠ session
  find_sessionTags : ∀ tag found, after.sessionTags.find tag = some found ↔
    before.sessionTags.find tag = some found ∧ found ≠ session

theorem Removed.wired (h : Removed state after session) (hwired : state.Wired) : after.Wired where
  bySession remote found _ hfind := by
    obtain ⟨hbefore, hne⟩ := (h.find_sessions remote found).mp hfind
    obtain ⟨tag, hidentity, hresolves⟩ := hwired.bySession remote found nofun hbefore
    rw [h.identity]
    exact ⟨tag, hidentity, (h.find_sessionTags tag found).mpr ⟨hresolves, hne⟩⟩
  byTag tag found hfind := by
    rw [h.identity]
    exact hwired.byTag tag found ((h.find_sessionTags tag found).mp hfind).1

theorem Removed.noStaleTag_iff (h : Removed state after session) :
    after.NoStaleTag ↔ state.NoStaleTag := by
  simp only [NoStaleTag, InTable, h.find_sessions, h.find_sessionTags]
  constructor
  · intro hstale tag found hfind
    by_cases heq : found = session
    · exact heq ▸ h.inTable
    · obtain ⟨remote, hremote, -⟩ := hstale tag found ⟨hfind, heq⟩
      exact ⟨remote, hremote⟩
  · rintro hstale tag found ⟨hfind, hne⟩
    obtain ⟨remote, hremote⟩ := hstale tag found hfind
    exact ⟨remote, hremote, hne⟩

theorem Wired.removeClosed_cases (h : state.Wired) (session : Nat) :
    state.removeClosed session = state ∨ Removed state (state.removeClosed session) session := by
  unfold removeClosed
  split
  · exact .inl rfl
  · next record hrecord =>
    split
    · next hfind =>
      have hidentity := identity_of_record hrecord
      refine .inr ⟨⟨_, hfind⟩, rfl, Table.find_remove_eq_some_iff hfind ?_,
        h.find_remove_tag hfind hidentity⟩
      intro remote hother
      obtain ⟨_, hsame, -⟩ := h.bySession remote session (Option.some_ne_none remote) hother
      rw [hidentity] at hsame
      cases hsame
      rfl
    · exact .inl rfl

theorem Wired.runJob (h : state.Wired) :
    state.runJob.Wired ∧ (state.runJob.NoStaleTag ↔ state.NoStaleTag) := by
  unfold SessionTable.runJob
  split
  · exact ⟨h, Iff.rfl⟩
  · next session jobs hjobs =>
    have hqueue (after : SessionTable) : SameTables after { after with jobs := jobs } :=
      ⟨rfl, rfl, rfl⟩
    rw [(hqueue _).noStaleTag_iff]
    rcases h.removeClosed_cases session with hsame | hremoved
    · rw [hsame]
      exact ⟨(hqueue _).wired h, Iff.rfl⟩
    · exact ⟨(hqueue _).wired (hremoved.wired h), hremoved.noStaleTag_iff⟩

/-! ## Runs -/

def LeavesEntry (state : SessionTable) (action : SessionAction) : Prop :=
  ∀ remote, action = .initiateRemoteSession remote .made → ¬ state.Replaces remote

theorem Wired.step (h : state.Wired) (action : SessionAction) : (state.step action).Wired ∧
      ((state.step action).NoStaleTag ↔ state.NoStaleTag ∧ state.LeavesEntry action) := by
  have hsame {after : SessionTable} (hafter : SameTables state after) :
      after.Wired ∧ (after.NoStaleTag ↔ state.NoStaleTag) :=
    ⟨hafter.wired h, hafter.noStaleTag_iff⟩
  cases action with
  | inboundInit remote outcome =>
    simpa [SessionTable.step, LeavesEntry] using h.inboundInit remote outcome
  | initiateRemoteSession remote outcome =>
    have hinitiate := h.initiateRemoteSession remote outcome
    refine ⟨hinitiate.1, hinitiate.2.trans (and_congr_right' ?_)⟩
    simp [LeavesEntry]
  | closeSession session =>
    simpa [SessionTable.step, LeavesEntry] using hsame (state.sameTables_closeSession session)
  | closeSessionByRemote remote =>
    simpa [SessionTable.step, closeSessionByRemote, LeavesEntry] using
      hsame (state.sameTables_closeFound _)
  | closeSessionByTag tag =>
    simpa [SessionTable.step, closeSessionByTag, LeavesEntry] using
      hsame (state.sameTables_closeFound _)
  | tick isExpired =>
    simpa [SessionTable.step, LeavesEntry] using hsame (state.sameTables_tick isExpired)
  | markUnreachable session =>
    simpa [SessionTable.step, LeavesEntry] using hsame (state.sameTables_markUnreachable session)
  | job => simpa [SessionTable.step, LeavesEntry] using h.runJob

theorem wired_step (state : SessionTable) (action : SessionAction) (h : state.Wired) :
    (state.step action).Wired :=
  (Wired.step h action).1

theorem wired_run : (Run.run step (start lastTag) actions).Wired :=
  Run.run_invariant_of_step step wired_step actions (wired_start lastTag)

theorem tagsExact_run_iff : (Run.run step (start lastTag) actions).TagsExact ↔
      Run.Meets step LeavesEntry (start lastTag) actions := by
  have hstart : (start lastTag).NoStaleTag := fun tag session hfind => by cases hfind
  rw [(wired_run lastTag actions).tagsExact_iff, Run.run_iff_meets step LeavesEntry wired_step
      (fun _ action h => (Wired.step h action).2) actions (wired_start lastTag)]
  exact and_iff_right hstart

theorem jobs_runJob (state : SessionTable) : state.runJob.jobs = state.jobs.tail := by
  unfold runJob
  split
  · next hjobs => simp [hjobs]
  · next hjobs => simp [hjobs]

theorem jobs_run_replicate (state : SessionTable) (count : Nat) :
    (Run.run step state (List.replicate count .job)).jobs = state.jobs.drop count := by
  induction count generalizing state with
  | zero => simp
  | succ count ih => rw [List.replicate_succ, Run.run_cons, ih, step, jobs_runJob, List.drop_tail]

theorem meets_replicate_job (state : SessionTable) (count : Nat) :
    Run.Meets step LeavesEntry state (List.replicate count .job) := by
  induction count generalizing state with
  | zero => trivial
  | succ count ih => exact ⟨nofun, ih _⟩

/-- Whenever no deferred removal is pending, in the course of a run or after the jobs left in
the queue have run, the tag table is exactly the map from the tags of the sessions in the
session table: exactly if `initiate_remote_session` never registers a session to a remote that
still has one in the table. -/
theorem sessionTags_exact_iff (lastTag : SessionTag) (actions : List SessionAction) :
    (∀ front back jobs, actions = front ++ back →
      (Run.run step (start lastTag) (front ++ List.replicate jobs .job)).jobs = [] →
        (Run.run step (start lastTag) (front ++ List.replicate jobs .job)).TagsExact) ↔
      Run.Meets step LeavesEntry (start lastTag) actions := by
  simp only [tagsExact_run_iff, Run.meets_append, meets_replicate_job, and_true]
  constructor
  · intro hall
    refine hall actions [] (Run.run step (start lastTag) actions).jobs.length (by simp) ?_
    rw [Run.run_append, jobs_run_replicate, List.drop_length]
  · rintro hmeets front back jobs rfl -
    exact ((Run.meets_append step LeavesEntry _ front back).mp hmeets).1

def someRelay : NetworkAddress :=
  ⟨FixedBytes.filled 32 0x52, false⟩

def replacedSession : SessionTable :=
  Run.run step (start 1) [.initiateRemoteSession someRelay .made, .closeSession 0,
      .initiateRemoteSession someRelay .made, .job]

theorem replacedSession_keeps_tag :
    replacedSession.jobs = [] ∧ replacedSession.sessions.find someRelay = some 1 ∧
      replacedSession.sessionTags.find 1 = some 0 ∧ ¬ replacedSession.TagsExact := by
  have htag : replacedSession.sessionTags.find 1 = some 0 := by decide +kernel
  have hsession : replacedSession.sessions.find someRelay = some 1 := by decide +kernel
  refine ⟨by decide +kernel, hsession, htag, fun hexact => ?_⟩
  obtain ⟨⟨remote, hfind⟩, -⟩ := (hexact 1 0).mp htag
  obtain ⟨tag, hidentity, -⟩ := (wired_run 1 _).bySession remote 0 nofun hfind
  have hremote : replacedSession.identity 0 = some (someRelay, 1) := by decide +kernel
  rw [show replacedSession.identity 0 = some (remote, tag) from hidentity] at hremote
  cases hremote
  rw [show replacedSession.sessions.find someRelay = some 0 from hfind] at hsession
  cases hsession

end SessionTable
end SessionRouter

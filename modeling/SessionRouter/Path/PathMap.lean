import SessionRouter.Path.DroppedPaths

/-!
# The path map and the handlers' sets
-/

namespace SessionRouter

open Lib

structure ClientPaths where
  handlers : PathHandlers
  closing : List Nat

inductive ClientAction where
  | path (action : PathAction)
  | stop (handler : Nat)
  | closeSession (handler : Nat)
  | runJobs

namespace PathHandlers

def stop (state : PathHandlers) (handler : Nat) : PathHandlers :=
  { state with paths := Function.update state.paths handler ∅ }

def isEstablished (state : PathHandlers) (path : Path) : Bool :=
  (state.records[path.pathLogId]?.map PathRecord.established).getD false

end PathHandlers

namespace ClientPaths

def start (routerId : RouterID) : ClientPaths :=
  ⟨PathHandlers.start routerId, []⟩

def step (state : ClientPaths) : ClientAction → ClientPaths
  | .path action => { state with handlers := state.handlers.step action }
  | .stop handler => { state with handlers := state.handlers.stop handler }
  | .closeSession handler => { state with closing := handler :: state.closing }
  | .runJobs =>
    ⟨Run.run PathHandlers.step state.handlers (state.closing.map PathAction.destroy), []⟩

end ClientPaths

namespace PathHandlers

structure HoldsEstablished (state : PathHandlers) (handler : Nat) (id : HopID) (path : Path) :
    Prop where
  alive : state.alive handler = true
  held : (state.paths handler).find id = some path
  established : state.isEstablished path = true

def MapIsUnion (state : PathHandlers) : Prop :=
  ∀ id path, state.ctx.getPath id = some path ↔ ∃ handler, state.HoldsEstablished handler id path

structure Keyed (state : PathHandlers) : Prop where
  ownId : ∀ id path handler, state.owner id = some (path, handler) → path.pathLogId = id
  held : ∀ handler key path, (state.paths handler).find key = some path →
    path.edge.rxid = key ∧ state.owner path.pathLogId = some (path, handler)
  unanswered : ∀ id ∈ state.pending, ∀ record, state.records[id]? = some record →
    record.established = false

variable {state : PathHandlers}

variable {id : Nat} {record : PathRecord} (routerId : RouterID) {after : PathHandlers}
  {handler : Nat} {request : BuildRequest}

theorem keyed_start : (start routerId).Keyed where
  ownId id path handler howner := by cases howner
  held handler key path hfind := by cases hfind
  unanswered id hmem := by cases hmem

theorem mapIsUnion_start : (start routerId).MapIsUnion := by
  intro id path
  constructor
  · intro hfind
    cases hfind
  · rintro ⟨handler, hheld⟩
    cases hheld.held

theorem Keyed.handler_unique (h : state.Keyed) {handler other : Nat} {id : HopID} {path : Path}
    (hhere : state.HoldsEstablished handler id path)
    (hthere : state.HoldsEstablished other id path) : handler = other := by
  have hfirst := (h.held handler id path hhere.held).2
  rw [(h.held other id path hthere.held).2] at hfirst
  cases hfirst
  rfl

/-! ## Erasing entries -/

def OnlyHolder (state : PathHandlers) (handler : Nat) (key : HopID) : Prop :=
  ∀ other path, state.HoldsEstablished other key path → other = handler

structure ErasedFrom (before after : PathHandlers) (handler : Nat) (dropped : HopID → Prop) :
    Prop where
  alive : after.alive = before.alive
  records : after.records = before.records
  pending : after.pending = before.pending
  find_iff : ∀ other id path, (after.paths other).find id = some path ↔
    (before.paths other).find id = some path ∧ ¬ (other = handler ∧ dropped id)
  getPath_iff : ∀ id path, after.ctx.getPath id = some path ↔
    before.ctx.getPath id = some path ∧ ¬ dropped id

theorem erasedFrom_refl (state : PathHandlers) (handler : Nat) :
    ErasedFrom state state handler fun _ => False where
  alive := rfl
  records := rfl
  pending := rfl
  find_iff other id path := by simp
  getPath_iff id path := by simp

theorem erasedFrom_erase (state : PathHandlers) (handler : Nat) (path : Path) :
    ErasedFrom state (state.erase handler path.edge.rxid path) handler
      fun id => id = path.edge.rxid where
  alive := rfl
  records := rfl
  pending := rfl
  find_iff other id found := by
    rw [find_paths_erase]
    split
    · next herased => simp [herased]
    · next hkept => simp [hkept]
  getPath_iff id found := by
    rw [getPath_erase]
    split
    · next herased => simp [herased]
    · next hkept => simp [hkept]

theorem ErasedFrom.trans {first second third : PathHandlers} {handler : Nat}
    {dropped later : HopID → Prop} (h : ErasedFrom first second handler dropped)
    (hlater : ErasedFrom second third handler later) :
    ErasedFrom first third handler fun id => dropped id ∨ later id where
  alive := hlater.alive.trans h.alive
  records := hlater.records.trans h.records
  pending := hlater.pending.trans h.pending
  find_iff other id path := by
    rw [hlater.find_iff, h.find_iff]
    tauto
  getPath_iff id path := by
    rw [hlater.getPath_iff, h.getPath_iff]
    tauto

theorem ErasedFrom.congr {before after : PathHandlers} {handler : Nat}
    {dropped dropped' : HopID → Prop} (h : ErasedFrom before after handler dropped)
    (hsame : ∀ id, dropped id ↔ dropped' id) : ErasedFrom before after handler dropped' := by
  obtain rfl : dropped = dropped' := funext fun id => propext (hsame id)
  exact h

theorem erasedFrom_foldl (handler : Nat) (drop : Path → Bool)
    (entries : List (Sigma fun _ : HopID => Path))
    (hkeys : ∀ entry ∈ entries, entry.2.edge.rxid = entry.1) (state : PathHandlers) :
    ErasedFrom state
      (entries.foldl (fun state entry =>
        if drop entry.2 then state.erase handler entry.1 entry.2 else state) state)
      handler fun id => ∃ entry ∈ entries, drop entry.2 = true ∧ entry.1 = id := by
  induction entries generalizing state with
  | nil => exact (erasedFrom_refl state handler).congr fun id => by simp
  | cons entry entries ih =>
    have ih := ih fun other hmem => hkeys other (List.mem_cons_of_mem _ hmem)
    rw [List.foldl_cons]
    split
    · next hdrop =>
      rw [← hkeys entry List.mem_cons_self]
      refine ((erasedFrom_erase state handler entry.2).trans (ih _)).congr fun id => ?_
      rw [hkeys entry List.mem_cons_self]
      simp [hdrop, @eq_comm _ id entry.1]
    · next hkeep =>
      refine (ih state).congr fun id => ?_
      simp [hkeep]

theorem Keyed.erasedFrom_eraseIf (h : state.Keyed) (handler : Nat) (drop : Path → Bool) :
    ErasedFrom state (state.eraseIf handler drop) handler
      fun id => ∃ path, (state.paths handler).find id = some path ∧ drop path = true := by
  have hkeys : ∀ entry ∈ (state.paths handler).entries, entry.2.edge.rxid = entry.1 := by
    rintro ⟨key, path⟩ hmem
    exact (h.held handler key path (Table.find_eq_some_iff.mpr hmem)).1
  refine (erasedFrom_foldl handler drop _ hkeys state).congr fun id => ?_
  constructor
  · rintro ⟨⟨key, path⟩, hmem, hdrop, rfl⟩
    exact ⟨path, Table.find_eq_some_iff.mpr hmem, hdrop⟩
  · rintro ⟨path, hfind, hdrop⟩
    exact ⟨⟨id, path⟩, Table.find_eq_some_iff.mp hfind, hdrop, rfl⟩

theorem ErasedFrom.holdsEstablished_iff {before after : PathHandlers} {handler : Nat}
    {dropped : HopID → Prop} (h : ErasedFrom before after handler dropped) {other : Nat}
    {id : HopID} {path : Path} :
    after.HoldsEstablished other id path ↔
      before.HoldsEstablished other id path ∧ ¬ (other = handler ∧ dropped id) := by
  constructor
  · rintro ⟨halive, hfind, hestablished⟩
    obtain ⟨hbefore, hnot⟩ := (h.find_iff other id path).mp hfind
    refine ⟨⟨h.alive ▸ halive, hbefore, ?_⟩, hnot⟩
    rwa [isEstablished, h.records] at hestablished
  · rintro ⟨⟨halive, hfind, hestablished⟩, hnot⟩
    refine ⟨h.alive ▸ halive, (h.find_iff other id path).mpr ⟨hfind, hnot⟩, ?_⟩
    rwa [isEstablished, h.records]

theorem Keyed.of_erasedFrom {dropped : HopID → Prop}
    (h : state.Keyed) (herased : ErasedFrom state after handler dropped) : after.Keyed where
  ownId id path other howner := by
    rw [owner, herased.records] at howner
    exact h.ownId id path other howner
  held other key path hfind := by
    rw [owner, herased.records]
    exact h.held other key path ((herased.find_iff other key path).mp hfind).1
  unanswered id hmem record hrecord := by
    rw [herased.pending] at hmem
    rw [herased.records] at hrecord
    exact h.unanswered id hmem record hrecord

theorem MapIsUnion.erasedFrom_iff {dropped : HopID → Prop} (h : state.MapIsUnion)
    (herased : ErasedFrom state after handler dropped) :
    after.MapIsUnion ↔ ∀ id, dropped id → state.OnlyHolder handler id := by
  constructor
  · intro hafter id hdropped other path hholds
    by_contra hother
    have hstill : after.HoldsEstablished other id path :=
      herased.holdsEstablished_iff.mpr ⟨hholds, fun hsame => hother hsame.1⟩
    have hmapped := (hafter id path).mpr ⟨other, hstill⟩
    exact ((herased.getPath_iff id path).mp hmapped).2 hdropped
  · intro honly id path
    rw [herased.getPath_iff, h id path]
    constructor
    · rintro ⟨⟨other, hholds⟩, hkept⟩
      exact ⟨other, herased.holdsEstablished_iff.mpr ⟨hholds, fun hsame => hkept hsame.2⟩⟩
    · rintro ⟨other, hholds⟩
      obtain ⟨hholds, hnot⟩ := herased.holdsEstablished_iff.mp hholds
      exact ⟨⟨other, hholds⟩, fun hdropped => hnot ⟨honly id hdropped other path hholds, hdropped⟩⟩

/-! ## Building -/

def enteringPath (state : PathHandlers) (handler : Nat) (request : BuildRequest) : Option Path :=
  match request.contacts with
  | [] => none
  | edge :: others =>
    let path := state.newPath request.ids edge others
    if canBuild request && ((state.paths handler).find path.edge.rxid).isNone then some path
    else none

def withRecord (state : PathHandlers) (handler : Nat) (path : Path) (expiry : Int) :
    PathHandlers :=
  { state with records := state.records ++ [⟨path, handler, expiry, false⟩] }

def withEntering (state : PathHandlers) (handler : Nat) (path : Path) (expiry : Int) :
    PathHandlers :=
  { state.withRecord handler path expiry with
    paths := Function.update state.paths handler
      ((state.paths handler).emplace path.edge.rxid path) }

theorem build_of_enteringPath_none (h : state.enteringPath handler request = none) :
    state.build handler request = state ∨
      ∃ path, path.pathLogId = state.records.length ∧
        state.build handler request = state.withRecord handler path request.expiry := by
  unfold enteringPath at h
  unfold build
  cases hcontacts : request.contacts with
  | nil => exact Or.inl rfl
  | cons edge others =>
    rw [hcontacts] at h
    dsimp only at h ⊢
    cases hcan : canBuild request with
    | false => exact Or.inl rfl
    | true =>
      refine Or.inr ⟨state.newPath request.ids edge others, rfl, ?_⟩
      rw [if_neg (by simp), if_pos]
      · rfl
      · simpa [hcan, Option.isSome_iff_ne_none] using h

theorem build_of_enteringPath_some {path : Path}
    (h : state.enteringPath handler request = some path) :
    path.pathLogId = state.records.length ∧ (state.paths handler).find path.edge.rxid = none ∧
      state.build handler request =
        (state.withEntering handler path request.expiry).sendPathBuild handler path
          request.result := by
  unfold enteringPath at h
  unfold build
  cases hcontacts : request.contacts with
  | nil =>
    rw [hcontacts] at h
    cases h
  | cons edge others =>
    rw [hcontacts] at h
    dsimp only at h ⊢
    split at h
    · next hcan =>
      cases h
      simp only [Bool.and_eq_true, Option.isNone_iff_eq_none] at hcan
      refine ⟨rfl, hcan.2, ?_⟩
      rw [if_neg (by simp [hcan.1]), if_neg (by simp [hcan.2])]
      rfl
    · cases h

theorem isEstablished_withRecord {handler other : Nat} {path found : Path}
    {expiry : Int} (howner : state.owner found.pathLogId = some (found, other)) :
    (state.withRecord handler path expiry).isEstablished found = state.isEstablished found := by
  unfold isEstablished withRecord
  rw [List.getElem?_append_left (owner_isSome_lt howner)]

theorem find_withEntering {path : Path}
    (hfree : (state.paths handler).find path.edge.rxid = none) (expiry : Int) (other : Nat)
    (id : HopID) :
    ((state.withEntering handler path expiry).paths other).find id =
      if other = handler ∧ id = path.edge.rxid then some path
      else (state.paths other).find id := by
  unfold withEntering
  by_cases hother : other = handler
  · subst hother
    simp [Table.find_emplace, hfree]
  · simp [hother]

theorem Keyed.withRecord (h : state.Keyed) {handler : Nat} {path : Path}
    (hid : path.pathLogId = state.records.length) (expiry : Int) :
    (state.withRecord handler path expiry).Keyed where
  ownId id found other howner := by
    by_cases hlast : id = state.records.length
    · subst hlast
      rw [PathHandlers.withRecord, owner_append_length] at howner
      cases howner
      exact hid
    · have hlt := owner_isSome_lt howner
      simp only [PathHandlers.withRecord, List.length_append, List.length_singleton] at hlt
      rw [PathHandlers.withRecord, owner_append_of_lt (by omega)] at howner
      exact h.ownId id found other howner
  held other key found hfind := by
    obtain ⟨hrxid, howner⟩ := h.held other key found hfind
    exact ⟨hrxid, (owner_append_of_lt (owner_isSome_lt howner) _).trans howner⟩
  unanswered id hmem record hrecord := by
    simp only [PathHandlers.withRecord, List.getElem?_append] at hrecord
    split at hrecord
    · exact h.unanswered id hmem record hrecord
    · obtain rfl := List.mem_singleton.mp (List.mem_of_getElem? hrecord)
      rfl

theorem Keyed.withEntering (h : state.Keyed) {handler : Nat} {path : Path}
    (hid : path.pathLogId = state.records.length)
    (hfree : (state.paths handler).find path.edge.rxid = none) (expiry : Int) :
    (state.withEntering handler path expiry).Keyed where
  ownId := (h.withRecord hid expiry).ownId
  held other key found hfind := by
    rw [find_withEntering hfree] at hfind
    split at hfind
    · next hhere =>
      cases hfind
      refine ⟨hhere.2.symm, ?_⟩
      rw [hid, hhere.1]
      exact owner_append_length state _
    · exact (h.withRecord hid expiry).held other key found hfind
  unanswered := (h.withRecord hid expiry).unanswered

theorem holdsEstablished_congr (halive : after.alive = state.alive)
    (hpaths : after.paths = state.paths)
    (hestablished : ∀ path, after.isEstablished path = state.isEstablished path) (handler : Nat)
    (id : HopID) (path : Path) :
    after.HoldsEstablished handler id path ↔ state.HoldsEstablished handler id path := by
  constructor
  · rintro ⟨hexists, hheld, hdone⟩
    exact ⟨halive ▸ hexists, hpaths ▸ hheld, hestablished path ▸ hdone⟩
  · rintro ⟨hexists, hheld, hdone⟩
    exact ⟨halive ▸ hexists, hpaths ▸ hheld, (hestablished path).trans hdone⟩

theorem MapIsUnion.of_same (h : state.MapIsUnion)
    (hctx : after.ctx = state.ctx)
    (hholds : ∀ handler id path,
      after.HoldsEstablished handler id path ↔ state.HoldsEstablished handler id path) :
    after.MapIsUnion := by
  intro id path
  simp only [hctx, hholds]
  exact h id path

theorem holdsEstablished_withRecord_iff (h : state.Keyed) {handler : Nat} {path : Path}
    {expiry : Int} {other : Nat} {id : HopID} {found : Path} :
    (state.withRecord handler path expiry).HoldsEstablished other id found ↔
      state.HoldsEstablished other id found := by
  constructor
  · rintro ⟨halive, hfind, hestablished⟩
    have howner := (h.held other id found hfind).2
    exact ⟨halive, hfind, by rwa [isEstablished_withRecord howner] at hestablished⟩
  · rintro ⟨halive, hfind, hestablished⟩
    have howner := (h.held other id found hfind).2
    exact ⟨halive, hfind, by rwa [isEstablished_withRecord howner]⟩

theorem holdsEstablished_withEntering_iff (h : state.Keyed) {handler : Nat} {path : Path}
    (hid : path.pathLogId = state.records.length)
    (hfree : (state.paths handler).find path.edge.rxid = none) {expiry : Int} {other : Nat}
    {id : HopID} {found : Path} :
    (state.withEntering handler path expiry).HoldsEstablished other id found ↔
      state.HoldsEstablished other id found := by
  rw [← holdsEstablished_withRecord_iff h]
  constructor
  · rintro ⟨halive, hfind, hestablished⟩
    refine ⟨halive, ?_, hestablished⟩
    rw [find_withEntering hfree] at hfind
    split at hfind
    · cases hfind
      simp [isEstablished, PathHandlers.withEntering, PathHandlers.withRecord, hid] at hestablished
    · exact hfind
  · rintro ⟨halive, hfind, hestablished⟩
    refine ⟨halive, ?_, hestablished⟩
    rw [find_withEntering hfree, if_neg]
    · exact hfind
    · rintro ⟨rfl, rfl⟩
      exact absurd (hfree.symm.trans hfind) (by simp)

theorem Keyed.build (h : state.Keyed) (handler : Nat) (request : BuildRequest) :
    (state.build handler request).Keyed := by
  cases hentering : state.enteringPath handler request with
  | none =>
    rcases build_of_enteringPath_none hentering with hsame | ⟨path, hid, hmade⟩
    · rw [hsame]
      exact h
    · rw [hmade]
      exact h.withRecord hid request.expiry
  | some path =>
    obtain ⟨hid, hfree, hbuild⟩ := build_of_enteringPath_some hentering
    have hentered := h.withEntering hid hfree request.expiry
    rw [hbuild]
    cases request.result with
    | notSent => exact hentered.of_erasedFrom (erasedFrom_erase _ handler path)
    | threw => exact hentered
    | sent =>
      refine ⟨hentered.ownId, hentered.held, ?_⟩
      intro id hmem record hrecord
      rcases List.mem_cons.mp hmem with rfl | hpending
      · simp only [sendPathBuild, PathHandlers.withEntering, PathHandlers.withRecord,
          hid] at hrecord
        rw [List.getElem?_append_right (Nat.le_refl _), Nat.sub_self] at hrecord
        cases hrecord
        rfl
      · exact hentered.unanswered id hpending record hrecord

theorem MapIsUnion.build_iff (h : state.MapIsUnion) (hkeyed : state.Keyed) (handler : Nat)
    (request : BuildRequest) :
    (state.build handler request).MapIsUnion ↔
      (request.result = .notSent → ∀ path, state.enteringPath handler request = some path →
        state.OnlyHolder handler path.edge.rxid) := by
  cases hentering : state.enteringPath handler request with
  | none =>
    refine ⟨fun _ _ path hpath => (by cases hpath), fun _ => ?_⟩
    rcases build_of_enteringPath_none hentering with hsame | ⟨path, hid, hmade⟩
    · rw [hsame]
      exact h
    · rw [hmade]
      exact h.of_same rfl fun _ _ _ => holdsEstablished_withRecord_iff hkeyed
  | some path =>
    obtain ⟨hid, hfree, hbuild⟩ := build_of_enteringPath_some hentering
    have hholds (other : Nat) (id : HopID) (found : Path) :
        (state.withEntering handler path request.expiry).HoldsEstablished other id found ↔
          state.HoldsEstablished other id found :=
      holdsEstablished_withEntering_iff hkeyed hid hfree
    have hentered : (state.withEntering handler path request.expiry).MapIsUnion :=
      h.of_same rfl hholds
    rw [hbuild]
    cases request.result with
    | sent => exact ⟨fun _ hresult => (by cases hresult), fun _ => hentered.of_same rfl
        (holdsEstablished_congr rfl rfl fun _ => rfl)⟩
    | threw => exact ⟨fun _ hresult => (by cases hresult), fun _ => hentered⟩
    | notSent =>
      refine (hentered.erasedFrom_iff (erasedFrom_erase _ handler path)).trans ?_
      simp [OnlyHolder, hholds]

/-! ## Answers -/

def awaiting (state : PathHandlers) (id : Nat) : Option PathRecord :=
  state.records[id]?.filter fun record => id ∈ state.pending && state.alive record.handler

def called (state : PathHandlers) (id : Nat) : PathHandlers :=
  { state with pending := state.pending.filter (· ≠ id) }

theorem receiveReply_of_awaiting_none (h : state.awaiting id = none)
    (reply : Message) :
    state.receiveReply id reply = state ∨ state.receiveReply id reply = state.called id := by
  unfold receiveReply
  split
  · exact Or.inl rfl
  · next record hrecord =>
    split
    · next hpending =>
      have hdead : state.alive record.handler = false := by
        simpa [awaiting, hrecord, hpending] using h
      simp only [hdead, Bool.not_false, if_true]
      exact Or.inr rfl
    · exact Or.inl rfl

theorem receiveReply_of_awaiting_some (h : state.awaiting id = some record) (reply : Message) :
    state.receiveReply id reply =
      if reply.succeeded then (state.called id).pathBuildSucceeded record
      else (state.called id).pathBuildFailed record := by
  obtain ⟨hrecord, hwaits⟩ := Option.filter_eq_some_iff.mp h
  simp only [Bool.and_eq_true, decide_eq_true_eq] at hwaits
  rw [receiveReply, hrecord]
  simp only [hwaits.1, hwaits.2, if_true, Bool.not_true, Bool.false_eq_true, if_false]
  cases reply with
  | none => rfl
  | some reply =>
    have hsucceeded : Message.succeeded (some reply) = !reply.isError := rfl
    cases herror : reply.isError with
    | true | false => simp [hsucceeded, herror, called]

theorem Keyed.called (h : state.Keyed) (id : Nat) : (state.called id).Keyed where
  ownId := h.ownId
  held := h.held
  unanswered other hmem := h.unanswered other (List.mem_of_mem_filter hmem)

theorem holdsEstablished_called_iff (id handler : Nat) (key : HopID) (path : Path) :
    (state.called id).HoldsEstablished handler key path ↔
      state.HoldsEstablished handler key path :=
  holdsEstablished_congr (show (state.called id).alive = state.alive from rfl) rfl (fun _ => rfl)
    handler key path

theorem MapIsUnion.called (h : state.MapIsUnion) (id : Nat) : (state.called id).MapIsUnion :=
  h.of_same rfl (holdsEstablished_called_iff id)

theorem owner_of_awaiting (h : state.awaiting id = some record) :
    state.owner id = some (record.path, record.handler) := by
  rw [owner, (Option.filter_eq_some_iff.mp h).1]
  rfl

theorem isEstablished_pathBuildSucceeded (state : PathHandlers) (record : PathRecord)
    (path : Path) :
    (state.pathBuildSucceeded record).isEstablished path =
      if path.pathLogId = record.path.pathLogId then
        decide (path.pathLogId < state.records.length)
      else state.isEstablished path := by
  simp only [isEstablished, pathBuildSucceeded, addPath, List.getElem?_modify]
  by_cases hsame : path.pathLogId = record.path.pathLogId
  · by_cases hlt : record.path.pathLogId < state.records.length
    · simp [hsame, hlt]
    · simp [hsame, hlt]
  · simp [hsame, Ne.symm hsame]

theorem owner_pathBuildSucceeded (state : PathHandlers) (record : PathRecord) (id : Nat) :
    (state.pathBuildSucceeded record).owner id = state.owner id :=
  owner_modify state record.path.pathLogId id fun _ => ⟨rfl, rfl⟩

theorem find_paths_pathBuildSucceeded (state : PathHandlers) (record : PathRecord)
    (other : Nat) (id : HopID) :
    ((state.pathBuildSucceeded record).paths other).find id =
      if other = record.handler ∧ id = record.path.edge.rxid then some record.path
      else (state.paths other).find id :=
  find_paths_addPath _ record.handler record.path other id

theorem holdsEstablished_pathBuildSucceeded_iff (h : state.Keyed) {record : PathRecord}
    (howner : state.owner record.path.pathLogId = some (record.path, record.handler))
    {other : Nat} {id : HopID} {found : Path} :
    (state.pathBuildSucceeded record).HoldsEstablished other id found ↔
      (other = record.handler ∧ id = record.path.edge.rxid ∧ found = record.path ∧
        state.alive other = true) ∨
      (¬ (other = record.handler ∧ id = record.path.edge.rxid) ∧
        state.HoldsEstablished other id found) := by
  have hfind := find_paths_pathBuildSucceeded state record other id
  by_cases hhere : other = record.handler ∧ id = record.path.edge.rxid
  · rw [if_pos hhere] at hfind
    obtain ⟨rfl, rfl⟩ := hhere
    constructor
    · rintro ⟨halive, hfound, -⟩
      exact Or.inl ⟨rfl, rfl, Option.some.inj (hfound.symm.trans hfind), halive⟩
    · rintro (⟨-, -, rfl, halive⟩ | ⟨hnot, -⟩)
      · refine ⟨halive, hfind, ?_⟩
        rw [isEstablished_pathBuildSucceeded, if_pos rfl]
        exact decide_eq_true (owner_isSome_lt howner)
      · exact absurd ⟨rfl, rfl⟩ hnot
  · rw [if_neg hhere] at hfind
    have hother (hfound : (state.paths other).find id = some found) :
        (state.pathBuildSucceeded record).isEstablished found = state.isEstablished found := by
      rw [isEstablished_pathBuildSucceeded, if_neg]
      intro hsame
      obtain ⟨hkey, hheld⟩ := h.held other id found hfound
      rw [hsame, howner] at hheld
      cases hheld
      exact hhere ⟨rfl, hkey.symm⟩
    constructor
    · rintro ⟨halive, hfound, hestablished⟩
      have hfound := hfind.symm.trans hfound
      exact Or.inr ⟨hhere, halive, hfound, (hother hfound).symm.trans hestablished⟩
    · rintro (⟨rfl, rfl, -⟩ | ⟨-, halive, hfound, hestablished⟩)
      · exact absurd ⟨rfl, rfl⟩ hhere
      · exact ⟨halive, hfind.trans hfound, (hother hfound).trans hestablished⟩

theorem Keyed.pathBuildSucceeded (h : state.Keyed) {record : PathRecord}
    (howner : state.owner record.path.pathLogId = some (record.path, record.handler))
    (hcalled : record.path.pathLogId ∉ state.pending) :
    (state.pathBuildSucceeded record).Keyed where
  ownId id path handler hpath := by
    rw [owner_pathBuildSucceeded] at hpath
    exact h.ownId id path handler hpath
  held handler key path hfind := by
    rw [owner_pathBuildSucceeded]
    rw [find_paths_pathBuildSucceeded] at hfind
    split at hfind
    · next hhere =>
      cases hfind
      exact ⟨hhere.2.symm, hhere.1 ▸ howner⟩
    · exact h.held handler key path hfind
  unanswered id hmem found hfound := by
    have hid : record.path.pathLogId ≠ id := fun hsame => hcalled (hsame ▸ hmem)
    apply h.unanswered id hmem found
    simpa [PathHandlers.pathBuildSucceeded, PathHandlers.addPath, List.getElem?_modify, hid]
      using hfound

theorem MapIsUnion.pathBuildSucceeded_iff (h : state.MapIsUnion) (hkeyed : state.Keyed)
    {record : PathRecord}
    (howner : state.owner record.path.pathLogId = some (record.path, record.handler))
    (halive : state.alive record.handler = true)
    (hnew : state.isEstablished record.path = false) :
    (state.pathBuildSucceeded record).MapIsUnion ↔
      ∀ other path, ¬ state.HoldsEstablished other record.path.edge.rxid path := by
  have hholds (other : Nat) (id : HopID) (path : Path) :
      (state.pathBuildSucceeded record).HoldsEstablished other id path ↔ _ :=
    holdsEstablished_pathBuildSucceeded_iff hkeyed howner
  have hctx (id : HopID) := PathContext.getPath_addPath state.ctx record.path id
  constructor
  · intro hafter other path hother
    -- the map still has the other path, but this one is held as well
    have hmapped := (h _ path).mpr ⟨other, hother⟩
    have hadded := (hafter record.path.edge.rxid record.path).mpr
      ⟨record.handler, (hholds _ _ _).mpr (Or.inl ⟨rfl, rfl, rfl, halive⟩)⟩
    have hkept := hctx record.path.edge.rxid
    rw [hmapped, Option.some_or] at hkept
    have hsame : record.path = path := Option.some.inj (hadded.symm.trans hkept)
    have hestablished := hother.established
    rw [← hsame, hnew] at hestablished
    cases hestablished
  · intro hnone id path
    have hmap : (state.pathBuildSucceeded record).ctx.getPath id = _ := hctx id
    rw [hmap]
    by_cases hid : id = record.path.edge.rxid
    · subst hid
      have hfree : state.ctx.getPath record.path.edge.rxid = none := by
        rw [Option.eq_none_iff_forall_not_mem]
        intro found hfound
        obtain ⟨other, hother⟩ := (h _ found).mp hfound
        exact hnone other found hother
      rw [hfree, Option.none_or, if_pos rfl]
      constructor
      · intro hfound
        cases hfound
        exact ⟨record.handler, (hholds _ _ _).mpr (Or.inl ⟨rfl, rfl, rfl, halive⟩)⟩
      · rintro ⟨other, hother⟩
        rcases (hholds _ _ _).mp hother with ⟨-, -, rfl, -⟩ | ⟨-, hother⟩
        · rfl
        · exact absurd hother (hnone other path)
    · simp only [hholds, hid, if_false, Option.or_none, and_false, false_and, not_false_eq_true,
        true_and, false_or]
      exact h id path

theorem isEstablished_of_awaiting (h : state.Keyed) {id : Nat} {record : PathRecord}
    (hwaits : state.awaiting id = some record) : state.isEstablished record.path = false := by
  have hid := h.ownId id _ _ (owner_of_awaiting hwaits)
  obtain ⟨hrecord, hpending⟩ := Option.filter_eq_some_iff.mp hwaits
  simp only [Bool.and_eq_true, decide_eq_true_eq] at hpending
  simp [isEstablished, hid, hrecord, h.unanswered id hpending.1 record hrecord]

theorem Keyed.receiveReply (h : state.Keyed) (id : Nat) (reply : Message) :
    (state.receiveReply id reply).Keyed := by
  have hcalled := h.called id
  cases hwaits : state.awaiting id with
  | none =>
    rcases receiveReply_of_awaiting_none hwaits reply with hsame | hsame
    · rw [hsame]
      exact h
    · rw [hsame]
      exact hcalled
  | some record =>
    have howner := owner_of_awaiting hwaits
    have hid := h.ownId id _ _ howner
    rw [receiveReply_of_awaiting_some hwaits]
    split
    · refine hcalled.pathBuildSucceeded ?_ ?_
      · rw [hid]
        exact howner
      · rw [hid]
        simp [PathHandlers.called]
    · exact hcalled.of_erasedFrom (erasedFrom_erase _ record.handler record.path)

theorem MapIsUnion.receiveReply_iff (h : state.MapIsUnion) (hkeyed : state.Keyed) (id : Nat)
    (reply : Message) :
    (state.receiveReply id reply).MapIsUnion ↔
      ∀ record, state.awaiting id = some record →
        if reply.succeeded then
          ∀ other path, ¬ state.HoldsEstablished other record.path.edge.rxid path
        else state.OnlyHolder record.handler record.path.edge.rxid := by
  have hcalled := h.called id
  cases hwaits : state.awaiting id with
  | none =>
    refine ⟨fun _ record hrecord => (by cases hrecord), fun _ => ?_⟩
    rcases receiveReply_of_awaiting_none hwaits reply with hsame | hsame
    · rw [hsame]
      exact h
    · rw [hsame]
      exact hcalled
  | some record =>
    have howner := owner_of_awaiting hwaits
    have hid := hkeyed.ownId id _ _ howner
    have halive : state.alive record.handler = true := by
      have hpending := (Option.filter_eq_some_iff.mp hwaits).2
      simp only [Bool.and_eq_true] at hpending
      exact hpending.2
    rw [receiveReply_of_awaiting_some hwaits]
    simp only [Option.some.injEq, forall_eq']
    split
    · rw [hcalled.pathBuildSucceeded_iff (hkeyed.called id) (by rw [hid]; exact howner) halive
        (isEstablished_of_awaiting hkeyed hwaits)]
      simp only [holdsEstablished_called_iff]
    · refine (hcalled.erasedFrom_iff (erasedFrom_erase _ record.handler record.path)).trans ?_
      simp [OnlyHolder, holdsEstablished_called_iff]

/-! ## Sets that are lost -/

structure Emptied (before after : PathHandlers) (lost : Nat → Prop) : Prop where
  ctx : after.ctx = before.ctx
  records : after.records = before.records
  pending : after.pending = before.pending
  find_iff : ∀ other id path, (after.paths other).find id = some path ↔
    (before.paths other).find id = some path ∧ ¬ lost other
  alive : ∀ other, ¬ lost other → after.alive other = before.alive other

theorem find_update_empty_iff {paths : Nat → Table HopID Path} {handler other : Nat} {id : HopID}
    {path : Path} :
    (Function.update paths handler ∅ other).find id = some path ↔
      (paths other).find id = some path ∧ ¬ other = handler := by
  by_cases hother : other = handler
  · subst hother
    simp
  · simp [hother]

theorem emptied_stop (state : PathHandlers) (handler : Nat) :
    Emptied state (state.stop handler) fun other => other = handler where
  ctx := rfl
  records := rfl
  pending := rfl
  find_iff _ _ _ := find_update_empty_iff
  alive _ _ := rfl

theorem emptied_destroy (state : PathHandlers) (handler : Nat) :
    Emptied state (state.step (.destroy handler)) fun other => other = handler where
  ctx := rfl
  records := rfl
  pending := rfl
  find_iff _ _ _ := find_update_empty_iff
  alive other hother := by simp [step, hother]

theorem emptied_destroys (state : PathHandlers) (handlers : List Nat) :
    Emptied state (Run.run step state (handlers.map PathAction.destroy)) (· ∈ handlers) := by
  induction handlers generalizing state with
  | nil =>
    refine ⟨rfl, rfl, rfl, fun other id path => ?_, fun _ _ => rfl⟩
    simp
  | cons handler handlers ih =>
    have hfirst := emptied_destroy state handler
    have hrest := ih (state.step (.destroy handler))
    refine ⟨hrest.ctx, hrest.records, hrest.pending, fun other id path => ?_, ?_⟩
    · rw [List.map_cons, Run.run_cons, hrest.find_iff, hfirst.find_iff, List.mem_cons]
      tauto
    · intro other hother
      rw [List.mem_cons, not_or] at hother
      exact (hrest.alive other hother.2).trans (hfirst.alive other hother.1)

theorem Emptied.holdsEstablished_iff {before after : PathHandlers} {lost : Nat → Prop}
    (h : Emptied before after lost) {other : Nat} {id : HopID} {path : Path} :
    after.HoldsEstablished other id path ↔
      before.HoldsEstablished other id path ∧ ¬ lost other := by
  constructor
  · rintro ⟨halive, hfind, hestablished⟩
    obtain ⟨hbefore, hkept⟩ := (h.find_iff other id path).mp hfind
    rw [h.alive other hkept] at halive
    rw [isEstablished, h.records] at hestablished
    exact ⟨⟨halive, hbefore, hestablished⟩, hkept⟩
  · rintro ⟨⟨halive, hfind, hestablished⟩, hkept⟩
    refine ⟨(h.alive other hkept).trans halive, (h.find_iff other id path).mpr ⟨hfind, hkept⟩, ?_⟩
    rwa [isEstablished, h.records]

theorem Keyed.of_emptied {lost : Nat → Prop} (h : state.Keyed)
    (hemptied : Emptied state after lost) : after.Keyed where
  ownId id path handler howner := by
    rw [owner, hemptied.records] at howner
    exact h.ownId id path handler howner
  held handler key path hfind := by
    rw [owner, hemptied.records]
    exact h.held handler key path ((hemptied.find_iff handler key path).mp hfind).1
  unanswered id hmem record hrecord := by
    rw [hemptied.pending] at hmem
    rw [hemptied.records] at hrecord
    exact h.unanswered id hmem record hrecord

def HoldsNone (state : PathHandlers) (handler : Nat) : Prop :=
  ∀ id path, ¬ state.HoldsEstablished handler id path

theorem MapIsUnion.emptied_iff {lost : Nat → Prop} (h : state.MapIsUnion)
    (hkeyed : state.Keyed) (hemptied : Emptied state after lost) :
    after.MapIsUnion ↔ ∀ handler, lost handler → state.HoldsNone handler := by
  constructor
  · intro hafter handler hlost id path hholds
    have hmapped := (h id path).mpr ⟨handler, hholds⟩
    rw [← hemptied.ctx] at hmapped
    obtain ⟨other, hother⟩ := (hafter id path).mp hmapped
    obtain ⟨hother, hkept⟩ := hemptied.holdsEstablished_iff.mp hother
    exact hkept (hkeyed.handler_unique hholds hother ▸ hlost)
  · intro hnone
    refine h.of_same hemptied.ctx fun handler id path => ?_
    rw [hemptied.holdsEstablished_iff, and_iff_left_iff_imp]
    intro hholds hlost
    exact hnone handler hlost id path hholds

/-! ## One step -/

theorem getElem?_pingsFailed (state : PathHandlers) (id other : Nat) :
    (state.step (.pingsFailed id)).records[other]? =
      state.records[other]?.map fun record =>
        if id = other then { record with expiry := 0 } else record := by
  simp only [step, List.getElem?_modify]
  cases state.records[other]? with
  | none => rfl
  | some record =>
    by_cases hid : id = other
    · simp [hid]
    · simp [hid]

theorem Keyed.step (action : PathAction) (h : state.Keyed) : (state.step action).Keyed := by
  cases action with
  | build handler request => exact h.build handler request
  | reply id reply => exact h.receiveReply id reply
  | dropPath handler id =>
    unfold PathHandlers.step
    dsimp only
    split
    · next record _ => exact h.of_erasedFrom (erasedFrom_erase state handler record.path)
    · exact h
  | invalidatePaths handler => exact h.of_erasedFrom (h.erasedFrom_eraseIf handler fun _ => true)
  | expirePaths handler now =>
    exact h.of_erasedFrom (h.erasedFrom_eraseIf handler fun path => state.isExpired path now)
  | pingsFailed id =>
    have howner (other : Nat) : (state.step (.pingsFailed id)).owner other = state.owner other :=
      owner_modify state id other fun _ => ⟨rfl, rfl⟩
    refine ⟨?_, ?_, ?_⟩
    · intro other path handler hpath
      exact h.ownId other path handler ((howner other).symm.trans hpath)
    · intro handler key path hfind
      obtain ⟨hkey, hpath⟩ := h.held handler key path hfind
      exact ⟨hkey, (howner _).trans hpath⟩
    · intro other hmem record hrecord
      rw [getElem?_pingsFailed] at hrecord
      obtain ⟨before, hbefore, rfl⟩ := Option.map_eq_some_iff.mp hrecord
      have hnot := h.unanswered other hmem before hbefore
      split
      · exact hnot
      · exact hnot
  | destroy handler => exact h.of_emptied (emptied_destroy state handler)

end PathHandlers

namespace ClientPaths

def KeepsUnion (state : ClientPaths) : ClientAction → Prop
  | .path (.build handler request) =>
    request.result = .notSent → ∀ path, state.handlers.enteringPath handler request = some path →
      state.handlers.OnlyHolder handler path.edge.rxid
  | .path (.reply id reply) =>
    ∀ record, state.handlers.awaiting id = some record →
      if reply.succeeded then
        ∀ other path, ¬ state.handlers.HoldsEstablished other record.path.edge.rxid path
      else state.handlers.OnlyHolder record.handler record.path.edge.rxid
  | .path (.dropPath handler id) =>
    ∀ record, state.handlers.records[id]? = some record →
      state.handlers.OnlyHolder handler record.path.edge.rxid
  | .path (.invalidatePaths handler) =>
    ∀ id path, (state.handlers.paths handler).find id = some path →
      state.handlers.OnlyHolder handler id
  | .path (.expirePaths handler now) =>
    ∀ id path, (state.handlers.paths handler).find id = some path →
      state.handlers.isExpired path now = true → state.handlers.OnlyHolder handler id
  | .path (.pingsFailed _) => True
  | .path (.destroy handler) => state.handlers.HoldsNone handler
  | .stop handler => state.handlers.HoldsNone handler
  | .closeSession _ => True
  | .runJobs => ∀ handler ∈ state.closing, state.handlers.HoldsNone handler

theorem keyed_step (state : ClientPaths) (action : ClientAction) (h : state.handlers.Keyed) :
    (state.step action).handlers.Keyed := by
  cases action with
  | path action => exact h.step action
  | stop handler => exact h.of_emptied (PathHandlers.emptied_stop _ handler)
  | closeSession handler => exact h
  | runJobs => exact h.of_emptied (PathHandlers.emptied_destroys _ state.closing)

theorem mapIsUnion_path_iff (state : ClientPaths) (action : PathAction)
    (hkeyed : state.handlers.Keyed) (h : state.handlers.MapIsUnion) :
    (state.handlers.step action).MapIsUnion ↔ state.KeepsUnion (.path action) := by
  cases action with
  | build handler request => exact h.build_iff hkeyed handler request
  | reply id reply => exact h.receiveReply_iff hkeyed id reply
  | dropPath handler id =>
    unfold PathHandlers.step KeepsUnion
    dsimp only
    cases hrecord : state.handlers.records[id]? with
    | none => simp [h]
    | some record =>
      refine (h.erasedFrom_iff (PathHandlers.erasedFrom_erase _ handler record.path)).trans ?_
      simp
  | invalidatePaths handler =>
    refine (h.erasedFrom_iff (hkeyed.erasedFrom_eraseIf handler fun _ => true)).trans ?_
    simp [KeepsUnion]
  | expirePaths handler now =>
    refine (h.erasedFrom_iff (hkeyed.erasedFrom_eraseIf handler
      fun path => state.handlers.isExpired path now)).trans ?_
    simp [KeepsUnion]
  | pingsFailed id =>
    have hsame (path : Path) : (state.handlers.step (.pingsFailed id)).isEstablished path =
        state.handlers.isEstablished path := by
      unfold PathHandlers.isEstablished
      rw [PathHandlers.getElem?_pingsFailed]
      cases state.handlers.records[path.pathLogId]? with
      | none => rfl
      | some record =>
        by_cases hid : id = path.pathLogId
        · simp [hid]
        · simp [hid]
    exact iff_of_true (h.of_same rfl (PathHandlers.holdsEstablished_congr rfl rfl hsame)) trivial
  | destroy handler =>
    refine (h.emptied_iff hkeyed (PathHandlers.emptied_destroy _ handler)).trans ?_
    simp [KeepsUnion]

theorem mapIsUnion_step_iff (state : ClientPaths) (action : ClientAction)
    (hkeyed : state.handlers.Keyed) (h : state.handlers.MapIsUnion) :
    (state.step action).handlers.MapIsUnion ↔ state.KeepsUnion action := by
  cases action with
  | path action => exact mapIsUnion_path_iff state action hkeyed h
  | stop handler =>
    refine (h.emptied_iff hkeyed (PathHandlers.emptied_stop _ handler)).trans ?_
    simp [KeepsUnion]
  | closeSession handler => exact iff_of_true h trivial
  | runJobs => exact h.emptied_iff hkeyed (PathHandlers.emptied_destroys _ state.closing)

/-! ## Whole runs -/

/-- The path map is the union of the handlers' established paths throughout a run exactly if
every step of the run meets the condition. -/
theorem pathMap_isUnion_iff (routerId : RouterID) (actions : List ClientAction) :
    (∀ front back, actions = front ++ back →
      (Run.run step (start routerId) front).handlers.MapIsUnion) ↔
      Run.Meets step KeepsUnion (start routerId) actions :=
  Run.throughout_iff_meets step KeepsUnion (fun state action h _ => keyed_step state action h)
    mapIsUnion_step_iff actions
    (PathHandlers.keyed_start routerId) (PathHandlers.mapIsUnion_start routerId)

def closedSession : List ClientAction :=
  [.path (.build 0 ⟨false, [PathHandlers.LateReply.contact], fun _ => FixedBytes.filled 16 7,
      1200000, .sent⟩),
    .path (.reply 0 (some ⟨Messages.okResponse, false⟩)),
    .closeSession 0,
    .runJobs]

theorem closedSession_leaves_path : ¬ ∀ front back, closedSession = front ++ back →
      (Run.run step (start (FixedBytes.filled 32 9)) front).handlers.MapIsUnion := by
  intro hall
  let before := Run.run step (start (FixedBytes.filled 32 9)) (closedSession.take 3)
  have hkeyed : before.handlers.Keyed :=
    Run.run_invariant_of_step step keyed_step (closedSession.take 3) (PathHandlers.keyed_start _)
  have hnone : before.handlers.HoldsNone 0 :=
    (mapIsUnion_step_iff before .runJobs hkeyed (hall (closedSession.take 3) [.runJobs] rfl)).mp
      (hall closedSession [] rfl) 0 (by decide)
  -- the established path is still in the set when the session is destroyed
  have hholds : ((before.handlers.paths 0).find (FixedBytes.filled 16 7)).map
      before.handlers.isEstablished = some true := by
    decide
  obtain ⟨path, hfind, hestablished⟩ := Option.map_eq_some_iff.mp hholds
  exact hnone _ path ⟨by decide, hfind, hestablished⟩

end ClientPaths
end SessionRouter

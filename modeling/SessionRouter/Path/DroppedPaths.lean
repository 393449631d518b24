import SessionRouter.Path.Handler

/-!
# Dropped paths
-/

namespace SessionRouter

open Lib

namespace PathHandlers

def owner (state : PathHandlers) (id : Nat) : Option (Path × Nat) :=
  state.records[id]?.map fun record => (record.path, record.handler)

structure Absent (state : PathHandlers) (id : Nat) : Prop where
  notHeld : ∀ handler key path, (state.paths handler).find key = some path → path.pathLogId ≠ id
  notMapped : ∀ key path, state.ctx.getPath key = some path → path.pathLogId ≠ id

structure Coherent (state : PathHandlers) : Prop where
  ownId : ∀ id path handler, state.owner id = some (path, handler) → path.pathLogId = id
  held : ∀ handler key path, (state.paths handler).find key = some path →
    path.edge.rxid = key ∧ state.owner path.pathLogId = some (path, handler)
  mapped : ∀ key path, state.ctx.getPath key = some path →
    path.edge.rxid = key ∧ ∃ handler, state.owner path.pathLogId = some (path, handler)
  made : ∀ id, id ∈ state.removed ∨ id ∈ state.pending → id < state.records.length
  gone : ∀ id ∈ state.removed, state.Absent id
  waiting : ∀ id ∈ state.pending, ∀ path handler, state.owner id = some (path, handler) →
    state.alive handler = true →
    (state.paths handler).find path.edge.rxid = some path ∨ id ∈ state.removed

variable {state : PathHandlers}

theorem coherent_start (routerId : RouterID) : (start routerId).Coherent where
  ownId id path handler howner := by cases howner
  held handler key path hfind := by cases hfind
  mapped key path hfind := by cases hfind
  made id hmem := by rcases hmem with hmem | hmem <;> cases hmem
  gone id hmem := by cases hmem
  waiting id hmem := by cases hmem

variable {id handler : Nat} {path : Path}

theorem owner_isSome_lt (h : state.owner id = some (path, handler)) :
    id < state.records.length := by
  obtain ⟨record, hrecord, -⟩ := Option.map_eq_some_iff.mp h
  exact (List.getElem?_eq_some_iff.mp hrecord).1

theorem find_paths_erase (state : PathHandlers) (handler : Nat) (key : HopID) (path : Path)
    (other : Nat) (id : HopID) :
    ((state.erase handler key path).paths other).find id =
      if other = handler ∧ id = key then none else (state.paths other).find id := by
  unfold erase
  by_cases hother : other = handler
  · subst hother
    simp [Table.find_remove]
  · simp [hother]

theorem getPath_erase (state : PathHandlers) (handler : Nat) (key : HopID) (path : Path)
    (id : HopID) :
    (state.erase handler key path).ctx.getPath id =
      if id = path.edge.rxid then none else state.ctx.getPath id :=
  PathContext.getPath_dropPath state.ctx path id

variable {key : HopID}

theorem find_of_find_erase {other : Nat} {id : HopID} {found : Path}
    (h : ((state.erase handler key path).paths other).find id = some found) :
    (state.paths other).find id = some found ∧ ¬ (other = handler ∧ id = key) := by
  rw [find_paths_erase] at h
  split at h
  · cases h
  · next hnot => exact ⟨h, hnot⟩

theorem getPath_of_getPath_erase {id : HopID} {found : Path}
    (h : (state.erase handler key path).ctx.getPath id = some found) :
    state.ctx.getPath id = some found ∧ id ≠ path.edge.rxid := by
  rw [getPath_erase] at h
  split at h
  · cases h
  · next hnot => exact ⟨h, hnot⟩

theorem mem_removed_erase : id ∈ (state.erase handler key path).removed ↔
      (∃ held, (state.paths handler).find key = some held ∧ held.pathLogId = id) ∨
        id ∈ state.removed := by
  simp [erase]

theorem find_paths_addPath (state : PathHandlers) (handler : Nat) (path : Path) (other : Nat)
    (id : HopID) :
    ((state.addPath handler path).paths other).find id =
      if other = handler ∧ id = path.edge.rxid then some path
      else (state.paths other).find id := by
  unfold addPath
  by_cases hother : other = handler
  · subst hother
    simp [Table.find_insertOrAssign]
  · simp [hother]

theorem Coherent.absent_erase (h : state.Coherent) {held : Path} (hkey : path.edge.rxid = key)
    (hheld : (state.paths handler).find key = some held) :
    (state.erase handler key path).Absent held.pathLogId := by
  obtain ⟨hrxid, howner⟩ := h.held handler key held hheld
  constructor
  · intro other id found hfind hsame
    obtain ⟨hbefore, hnot⟩ := find_of_find_erase hfind
    obtain ⟨hid, hfound⟩ := h.held other id found hbefore
    rw [hsame, howner] at hfound
    cases hfound
    exact hnot ⟨rfl, by rw [← hid, hrxid]⟩
  · intro id found hfind hsame
    obtain ⟨hbefore, hnot⟩ := getPath_of_getPath_erase hfind
    obtain ⟨hid, other, hfound⟩ := h.mapped id found hbefore
    rw [hsame, howner] at hfound
    cases hfound
    exact hnot (by rw [← hid, hrxid, hkey])

theorem Absent.erase (h : state.Absent id) (handler : Nat) (key : HopID)
    (path : Path) : (state.erase handler key path).Absent id where
  notHeld other otherKey found hfind := h.notHeld other otherKey found (find_of_find_erase hfind).1
  notMapped otherKey found hfind := h.notMapped otherKey found (getPath_of_getPath_erase hfind).1

theorem Coherent.erase (h : state.Coherent)
    (hkey : path.edge.rxid = key) : (state.erase handler key path).Coherent where
  ownId := h.ownId
  held other id found hfind := h.held other id found (find_of_find_erase hfind).1
  mapped id found hfind := h.mapped id found (getPath_of_getPath_erase hfind).1
  made id hmem := by
    rw [mem_removed_erase] at hmem
    rcases hmem with (⟨held, hheld, rfl⟩ | hremoved) | hpending
    · exact owner_isSome_lt (h.held handler key held hheld).2
    · exact h.made id (Or.inl hremoved)
    · exact h.made id (Or.inr hpending)
  gone id hmem := by
    rcases mem_removed_erase.mp hmem with ⟨held, hheld, rfl⟩ | hremoved
    · exact h.absent_erase hkey hheld
    · exact (h.gone id hremoved).erase handler key path
  waiting id hmem found other howner halive := by
    rw [find_paths_erase, mem_removed_erase]
    rcases h.waiting id hmem found other howner halive with hfind | hremoved
    · by_cases herased : other = handler ∧ found.edge.rxid = key
      · obtain ⟨rfl, hid⟩ := herased
        rw [hid] at hfind
        exact Or.inr (Or.inl ⟨found, hfind, h.ownId id found other howner⟩)
      · rw [if_neg herased]
        exact Or.inl hfind
    · exact Or.inr (Or.inr hremoved)

theorem Coherent.dropPath (h : state.Coherent) (handler : Nat) (path : Path) :
    (state.dropPath handler path).Coherent :=
  h.erase rfl

theorem Coherent.foldl_erase (handler : Nat) (drop : Path → Bool)
    {entries : List (Sigma fun _ : HopID => Path)}
    (hkeys : ∀ entry ∈ entries, entry.2.edge.rxid = entry.1) (h : state.Coherent) :
    (entries.foldl (fun state entry =>
      if drop entry.2 then state.erase handler entry.1 entry.2 else state) state).Coherent := by
  induction entries generalizing state with
  | nil => exact h
  | cons entry entries ih =>
    rw [List.foldl_cons]
    apply ih fun other hmem => hkeys other (List.mem_cons_of_mem _ hmem)
    split
    · exact h.erase (hkeys entry List.mem_cons_self)
    · exact h

theorem Coherent.eraseIf (h : state.Coherent) (handler : Nat) (drop : Path → Bool) :
    (state.eraseIf handler drop).Coherent := by
  refine Coherent.foldl_erase handler drop ?_ h
  rintro ⟨key, path⟩ hmem
  exact (h.held handler key path (Table.find_eq_some_iff.mpr hmem)).1

theorem owner_modify (state : PathHandlers) (place id : Nat) {f : PathRecord → PathRecord}
    (hf : ∀ record, (f record).path = record.path ∧ (f record).handler = record.handler) :
    owner { state with records := state.records.modify place f } id = state.owner id := by
  unfold owner
  rw [List.getElem?_modify]
  cases state.records[id]? with
  | none => rfl
  | some record =>
    by_cases hplace : place = id
    · simp [hplace, hf]
    · simp [hplace]

theorem Coherent.update (h : state.Coherent) {records : List PathRecord} {pending : List Nat}
    (howner : ∀ id, owner { state with records } id = state.owner id)
    (hlength : records.length = state.records.length)
    (hpending : ∀ id ∈ pending, id ∈ state.pending) :
    Coherent { state with records, pending } where
  ownId id path handler hfind := h.ownId id path handler (by rw [← howner]; exact hfind)
  held handler key path hfind := by
    obtain ⟨hrxid, hpath⟩ := h.held handler key path hfind
    exact ⟨hrxid, (howner _).trans hpath⟩
  mapped key path hfind := by
    obtain ⟨hrxid, handler, hpath⟩ := h.mapped key path hfind
    exact ⟨hrxid, handler, (howner _).trans hpath⟩
  made id hmem := by
    rw [hlength]
    exact h.made id (hmem.imp_right (hpending id))
  gone id hmem := ⟨(h.gone id hmem).notHeld, (h.gone id hmem).notMapped⟩
  waiting id hmem path handler hpath halive :=
    h.waiting id (hpending id hmem) path handler ((howner id).symm.trans hpath) halive

theorem owner_append_of_lt (h : id < state.records.length) (record : PathRecord) :
    owner { state with records := state.records ++ [record] } id = state.owner id := by
  unfold owner
  rw [List.getElem?_append_left h]

theorem owner_append_length (state : PathHandlers) (record : PathRecord) :
    owner { state with records := state.records ++ [record] } state.records.length =
      some (record.path, record.handler) := by
  simp [owner]

section

variable (h : state.Coherent)

include h

theorem Coherent.append {record : PathRecord}
    (hid : record.path.pathLogId = state.records.length) :
    Coherent { state with records := state.records ++ [record] } where
  ownId id path handler hfind := by
    by_cases hlast : id = state.records.length
    · subst hlast
      rw [owner_append_length] at hfind
      cases hfind
      exact hid
    · have hlt := owner_isSome_lt hfind
      simp only [List.length_append, List.length_singleton] at hlt
      rw [owner_append_of_lt (by omega)] at hfind
      exact h.ownId id path handler hfind
  held handler key path hfind := by
    obtain ⟨hrxid, hpath⟩ := h.held handler key path hfind
    exact ⟨hrxid, (owner_append_of_lt (owner_isSome_lt hpath) record).trans hpath⟩
  mapped key path hfind := by
    obtain ⟨hrxid, handler, hpath⟩ := h.mapped key path hfind
    exact ⟨hrxid, handler, (owner_append_of_lt (owner_isSome_lt hpath) record).trans hpath⟩
  made id hmem := by
    have hlt := h.made id hmem
    simp only [List.length_append, List.length_singleton]
    omega
  gone id hmem := ⟨(h.gone id hmem).notHeld, (h.gone id hmem).notMapped⟩
  waiting id hmem path handler hpath halive := by
    rw [owner_append_of_lt (h.made id (Or.inr hmem))] at hpath
    exact h.waiting id hmem path handler hpath halive

section

variable (howner : state.owner path.pathLogId = some (path, handler))

include howner

theorem Coherent.emplace (hnew : path.pathLogId ∉ state.removed)
    (hfree : (state.paths handler).find path.edge.rxid = none) :
    Coherent { state with
      paths := Function.update state.paths handler
        ((state.paths handler).emplace path.edge.rxid path) } := by
  have hfind (other : Nat) (id : HopID) :
      ((Function.update state.paths handler
        ((state.paths handler).emplace path.edge.rxid path)) other).find id =
        if other = handler ∧ id = path.edge.rxid then some path
        else (state.paths other).find id := by
    by_cases hother : other = handler
    · subst hother
      simp [Table.find_emplace, hfree]
    · simp [hother]
  refine ⟨h.ownId, ?_, h.mapped, h.made, ?_, ?_⟩
  · intro other id found hfound
    dsimp only at hfound
    rw [hfind] at hfound
    split at hfound
    · next hhere =>
      cases hfound
      exact ⟨hhere.2.symm, hhere.1 ▸ howner⟩
    · exact h.held other id found hfound
  · intro id hmem
    refine ⟨?_, (h.gone id hmem).notMapped⟩
    intro other key found hfound
    dsimp only at hfound
    rw [hfind] at hfound
    split at hfound
    · cases hfound
      rintro rfl
      exact hnew hmem
    · exact (h.gone id hmem).notHeld other key found hfound
  · intro id hmem found other hfound halive
    rw [hfind]
    rcases h.waiting id hmem found other hfound halive with hheld | hremoved
    · left
      split
      · next hhere =>
        rw [hhere.1, hhere.2, hfree] at hheld
        cases hheld
      · exact hheld
    · exact Or.inr hremoved

theorem Coherent.sendPathBuild
    (hheld : (state.paths handler).find path.edge.rxid = some path) (result : SendResult) :
    (state.sendPathBuild handler path result).Coherent := by
  cases result with
  | notSent => exact h.dropPath handler path
  | threw => exact h
  | sent =>
    refine ⟨h.ownId, h.held, h.mapped, ?_, ?_, ?_⟩
    · intro id hmem
      rcases hmem with hremoved | hpending
      · exact h.made id (Or.inl hremoved)
      · rcases List.mem_cons.mp hpending with rfl | hpending
        · exact owner_isSome_lt howner
        · exact h.made id (Or.inr hpending)
    · intro id hmem
      exact ⟨(h.gone id hmem).notHeld, (h.gone id hmem).notMapped⟩
    · intro id hmem found other hfound halive
      rcases List.mem_cons.mp hmem with rfl | hpending
      · have hsame : state.owner path.pathLogId = some (found, other) := hfound
        rw [howner] at hsame
        cases hsame
        exact Or.inl hheld
      · exact h.waiting id hpending found other hfound halive

end

theorem Coherent.build (handler : Nat) (request : BuildRequest) :
    (state.build handler request).Coherent := by
  unfold PathHandlers.build
  split
  · exact h
  · next edge others _ =>
    split
    · exact h
    · dsimp only
      let path := state.newPath request.ids edge others
      have hmade : Coherent { state with
          records := state.records ++ [⟨path, handler, request.expiry, false⟩] } :=
        h.append rfl
      split
      · -- the edge's receive id is taken
        exact hmade
      · next hfree =>
        have hnone : (state.paths handler).find path.edge.rxid = none := by simpa using hfree
        have howner : owner { state with
            records := state.records ++ [⟨path, handler, request.expiry, false⟩] }
            path.pathLogId = some (path, handler) := owner_append_length state _
        have hnew : path.pathLogId ∉ state.removed := fun hmem =>
          absurd (h.made _ (Or.inl hmem)) (Nat.lt_irrefl _)
        refine Coherent.sendPathBuild (hmade.emplace howner hnew hnone) howner ?_ request.result
        simp [Table.find_emplace, hnone]

theorem Coherent.addPath (hheld : (state.paths handler).find path.edge.rxid = some path) :
    (state.addPath handler path).Coherent := by
  have hfind (other : Nat) (id : HopID) :
      ((state.addPath handler path).paths other).find id = (state.paths other).find id := by
    rw [find_paths_addPath]
    split
    · next hhere => rw [hhere.1, hhere.2, hheld]
    · rfl
  have hmapped {id : HopID} {found : Path}
      (hfound : (state.addPath handler path).ctx.getPath id = some found) :
      state.ctx.getPath id = some found ∨ (id = path.edge.rxid ∧ found = path) := by
    have hfound : (state.ctx.addPath path).getPath id = some found := hfound
    rw [PathContext.getPath_addPath, Option.or_eq_some_iff] at hfound
    rcases hfound with hfound | ⟨-, hfound⟩
    · exact Or.inl hfound
    · split at hfound
      · next hid =>
        cases hfound
        exact Or.inr ⟨hid, rfl⟩
      · cases hfound
  refine ⟨h.ownId, ?_, ?_, h.made, ?_, ?_⟩
  · intro other id found hfound
    rw [hfind] at hfound
    exact h.held other id found hfound
  · intro id found hfound
    rcases hmapped hfound with hfound | ⟨rfl, rfl⟩
    · exact h.mapped id found hfound
    · exact ⟨rfl, handler, (h.held handler _ found hheld).2⟩
  · intro id hmem
    have hgone := h.gone id hmem
    constructor
    · intro other key found hfound
      rw [hfind] at hfound
      exact hgone.notHeld other key found hfound
    · intro key found hfound
      rcases hmapped hfound with hfound | ⟨rfl, rfl⟩
      · exact hgone.notMapped key found hfound
      · exact hgone.notHeld handler _ found hheld
  · intro id hmem found other hfound halive
    rw [hfind]
    exact h.waiting id hmem found other hfound halive

end

def StillHeld (state : PathHandlers) : PathAction → Prop
  | .reply id (some reply) => reply.isError = false → id ∈ state.pending →
      ∀ path handler, state.owner id = some (path, handler) → state.alive handler = true →
        (state.paths handler).find path.edge.rxid = some path
  | _ => True

theorem Coherent.called (h : state.Coherent) (id : Nat) :
    Coherent { state with pending := state.pending.filter (· ≠ id) } :=
  h.update (fun _ => rfl) rfl fun _ hmem => List.mem_of_mem_filter hmem

theorem Coherent.receiveReply (h : state.Coherent) (id : Nat) (reply : Message)
    (hheld : StillHeld state (.reply id reply)) : (state.receiveReply id reply).Coherent := by
  have hcalled := h.called id
  unfold PathHandlers.receiveReply
  split
  · exact h
  · next record hrecord =>
    have howner : state.owner id = some (record.path, record.handler) := by simp [owner, hrecord]
    split
    · next hpending =>
      split
      · exact hcalled
      · next halive =>
        split
        · next reply =>
          split
          · exact hcalled.dropPath record.handler record.path
          · next hsuccess =>
            have hpath := hheld (by simpa using hsuccess) hpending _ _ howner
              (by simpa using halive)
            refine Coherent.addPath (hcalled.update ?_ ?_ fun _ hmem => hmem) hpath
            · intro other
              exact owner_modify _ _ _ fun _ => ⟨rfl, rfl⟩
            · exact List.length_modify _ _ _
        · exact hcalled.dropPath record.handler record.path
    · exact h

theorem Coherent.destroy (h : state.Coherent) (handler : Nat) :
    (state.step (.destroy handler)).Coherent := by
  have hfind (other : Nat) (id : HopID) {found : Path}
      (hfound : ((state.step (.destroy handler)).paths other).find id = some found) :
      other ≠ handler ∧ (state.paths other).find id = some found := by
    by_cases hother : other = handler
    · subst hother
      simp [step] at hfound
    · simpa [step, hother] using hfound
  refine ⟨h.ownId, ?_, h.mapped, h.made, ?_, ?_⟩
  · intro other id found hfound
    exact h.held other id found (hfind other id hfound).2
  · intro id hmem
    refine ⟨?_, (h.gone id hmem).notMapped⟩
    intro other key found hfound
    exact (h.gone id hmem).notHeld other key found (hfind other key hfound).2
  · intro id hmem found other hfound halive
    by_cases hother : other = handler
    · subst hother
      simp [step] at halive
    · have halive : state.alive other = true := by
        simpa [step, hother] using halive
      have hpaths : (state.step (.destroy handler)).paths other = state.paths other := by
        simp [step, hother]
      rw [hpaths]
      exact h.waiting id hmem found other hfound halive

theorem Coherent.step (action : PathAction) (h : state.Coherent)
    (hheld : StillHeld state action) : (state.step action).Coherent := by
  cases action with
  | build handler request => exact h.build handler request
  | reply id reply => exact h.receiveReply id reply hheld
  | dropPath handler id =>
    unfold PathHandlers.step
    dsimp only
    split
    · next record _ => exact h.dropPath handler record.path
    · exact h
  | invalidatePaths handler => exact h.eraseIf handler fun _ => true
  | expirePaths handler now => exact h.eraseIf handler fun path => state.isExpired path now
  | pingsFailed id =>
    exact h.update (fun other => owner_modify state id other fun _ => ⟨rfl, rfl⟩)
      (List.length_modify _ _ _) fun _ hmem => hmem
  | destroy handler => exact h.destroy handler

theorem removed_subset_eraseIf (state : PathHandlers) (handler : Nat) (drop : Path → Bool) :
    state.removed ⊆ (state.eraseIf handler drop).removed := by
  unfold eraseIf
  generalize (state.paths handler).entries = entries
  induction entries generalizing state with
  | nil => exact List.Subset.refl _
  | cons entry entries ih =>
    rw [List.foldl_cons]
    refine List.Subset.trans ?_ (ih _)
    split
    · exact List.subset_append_right _ _
    · exact List.Subset.refl _

theorem removed_subset_build (state : PathHandlers) (handler : Nat) (request : BuildRequest) :
    state.removed ⊆ (state.build handler request).removed := by
  unfold build
  split
  · exact List.Subset.refl _
  · split
    · exact List.Subset.refl _
    · dsimp only
      split
      · exact List.Subset.refl _
      · cases request.result with
        | sent => exact List.Subset.refl _
        | threw => exact List.Subset.refl _
        | notSent => exact List.subset_append_right _ _

theorem removed_subset_receiveReply (state : PathHandlers) (id : Nat) (reply : Message) :
    state.removed ⊆ (state.receiveReply id reply).removed := by
  unfold receiveReply
  split
  · exact List.Subset.refl _
  · split
    · dsimp only
      split
      · exact List.Subset.refl _
      · split
        · split
          · exact List.subset_append_right _ _
          · exact List.Subset.refl _
        · exact List.subset_append_right _ _
    · exact List.Subset.refl _

theorem removed_subset_step (state : PathHandlers) (action : PathAction) :
    state.removed ⊆ (state.step action).removed := by
  cases action with
  | build handler request => exact removed_subset_build state handler request
  | reply id reply => exact removed_subset_receiveReply state id reply
  | dropPath handler id =>
    unfold step
    dsimp only
    split
    · exact List.subset_append_right _ _
    · exact List.Subset.refl _
  | invalidatePaths handler | expirePaths handler => exact removed_subset_eraseIf state handler _
  | pingsFailed | destroy => exact List.Subset.refl _

theorem removed_subset_run (state : PathHandlers) (actions : List PathAction) :
    state.removed ⊆ (Run.run step state actions).removed :=
  Run.run_invariant_of_step step
    (fun middle action h => List.Subset.trans h (removed_subset_step middle action)) actions
    (List.Subset.refl _)

theorem find_receiveReply_success {reply : Reply} (hsuccess : reply.isError = false)
    (hpending : id ∈ state.pending) (howner : state.owner id = some (path, handler))
    (halive : state.alive handler = true) :
    ((state.receiveReply id (some reply)).paths handler).find path.edge.rxid = some path := by
  obtain ⟨record, hrecord, hsame⟩ := Option.map_eq_some_iff.mp howner
  cases hsame
  simp only [receiveReply, hrecord, hpending, halive, hsuccess, if_true, Bool.not_true,
    Bool.false_eq_true, if_false, pathBuildSucceeded]
  rw [find_paths_addPath, if_pos ⟨rfl, rfl⟩]

theorem stillHeld_of_absent (h : state.Coherent) (action : PathAction)
    (habsent : ∀ id ∈ state.removed, (state.step action).Absent id) :
    StillHeld state action := by
  match action with
  | .build _ _ | .reply _ none | .dropPath _ _ | .invalidatePaths _ | .expirePaths _ _
  | .pingsFailed _ | .destroy _ => trivial
  | .reply id (some reply) =>
    intro hsuccess hpending path handler howner halive
    rcases h.waiting id hpending path handler howner halive with hfind | hremoved
    · exact hfind
    · have hback := find_receiveReply_success hsuccess hpending howner halive
      exact absurd (h.ownId id path handler howner)
        ((habsent id hremoved).notHeld handler _ path hback)

def StaysDropped (routerId : RouterID) (actions : List PathAction) : Prop :=
  ∀ front middle back, actions = front ++ middle ++ back →
    ∀ id ∈ (Run.run step (start routerId) front).removed,
      (Run.run step (start routerId) (front ++ middle)).Absent id

/-- Dropped paths stay dropped in a run exactly if every build that succeeds does so
while its path is still in its handler's set. -/
theorem staysDropped_iff (routerId : RouterID) (actions : List PathAction) :
    StaysDropped routerId actions ↔ Run.Meets step StillHeld (start routerId) actions := by
  have hstep (state : PathHandlers) (action : PathAction) (h : state.Coherent)
      (hheld : StillHeld state action) : (state.step action).Coherent := h.step action hheld
  constructor
  · intro hdropped
    induction actions using List.reverseRecOn with
    | nil => trivial
    | append_singleton actions action ih =>
      have hmeets := ih fun front middle back hsplit =>
        hdropped front middle (back ++ [action]) (by rw [hsplit]; simp)
      have hcoherent := Run.run_invariant _ _ hstep (coherent_start routerId) hmeets
      have hafter := hdropped actions [action] [] (by simp)
      rw [Run.run_append] at hafter
      exact (Run.meets_append _ _ _ _ _).mpr
        ⟨hmeets, stillHeld_of_absent hcoherent action hafter, trivial⟩
  · rintro hmeets front middle back rfl id hmem
    have hcoherent := Run.run_prefix_invariant _ _ hstep (coherent_start routerId) hmeets
    apply hcoherent.gone
    rw [Run.run_append]
    exact removed_subset_run _ middle hmem

/-! ### An answer that comes too late -/

namespace LateReply

def contact : RelayContact where
  routerId := FixedBytes.filled 32 1
  routerVersion := (1, 1, 0)
  timestamp := 0
  payload := []

def actions : List PathAction :=
  [.build 0 ⟨false, [contact], fun _ => FixedBytes.filled 16 7, 1200000, .sent⟩,
    .invalidatePaths 0,
    .reply 0 (some ⟨Messages.okResponse, false⟩)]

end LateReply

theorem lateReply_not_staysDropped : ¬ StaysDropped (FixedBytes.filled 32 9) LateReply.actions := by
  intro hdropped
  have habsent := hdropped (LateReply.actions.take 2) (LateReply.actions.drop 2) [] (by rfl) 0
    (by decide)
  have hback : ((Run.run step (start (FixedBytes.filled 32 9)) LateReply.actions).ctx.getPath
      (FixedBytes.filled 16 7)).map Path.pathLogId = some 0 := by
    decide
  obtain ⟨path, hpath, hid⟩ := Option.map_eq_some_iff.mp hback
  exact habsent.notMapped _ path hpath hid

end PathHandlers
end SessionRouter

import SessionRouter.Handlers.SessionTable
import SessionRouter.Lib.CyclicScan

/-!
# Mapped UDP ports
-/

namespace SessionRouter

open Lib

structure MappedRemote where
  remote : NetworkAddress
  port : UInt16
deriving DecidableEq

structure UdpHandle where
  socket : UInt16
  cports : List MappedRemote
  holders : Int
deriving DecidableEq

/-- The UDP tables of a `SessionEndpoint`. -/
structure UdpPorts where
  clientPorts : Table MappedRemote UInt16
  returnPorts : Table MappedRemote UInt16
  handles : Table MappedRemote UdpHandle
  nextClientPort : UInt16

abbrev EphemeralPort := { port : UInt16 // 49152 ≤ port.toNat ∧ port.toNat ≤ 60000 }

/-- How `initiate_remote_session` ends. -/
inductive InitiateOutcome where
  | threw
  | unreachable
  | available
deriving DecidableEq

namespace UdpPorts

def init : UdpPorts :=
  ⟨∅, ∅, ∅, 0⟩

/-! ## Pseudo-ports -/

def nextPort (port : UInt16) : UInt16 :=
  if port + 1 < 1024 then 1024 else port + 1

def findPort (returnPorts : Table MappedRemote UInt16) (remote : NetworkAddress)
    (start : UInt16) : Option (Option UInt16) :=
  CyclicScan.scan nextPort (fun port => (returnPorts.find ⟨remote, port⟩).isNone) start 64512 start

def localPacket (state : UdpPorts) (target : MappedRemote) (appPort : UInt16) :
    Option (UdpPorts × Option (UInt16 × UInt16)) :=
  let client : MappedRemote := ⟨target.remote, appPort⟩
  let mapped := (state.clientPorts.find client).getD 0
  if mapped = 0 then
    match findPort state.returnPorts target.remote state.nextClientPort with
    | none => none
    | some none => some ({ state with clientPorts := state.clientPorts.remove client }, none)
    | some (some port) =>
      let handles :=
        match state.handles.find target with
        | some handle =>
          state.handles.insertOrAssign target { handle with cports := handle.cports ++ [client] }
        | none => state.handles
      some ({ state with
        clientPorts := state.clientPorts.insertOrAssign client port
        returnPorts := state.returnPorts.emplace ⟨target.remote, port⟩ appPort
        handles := handles }, some (port, target.port))
  else some (state, some (mapped, target.port))

/-! ## Mapping and unmapping -/

def mapUdpRemotePort (state : UdpPorts) (remote : NetworkAddress) (port : UInt16)
    (drawn : EphemeralPort) (session : InitiateOutcome) (socket : Option UInt16) : UdpPorts :=
  let state := if state.nextClientPort = 0 then { state with nextClientPort := drawn.1 } else state
  match session with
  | .threw => state
  | .unreachable => state
  | .available =>
    match state.handles.find ⟨remote, port⟩ with
    | some handle =>
      { state with
        handles := state.handles.insertOrAssign ⟨remote, port⟩
          { handle with holders := handle.holders + 1 } }
    | none =>
      match socket with
      | none => state
      | some socket =>
        { state with handles := state.handles.emplace ⟨remote, port⟩ ⟨socket, [], 1⟩ }

def release (remote : NetworkAddress) (state : UdpPorts) (client : MappedRemote) : UdpPorts :=
  match state.clientPorts.find client with
  | none => state
  | some port =>
    { state with
      returnPorts := state.returnPorts.remove ⟨remote, port⟩
      clientPorts := state.clientPorts.remove client }

def unmapUdpRemotePort (state : UdpPorts) (remote : NetworkAddress) (port : UInt16) : UdpPorts :=
  match state.handles.find ⟨remote, port⟩ with
  | none => state
  | some handle =>
    if 0 < handle.holders - 1 then
      { state with
        handles := state.handles.insertOrAssign ⟨remote, port⟩
          { handle with holders := handle.holders - 1 } }
    else
      let released := handle.cports.foldl (release remote) state
      { released with handles := released.handles.remove ⟨remote, port⟩ }

def handleUdpFromRemote (state : UdpPorts) (remote : NetworkAddress) (source dest : UInt16) :
    Option (UInt16 × UInt16) :=
  match state.handles.find ⟨remote, source⟩ with
  | none => none
  | some handle =>
    match state.returnPorts.find ⟨remote, dest⟩ with
    | none => none
    | some appPort => some (handle.socket, appPort)

end UdpPorts

/-- What can happen to the tables. -/
inductive UdpAction where
  | map (remote : NetworkAddress) (port : UInt16) (drawn : EphemeralPort)
      (session : InitiateOutcome) (socket : Option UInt16)
  | unmap (remote : NetworkAddress) (port : UInt16)
  | sent (target : MappedRemote) (appPort : UInt16) (session : InitiateOutcome)
  | returned (remote : NetworkAddress) (source dest : UInt16)
deriving DecidableEq

namespace UdpPorts

def step (state : UdpPorts) : UdpAction → UdpPorts
  | .map remote port drawn session socket => state.mapUdpRemotePort remote port drawn session socket
  | .unmap remote port => state.unmapUdpRemotePort remote port
  | .sent target appPort session =>
    if (state.handles.find target).isSome ∧ session = .available then
      match state.localPacket target appPort with
      | some (after, _) => after
      | none => state
    else state
  | .returned _ _ _ => state

/-! ## The search for a pseudo-port -/

theorem toNat_nextPort {port : UInt16} (h : 1024 ≤ port.toNat) :
    (nextPort port).toNat = 1024 + (port.toNat - 1024 + 1) % 64512 := by
  have hlt : port.toNat < 65536 := port.toNat_lt
  have hsum : (port + 1).toNat = (port.toNat + 1) % 65536 := by
    rw [UInt16.toNat_add]
    rfl
  rw [nextPort]
  by_cases hlast : port.toNat = 65535
  · have hwraps : (port + 1).toNat < 1024 := by omega
    rw [if_pos (UInt16.lt_iff_toNat_lt.mpr hwraps), hlast]
    rfl
  · have hgoes : ¬(port + 1).toNat < 1024 := by omega
    rw [if_neg fun hless => hgoes (UInt16.lt_iff_toNat_lt.mp hless)]
    omega

theorem toNat_nextPort_iterate {start : UInt16} (h : 1024 ≤ start.toNat) (steps : Nat) :
    (nextPort^[steps] start).toNat = 1024 + (start.toNat - 1024 + steps) % 64512 := by
  have hlt : start.toNat < 65536 := start.toNat_lt
  induction steps with
  | zero =>
    rw [Function.iterate_zero_apply]
    omega
  | succ steps ih =>
    rw [Function.iterate_succ_apply', toNat_nextPort (by omega), ih]
    omega

theorem exists_nextPort_iterate {start port : UInt16} (hstart : 1024 ≤ start.toNat)
    (hport : 1024 ≤ port.toNat) : ∃ steps, nextPort^[steps] start = port := by
  have hlt : start.toNat < 65536 := start.toNat_lt
  have hlt' : port.toNat < 65536 := port.toNat_lt
  refine ⟨port.toNat + 64512 - start.toNat, UInt16.toNat_inj.mp ?_⟩
  rw [toNat_nextPort_iterate hstart]
  omega

theorem findPort_ends (returnPorts : Table MappedRemote UInt16) (remote : NetworkAddress)
    {start : UInt16} (h : 1024 ≤ start.toNat) :
    ∃ result, findPort returnPorts remote start = some result ∧ (∀ port, result = some port →
        1024 ≤ port.toNat ∧ returnPorts.find ⟨remote, port⟩ = none) ∧
      (result = none → ∀ port : UInt16, 1024 ≤ port.toNat →
        (returnPorts.find ⟨remote, port⟩).isSome = true) := by
  have hlt : start.toNat < 65536 := start.toNat_lt
  have hperiod : nextPort^[64512] start = start := by
    refine UInt16.toNat_inj.mp ?_
    rw [toNat_nextPort_iterate h]
    omega
  obtain ⟨result, hresult, hnone⟩ := @CyclicScan.scan_cycle UInt16 _ nextPort
    (fun port => (returnPorts.find ⟨remote, port⟩).isNone) start 64512 (by omega) hperiod
  refine ⟨result, hresult, ?_, ?_⟩
  · rintro port rfl
    obtain ⟨hfree, steps, rfl⟩ := CyclicScan.scan_found hresult
    refine ⟨?_, Option.isNone_iff_eq_none.mp hfree⟩
    rw [toNat_nextPort_iterate h]
    exact Nat.le_add_right 1024 _
  · intro hfails port hport
    obtain ⟨steps, rfl⟩ := exists_nextPort_iterate h hport
    exact Option.isNone_eq_false_iff.mp (hnone hfails steps)

/-! ## What the tables keep -/

def Inverse (state : UdpPorts) : Prop :=
  ∀ remote appPort port, state.clientPorts.find ⟨remote, appPort⟩ = some port ↔
    state.returnPorts.find ⟨remote, port⟩ = some appPort

structure Wf (state : UdpPorts) : Prop where
  inverse : state.Inverse
  pseudo : ∀ client port, state.clientPorts.find client = some port → 1024 ≤ port.toNat
  start : state.nextClientPort = 0 ∨ 1024 ≤ state.nextClientPort.toNat
  started : ∀ target, state.handles.find target ≠ none → state.nextClientPort ≠ 0
  listed : ∀ target handle, state.handles.find target = some handle →
    ∀ client ∈ handle.cports, client.remote = target.remote ∧ state.clientPorts.find client ≠ none
  owner : ∀ target handle target' handle' client, state.handles.find target = some handle →
    state.handles.find target' = some handle' → client ∈ handle.cports →
    client ∈ handle'.cports → target = target'

theorem wf_init : init.Wf where
  inverse _ _ _ := by simp [init]
  pseudo _ _ h := by simp [init] at h
  start := .inl rfl
  started _ h := by simp [init] at h
  listed _ _ h := by simp [init] at h
  owner _ _ _ _ _ h := by simp [init] at h

variable {state : UdpPorts}

theorem Wf.le_nextClientPort (h : state.Wf) {target : MappedRemote}
    (htarget : state.handles.find target ≠ none) : 1024 ≤ state.nextClientPort.toNat :=
  h.start.resolve_left (h.started target htarget)

/-! ### Releasing -/

variable (remote : NetworkAddress)

theorem release_handles (client : MappedRemote) :
    (state.release remote client).handles = state.handles ∧
      (state.release remote client).nextClientPort = state.nextClientPort := by
  rw [release]
  cases state.clientPorts.find client with
  | none => exact ⟨rfl, rfl⟩
  | some port => exact ⟨rfl, rfl⟩

theorem release_clientPorts (client other : MappedRemote) :
    (state.release remote client).clientPorts.find other =
      if other = client then none else state.clientPorts.find other := by
  rw [release]
  cases hfind : state.clientPorts.find client with
  | none =>
    dsimp only
    split
    · next heq => rw [heq, hfind]
    · rfl
  | some port => exact Table.find_remove _ _ _

theorem Inverse.release (h : state.Inverse) (client : MappedRemote) :
    (state.release client.remote client).Inverse := by
  obtain ⟨remote, appPort⟩ := client
  rw [UdpPorts.release]
  cases hfind : state.clientPorts.find ⟨remote, appPort⟩ with
  | none => exact h
  | some port =>
    intro remote' appPort' port'
    dsimp only
    rw [Table.find_remove, Table.find_remove]
    simp only [MappedRemote.mk.injEq]
    -- the two removals hit the same pair, as each table has one entry for it
    by_cases hclient : remote' = remote ∧ appPort' = appPort
    · obtain ⟨rfl, rfl⟩ := hclient
      rw [if_pos ⟨rfl, rfl⟩]
      by_cases hport : port' = port
      · rw [if_pos ⟨rfl, hport⟩]
        simp
      · rw [if_neg fun hsame => hport hsame.2, ← h]
        simp only [hfind, Option.some.injEq, reduceCtorEq, false_iff]
        exact Ne.symm hport
    · rw [if_neg hclient]
      by_cases hport : remote' = remote ∧ port' = port
      · obtain ⟨rfl, rfl⟩ := hport
        rw [if_pos ⟨rfl, rfl⟩, h]
        have hback := (h remote' appPort port').mp hfind
        rw [hback]
        simp only [Option.some.injEq, reduceCtorEq, iff_false]
        exact fun hsame => hclient ⟨rfl, hsame.symm⟩
      · rw [if_neg hport]
        exact h remote' appPort' port'

theorem releaseAll_spec (clients : List MappedRemote)
    (hremote : ∀ client ∈ clients, client.remote = remote) (h : state.Inverse) :
    let after := clients.foldl (release remote) state
    after.Inverse ∧ after.handles = state.handles ∧ after.nextClientPort = state.nextClientPort ∧
      ∀ client, after.clientPorts.find client =
        if client ∈ clients then none else state.clientPorts.find client := by
  induction clients generalizing state with
  | nil => exact ⟨h, rfl, rfl, fun client => by simp⟩
  | cons first clients ih =>
    obtain ⟨rfl, hothers⟩ := List.forall_mem_cons.mp hremote
    obtain ⟨hinverse, hhandles, hnext, hfind⟩ := ih hothers (h.release first)
    obtain ⟨hhandles', hnext'⟩ := @release_handles state first.remote first
    refine ⟨hinverse, hhandles.trans hhandles', hnext.trans hnext', fun client => ?_⟩
    rw [List.foldl_cons, hfind, release_clientPorts]
    by_cases hmem : client ∈ clients
    · simp [hmem]
    · by_cases hfirst : client = first
      · simp [hfirst]
      · simp [hmem, hfirst]

/-! ### Every action keeps the invariant -/

section

variable (h : state.Wf)

include h

theorem Wf.withHandles {handles : Table MappedRemote UdpHandle}
    (hstarted : ∀ target, handles.find target ≠ none → state.nextClientPort ≠ 0)
    (hlisted : ∀ target handle, handles.find target = some handle → ∀ client ∈ handle.cports,
      ∃ old, state.handles.find target = some old ∧ client ∈ old.cports) :
    { state with handles := handles }.Wf where
  inverse := h.inverse
  pseudo := h.pseudo
  start := h.start
  started := hstarted
  listed target handle hfind client hmem := by
    obtain ⟨old, hold, hbefore⟩ := hlisted target handle hfind client hmem
    exact h.listed target old hold client hbefore
  owner target handle target' handle' client hfind hfind' hmem hmem' := by
    obtain ⟨old, hold, hbefore⟩ := hlisted target handle hfind client hmem
    obtain ⟨old', hold', hbefore'⟩ := hlisted target' handle' hfind' client hmem'
    exact h.owner target old target' old' client hold hold' hbefore hbefore'

theorem Wf.setHolders {target : MappedRemote} {handle : UdpHandle}
    (hfind : state.handles.find target = some handle) (holders : Int) :
    { state with
      handles := state.handles.insertOrAssign target { handle with holders := holders } }.Wf := by
  refine h.withHandles (fun _ _ => h.started target ?_) ?_
  · rw [hfind]
    exact Option.some_ne_none handle
  · intro target' handle' hfind' client hmem
    rw [Table.find_insertOrAssign] at hfind'
    split at hfind'
    · next heq =>
      cases hfind'
      exact ⟨handle, heq ▸ hfind, hmem⟩
    · exact ⟨handle', hfind', hmem⟩

theorem Wf.draw (drawn : EphemeralPort) :
    (if state.nextClientPort = 0 then { state with nextClientPort := drawn.1 } else state).Wf ∧
      (if state.nextClientPort = 0 then { state with nextClientPort := drawn.1 }
        else state).nextClientPort ≠ 0 := by
  have hpositive : drawn.1 ≠ 0 := by
    intro hzero
    have hlow := drawn.2.1
    rw [hzero] at hlow
    exact absurd hlow (by decide)
  by_cases hzero : state.nextClientPort = 0
  · rw [if_pos hzero]
    refine ⟨⟨h.inverse, h.pseudo, .inr ?_, fun _ _ => hpositive, h.listed, h.owner⟩, hpositive⟩
    exact le_trans (by decide) drawn.2.1
  · rw [if_neg hzero]
    exact ⟨h, hzero⟩

theorem Wf.mapUdpRemotePort (remote : NetworkAddress) (port : UInt16)
    (drawn : EphemeralPort) (session : InitiateOutcome) (socket : Option UInt16) :
    (state.mapUdpRemotePort remote port drawn session socket).Wf := by
  obtain ⟨hdrawn, hnonzero⟩ := h.draw drawn
  unfold UdpPorts.mapUdpRemotePort
  generalize (if state.nextClientPort = 0 then { state with nextClientPort := drawn.1 }
    else state) = started at hdrawn hnonzero
  cases session with
  | threw => exact hdrawn
  | unreachable => exact hdrawn
  | available =>
    dsimp only
    cases hfind : started.handles.find ⟨remote, port⟩ with
    | some handle => exact hdrawn.setHolders hfind _
    | none =>
      cases socket with
      | none => exact hdrawn
      | some socket =>
        refine hdrawn.withHandles (fun _ _ => hnonzero) ?_
        intro target handle hhandle client hmem
        rw [Table.find_emplace] at hhandle
        split at hhandle
        · cases hhandle
          exact absurd hmem List.not_mem_nil
        · exact ⟨handle, hhandle, hmem⟩

theorem Wf.removeHandle {target : MappedRemote} {handle : UdpHandle}
    (hfind : state.handles.find target = some handle) :
    Wf { handle.cports.foldl (release target.remote) state with
      handles := (handle.cports.foldl (release target.remote) state).handles.remove target } := by
  obtain ⟨hinverse, hhandles, hnext, hclients⟩ := releaseAll_spec target.remote handle.cports
    (fun client hmem => (h.listed target handle hfind client hmem).1) h.inverse
  have hkept : ∀ target' other, ((handle.cports.foldl (release target.remote) state).handles.remove
      target).find target' = some other →
      target' ≠ target ∧ state.handles.find target' = some other := by
    intro target' other hother
    rw [Table.find_remove, hhandles] at hother
    split at hother
    · cases hother
    · next hne => exact ⟨hne, hother⟩
  refine ⟨hinverse, ?_, ?_, ?_, ?_, ?_⟩
  · intro client pseudo hpseudo
    rw [hclients] at hpseudo
    split at hpseudo
    · cases hpseudo
    · exact h.pseudo client pseudo hpseudo
  · rw [hnext]
    exact h.start
  · intro _ _
    rw [hnext]
    exact h.started target (hfind ▸ Option.some_ne_none handle)
  · intro target' other hother client hmem
    obtain ⟨hne, hbefore⟩ := hkept target' other hother
    obtain ⟨hremote, hlive⟩ := h.listed target' other hbefore client hmem
    refine ⟨hremote, ?_⟩
    -- an application port of another socket is not among the released ones
    rw [hclients, if_neg fun hreleased =>
      hne (h.owner target' other target handle client hbefore hfind hmem hreleased)]
    exact hlive
  · intro target₁ other₁ target₂ other₂ client hother₁ hother₂
    exact h.owner target₁ other₁ target₂ other₂ client (hkept target₁ other₁ hother₁).2
      (hkept target₂ other₂ hother₂).2

theorem Wf.unmapUdpRemotePort (remote : NetworkAddress) (port : UInt16) :
    (state.unmapUdpRemotePort remote port).Wf := by
  rw [UdpPorts.unmapUdpRemotePort]
  cases hfind : state.handles.find ⟨remote, port⟩ with
  | none => exact h
  | some handle =>
    dsimp only
    by_cases hheld : 0 < handle.holders - 1
    · rw [if_pos hheld]
      exact h.setHolders hfind _
    · rw [if_neg hheld]
      exact h.removeHandle hfind

theorem Wf.localPacket_cases {target : MappedRemote} {handle : UdpHandle}
    (hfind : state.handles.find target = some handle) (appPort : UInt16) :
    (∃ port, state.clientPorts.find ⟨target.remote, appPort⟩ = some port ∧
      state.localPacket target appPort = some (state, some (port, target.port))) ∨
    (state.clientPorts.find ⟨target.remote, appPort⟩ = none ∧ (∀ port : UInt16, 1024 ≤ port.toNat →
        (state.returnPorts.find ⟨target.remote, port⟩).isSome = true) ∧
      state.localPacket target appPort = some ({ state with
        clientPorts := state.clientPorts.remove ⟨target.remote, appPort⟩ }, none)) ∨
    ∃ port : UInt16, state.clientPorts.find ⟨target.remote, appPort⟩ = none ∧
      1024 ≤ port.toNat ∧ state.returnPorts.find ⟨target.remote, port⟩ = none ∧
      state.localPacket target appPort = some ({ state with
        clientPorts := state.clientPorts.insertOrAssign ⟨target.remote, appPort⟩ port
        returnPorts := state.returnPorts.emplace ⟨target.remote, port⟩ appPort
        handles := state.handles.insertOrAssign target
          { handle with cports := handle.cports ++ [⟨target.remote, appPort⟩] } },
        some (port, target.port)) := by
  have hstart := h.le_nextClientPort (hfind ▸ Option.some_ne_none handle)
  unfold localPacket
  dsimp only
  cases hclient : state.clientPorts.find ⟨target.remote, appPort⟩ with
  | some port =>
    have hnonzero : port ≠ 0 := by
      rintro rfl
      exact absurd (h.pseudo _ _ hclient) (by decide)
    exact .inl ⟨port, rfl, if_neg hnonzero⟩
  | none =>
    right
    obtain ⟨result, hresult, hfound, hfails⟩ := findPort_ends state.returnPorts target.remote hstart
    rw [Option.getD_none, if_pos rfl, hresult]
    cases result with
    | none => exact .inl ⟨rfl, hfails rfl, rfl⟩
    | some port =>
      obtain ⟨hlow, hfree⟩ := hfound port rfl
      rw [hfind]
      exact .inr ⟨port, rfl, hlow, hfree, rfl⟩

theorem Wf.forget {client : MappedRemote}
    (hclient : state.clientPorts.find client = none) :
    Wf { state with clientPorts := state.clientPorts.remove client } := by
  have hsame : ∀ other, (state.clientPorts.remove client).find other =
      state.clientPorts.find other := by
    intro other
    rw [Table.find_remove]
    split
    · next heq => rw [heq, hclient]
    · rfl
  refine ⟨?_, ?_, h.start, h.started, ?_, h.owner⟩
  · intro remote appPort port
    rw [hsame]
    exact h.inverse remote appPort port
  · intro other port
    rw [hsame]
    exact h.pseudo other port
  · intro target handle hfind other hmem
    rw [hsame]
    exact h.listed target handle hfind other hmem

end

theorem Inverse.allocate (h : state.Inverse) {remote : NetworkAddress} {appPort port : UInt16}
    (hclient : state.clientPorts.find ⟨remote, appPort⟩ = none)
    (hfree : state.returnPorts.find ⟨remote, port⟩ = none)
    (handles : Table MappedRemote UdpHandle) :
    Inverse { state with
      clientPorts := state.clientPorts.insertOrAssign ⟨remote, appPort⟩ port
      returnPorts := state.returnPorts.emplace ⟨remote, port⟩ appPort
      handles := handles } := by
  intro remote' appPort' port'
  dsimp only
  rw [Table.find_insertOrAssign, Table.find_emplace]
  simp only [MappedRemote.mk.injEq, hfree, and_true]
  by_cases happ : remote' = remote ∧ appPort' = appPort
  · obtain ⟨rfl, rfl⟩ := happ
    rw [if_pos ⟨rfl, rfl⟩]
    by_cases hport : port' = port
    · simp [hport]
    · rw [if_neg fun hsame => hport hsame.2, ← h, hclient]
      simp only [Option.some.injEq, reduceCtorEq, iff_false]
      exact Ne.symm hport
  · rw [if_neg happ]
    by_cases hport : remote' = remote ∧ port' = port
    · obtain ⟨rfl, rfl⟩ := hport
      rw [if_pos ⟨rfl, rfl⟩, h, hfree]
      simp only [Option.some.injEq, reduceCtorEq, false_iff]
      exact fun hsame => happ ⟨rfl, hsame.symm⟩
    · rw [if_neg hport]
      exact h remote' appPort' port'

theorem listed_append {handles : Table MappedRemote UdpHandle}
    {target target' client new : MappedRemote} {handle other : UdpHandle}
    (hfind : handles.find target = some handle)
    (hother : (handles.insertOrAssign target
      { handle with cports := handle.cports ++ [new] }).find target' = some other)
    (hmem : client ∈ other.cports) :
    (client = new ∧ target' = target) ∨
      ∃ old, handles.find target' = some old ∧ client ∈ old.cports := by
  rw [Table.find_insertOrAssign] at hother
  split at hother
  · next heq =>
    cases hother
    rcases List.mem_append.mp hmem with hold | hnew
    · exact .inr ⟨handle, heq ▸ hfind, hold⟩
    · exact .inl ⟨List.mem_singleton.mp hnew, heq⟩
  · exact .inr ⟨other, hother, hmem⟩

theorem Wf.allocate (h : state.Wf) {target : MappedRemote} {handle : UdpHandle}
    (hfind : state.handles.find target = some handle) {appPort port : UInt16}
    (hclient : state.clientPorts.find ⟨target.remote, appPort⟩ = none) (hlow : 1024 ≤ port.toNat)
    (hfree : state.returnPorts.find ⟨target.remote, port⟩ = none) :
    Wf { state with
      clientPorts := state.clientPorts.insertOrAssign ⟨target.remote, appPort⟩ port
      returnPorts := state.returnPorts.emplace ⟨target.remote, port⟩ appPort
      handles := state.handles.insertOrAssign target
        { handle with cports := handle.cports ++ [⟨target.remote, appPort⟩] } } := by
  -- no socket lists the application port yet, or it would have an entry
  have hunlisted : ∀ target' other, state.handles.find target' = some other →
      (⟨target.remote, appPort⟩ : MappedRemote) ∉ other.cports :=
    fun target' other hother hmem => (h.listed target' other hother _ hmem).2 hclient
  refine ⟨h.inverse.allocate hclient hfree _, ?_, h.start, ?_, ?_, ?_⟩
  · intro client pseudo hpseudo
    rw [Table.find_insertOrAssign] at hpseudo
    split at hpseudo
    · cases hpseudo
      exact hlow
    · exact h.pseudo client pseudo hpseudo
  · intro _ _
    exact h.started target (hfind ▸ Option.some_ne_none handle)
  · intro target' other hother client hmem
    dsimp only
    rw [Table.find_insertOrAssign]
    rcases listed_append hfind hother hmem with ⟨rfl, rfl⟩ | ⟨old, hold, hbefore⟩
    · rw [if_pos rfl]
      exact ⟨rfl, Option.some_ne_none port⟩
    · obtain ⟨hremote, hlive⟩ := h.listed target' old hold client hbefore
      refine ⟨hremote, ?_⟩
      split
      · exact Option.some_ne_none port
      · exact hlive
  · intro target₁ other₁ target₂ other₂ client hother₁ hother₂ hmem₁ hmem₂
    rcases listed_append hfind hother₁ hmem₁ with ⟨rfl, rfl⟩ | ⟨old₁, hold₁, hbefore₁⟩
    · rcases listed_append hfind hother₂ hmem₂ with ⟨-, rfl⟩ | ⟨old₂, hold₂, hbefore₂⟩
      · rfl
      · exact absurd hbefore₂ (hunlisted target₂ old₂ hold₂)
    · rcases listed_append hfind hother₂ hmem₂ with ⟨rfl, rfl⟩ | ⟨old₂, hold₂, hbefore₂⟩
      · exact absurd hbefore₁ (hunlisted target₁ old₁ hold₁)
      · exact h.owner target₁ old₁ target₂ old₂ client hold₁ hold₂ hbefore₁ hbefore₂

theorem Wf.step (h : state.Wf) (action : UdpAction) : (state.step action).Wf := by
  cases action with
  | map remote port drawn session socket =>
    exact h.mapUdpRemotePort remote port drawn session socket
  | unmap remote port => exact h.unmapUdpRemotePort remote port
  | returned remote source dest => exact h
  | sent target appPort session =>
    rw [UdpPorts.step]
    by_cases hsocket : (state.handles.find target).isSome ∧ session = .available
    · rw [if_pos hsocket]
      obtain ⟨handle, hfind⟩ := Option.isSome_iff_exists.mp hsocket.1
      rcases h.localPacket_cases hfind appPort with ⟨port, -, hpacket⟩ |
        ⟨hclient, -, hpacket⟩ | ⟨port, hclient, hlow, hfree, hpacket⟩
      · rw [hpacket]
        exact h
      · rw [hpacket]
        exact h.forget hclient
      · rw [hpacket]
        exact h.allocate hfind hclient hlow hfree
    · rw [if_neg hsocket]
      exact h

theorem wf_run (actions : List UdpAction) : (Run.run step init actions).Wf :=
  Run.run_invariant_of_step step (fun _ action h => h.step action) actions wf_init

/-! ## Return traffic -/

theorem Inverse.handleUdpFromRemote_iff (h : state.Inverse) {remote : NetworkAddress}
    {source dest socket appPort : UInt16} :
    state.handleUdpFromRemote remote source dest = some (socket, appPort) ↔
      (∃ handle, state.handles.find ⟨remote, source⟩ = some handle ∧ handle.socket = socket) ∧
        state.clientPorts.find ⟨remote, appPort⟩ = some dest := by
  rw [h remote appPort dest, handleUdpFromRemote]
  cases hhandle : state.handles.find ⟨remote, source⟩ with
  | none => simp
  | some handle =>
    cases hreturn : state.returnPorts.find ⟨remote, dest⟩ with
    | none => simp
    | some found => simp

/-- What the tables promise in a state. -/
structure PortsMapped (state : UdpPorts) : Prop where
  inverse : state.Inverse
  pseudo : ∀ client port, state.clientPorts.find client = some port → 1024 ≤ port.toNat
  returned : ∀ remote source dest appPort,
    (∃ socket, state.handleUdpFromRemote remote source dest = some (socket, appPort)) ↔
      (state.handles.find ⟨remote, source⟩).isSome ∧
        state.clientPorts.find ⟨remote, appPort⟩ = some dest
  search : ∀ target, (state.handles.find target).isSome →
    ∀ (returnPorts : Table MappedRemote UInt16) (remote : NetworkAddress), ∃ result,
      findPort returnPorts remote state.nextClientPort = some result ∧
        (result = none → ∀ port : UInt16, 1024 ≤ port.toNat →
          (returnPorts.find ⟨remote, port⟩).isSome)
  sent : ∀ target appPort, (state.handles.find target).isSome → ∃ after packet,
    state.localPacket target appPort = some (after, packet) ∧
      (packet = none → ∀ port : UInt16, 1024 ≤ port.toNat →
        (state.returnPorts.find ⟨target.remote, port⟩).isSome) ∧
      ∀ port dest, packet = some (port, dest) →
        dest = target.port ∧ after.clientPorts.find ⟨target.remote, appPort⟩ = some port

theorem Wf.portsMapped (h : state.Wf) : state.PortsMapped where
  inverse := h.inverse
  pseudo := h.pseudo
  returned remote source dest appPort := by
    simp only [h.inverse.handleUdpFromRemote_iff, exists_and_right]
    rw [Option.isSome_iff_exists]
    refine and_congr_left fun _ => ⟨?_, ?_⟩
    · rintro ⟨socket, handle, hfind, -⟩
      exact ⟨handle, hfind⟩
    · rintro ⟨handle, hfind⟩
      exact ⟨handle.socket, handle, hfind, rfl⟩
  search target hsocket returnPorts remote := by
    have hstart := h.le_nextClientPort (Option.isSome_iff_ne_none.mp hsocket)
    obtain ⟨result, hresult, -, hfails⟩ := findPort_ends returnPorts remote hstart
    exact ⟨result, hresult, hfails⟩
  sent target appPort hsocket := by
    obtain ⟨handle, hfind⟩ := Option.isSome_iff_exists.mp hsocket
    rcases h.localPacket_cases hfind appPort with ⟨port, hclient, hpacket⟩ |
      ⟨hclient, htaken, hpacket⟩ | ⟨port, hclient, hlow, hfree, hpacket⟩
    · refine ⟨_, _, hpacket, fun hnone => absurd hnone (Option.some_ne_none _), ?_⟩
      intro port' dest hsent
      cases hsent
      exact ⟨rfl, hclient⟩
    · exact ⟨_, _, hpacket, fun _ => htaken,
        fun port' dest hsent => absurd hsent.symm (Option.some_ne_none _)⟩
    · refine ⟨_, _, hpacket, fun hnone => absurd hnone (Option.some_ne_none _), ?_⟩
      intro port' dest hsent
      cases hsent
      refine ⟨rfl, ?_⟩
      rw [Table.find_insertOrAssign, if_pos rfl]

theorem udpPorts_mapped (actions : List UdpAction) : (Run.run step init actions).PortsMapped :=
  (wf_run actions).portsMapped

/-! ## Unmapping -/

def UndisturbedFor (state : UdpPorts) (users : UInt16 → Prop) (remote : NetworkAddress)
    (port other : UInt16) : Prop :=
  ∀ dest socket appPort, users appPort →
    state.handleUdpFromRemote remote other dest = some (socket, appPort) →
    (state.unmapUdpRemotePort remote port).handleUdpFromRemote remote other dest =
      some (socket, appPort)

theorem Wf.find_unmapUdpRemotePort (h : state.Wf) {remote : NetworkAddress} {port : UInt16}
    {handle : UdpHandle} (hfind : state.handles.find ⟨remote, port⟩ = some handle) :
    (∀ target, target ≠ ⟨remote, port⟩ →
      (state.unmapUdpRemotePort remote port).handles.find target = state.handles.find target) ∧
    ∀ client, (state.unmapUdpRemotePort remote port).clientPorts.find client =
      if ¬1 < handle.holders ∧ client ∈ handle.cports then none
      else state.clientPorts.find client := by
  rw [UdpPorts.unmapUdpRemotePort, hfind]
  dsimp only
  by_cases hheld : 1 < handle.holders
  · rw [if_pos (by omega)]
    refine ⟨fun target hne => ?_, fun client => ?_⟩
    · rw [Table.find_insertOrAssign, if_neg hne]
    · rw [if_neg fun hreleased => hreleased.1 hheld]
  · rw [if_neg (by omega)]
    obtain ⟨-, hhandles, -, hclients⟩ := releaseAll_spec remote handle.cports
      (fun client hmem => (h.listed _ handle hfind client hmem).1) h.inverse
    refine ⟨fun target hne => ?_, fun client => ?_⟩
    · rw [Table.find_remove, if_neg hne, hhandles]
    · simp only [hclients, hheld, not_false_eq_true, true_and]

theorem Wf.undisturbedFor_iff (h : state.Wf) {remote : NetworkAddress} {port other : UInt16}
    {handle : UdpHandle} (users : UInt16 → Prop) (hne : port ≠ other)
    (hfind : state.handles.find ⟨remote, port⟩ = some handle)
    (hother : (state.handles.find ⟨remote, other⟩).isSome) :
    state.UndisturbedFor users remote port other ↔
      1 < handle.holders ∨ ∀ client ∈ handle.cports, ¬users client.port := by
  obtain ⟨handle', hfind'⟩ := Option.isSome_iff_exists.mp hother
  have hkey : (⟨remote, other⟩ : MappedRemote) ≠ ⟨remote, port⟩ := by
    simp only [ne_eq, MappedRemote.mk.injEq, true_and]
    exact Ne.symm hne
  obtain ⟨hhandles, hclients⟩ := h.find_unmapUdpRemotePort hfind
  -- the other socket stays, so it depends on the entries alone
  have hafter (dest socket appPort : UInt16) :=
    @Inverse.handleUdpFromRemote_iff _ (h.unmapUdpRemotePort remote port).inverse remote other
      dest socket appPort
  simp only [hhandles _ hkey, hclients] at hafter
  rw [or_iff_not_imp_left]
  constructor
  · rintro hundisturbed hlast ⟨remote', appPort⟩ hmem huser
    obtain ⟨hremote, hlive⟩ := h.listed _ handle hfind _ hmem
    obtain rfl : remote' = remote := hremote
    obtain ⟨dest, hdest⟩ := Option.ne_none_iff_exists'.mp hlive
    have hdelivered := hundisturbed dest handle'.socket appPort huser
      (h.inverse.handleUdpFromRemote_iff.mpr ⟨⟨handle', hfind', rfl⟩, hdest⟩)
    rw [hafter, if_pos ⟨hlast, hmem⟩] at hdelivered
    exact absurd hdelivered.2.symm (Option.some_ne_none dest)
  · intro hspared dest socket appPort huser hbefore
    rw [h.inverse.handleUdpFromRemote_iff] at hbefore
    rw [hafter, if_neg fun hreleased => hspared hreleased.1 _ hreleased.2 huser]
    exact hbefore

/-- Unmapping a port disturbs another one exactly if nobody else holds it and an application
port in question has got its pseudo-port by sending there. -/
theorem unmap_undisturbed_iff (actions : List UdpAction) (users : UInt16 → Prop)
    (remote : NetworkAddress) (port other : UInt16) (handle : UdpHandle) (hne : port ≠ other)
    (hport : (Run.run step init actions).handles.find ⟨remote, port⟩ = some handle)
    (hother : ((Run.run step init actions).handles.find ⟨remote, other⟩).isSome) :
    (Run.run step init actions).UndisturbedFor users remote port other ↔
      1 < handle.holders ∨ ∀ client ∈ handle.cports, ¬users client.port :=
  (wf_run actions).undisturbedFor_iff users hne hport hother

def udpPeer : NetworkAddress :=
  ⟨⟨List.replicate 32 7, rfl⟩, true⟩

def mapBoth : List UdpAction :=
  [.map udpPeer 1234 ⟨50000, by decide⟩ .available (some 5678),
    .map udpPeer 1235 ⟨50000, by decide⟩ .available (some 5679)]

def sendToSecond : List UdpAction :=
  mapBoth ++ [.sent ⟨udpPeer, 1235⟩ 22334 .available]

theorem unmap_undisturbed_unused :
    (Run.run step init sendToSecond).UndisturbedFor (fun _ => True) udpPeer 1234 1235 :=
  (unmap_undisturbed_iff sendToSecond (fun _ => True) udpPeer 1234 1235 ⟨5678, [], 1⟩ (by decide)
    (by decide +kernel) (by decide +kernel)).mpr (.inr (List.forall_mem_nil _))

def sendToBoth : List UdpAction :=
  mapBoth ++ [.sent ⟨udpPeer, 1234⟩ 22334 .available, .sent ⟨udpPeer, 1235⟩ 22334 .available]

theorem unmap_disturbs_shared :
    ¬(Run.run step init sendToBoth).UndisturbedFor (fun appPort => appPort = 22334) udpPeer
      1234 1235 := by
  intro hundisturbed
  have hbefore : (Run.run step init sendToBoth).handleUdpFromRemote udpPeer 1235 50000 =
      some (5679, 22334) := by decide +kernel
  have hafter : ((Run.run step init sendToBoth).unmapUdpRemotePort udpPeer 1234
      ).handleUdpFromRemote udpPeer 1235 50000 = none := by decide +kernel
  have hdelivered := hundisturbed 50000 5679 22334 rfl hbefore
  rw [hafter] at hdelivered
  exact absurd hdelivered.symm (Option.some_ne_none _)

end UdpPorts
end SessionRouter

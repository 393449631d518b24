import SessionRouter.Lib.Run
import SessionRouter.Link.BuildOnion

/-!
# The table of transit hops of a relay
-/

namespace SessionRouter

open Lib

namespace PathContext

structure Purge (before after : PathContext) : Prop where
  kept : ∀ id ptr, after.getTransitHop id = some ptr → before.getTransitHop id = some ptr
  removed : ∀ id ptr, before.getTransitHop id = some ptr →
    after.getTransitHop id = some ptr ∨ ptr.addr ∈ after.deadHops
  marked : ∀ addr ∈ after.deadHops, addr ∈ before.deadHops ∨
    ∃ id ptr, before.getTransitHop id = some ptr ∧ ptr.addr = addr
  stillDead : ∀ addr ∈ before.deadHops, addr ∈ after.deadHops

theorem Purge.trans {first second third : PathContext} (h : Purge first second)
    (h' : Purge second third) : Purge first third where
  kept id ptr hfind := h.kept id ptr (h'.kept id ptr hfind)
  removed id ptr hfind := by
    rcases h.removed id ptr hfind with hkept | hdead
    · exact h'.removed id ptr hkept
    · exact Or.inr (h'.stillDead _ hdead)
  marked addr hdead := by
    rcases h'.marked addr hdead with hdead | ⟨id, ptr, hfind, haddr⟩
    · exact h.marked addr hdead
    · exact Or.inr ⟨id, ptr, h.kept id ptr hfind, haddr⟩
  stillDead addr hdead := h'.stillDead addr (h.stillDead addr hdead)

theorem purge_dropTransitHopId (ctx : PathContext) (h : HopID) :
    Purge ctx (ctx.dropTransitHopId h) := by
  have hdead : (ctx.dropTransitHopId h).deadHops =
      ((ctx.getTransitHop h).map TransitHopPtr.addr).toList ++ ctx.deadHops := by
    unfold dropTransitHopId getTransitHop
    cases ctx.transitHops.find h <;> rfl
  refine ⟨?_, ?_, ?_, ?_⟩
  · intro id ptr hfind
    rw [getTransitHop_dropTransitHopId] at hfind
    split at hfind
    · cases hfind
    · exact hfind
  · intro id ptr hfind
    rw [getTransitHop_dropTransitHopId, hdead]
    by_cases hid : id = h
    · right
      simp [← hid, hfind]
    · left
      rw [if_neg hid, hfind]
  · intro addr hmem
    rw [hdead, List.mem_append] at hmem
    rcases hmem with hmem | hmem
    · obtain ⟨ptr, hfind, haddr⟩ : ∃ ptr, ctx.getTransitHop h = some ptr ∧ ptr.addr = addr := by
        simpa using hmem
      exact Or.inr ⟨h, ptr, hfind, haddr⟩
    · exact Or.inl hmem
  · intro addr hmem
    rw [hdead]
    exact List.mem_append_right _ hmem

theorem purge_dropTransitHop (ctx : PathContext) (hop : TransitHop) :
    Purge ctx (ctx.dropTransitHop hop) :=
  (purge_dropTransitHopId ctx hop.txid).trans (purge_dropTransitHopId _ hop.rxid)

theorem purge_expireHops (ctx : PathContext) (now : Int) : Purge ctx (ctx.expireHops now) := by
  refine ⟨?_, ?_, ?_, ?_⟩
  · intro id ptr hfind
    rw [getTransitHop_expireHops] at hfind
    exact (Option.filter_eq_some_iff.mp hfind).1
  · intro id ptr hfind
    by_cases hexpired : ptr.hop.isExpired now = true
    · right
      have hvalue : ptr ∈ ctx.transitHops.values := Table.mem_values_iff.mpr ⟨id, hfind⟩
      exact List.mem_append_left _ (List.mem_map_of_mem (List.mem_filter.mpr ⟨hvalue, hexpired⟩))
    · left
      rw [getTransitHop_expireHops, hfind, Option.filter_some, if_pos (by simp [hexpired])]
  · intro addr hmem
    rcases List.mem_append.mp hmem with hmem | hmem
    · obtain ⟨ptr, hptr, rfl⟩ := List.mem_map.mp hmem
      obtain ⟨id, hfind⟩ := Table.mem_values_iff.mp (List.mem_filter.mp hptr).1
      exact Or.inr ⟨id, ptr, hfind, rfl⟩
    · exact Or.inl hmem
  · intro addr hmem
    exact List.mem_append_right _ hmem

structure Holds (ctx : PathContext) (stored : Nat → TransitHop → Prop) : Prop where
  entries : ∀ id ptr, ctx.getTransitHop id = some ptr → stored ptr.addr ptr.hop
  dead : ∀ addr ∈ ctx.deadHops, ∃ hop, stored addr hop
  found : ∀ addr hop, stored addr hop → addr ∉ ctx.deadHops →
    ctx.getTransitHop hop.rxid = some ⟨addr, hop⟩ ∧ ctx.getTransitHop hop.txid = some ⟨addr, hop⟩

variable {ctx : PathContext} {stored : Nat → TransitHop → Prop}

theorem holds_empty (h : ∀ addr hop, ¬ stored addr hop) : Holds empty stored where
  entries id ptr hfind := by cases hfind
  dead addr hmem := by cases hmem
  found addr hop hstored := absurd hstored (h addr hop)

theorem Holds.congr (h : Holds ctx stored) {stored' : Nat → TransitHop → Prop}
    (hsame : ∀ addr hop, stored' addr hop ↔ stored addr hop) : Holds ctx stored' := by
  obtain rfl : stored' = stored := by
    funext addr hop
    exact propext (hsame addr hop)
  exact h

theorem Holds.purge (h : Holds ctx stored) {after : PathContext} (hpurge : Purge ctx after) :
    Holds after stored where
  entries id ptr hfind := h.entries id ptr (hpurge.kept id ptr hfind)
  dead addr hdead := by
    rcases hpurge.marked addr hdead with hdead | ⟨id, ptr, hfind, rfl⟩
    · exact h.dead addr hdead
    · exact ⟨ptr.hop, h.entries id ptr hfind⟩
  found addr hop hstored halive := by
    have hbefore := h.found addr hop hstored fun hdead => halive (hpurge.stillDead addr hdead)
    exact ⟨(hpurge.removed _ _ hbefore.1).resolve_right halive,
      (hpurge.removed _ _ hbefore.2).resolve_right halive⟩

theorem hasTransitHop_eq_false_iff (ctx : PathContext) (hop : TransitHop) :
    ctx.hasTransitHop hop = false ↔
      ctx.getTransitHop hop.rxid = none ∧ ctx.getTransitHop hop.txid = none := by
  simp [hasTransitHop, hasTransitHopId, getTransitHop]

theorem Holds.put (h : Holds ctx stored) {addr : Nat} {hop : TransitHop}
    (hfree : ctx.hasTransitHop hop = false) {stored' : Nat → TransitHop → Prop}
    (hstored' : ∀ other otherHop, stored' other otherHop ↔
      stored other otherHop ∨ (other = addr ∧ otherHop = hop)) :
    Holds (ctx.putTransitHop ⟨addr, hop⟩) stored' where
  entries id ptr hfind := by
    rw [getTransitHop_putTransitHop, Option.or_eq_some_iff] at hfind
    rw [hstored']
    rcases hfind with hfind | ⟨-, hfind⟩
    · exact Or.inl (h.entries id ptr hfind)
    · split at hfind
      · cases hfind
        exact Or.inr ⟨rfl, rfl⟩
      · cases hfind
  dead other hdead := by
    obtain ⟨otherHop, hother⟩ := h.dead other hdead
    exact ⟨otherHop, (hstored' _ _).mpr (Or.inl hother)⟩
  found other otherHop hother halive := by
    rcases (hstored' _ _).mp hother with hother | ⟨rfl, rfl⟩
    · obtain ⟨hrxid, htxid⟩ := h.found other otherHop hother halive
      rw [getTransitHop_putTransitHop, getTransitHop_putTransitHop, hrxid, htxid]
      exact ⟨rfl, rfl⟩
    · obtain ⟨hrxid, htxid⟩ := (hasTransitHop_eq_false_iff ctx otherHop).mp hfree
      rw [getTransitHop_putTransitHop, getTransitHop_putTransitHop, hrxid, htxid]
      simp

theorem Holds.hasTransitHop_of_found (h : Holds ctx stored) {addr : Nat} {hop : TransitHop}
    (hnew : ¬ stored addr hop)
    (hrxid : (ctx.putTransitHop ⟨addr, hop⟩).getTransitHop hop.rxid = some ⟨addr, hop⟩)
    (htxid : (ctx.putTransitHop ⟨addr, hop⟩).getTransitHop hop.txid = some ⟨addr, hop⟩) :
    ctx.hasTransitHop hop = false := by
  have hnone (id : HopID)
      (hfound : (ctx.putTransitHop ⟨addr, hop⟩).getTransitHop id = some ⟨addr, hop⟩) :
      ctx.getTransitHop id = none := by
    rw [getTransitHop_putTransitHop] at hfound
    cases hbefore : ctx.getTransitHop id with
    | none => rfl
    | some ptr =>
      rw [hbefore, Option.some_or] at hfound
      cases hfound
      exact absurd (h.entries id _ hbefore) hnew
  rw [hasTransitHop_eq_false_iff]
  exact ⟨hnone _ hrxid, hnone _ htxid⟩

end PathContext

inductive BuildStatus where
  | pending
  | stored
  | failed
  deriving DecidableEq

structure BuildRecord where
  hop : TransitHop
  status : BuildStatus
  deriving DecidableEq

structure RelayState where
  router : Router
  builds : List BuildRecord

inductive RelayAction where
  | build (env : BuildEnv) (src : NextHop) (frames : Bytes)
  | upstreamReply (addr : Nat) (reply : Option Reply)
  | expireHops (now : Int)
  | dropTransitHop (hop : TransitHop)

namespace RelayState

def start (router : Router) : RelayState :=
  ⟨{ router with pathContext := PathContext.empty }, []⟩

def ctx (state : RelayState) : PathContext :=
  state.router.pathContext

def withCtx (state : RelayState) (ctx : PathContext) : RelayState :=
  { state with router := { state.router with pathContext := ctx } }

def Stored (state : RelayState) (addr : Nat) (hop : TransitHop) : Prop :=
  state.builds[addr]? = some ⟨hop, .stored⟩

end RelayState

namespace Link

variable (suite : CryptoSuite)

def builtHop (router : Router) (now : Int) (src : NextHop) (frames : Bytes) :
    Option TransitHop :=
  match Path.decryptBuildFrame suite (frames.take (frames.length / buildLength)) router.id
      router.secretKey src now with
  | .ok (hop, _) => some hop
  | .error _ => none

def statusAfter : Option Reply → BuildStatus
  | some reply => if reply.isError then .failed else .stored
  | none => .failed

def receiveBuild (state : RelayState) (env : BuildEnv) (src : NextHop) (frames : Bytes) :
    RelayState :=
  match handlePathBuild suite state.router { env with addr := state.builds.length } src
      frames with
  | .respond reply ctx =>
    if reply.isError then state.withCtx ctx
    else
      { state.withCtx ctx with
        builds := state.builds ++
          ((builtHop suite state.router env.now src frames).map
            (BuildRecord.mk · .stored)).toList }
  | .forward _ _ ptr => { state with builds := state.builds ++ [⟨ptr.hop, .pending⟩] }

def receiveReply (state : RelayState) (addr : Nat) (reply : Option Reply) : RelayState :=
  match state.builds[addr]? with
  | some ⟨hop, .pending⟩ =>
    let outcome := handlePathBuildReply state.ctx ⟨addr, hop⟩ reply
    { state.withCtx outcome.1 with
      builds := state.builds.set addr ⟨hop, statusAfter outcome.2⟩ }
  | _ => state

def relayStep (state : RelayState) : RelayAction → RelayState
  | .build env src frames => receiveBuild suite state env src frames
  | .upstreamReply addr reply => receiveReply state addr reply
  | .expireHops now => state.withCtx (state.ctx.expireHops now)
  | .dropTransitHop hop => state.withCtx (state.ctx.dropTransitHop hop)

variable {suite} {state : RelayState}

variable (router : Router) {addr : Nat} {hop : TransitHop}

theorem handlePathBuild_cases (env : BuildEnv) (src : NextHop)
    (frames : Bytes) :
    (∃ reply, handlePathBuild suite router env src frames = .respond reply router.pathContext ∧
      reply.isError = true) ∨
    ∃ hop, builtHop suite router env.now src frames = some hop ∧
      router.pathContext.hasTransitHop hop = false ∧
      (handlePathBuild suite router env src frames = .respond ⟨Messages.okResponse, false⟩
          (router.pathContext.putTransitHop ⟨env.addr, hop⟩) ∨
        ∃ upstream next,
          handlePathBuild suite router env src frames =
            .forward upstream next ⟨env.addr, hop⟩) := by
  unfold handlePathBuild builtHop
  split
  · exact Or.inl ⟨_, rfl, rfl⟩
  · dsimp only
    split
    · exact Or.inl ⟨_, rfl, rfl⟩
    · cases Path.decryptBuildFrame suite (frames.take (frames.length / buildLength)) router.id
        router.secretKey src env.now with
      | error e => exact Or.inl ⟨_, rfl, rfl⟩
      | ok decrypted =>
        obtain ⟨hop, onionNonce⟩ := decrypted
        unfold admitBuild
        dsimp only
        split_ifs with hlifetime htaken hterminal hupstream
        · exact Or.inl ⟨_, rfl, rfl⟩
        · exact Or.inl ⟨_, rfl, rfl⟩
        · exact Or.inr ⟨hop, rfl, by simpa using htaken, Or.inl rfl⟩
        · exact Or.inl ⟨_, rfl, rfl⟩
        · exact Or.inr ⟨hop, rfl, by simpa using htaken, Or.inr ⟨_, _, rfl⟩⟩

theorem stored_append (state : RelayState) (record : BuildRecord) (addr : Nat)
    (hop : TransitHop) :
    (state.builds ++ [record])[addr]? = some ⟨hop, .stored⟩ ↔
      state.Stored addr hop ∨ (addr = state.builds.length ∧ record = ⟨hop, .stored⟩) := by
  unfold RelayState.Stored
  rw [List.getElem?_append]
  split
  · next hlt =>
    have : addr ≠ state.builds.length := by omega
    simp [this]
  · next hge =>
    have hlast : addr - state.builds.length = 0 ↔ addr = state.builds.length := by omega
    rw [List.getElem?_eq_none (not_lt.mp hge), List.getElem?_singleton]
    simp [hlast]

theorem stored_set (hpending : state.builds[addr]? = some ⟨hop, .pending⟩) (status : BuildStatus)
    (other : Nat) (otherHop : TransitHop) :
    (state.builds.set addr ⟨hop, status⟩)[other]? = some ⟨otherHop, .stored⟩ ↔
      state.Stored other otherHop ∨ (other = addr ∧ otherHop = hop ∧ status = .stored) := by
  unfold RelayState.Stored
  by_cases hother : other = addr
  · subst hother
    have hlt : other < state.builds.length := (List.getElem?_eq_some_iff.mp hpending).1
    rw [List.getElem?_set_self hlt, hpending]
    simp [eq_comm]
  · rw [List.getElem?_set_ne (Ne.symm hother)]
    simp [hother]

def IdsFree (state : RelayState) : RelayAction → Prop
  | .upstreamReply addr (some reply) => reply.isError = false →
      ∀ hop, state.builds[addr]? = some ⟨hop, .pending⟩ → state.ctx.hasTransitHop hop = false
  | _ => True

theorem holds_receiveBuild (h : state.ctx.Holds state.Stored) (env : BuildEnv) (src : NextHop)
    (frames : Bytes) :
    (receiveBuild suite state env src frames).ctx.Holds
      (receiveBuild suite state env src frames).Stored := by
  have hcases : _ ∨ ∃ hop, builtHop suite state.router env.now src frames = some hop ∧ _ :=
    handlePathBuild_cases state.router { env with addr := state.builds.length } src frames
  unfold receiveBuild
  rcases hcases with
    ⟨reply, houtcome, herror⟩ | ⟨hop, hbuilt, hfree, houtcome | ⟨upstream, next, houtcome⟩⟩
  · simp only [houtcome, herror, if_true]
    exact h
  · simp only [houtcome, hbuilt]
    apply h.put hfree
    intro other otherHop
    refine (stored_append state ⟨hop, .stored⟩ other otherHop).trans ?_
    simp [eq_comm]
  · simp only [houtcome]
    apply h.congr
    intro other otherHop
    refine (stored_append state ⟨hop, .pending⟩ other otherHop).trans ?_
    simp

section

variable (hpending : state.builds[addr]? = some ⟨hop, .pending⟩)

include hpending

theorem receiveReply_pending (reply : Option Reply) :
    receiveReply state addr reply =
      { state.withCtx (handlePathBuildReply state.ctx ⟨addr, hop⟩ reply).1 with
        builds := state.builds.set addr
          ⟨hop, statusAfter (handlePathBuildReply state.ctx ⟨addr, hop⟩ reply).2⟩ } := by
  simp [receiveReply, hpending]

theorem receiveReply_success {reply : Reply}
    (hsuccess : reply.isError = false) :
    receiveReply state addr (some reply) =
      { state.withCtx (state.ctx.putTransitHop ⟨addr, hop⟩) with
        builds := state.builds.set addr ⟨hop, .stored⟩ } := by
  simp [receiveReply_pending hpending, handlePathBuildReply, hsuccess, statusAfter]

theorem receiveReply_failure {reply : Option Reply}
    (hfailure : ∀ success, reply = some success → success.isError = true) :
    receiveReply state addr reply =
      { state with builds := state.builds.set addr ⟨hop, .failed⟩ } := by
  rw [receiveReply_pending hpending]
  cases reply with
  | none => rfl
  | some reply =>
    have herror := hfailure reply rfl
    simp only [handlePathBuildReply, herror, if_true, statusAfter]
    rfl

end

theorem holds_receiveReply (h : state.ctx.Holds state.Stored) (addr : Nat)
    (reply : Option Reply) (hfree : IdsFree state (.upstreamReply addr reply)) :
    (receiveReply state addr reply).ctx.Holds (receiveReply state addr reply).Stored := by
  by_cases hpending : ∃ hop, state.builds[addr]? = some ⟨hop, .pending⟩
  · obtain ⟨hop, hpending⟩ := hpending
    by_cases hsuccess : ∃ success, reply = some success ∧ success.isError = false
    · obtain ⟨success, rfl, hsuccess⟩ := hsuccess
      rw [receiveReply_success hpending hsuccess]
      apply h.put (hfree hsuccess hop hpending)
      intro other otherHop
      exact (stored_set hpending .stored other otherHop).trans (by simp)
    · have hfailure : ∀ success, reply = some success → success.isError = true := by
        intro success hreply
        by_contra hnot
        exact hsuccess ⟨success, hreply, by simpa using hnot⟩
      rw [receiveReply_failure hpending hfailure]
      apply h.congr
      intro other otherHop
      exact (stored_set hpending .failed other otherHop).trans (by simp)
  · -- no callback waits under this address
    have hsame : receiveReply state addr reply = state := by
      unfold receiveReply
      split
      · next hop hbuild => exact absurd ⟨hop, hbuild⟩ hpending
      · rfl
    rw [hsame]
    exact h

theorem holds_relayStep (action : RelayAction) (h : state.ctx.Holds state.Stored)
    (hfree : IdsFree state action) :
    (relayStep suite state action).ctx.Holds (relayStep suite state action).Stored := by
  cases action with
  | build env src frames => exact holds_receiveBuild h env src frames
  | upstreamReply addr reply => exact holds_receiveReply h addr reply hfree
  | expireHops now => exact h.purge (PathContext.purge_expireHops _ now)
  | dropTransitHop hop => exact h.purge (PathContext.purge_dropTransitHop _ hop)

theorem idsFree_of_found (h : state.ctx.Holds state.Stored) (action : RelayAction)
    (hfound : ∀ addr hop, (relayStep suite state action).Stored addr hop →
      addr ∉ (relayStep suite state action).ctx.deadHops →
      (relayStep suite state action).ctx.getTransitHop hop.rxid = some ⟨addr, hop⟩ ∧
      (relayStep suite state action).ctx.getTransitHop hop.txid = some ⟨addr, hop⟩) :
    IdsFree state action := by
  match action with
  | .build _ _ _ | .upstreamReply _ none | .expireHops _ | .dropTransitHop _ => trivial
  | .upstreamReply addr (some reply) =>
    intro hsuccess hop hpending
    have hnew (other : TransitHop) : ¬ state.Stored addr other := by
      unfold RelayState.Stored
      rw [hpending]
      simp
    have halive : addr ∉ state.ctx.deadHops := by
      intro hdead
      obtain ⟨other, hother⟩ := h.dead addr hdead
      exact hnew other hother
    simp only [relayStep, receiveReply_success hpending hsuccess] at hfound
    have hstored := (stored_set hpending .stored addr hop).mpr (Or.inr ⟨rfl, rfl, rfl⟩)
    obtain ⟨hrxid, htxid⟩ := hfound addr hop hstored halive
    exact h.hasTransitHop_of_found (hnew hop) hrxid htxid

structure TransitConsistent (state : RelayState) : Prop where
  found : ∀ addr hop, state.Stored addr hop → addr ∉ state.ctx.deadHops →
    state.ctx.getTransitHop hop.rxid = some ⟨addr, hop⟩ ∧
    state.ctx.getTransitHop hop.txid = some ⟨addr, hop⟩
  unshared : ∀ addr hop other otherHop, state.Stored addr hop → addr ∉ state.ctx.deadHops →
    state.Stored other otherHop → other ∉ state.ctx.deadHops → addr ≠ other →
    ∀ id ∈ [hop.rxid, hop.txid], id ∉ [otherHop.rxid, otherHop.txid]
  failed : ∀ addr hop, state.builds[addr]? = some ⟨hop, .failed⟩ →
    ∀ id ptr, state.ctx.getTransitHop id = some ptr → ptr.addr ≠ addr

theorem transitConsistent_of_holds (h : state.ctx.Holds state.Stored) :
    TransitConsistent state where
  found := h.found
  unshared addr hop other otherHop hstored halive hother hotherAlive hne id hmem hmem' := by
    have hfound (place : Nat) (hop : TransitHop) (hstored : state.Stored place hop)
        (halive : place ∉ state.ctx.deadHops) (hmem : id ∈ [hop.rxid, hop.txid]) :
        state.ctx.getTransitHop id = some ⟨place, hop⟩ := by
      obtain ⟨hrxid, htxid⟩ := h.found place hop hstored halive
      rcases List.mem_pair.mp hmem with rfl | rfl
      · exact hrxid
      · exact htxid
    have hleft := hfound addr hop hstored halive hmem
    rw [hfound other otherHop hother hotherAlive hmem'] at hleft
    cases hleft
    exact hne rfl
  failed addr hop hfailed id ptr hfind := by
    rintro rfl
    have hstored : state.builds[ptr.addr]? = some ⟨ptr.hop, .stored⟩ := h.entries id ptr hfind
    rw [hfailed] at hstored
    cases hstored

theorem holds_start : (RelayState.start router).ctx.Holds (RelayState.start router).Stored :=
  PathContext.holds_empty fun _ _ hstored => (nomatch hstored)

/-- A relay's table is consistent at every moment of a run exactly if, whenever upstream
reports success, the ids of the build in question have not been given away since they
were checked. -/
theorem transitTable_consistent_iff (suite : CryptoSuite) (router : Router)
    (actions : List RelayAction) :
    (∀ front back, actions = front ++ back →
        TransitConsistent (Run.run (relayStep suite) (RelayState.start router) front)) ↔
      Run.Meets (relayStep suite) IdsFree (RelayState.start router) actions := by
  have hstep (state : RelayState) (action : RelayAction) (h : state.ctx.Holds state.Stored)
      (hfree : IdsFree state action) :
      (relayStep suite state action).ctx.Holds (relayStep suite state action).Stored :=
    holds_relayStep action h hfree
  constructor
  · intro hconsistent
    induction actions using List.reverseRecOn with
    | nil => trivial
    | append_singleton actions action ih =>
      have hmeets := ih fun front back hsplit =>
        hconsistent front (back ++ [action]) (by rw [hsplit, List.append_assoc])
      have hholds := Run.run_invariant _ _ hstep (holds_start router) hmeets
      have hafter := hconsistent (actions ++ [action]) [] (by simp)
      rw [Run.run_append] at hafter
      exact (Run.meets_append _ _ _ _ _).mpr
        ⟨hmeets, idsFree_of_found hholds action hafter.found, trivial⟩
  · rintro hmeets front back rfl
    exact transitConsistent_of_holds
      (Run.run_prefix_invariant _ _ hstep (holds_start router) hmeets)

/-! ### Two clients with the same ids -/

namespace Collision

def frames (client seed : UInt8) : Bytes :=
  let rnd : BuildRandom := ⟨FixedBytes.filled 24 seed, FixedBytes.filled 32 seed,
    FixedBytes.filled 32 (seed + 1), FixedBytes.zero 54⟩
  let hops := clientHops TwoRelays.ids (Meeting.routerId client)
    [TwoRelays.edge, TwoRelays.pivot] [rnd, rnd]
  ((Path.pathBuildOnion TwoRelays.suite hops 1200 fun _ => 0).map Prod.snd).getD []

def env : BuildEnv := TwoRelays.env (Meeting.routerId 1)

def ok : Option Reply := some ⟨Messages.okResponse, false⟩

def actions : List RelayAction :=
  [.build env (.connection 5) (frames 98 10), .build env (.connection 6) (frames 99 20),
    .upstreamReply 0 ok, .upstreamReply 1 ok]

def final : RelayState :=
  Run.run (relayStep TwoRelays.suite) (RelayState.start (Meeting.relay 1 [])) actions

end Collision

theorem transitTable_collision_not_consistent : ¬ TransitConsistent Collision.final := by
  intro hconsistent
  have hrun : (Collision.final.builds[1]?.map BuildRecord.status = some .stored ∧
      Collision.final.ctx.deadHops = []) ∧
      (Collision.final.builds[1]?.bind fun record =>
        Collision.final.ctx.getTransitHop record.hop.rxid).map TransitHopPtr.addr = some 0 := by
    decide +kernel
  obtain ⟨⟨hstatus, halive⟩, hentry⟩ := hrun
  obtain ⟨⟨hop, status⟩, hbuild, rfl⟩ := Option.map_eq_some_iff.mp hstatus
  rw [hbuild, Option.bind_some,
    (hconsistent.found 1 hop hbuild (by simp [halive])).1] at hentry
  cases hentry

end Link
end SessionRouter

import SessionRouter.Link.PathBuild
import SessionRouter.Path.BuildFrame

/-!
# The path build onion
-/

namespace SessionRouter

open Lib Bencode SessionRouter.Path

namespace Link

section Onion

variable {suite : CryptoSuite} {net : Network} {env : RouterID → BuildEnv} {lifetime : Nat}

structure Ready (suite : CryptoSuite) (env : BuildEnv) (router : Router)
    (hop : TransitHop) : Prop where
  isRelay : router.isServiceNode = true
  id_eq : router.id = hop.routerId
  key : suite.edPublic router.secretKey = hop.routerId
  idsFree : router.pathContext.hasTransitHop hop = false
  upstream : hop.terminalHop = false →
    env.hasRc hop.upstream = true ∧ env.relayUnreachable hop.upstream = false

variable {junk : Bytes}

theorem rotateFrames_onion (suite : CryptoSuite) {frame following : Bytes} (secret : SymmKey)
    (nonce : SymmNonce) (fill : Nat → UInt8) (hframe : frame.length = buildFrameSize)
    (hsize : (frame ++ (following ++ junk)).length = buildLength * buildFrameSize) :
    ∃ junk', rotateFrames suite
        (frame ++ (Crypto.xchacha20 suite.toCipherSuite following secret nonce ++ junk))
        buildFrameSize secret nonce fill = following ++ junk' ∧
      (following ++ junk').length = buildLength * buildFrameSize := by
  have hrest : (Crypto.xchacha20 suite.toCipherSuite following secret nonce ++ junk).length =
      (buildLength - 1) * buildFrameSize := by
    simp only [List.length_append, Crypto.length_xchacha20] at hsize ⊢
    rw [hframe] at hsize
    simp only [buildLength, buildFrameSize, buildFrameSizeV0] at hsize ⊢
    omega
  refine ⟨xorStream (fun i => suite.stream secret nonce (i + following.length)) junk ++
    (List.range buildFrameSize).map fill, ?_, ?_⟩
  · rw [rotateFrames, List.drop_left' hframe]
    simp only [List.take_left' hrest, List.drop_left' hrest]
    rw [Crypto.xchacha20, xorStream_append, ← List.append_assoc]
    have hpeel := Crypto.xchacha20_xchacha20 suite.toCipherSuite following secret nonce
    rw [Crypto.xchacha20] at hpeel
    rw [hpeel, Crypto.length_xchacha20]
  · simp only [List.length_append, length_xorStream, List.length_map, List.length_range]
      at hsize ⊢
    omega

def acceptedLifetime (lifetime : Nat) : Bool :=
  1 ≤ lifetime && lifetime ≤ 1380

theorem expiry_accepted_iff (now : Int) (lifetime : Nat) :
    ¬ (now + maxLifetimeAccepted < expiryAfter now lifetime ∨ expiryAfter now lifetime ≤ now) ↔
      acceptedLifetime lifetime = true := by
  simp only [maxLifetimeAccepted, expiryAfter, acceptedLifetime, Bool.and_eq_true,
    decide_eq_true_eq]
  omega

theorem handlePathBuild_frame {router : Router} {relayEnv : BuildEnv} {hop : TransitHop}
    {rnd : BuildRandom} {e : EncodedFrame} (hlaw : suite.Lawful)
    (hready : Ready suite relayEnv router hop) (hconsistent : Consistent hop hop.routerId)
    (hlifetime : lifetime < 65536) (he : encodeFrame suite hop lifetime rnd = some e)
    {frames : Bytes} (hsize : frames.length = buildLength * buildFrameSize)
    (hfirst : frames.take buildFrameSize = e.frame) (src : NextHop) :
    decryptBuildFrame suite (frames.take (frames.length / buildLength)) router.id
        router.secretKey src relayEnv.now =
      .ok (recoveredHop src e.hop relayEnv.now lifetime, e.onionNonce) ∧
    handlePathBuild suite router relayEnv src frames =
      (if acceptedLifetime lifetime then
        if hop.terminalHop then
          .respond ⟨Messages.okResponse, false⟩ (router.pathContext.putTransitHop
            ⟨relayEnv.addr, recoveredHop src e.hop relayEnv.now lifetime⟩)
        else
          .forward hop.upstream
            (rotateFrames suite frames buildFrameSize e.hop.sharedSecret e.onionNonce
              relayEnv.fill)
            ⟨relayEnv.addr, recoveredHop src e.hop relayEnv.now lifetime⟩
      else
        .respond
          ⟨Messages.serializeStatusResponse TransitHopError.invalidLifetime.errorCode, true⟩
          router.pathContext) := by
  have hframe : frames.length / buildLength = buildFrameSize := by
    rw [hsize]
    rfl
  have hdecrypt := decryptBuildFrame_encodeFrame hlaw hready.key hlifetime hconsistent he src
    relayEnv.now
  rw [← hfirst, ← hready.id_eq] at hdecrypt
  rw [hframe]
  refine ⟨hdecrypt, ?_⟩
  have hshape : ¬ (frames.length % buildLength ≠ 0 ∨ buildFrameSize < buildFrameSizeMin ∨
      buildFrameSizeMax < buildFrameSize) := by
    rw [hsize]
    decide
  have hhop := encodeFrame_hop he
  have hrecovered : (recoveredHop src e.hop relayEnv.now lifetime).terminalHop =
      hop.terminalHop ∧
      (recoveredHop src e.hop relayEnv.now lifetime).upstream = hop.upstream := by
    rw [hhop]
    exact ⟨rfl, rfl⟩
  have hfree : router.pathContext.hasTransitHop
      (recoveredHop src e.hop relayEnv.now lifetime) = false := by
    rw [hhop]
    exact hready.idsFree
  simp only [handlePathBuild, hready.isRelay, Bool.not_true, Bool.false_eq_true, if_false,
    hframe, if_neg hshape, hdecrypt, admitBuild]
  by_cases haccepted : acceptedLifetime lifetime = true
  · have hexpiry : ¬ (relayEnv.now + maxLifetimeAccepted <
        (recoveredHop src e.hop relayEnv.now lifetime).expiry ∨
        (recoveredHop src e.hop relayEnv.now lifetime).expiry ≤ relayEnv.now) :=
      (expiry_accepted_iff relayEnv.now lifetime).mpr haccepted
    rw [if_neg hexpiry, hfree, hrecovered.1, hrecovered.2, haccepted]
    cases hterminal : hop.terminalHop with
    | true => rfl
    | false =>
      obtain ⟨hrc, hreachable⟩ := hready.upstream hterminal
      simp [hrc, hreachable, recoveredHop]
  · have hexpiry : relayEnv.now + maxLifetimeAccepted <
        (recoveredHop src e.hop relayEnv.now lifetime).expiry ∨
        (recoveredHop src e.hop relayEnv.now lifetime).expiry ≤ relayEnv.now :=
      not_not.mp (mt (expiry_accepted_iff relayEnv.now lifetime).mp haccepted)
    rw [if_pos hexpiry, if_neg haccepted]

structure StepRecovers (suite : CryptoSuite) (env : BuildEnv) (lifetime : Nat) (src : NextHop)
    (hop : TransitHop) (rnd : BuildRandom) (built : TransitHop) (step : BuildStep) : Prop where
  relay : step.relay = hop.routerId
  size : step.received.length = buildLength * buildFrameSize
  first : (encodeFrame suite hop lifetime rnd).map EncodedFrame.frame =
    some (step.received.take buildFrameSize)
  recovered : ∃ nonce, step.decrypted = .ok (recoveredHop src built env.now lifetime, nonce)

def Recovers (suite : CryptoSuite) (env : RouterID → BuildEnv) (lifetime : Nat) :
    NextHop → List (TransitHop × BuildRandom) → List TransitHop → List BuildStep → Prop
  | _, [], [], [] => True
  | src, (hop, rnd) :: hops, built :: builts, step :: steps =>
    StepRecovers suite (env hop.routerId) lifetime src hop rnd built step ∧
      built.terminalHop = hops.isEmpty ∧
      Recovers suite env lifetime (.router hop.routerId) hops builts steps
  | _, _, _, _ => False

variable {built : List TransitHop} {real : Bytes}

theorem onionFrames_cons_eq_some {hop : TransitHop} {rnd : BuildRandom}
    {rest : List (TransitHop × BuildRandom)}
    (h : onionFrames suite lifetime ((hop, rnd) :: rest) = some (built, real)) :
    ∃ e builts following, encodeFrame suite hop lifetime rnd = some e ∧
      onionFrames suite lifetime rest = some (builts, following) ∧ built = e.hop :: builts ∧
      real = e.frame ++
        Crypto.xchacha20 suite.toCipherSuite following e.hop.sharedSecret e.onionNonce := by
  simp only [onionFrames] at h
  cases hrest : onionFrames suite lifetime rest with
  | none =>
    rw [hrest] at h
    exact absurd h (by simp)
  | some result =>
    obtain ⟨builts, following⟩ := result
    cases he : encodeFrame suite hop lifetime rnd with
    | none =>
      simp only [hrest, he] at h
      exact absurd h (by simp)
    | some e =>
      simp only [hrest, he, Option.some.injEq, Prod.mk.injEq] at h
      exact ⟨e, builts, following, rfl, rfl, h.1.symm, h.2.symm⟩

structure Buildable (hops : List (TransitHop × BuildRandom)) : Prop where
  chain : HopChain (hops.map Prod.fst)
  consistent : ∀ h ∈ hops, Consistent h.1 h.1.routerId

def AllReady (suite : CryptoSuite) (net : Network) (env : RouterID → BuildEnv)
    (hops : List (TransitHop × BuildRandom)) : Prop :=
  ∀ h ∈ hops, ∃ router, net.relay h.1.routerId = some router ∧
    Ready suite (env h.1.routerId) router h.1

theorem buildTurn_recovers {hop : TransitHop} {rnd : BuildRandom}
    {rest : List (TransitHop × BuildRandom)} (hlaw : suite.Lawful) (hlifetime : lifetime < 65536)
    (hconsistent : Consistent hop hop.routerId) {router : Router} {relayEnv : BuildEnv}
    (hready : Ready suite relayEnv router hop)
    (honion : onionFrames suite lifetime ((hop, rnd) :: rest) = some (built, real))
    (hsize : (real ++ junk).length = buildLength * buildFrameSize) (src : NextHop) :
    ∃ recorded builts following junk', built = recorded :: builts ∧
      recorded.terminalHop = hop.terminalHop ∧
      onionFrames suite lifetime rest = some (builts, following) ∧
      (following ++ junk').length = buildLength * buildFrameSize ∧
      StepRecovers suite relayEnv lifetime src hop rnd recorded
        (buildTurn suite router relayEnv src hop.routerId (real ++ junk)) ∧
      (buildTurn suite router relayEnv src hop.routerId (real ++ junk)).outcome =
        (if acceptedLifetime lifetime then
          if hop.terminalHop then
            .respond ⟨Messages.okResponse, false⟩ (router.pathContext.putTransitHop
              ⟨relayEnv.addr, recoveredHop src recorded relayEnv.now lifetime⟩)
          else
            .forward hop.upstream (following ++ junk')
              ⟨relayEnv.addr, recoveredHop src recorded relayEnv.now lifetime⟩
        else
          .respond
            ⟨Messages.serializeStatusResponse TransitHopError.invalidLifetime.errorCode, true⟩
            router.pathContext) := by
  obtain ⟨e, builts, following, he, hrest, hbuilt, hreal⟩ := onionFrames_cons_eq_some honion
  have hframe := length_encodeFrame he
  have hsize' : (e.frame ++ (following ++ junk)).length = buildLength * buildFrameSize := by
    rw [hreal] at hsize
    simpa [Nat.add_assoc] using hsize
  obtain ⟨junk', hrotate, hjunk⟩ :=
    rotateFrames_onion suite e.hop.sharedSecret e.onionNonce relayEnv.fill hframe hsize'
  rw [← List.append_assoc, ← hreal] at hrotate
  have hfirst : (real ++ junk).take buildFrameSize = e.frame := by
    rw [hreal, List.append_assoc]
    exact List.take_left' hframe
  obtain ⟨hdecrypt, hhandle⟩ := handlePathBuild_frame hlaw hready hconsistent hlifetime he hsize
    hfirst src
  rw [hrotate] at hhandle
  have hterminal : e.hop.terminalHop = hop.terminalHop := by rw [encodeFrame_hop he]
  refine ⟨e.hop, builts, following, junk', hbuilt, hterminal, hrest, hjunk, ?_, hhandle⟩
  exact ⟨rfl, hsize, by rw [he]; exact congrArg some hfirst.symm, e.onionNonce, hdecrypt⟩

theorem runBuild_recovers (hlaw : suite.Lawful) (hlifetime : lifetime < 65536)
    (haccepted : acceptedLifetime lifetime = true) (hop : TransitHop) (rnd : BuildRandom)
    (rest : List (TransitHop × BuildRandom)) (hbuildable : Buildable ((hop, rnd) :: rest))
    (hready : AllReady suite net env ((hop, rnd) :: rest))
    (honion : onionFrames suite lifetime ((hop, rnd) :: rest) = some (built, real))
    (hsize : (real ++ junk).length = buildLength * buildFrameSize) (src : NextHop) (fuel : Nat) :
    Recovers suite env lifetime src ((hop, rnd) :: rest) built
      (runBuild suite net env (fuel + rest.length + 1) src hop.routerId (real ++ junk)) := by
  induction rest generalizing hop rnd built real junk src with
  | nil =>
    obtain ⟨router, hrelay, hrelayReady⟩ := hready _ List.mem_cons_self
    obtain ⟨recorded, builts, following, junk', rfl, hterminal, hrest, -, hstep, houtcome⟩ :=
      buildTurn_recovers hlaw hlifetime (hbuildable.consistent _ List.mem_cons_self)
        hrelayReady honion hsize src
    have hlast : hop.terminalHop = true := hbuildable.chain.1
    have hnil : builts = [] := by
      simp only [onionFrames, Option.some.injEq, Prod.mk.injEq] at hrest
      exact hrest.1.symm
    rw [haccepted, hlast] at houtcome
    rw [runBuild_respond hrelay houtcome, hnil]
    exact ⟨hstep, hterminal.trans hlast, trivial⟩
  | cons next rest ih =>
    obtain ⟨nextHop, nextRnd⟩ := next
    obtain ⟨router, hrelay, hrelayReady⟩ := hready _ List.mem_cons_self
    obtain ⟨recorded, builts, following, junk', rfl, hterminal, hrest, hjunk, hstep,
        houtcome⟩ :=
      buildTurn_recovers hlaw hlifetime (hbuildable.consistent _ List.mem_cons_self)
        hrelayReady honion hsize src
    obtain ⟨hinner, -, -, hupstream, hchain⟩ := hbuildable.chain
    have hupstream : hop.upstream = nextHop.routerId := hupstream
    rw [haccepted, hinner, hupstream] at houtcome
    rw [runBuild_forward hrelay houtcome]
    refine ⟨hstep, hterminal.trans hinner, ?_⟩
    exact ih nextHop nextRnd
      ⟨hchain, fun h hmem => hbuildable.consistent h (List.mem_cons_of_mem _ hmem)⟩
      (fun h hmem => hready h (List.mem_cons_of_mem _ hmem)) hrest hjunk (.router hop.routerId)

theorem runBuild_refused (hlaw : suite.Lawful) (hlifetime : lifetime < 65536)
    (hrefused : acceptedLifetime lifetime = false) (hop : TransitHop) (rnd : BuildRandom)
    (rest : List (TransitHop × BuildRandom)) (hbuildable : Buildable ((hop, rnd) :: rest))
    (hready : AllReady suite net env ((hop, rnd) :: rest))
    (honion : onionFrames suite lifetime ((hop, rnd) :: rest) = some (built, real))
    (hsize : (real ++ junk).length = buildLength * buildFrameSize) (src : NextHop) (fuel : Nat) :
    ∃ recorded builts router step, built = recorded :: builts ∧
      net.relay hop.routerId = some router ∧
      runBuild suite net env (fuel + 1) src hop.routerId (real ++ junk) = [step] ∧
      StepRecovers suite (env hop.routerId) lifetime src hop rnd recorded step ∧
      step.outcome = .respond ⟨Messages.serializeStatusResponse
        TransitHopError.invalidLifetime.errorCode, true⟩ router.pathContext := by
  obtain ⟨router, hrelay, hrelayReady⟩ := hready _ List.mem_cons_self
  obtain ⟨recorded, builts, _, _, hbuilt, -, -, -, hstep, houtcome⟩ :=
    buildTurn_recovers hlaw hlifetime (hbuildable.consistent _ List.mem_cons_self)
      hrelayReady honion hsize src
  rw [hrefused] at houtcome
  exact ⟨recorded, builts, router, _, hbuilt, hrelay, runBuild_respond hrelay houtcome _, hstep,
    houtcome⟩

theorem initHops_consistent (ids : Nat → HopID) (drawn : Nat) (rxid : HopID)
    (downstream : NextHop) (contacts : List RelayContact)
    (hrxid : rxid ≠ FixedBytes.zero 16)
    (hnonzero : ∀ i, drawn ≤ i → i + 1 < drawn + contacts.length → ids i ≠ FixedBytes.zero 16)
    (hchain : HopChain (initHops ids drawn rxid downstream contacts))
    (hrouters : contacts.IsChain fun a b => a.routerId ≠ b.routerId) :
    ∀ hop ∈ initHops ids drawn rxid downstream contacts, Consistent hop hop.routerId := by
  induction contacts generalizing drawn rxid downstream with
  | nil =>
    intro hop hmem
    exact absurd hmem List.not_mem_nil
  | cons contact rest ih =>
    cases rest with
    | nil =>
      intro hop hmem
      obtain rfl : hop = _ := List.mem_singleton.mp hmem
      exact ⟨hrxid, hrxid, by simp, by simp⟩
    | cons next rest =>
      intro hop hmem
      rw [List.isChain_cons_cons] at hrouters
      have hid : ids drawn ≠ FixedBytes.zero 16 := by
        refine hnonzero drawn (Nat.le_refl _) ?_
        simp only [List.length_cons]
        omega
      rcases List.mem_cons.mp hmem with rfl | hmem
      · have hids : ids drawn ≠ rxid := by
          cases rest with
          | nil | cons => exact hchain.2.1
        exact ⟨hrxid, hid, by simp [hrouters.1.symm], by simp [hids]⟩
      · refine ih (drawn + 1) (ids drawn) (.router contact.routerId) hid ?_ ?_ hrouters.2
          hop hmem
        · intro i hlower hupper
          refine hnonzero i (by omega) ?_
          simp only [List.length_cons] at hupper ⊢
          omega
        · cases rest with
          | nil | cons => exact hchain.2.2.2.2

theorem length_onionFrames (hops : List (TransitHop × BuildRandom))
    (h : onionFrames suite lifetime hops = some (built, real)) :
    real.length = buildFrameSize * hops.length := by
  induction hops generalizing built real with
  | nil =>
    simp only [onionFrames, Option.some.injEq, Prod.mk.injEq] at h
    rw [← h.2]
    rfl
  | cons hop hops ih =>
    obtain ⟨hop, rnd⟩ := hop
    obtain ⟨e, builts, following, he, hrest, -, rfl⟩ := onionFrames_cons_eq_some h
    rw [List.length_append, Crypto.length_xchacha20, length_encodeFrame he, ih hrest,
      List.length_cons]
    ring

theorem pathBuildOnion_eq_some {hops : List (TransitHop × BuildRandom)} {junk : Nat → UInt8}
    {frames : Bytes} (hcount : hops.length ≤ buildLength)
    (h : pathBuildOnion suite hops lifetime junk = some (built, frames)) :
    ∃ real filler, onionFrames suite lifetime hops = some (built, real) ∧
      frames = real ++ filler ∧ (real ++ filler).length = buildLength * buildFrameSize := by
  unfold pathBuildOnion at h
  cases honion : onionFrames suite lifetime hops with
  | none =>
    rw [honion] at h
    exact absurd h (by simp)
  | some result =>
    obtain ⟨built', real⟩ := result
    simp only [honion, Option.some.injEq, Prod.mk.injEq] at h
    obtain ⟨rfl, rfl⟩ := h
    refine ⟨real, _, rfl, rfl, ?_⟩
    rw [List.length_append, length_onionFrames hops honion, List.length_map, List.length_range,
      ← Nat.mul_add, Nat.mul_comm buildLength]
    congr 1
    omega

def clientHops (ids : Nat → HopID) (clientId : RouterID) (contacts : List RelayContact)
    (rnds : List BuildRandom) : List (TransitHop × BuildRandom) :=
  (initHops ids 1 (ids 0) (.router clientId) contacts).zip rnds

theorem clientHops_buildable {ids : Nat → HopID} (clientId : RouterID)
    {contacts : List RelayContact} {rnds : List BuildRandom} (hne : contacts ≠ [])
    (hrnds : rnds.length = contacts.length)
    (hnonzero : ∀ i < contacts.length, ids i ≠ FixedBytes.zero 16)
    (hdistinct : ∀ j < contacts.length, ∀ i < j, ids i ≠ ids j)
    (hrouters : contacts.IsChain fun a b => a.routerId ≠ b.routerId) :
    Buildable (clientHops ids clientId contacts rnds) := by
  have hpos : 0 < contacts.length := List.length_pos_iff.mpr hne
  have hchain : HopChain (initHops ids 1 (ids 0) (.router clientId) contacts) := by
    refine initHops_hopChain ids 0 (.router clientId) contacts hne ?_
    intro i _ hi
    exact (hdistinct (i + 1) (by omega) i (by omega)).symm
  have hconsistent := initHops_consistent ids 1 (ids 0) (.router clientId) contacts
    (hnonzero 0 hpos) (by intro i _ hi; exact hnonzero i (by omega)) hchain hrouters
  have hfst : (clientHops ids clientId contacts rnds).map Prod.fst =
      initHops ids 1 (ids 0) (.router clientId) contacts := by
    rw [clientHops, List.map_fst_zip]
    rw [initHops_length, hrnds]
  refine ⟨by rw [hfst]; exact hchain, ?_⟩
  intro h hmem
  refine hconsistent h.1 ?_
  rw [← hfst]
  exact List.mem_map_of_mem hmem

theorem clientHops_cons (ids : Nat → HopID) (clientId : RouterID) (edge : RelayContact)
    (others : List RelayContact) (rnds : List BuildRandom)
    (hrnds : rnds.length = (edge :: others).length) :
    ∃ hop rnd rest, clientHops ids clientId (edge :: others) rnds = (hop, rnd) :: rest ∧
      hop.routerId = edge.routerId ∧ rest.length = others.length := by
  have hlength := initHops_length ids 1 (ids 0) (.router clientId) (edge :: others)
  cases rnds with
  | nil => exact absurd hrnds (by simp)
  | cons rnd rnds =>
    cases others with
    | nil => refine ⟨_, rnd, [], rfl, rfl, rfl⟩
    | cons next others =>
      refine ⟨_, rnd, _, rfl, rfl, ?_⟩
      simp only [initHops, List.length_cons, Nat.add_right_cancel_iff] at hlength hrnds
      simp only [List.length_zipWith, List.length_cons, hlength, hrnds, Nat.min_self]

/-- The path build onion.  For a path of one to eight hops in any mix of frame
formats, with distinct nonzero hop ids and neighbouring routers distinct, and
any lifetime of at most 65535 seconds:

* if the relays accept the lifetime, the build reaches every relay of the path
  in turn, and each one recovers exactly what the client recorded for its hop;
* if not, the first relay still recovers its hop, refuses it, and the build ends
  there. -/
theorem pathBuildOnion_recovered (hlaw : suite.Lawful) (ids : Nat → HopID)
    (clientId : RouterID) (edge : RelayContact) (others : List RelayContact)
    (hcount : (edge :: others).length ≤ buildLength)
    (hnonzero : ∀ i < (edge :: others).length, ids i ≠ FixedBytes.zero 16)
    (hdistinct : ∀ j < (edge :: others).length, ∀ i < j, ids i ≠ ids j)
    (hrouters : (edge :: others).IsChain fun a b => a.routerId ≠ b.routerId)
    (rnds : List BuildRandom) (hrnds : rnds.length = (edge :: others).length)
    (hlifetime : lifetime ≤ 65535)
    (hready : AllReady suite net env (clientHops ids clientId (edge :: others) rnds))
    (junk : Nat → UInt8) {built : List TransitHop} {frames : Bytes}
    (hbuild : pathBuildOnion suite (clientHops ids clientId (edge :: others) rnds) lifetime junk =
      some (built, frames))
    (src : NextHop) (fuel : Nat) (hfuel : (edge :: others).length ≤ fuel) :
    (acceptedLifetime lifetime = true →
      Recovers suite env lifetime src (clientHops ids clientId (edge :: others) rnds) built
        (runBuild suite net env fuel src edge.routerId frames)) ∧
    (acceptedLifetime lifetime = false →
      ∃ hop rnd rest recorded builts router step,
        clientHops ids clientId (edge :: others) rnds = (hop, rnd) :: rest ∧
        built = recorded :: builts ∧ net.relay edge.routerId = some router ∧
        runBuild suite net env fuel src edge.routerId frames = [step] ∧
        StepRecovers suite (env edge.routerId) lifetime src hop rnd recorded step ∧
        step.outcome = .respond ⟨Messages.serializeStatusResponse
          TransitHopError.invalidLifetime.errorCode, true⟩ router.pathContext) := by
  have hbuildable := clientHops_buildable clientId (List.cons_ne_nil _ _) hrnds hnonzero
    hdistinct hrouters
  obtain ⟨hop, rnd, rest, hhops, hedge, hrest⟩ :=
    clientHops_cons ids clientId edge others rnds hrnds
  rw [hhops] at hbuildable hready hbuild ⊢
  rw [← hedge]
  rw [List.length_cons] at hcount hfuel
  obtain ⟨real, filler, honion, rfl, hsize⟩ := pathBuildOnion_eq_some
    (by rw [List.length_cons, hrest]; exact hcount) hbuild
  obtain ⟨left, rfl⟩ : ∃ left, fuel = left + rest.length + 1 := ⟨fuel - (rest.length + 1), by omega⟩
  have hlifetime : lifetime < 65536 := by omega
  constructor
  · intro haccepted
    exact runBuild_recovers hlaw hlifetime haccepted hop rnd rest hbuildable hready honion hsize
      src left
  · intro hrefused
    obtain ⟨recorded, builts, router, step, hbuilt, hrelay, hrun, hstep, houtcome⟩ :=
      runBuild_refused hlaw hlifetime hrefused hop rnd rest hbuildable hready honion hsize src
        (left + rest.length)
    exact ⟨hop, rnd, rest, recorded, builts, router, step, rfl, hbuilt, hrelay, hrun, hstep,
      houtcome⟩

end Onion

namespace TwoRelays

def suite : CryptoSuite where
  toCipherSuite := Meeting.suite
  edPublic := id
  edScalarmult a b := some (a ^^^ b)
  xPublic := id
  xScalarmult a b := some (a ^^^ b)
  edPublicToX := some
  edSecretToX := id
  blake2b size key personal message := FixedBytes.ofBytes size (message ++ key ++ personal)
  edVerify _ _ _ := false
  scalarReduce n := FixedBytes.ofBytes 32 n.data
  scalarmultNoclamp a b := some (a ^^^ b)

theorem suite_lawful : suite.Lawful where
  ed_symm a b := congrArg some (FixedBytes.xor_comm a b)
  x_symm a b := congrArg some (FixedBytes.xor_comm a b)
  edPublicToX_edPublic _ := rfl

def contact (router : UInt8) (version : UInt8 × UInt8 × UInt8) : RelayContact where
  routerId := Meeting.routerId router
  routerVersion := version
  timestamp := 0
  payload := []

def edge : RelayContact := contact 1 (1, 0, 9)
def pivot : RelayContact := contact 2 (1, 1, 0)

def ids (i : Nat) : HopID := FixedBytes.filled 16 (UInt8.ofNat (i + 1))

def rnds : List BuildRandom :=
  List.replicate 2 ⟨FixedBytes.filled 24 5, FixedBytes.filled 32 6, FixedBytes.filled 32 7,
    FixedBytes.zero 54⟩

def net : Network where
  relay id :=
    if id = Meeting.routerId 1 then some (Meeting.relay 1 [])
    else if id = Meeting.routerId 2 then some (Meeting.relay 2 [])
    else none
  client _ _ := none

def env (_ : RouterID) : BuildEnv where
  now := 0
  hasRc _ := true
  relayUnreachable _ := false
  fill _ := 0
  addr := 0

def hops : List (TransitHop × BuildRandom) :=
  clientHops ids (Meeting.routerId 99) [edge, pivot] rnds

theorem hops_ready : AllReady suite net env hops := by
  intro h hmem
  rcases List.mem_cons.mp hmem with rfl | hmem
  · exact ⟨Meeting.relay 1 [], rfl, rfl, rfl, rfl, rfl, fun _ => ⟨rfl, rfl⟩⟩
  · obtain rfl : h = _ := List.mem_singleton.mp hmem
    exact ⟨Meeting.relay 2 [], rfl, rfl, rfl, rfl, rfl, fun _ => ⟨rfl, rfl⟩⟩

theorem hops_buildable : Buildable hops :=
  clientHops_buildable (Meeting.routerId 99) (List.cons_ne_nil _ _) rfl (by decide) (by decide)
    (by decide)

theorem pathBuildOnion_hops (lifetime : Nat) :
    ∃ built frames, pathBuildOnion suite hops lifetime (fun _ => 0) = some (built, frames) := by
  have hedge (hop : TransitHop) (rnd : BuildRandom) :
      ∃ e, encodeFrame suite hop lifetime rnd = some e := by
    rw [← Option.isSome_iff_exists]
    unfold encodeFrame
    by_cases hversion : hop.version = 0
    · have hsize : ¬ buildFrameSize ≠ buildFrameSizeV0 := not_not.mpr rfl
      rw [if_pos hversion, if_neg hsize, encodeFrameV0_isSome_iff]
      rfl
    · rw [if_neg hversion]
      rfl
  have honion (hops : List (TransitHop × BuildRandom)) :
      (onionFrames suite lifetime hops).isSome := by
    induction hops with
    | nil => rfl
    | cons hop hops ih =>
      obtain ⟨result, hresult⟩ := Option.isSome_iff_exists.mp ih
      obtain ⟨e, he⟩ := hedge hop.1 hop.2
      simp [onionFrames, hresult, he]
  obtain ⟨result, hresult⟩ := Option.isSome_iff_exists.mp (honion hops)
  have hsome : (pathBuildOnion suite hops lifetime fun _ => 0).isSome := by
    simp [pathBuildOnion, hresult]
  obtain ⟨⟨built, frames⟩, hbuild⟩ := Option.isSome_iff_exists.mp hsome
  exact ⟨built, frames, hbuild⟩

end TwoRelays

theorem pathBuildOnion_recovered_twoRelays : ∃ built frames,
      pathBuildOnion TwoRelays.suite TwoRelays.hops 1200 (fun _ => 0) = some (built, frames) ∧
      Recovers TwoRelays.suite TwoRelays.env 1200 (.connection 5) TwoRelays.hops built
        (runBuild TwoRelays.suite TwoRelays.net TwoRelays.env 2 (.connection 5)
          (Meeting.routerId 1) frames) := by
  obtain ⟨built, frames, hbuild⟩ := TwoRelays.pathBuildOnion_hops 1200
  refine ⟨built, frames, hbuild, ?_⟩
  exact (pathBuildOnion_recovered TwoRelays.suite_lawful TwoRelays.ids (Meeting.routerId 99)
    TwoRelays.edge [TwoRelays.pivot] (by decide) (by decide) (by decide) (by decide)
    TwoRelays.rnds rfl (by decide) TwoRelays.hops_ready (fun _ => 0) hbuild (.connection 5) 2
    (by decide)).1 (by decide)

theorem runBuild_zero_lifetime_not_recovered : ∃ built frames,
      pathBuildOnion TwoRelays.suite TwoRelays.hops 0 (fun _ => 0) = some (built, frames) ∧
      ¬ Recovers TwoRelays.suite TwoRelays.env 0 (.connection 5) TwoRelays.hops built
        (runBuild TwoRelays.suite TwoRelays.net TwoRelays.env 2 (.connection 5)
          (Meeting.routerId 1) frames) := by
  obtain ⟨built, frames, hbuild⟩ := TwoRelays.pathBuildOnion_hops 0
  refine ⟨built, frames, hbuild, ?_⟩
  obtain ⟨real, filler, honion, rfl, hsize⟩ := pathBuildOnion_eq_some (by decide) hbuild
  obtain ⟨_, builts, _, _, rfl, -, hrun, -, -⟩ :=
    runBuild_refused TwoRelays.suite_lawful (by decide) (by decide) _ _ _
      TwoRelays.hops_buildable TwoRelays.hops_ready honion hsize (.connection 5) 1
  intro hrecovers
  have hrun : runBuild TwoRelays.suite TwoRelays.net TwoRelays.env 2 (.connection 5)
      (Meeting.routerId 1) (real ++ filler) = [_] := hrun
  rw [hrun] at hrecovers
  obtain ⟨-, -, hrest⟩ := hrecovers
  cases builts with
  | nil => exact hrest
  | cons _ _ => exact hrest

end Link
end SessionRouter

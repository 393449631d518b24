import SessionRouter.Link.TransitTable

/-!
# The replies to a path build
-/

namespace SessionRouter

open Lib SessionRouter.Path

def PathContext.Keeps (before after : PathContext) : Prop :=
  ∀ id ptr, before.getTransitHop id = some ptr → after.getTransitHop id = some ptr

theorem PathContext.keeps_put (ctx : PathContext) (ptr : TransitHopPtr) :
    ctx.Keeps (ctx.putTransitHop ptr) := by
  intro id stored hstored
  rw [getTransitHop_putTransitHop, hstored, Option.some_or]

namespace Network

def store (net : Network) (id : RouterID) (ctx : PathContext) : Network :=
  { net with
    relay := Function.update net.relay id ((net.relay id).map ({ · with pathContext := ctx })) }

/-- The relays keep the transit hops that they have. -/
def Extends (net net' : Network) : Prop :=
  net'.client = net.client ∧ ∀ id router, net.relay id = some router →
    ∃ ctx, net'.relay id = some { router with pathContext := ctx } ∧ router.pathContext.Keeps ctx

theorem extends_refl (net : Network) : net.Extends net :=
  ⟨rfl, fun _ router hrelay => ⟨router.pathContext, hrelay, fun _ _ => id⟩⟩

variable {net net' : Network}

theorem Extends.store {id : RouterID} {router : Router} {ctx : PathContext}
    (h : net.Extends net') (hrelay : net'.relay id = some router)
    (hkeeps : router.pathContext.Keeps ctx) : net.Extends (net'.store id ctx) := by
  refine ⟨h.1, fun other before hbefore => ?_⟩
  obtain ⟨between, hbetween, hlater⟩ := h.2 other before hbefore
  by_cases hother : other = id
  · subst hother
    obtain rfl := Option.some.inj (hbetween.symm.trans hrelay)
    exact ⟨ctx, (Function.update_self ..).trans (congrArg _ hrelay), fun id ptr hptr =>
      hkeeps id ptr (hlater id ptr hptr)⟩
  · exact ⟨between, (Function.update_of_ne hother _ _).trans hbetween, hlater⟩

theorem Extends.installed {src : NextHop} {hops : List TransitHop} (h : net.Extends net')
    (hinstalled : Installed net src hops) : Installed net' src hops := by
  induction hops generalizing src with
  | nil => trivial
  | cons hop rest ih =>
    obtain ⟨⟨relay, ptr, hrelay, hholds⟩, hrest⟩ := hinstalled
    obtain ⟨ctx, hrelay', hkeeps⟩ := h.2 _ relay hrelay
    exact ⟨⟨_, ptr, hrelay', hholds.isRelay, hholds.id_eq, hkeeps _ _ hholds.underRxid,
      hkeeps _ _ hholds.underTxid, hholds.record⟩, ih hrest⟩

end Network

namespace Link

/-- The replies go from the last relay of a build back to where it came from. -/
def answerBuild (net : Network) : List BuildStep → Network × Option Reply
  | [] => (net, none)
  | step :: steps =>
    match step.outcome with
    | .respond reply ctx => (net.store step.relay ctx, some reply)
    | .forward _ _ ptr =>
      let answered := answerBuild net steps
      match answered.1.relay step.relay with
      | none => (answered.1, none)
      | some router =>
        let settled := handlePathBuildReply router.pathContext ptr answered.2
        (answered.1.store step.relay settled.1, settled.2)

variable {suite : CryptoSuite} {net : Network} {env : RouterID → BuildEnv}

theorem client_answerBuild (steps : List BuildStep) :
    (answerBuild net steps).1.client = net.client := by
  induction steps with
  | nil => rfl
  | cons step steps ih =>
    unfold answerBuild
    split
    · rfl
    · dsimp only
      split
      · exact ih
      · exact ih

/-- What a relay receives of builds: requests, and replies to those that it forwarded. -/
inductive BuildMessage where
  | request (env : BuildEnv) (src : NextHop) (frames : Bytes)
  | reply (ptr : TransitHopPtr) (reply : Option Reply)

def afterMessage (suite : CryptoSuite) (router : Router) : BuildMessage → PathContext
  | .request env src frames =>
    match handlePathBuild suite router env src frames with
    | .respond _ ctx => ctx
    | .forward .. => router.pathContext
  | .reply ptr reply => (handlePathBuildReply router.pathContext ptr reply).1

def receiveMessage (suite : CryptoSuite) (net : Network) (m : RouterID × BuildMessage) : Network :=
  match net.relay m.1 with
  | none => net
  | some router => net.store m.1 (afterMessage suite router m.2)

theorem keeps_afterMessage (router : Router) (message : BuildMessage) :
    router.pathContext.Keeps (afterMessage suite router message) := by
  cases message with
  | request env src frames =>
    rcases @handlePathBuild_cases suite router env src frames with
      ⟨_, h, -⟩ | ⟨_, -, -, h | ⟨_, _, h⟩⟩ <;> simp only [afterMessage, h]
    · exact fun _ _ => id
    · exact PathContext.keeps_put _ _
    · exact fun _ _ => id
  | reply ptr reply =>
    rcases reply with _ | ⟨_, _ | _⟩
    · exact fun _ _ => id
    · exact PathContext.keeps_put _ _
    · exact fun _ _ => id

/-- No messages of builds, in whatever order they come, break a path. -/
theorem builds_keep_established (suite : CryptoSuite) {client : Router} {path : Path}
    (h : Established net client path) (messages : List (RouterID × BuildMessage)) :
    Established (Run.run (receiveMessage suite) net messages) client path := by
  refine @Run.run_invariant_of_step _ _ _ (Established · client path)
    (fun net message hbefore => ?_) _ messages h
  have hextends : net.Extends (receiveMessage suite net message) := by
    unfold receiveMessage
    split
    · exact net.extends_refl
    · next hrelay => exact net.extends_refl.store hrelay (keeps_afterMessage _ _)
  obtain ⟨cid, hclient, hinstalled⟩ := hbefore.installed
  exact ⟨hbefore.chain, hbefore.isClient, hbefore.known, cid, by rw [hextends.1, hclient],
    hextends.installed hinstalled⟩

theorem builds_keep_established_meeting :
    Established (Run.run (receiveMessage TwoRelays.suite) Meeting.net
      [(Meeting.routerId 1, .reply ⟨0, Meeting.rcvPivot⟩ (some ⟨[], false⟩))])
      (Meeting.client Meeting.snd) Meeting.snd :=
  builds_keep_established _ Meeting.snd_established _

variable {lifetime : Nat} {hop : TransitHop} {rnd : BuildRandom}
  {rest : List (TransitHop × BuildRandom)} {built : List TransitHop} {real junk : Bytes}

/-- A relay that has both ids free holds the hop once it has stored it. -/
theorem holdsHop_store {e : EncodedFrame} (he : encodeFrame suite hop lifetime rnd = some e)
    {relayEnv : BuildEnv} {router : Router} (hready : Ready suite relayEnv router hop)
    (hrelay : net.relay hop.routerId = some router) (src : NextHop) :
    ∃ relay ptr, (net.store hop.routerId (router.pathContext.putTransitHop
        ⟨relayEnv.addr, recoveredHop src e.hop relayEnv.now lifetime⟩)).relay e.hop.routerId =
      some relay ∧ HoldsHop relay ptr e.hop src := by
  have hfree := (PathContext.hasTransitHop_eq_false_iff _ _).mp hready.idsFree
  rw [encodeFrame_hop he]
  refine ⟨_, ⟨relayEnv.addr, recoveredHop src _ relayEnv.now lifetime⟩,
    (Function.update_self ..).trans (congrArg _ hrelay), hready.isRelay, hready.id_eq, ?_, ?_, rfl⟩
  · rw [PathContext.getTransitHop_putTransitHop, hfree.1]
    exact if_pos (Or.inl rfl)
  · rw [PathContext.getTransitHop_putTransitHop, hfree.2]
    exact if_pos (Or.inr rfl)

section

variable (hlaw : suite.Lawful) (haccepted : acceptedLifetime lifetime = true)
  (hbuildable : Buildable ((hop, rnd) :: rest))
  (hready : AllReady suite net env ((hop, rnd) :: rest))
  (hnodup : (hop.routerId :: rest.map fun h => h.1.routerId).Nodup)

include hlaw haccepted hbuildable hready hnodup

theorem answerBuild_installs
    (honion : onionFrames suite lifetime ((hop, rnd) :: rest) = some (built, real))
    (hsize : (real ++ junk).length = buildLength * buildFrameSize) (src : NextHop) (fuel : Nat) :
    let answered := answerBuild net
      (runBuild suite net env (fuel + rest.length + 1) src hop.routerId (real ++ junk))
    answered.2 = some ⟨Messages.okResponse, false⟩ ∧ HopChain built ∧
      Installed answered.1 src built ∧ ∀ id ∉ hop.routerId :: rest.map fun h => h.1.routerId,
        answered.1.relay id = net.relay id := by
  have hlifetime : lifetime < 65536 := by grind [acceptedLifetime]
  induction rest generalizing hop rnd built real junk src with
  | nil =>
    obtain ⟨router, hrelay, hrelayReady⟩ := hready _ List.mem_cons_self
    obtain ⟨_, _, _, _, rfl, -, hrest, -, -, houtcome⟩ := buildTurn_recovers hlaw hlifetime
      (hbuildable.consistent _ List.mem_cons_self) hrelayReady honion hsize src
    obtain ⟨e, _, _, he, -, hbuilt, -⟩ := onionFrames_cons_eq_some honion
    cases hbuilt
    cases hrest
    rw [haccepted, show hop.terminalHop = true from hbuildable.chain.1] at houtcome
    simp only [runBuild_respond hrelay houtcome, answerBuild, houtcome]
    refine ⟨rfl, ?_, ⟨holdsHop_store he hrelayReady hrelay src, trivial⟩, fun id hid => ?_⟩
    · rw [encodeFrame_hop he]
      exact hbuildable.chain
    · exact Function.update_of_ne (List.ne_of_not_mem_cons hid) _ _
  | cons next rest ih =>
    obtain ⟨router, hrelay, hrelayReady⟩ := hready _ List.mem_cons_self
    obtain ⟨_, builts, _, _, rfl, -, hrest, hjunk, -, houtcome⟩ := buildTurn_recovers hlaw
      hlifetime (hbuildable.consistent _ List.mem_cons_self) hrelayReady honion hsize src
    obtain ⟨e, _, _, he, -, hbuilt, -⟩ := onionFrames_cons_eq_some honion
    cases hbuilt
    obtain ⟨hinner, hids, hlink, hupstream, hchain⟩ := hbuildable.chain
    have hupstream : hop.upstream = next.1.routerId := hupstream
    rw [haccepted, hinner, hupstream] at houtcome
    rw [List.map_cons, List.nodup_cons] at hnodup
    obtain ⟨hok, hbuilts, hinstalled, hkept⟩ := ih
      ⟨hchain, fun h hmem => hbuildable.consistent h (List.mem_cons_of_mem _ hmem)⟩
      (fun h hmem => hready h (List.mem_cons_of_mem _ hmem)) hnodup.2 hrest hjunk
      (.router hop.routerId)
    -- the relay is not on the rest of the path, so nothing has changed there yet
    have hhere := (hkept _ hnodup.1).trans hrelay
    rw [List.length_cons, ← Nat.add_assoc, runBuild_forward hrelay houtcome, answerBuild]
    simp only [houtcome]
    dsimp only [buildTurn] at hhere ⊢
    simp only [hhere, hok, handlePathBuildReply]
    refine ⟨rfl, ?_, ⟨holdsHop_store he hrelayReady hhere src, ?_⟩, fun id hid => ?_⟩
    · obtain ⟨e', _, _, he', -, rfl, -⟩ := onionFrames_cons_eq_some hrest
      rw [encodeFrame_hop he'] at hbuilts ⊢
      rw [encodeFrame_hop he]
      exact ⟨hinner, hids, hlink, hupstream, hbuilts⟩
    · rw [encodeFrame_hop he]
      exact ((Network.extends_refl _).store hhere (PathContext.keeps_put _ _)).installed hinstalled
    · rw [List.map_cons, List.mem_cons, not_or] at hid
      exact (Function.update_of_ne hid.1 _ _).trans (hkept id hid.2)

/-- A build that every relay is ready for is answered with success, and leaves the path
established that the client has recorded. -/
theorem build_establishes (hcount : rest.length < buildLength) {fill : Nat → UInt8}
    {frames : Bytes} (hbuild : pathBuildOnion suite ((hop, rnd) :: rest) lifetime fill =
      some (built, frames)) (cid : ConnectionID) {fuel : Nat} (hfuel : rest.length < fuel) :
    let answered := answerBuild net
      (runBuild suite net env fuel (.connection cid) hop.routerId frames)
    answered.2 = some ⟨Messages.okResponse, false⟩ ∧
      ∀ (client : Router) (path : Path), client.isServiceNode = false → path.hops = built →
        net.client hop.routerId cid = some client →
        client.pathContext.getPath path.edge.rxid = some path →
        Established answered.1 client path := by
  obtain ⟨real, junk, honion, rfl, hsize⟩ := pathBuildOnion_eq_some (by exact hcount) hbuild
  obtain ⟨e, builts, _, he, -, rfl, -⟩ := onionFrames_cons_eq_some honion
  obtain ⟨left, rfl⟩ : ∃ left, fuel = left + rest.length + 1 :=
    ⟨fuel - (rest.length + 1), (Nat.sub_add_cancel hfuel).symm⟩
  obtain ⟨hok, hchain, hinstalled, -⟩ := answerBuild_installs hlaw haccepted hbuildable hready
    hnodup honion hsize (.connection cid) left
  refine ⟨hok, fun client path hnode hpath hclient hknown => ?_⟩
  have hedge : path.edge.routerId = hop.routerId := by
    simp only [Path.edge, hpath, List.head_cons]
    rw [encodeFrame_hop he]
  refine ⟨hpath ▸ hchain, hnode, hknown, cid, ?_, hpath ▸ hinstalled⟩
  rw [client_answerBuild, hedge, hclient]

end

theorem build_establishes_twoRelays : ∃ frames,
    (answerBuild TwoRelays.net (runBuild TwoRelays.suite TwoRelays.net TwoRelays.env 2
      (.connection 5) (Meeting.routerId 1) frames)).2 = some ⟨Messages.okResponse, false⟩ := by
  obtain ⟨_, frames, hbuild⟩ := TwoRelays.pathBuildOnion_hops 1200
  exact ⟨frames, (build_establishes TwoRelays.suite_lawful (by decide) TwoRelays.hops_buildable
    TwoRelays.hops_ready (by decide) (by decide) hbuild 5 (Nat.le_refl 2)).1⟩

end Link
end SessionRouter

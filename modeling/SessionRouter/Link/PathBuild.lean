import SessionRouter.Link.Network
import SessionRouter.Messages.Common
import SessionRouter.Path.Build

/-!
# Handling of path builds
-/

namespace SessionRouter

open Lib Bencode

structure BuildEnv where
  now : Int
  hasRc : RouterID → Bool
  relayUnreachable : RouterID → Bool
  fill : Nat → UInt8
  addr : Nat

inductive PathBuildOutcome where
  | respond (reply : Reply) (ctx : PathContext)
  | forward (upstream : RouterID) (frames : Bytes) (ptr : TransitHopPtr)

namespace Link

variable (suite : CryptoSuite)

def maxLifetimeAccepted : Int := (20 + 3) * 60 * 1000

def rotateFrames (framesIn : Bytes) (frameSize : Nat) (secret : SymmKey)
    (onionNonce : SymmNonce) (fill : Nat → UInt8) : Bytes :=
  let frames := framesIn.drop frameSize ++ (List.range frameSize).map fill
  let onioned := (buildLength - 1) * frameSize
  Crypto.xchacha20 suite.toCipherSuite (frames.take onioned) secret onionNonce ++
    frames.drop onioned

def admitBuild (router : Router) (env : BuildEnv) (framesIn : Bytes) (frameSize : Nat)
    (decrypted : Except TransitHopError (TransitHop × SymmNonce)) :
    Except TransitHopError PathBuildOutcome :=
  match decrypted with
  | .error e => .error e
  | .ok (hop, onionNonce) =>
    if env.now + maxLifetimeAccepted < hop.expiry ∨ hop.expiry ≤ env.now then
      .error .invalidLifetime
    else if router.pathContext.hasTransitHop hop then
      .error .hopIdUnavailable
    else if hop.terminalHop then
      .ok (.respond ⟨Messages.okResponse, false⟩
        (router.pathContext.putTransitHop ⟨env.addr, hop⟩))
    else if !env.hasRc hop.upstream || env.relayUnreachable hop.upstream then
      .error .upstreamUnreachable
    else
      .ok (.forward hop.upstream
        (rotateFrames suite framesIn frameSize hop.sharedSecret onionNonce env.fill)
        ⟨env.addr, hop⟩)

def handlePathBuild (router : Router) (env : BuildEnv) (src : NextHop) (framesIn : Bytes) :
    PathBuildOutcome :=
  if !router.isServiceNode then
    .respond ⟨Messages.errorResponse, true⟩ router.pathContext
  else
    let frameSize := framesIn.length / buildLength
    if framesIn.length % buildLength ≠ 0 ∨ frameSize < buildFrameSizeMin ∨
        buildFrameSizeMax < frameSize then
      .respond ⟨Messages.serializeStatusResponse (ascii "BAD FRAMES"), true⟩ router.pathContext
    else
      match admitBuild suite router env framesIn frameSize
          (Path.decryptBuildFrame suite (framesIn.take frameSize) router.id router.secretKey src
            env.now) with
      | .error e => .respond ⟨Messages.serializeStatusResponse e.errorCode, true⟩ router.pathContext
      | .ok outcome => outcome

def handlePathBuildReply (ctx : PathContext) (ptr : TransitHopPtr) (reply : Option Reply) :
    PathContext × Option Reply :=
  match reply with
  | none => (ctx, none)
  | some reply =>
    if reply.isError then (ctx, some reply)
    else (ctx.putTransitHop ptr, some ⟨Messages.okResponse, false⟩)

structure BuildStep where
  relay : RouterID
  received : Bytes
  decrypted : Except TransitHopError (TransitHop × SymmNonce)
  outcome : PathBuildOutcome

def buildTurn (router : Router) (env : BuildEnv) (src : NextHop) (target : RouterID)
    (frames : Bytes) : BuildStep where
  relay := target
  received := frames
  decrypted := Path.decryptBuildFrame suite (frames.take (frames.length / buildLength))
    router.id router.secretKey src env.now
  outcome := handlePathBuild suite router env src frames

def runBuild (net : Network) (env : RouterID → BuildEnv) :
    Nat → NextHop → RouterID → Bytes → List BuildStep
  | 0, _, _, _ => []
  | fuel + 1, src, target, frames =>
    match net.relay target with
    | none => []
    | some router =>
      let step := buildTurn suite router (env target) src target frames
      match step.outcome with
      | .respond _ _ => [step]
      | .forward upstream frames _ => step :: runBuild net env fuel (.router target) upstream frames

variable {suite} {net : Network} {env : RouterID → BuildEnv} {router : Router}
  {target : RouterID} {src : NextHop} {frames : Bytes}

theorem runBuild_respond (hrelay : net.relay target = some router) {reply : Reply}
    {ctx : PathContext}
    (h : (buildTurn suite router (env target) src target frames).outcome = .respond reply ctx)
    (fuel : Nat) :
    runBuild suite net env (fuel + 1) src target frames =
      [buildTurn suite router (env target) src target frames] := by
  simp [runBuild, hrelay, h]

theorem runBuild_forward (hrelay : net.relay target = some router) {upstream : RouterID}
    {next : Bytes} {ptr : TransitHopPtr}
    (h : (buildTurn suite router (env target) src target frames).outcome =
      .forward upstream next ptr) (fuel : Nat) :
    runBuild suite net env (fuel + 1) src target frames =
      buildTurn suite router (env target) src target frames ::
        runBuild suite net env fuel (.router target) upstream next := by
  simp [runBuild, hrelay, h]

end Link
end SessionRouter

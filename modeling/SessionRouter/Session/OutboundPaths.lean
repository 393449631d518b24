import SessionRouter.Contact.ClientContact
import SessionRouter.Path.Handler
import SessionRouter.Path.SelectHops
import Mathlib.Data.List.TakeWhile

/-!
# The paths of an outbound session
-/

namespace SessionRouter

open Lib

/-- What the sessions read of a path. -/
structure SessionPath where
  pathLogId : Nat
  terminalRid : RouterID
  terminalHopid : HopID
  alignedHopid : Option HopID
  expiry : Int
  isEstablished : Bool
  deriving DecidableEq

structure PathsConfig where
  minExpiry : Int
  acceptableExpiry : Int

namespace SessionPath

def expiresIn (path : SessionPath) (now : Int) : Int :=
  path.expiry - now

def isExpired (path : SessionPath) (now : Int) : Bool :=
  path.expiry < now

def isActive (path : SessionPath) (now : Int) : Bool :=
  path.isEstablished && !path.isExpired now

end SessionPath

namespace PathsConfig

structure Closing where
  closeMe : List SessionPath
  maybeClose : List SessionPath
  foundAcceptableExp : Bool

variable (config : PathsConfig) (current : Option Nat) (now : Int)

def visit (closing : Closing) (path : SessionPath) : Closing :=
  if current = some path.pathLogId then closing
  else if config.acceptableExpiry ≤ path.expiresIn now then
    { closing with foundAcceptableExp := true }
  else if path.expiresIn now < config.minExpiry then
    { closing with closeMe := closing.closeMe ++ [path] }
  else if !closing.foundAcceptableExp then
    { closing with maybeClose := closing.maybeClose ++ [path] }
  else closing

def closeOldPaths (active : List SessionPath) : List SessionPath :=
  let closing := active.foldl (config.visit current now) ⟨[], [], false⟩
  closing.closeMe ++ if closing.foundAcceptableExp then closing.maybeClose else []

def acceptable (path : SessionPath) : Bool :=
  current ≠ some path.pathLogId && config.acceptableExpiry ≤ path.expiresIn now

def expiring (path : SessionPath) : Bool :=
  current ≠ some path.pathLogId && path.expiresIn now < config.minExpiry

def between (path : SessionPath) : Bool :=
  current ≠ some path.pathLogId && config.minExpiry ≤ path.expiresIn now &&
    path.expiresIn now < config.acceptableExpiry

def ShouldClose (active : List SessionPath) (path : SessionPath) : Prop :=
  path ∈ active ∧ (config.expiring current now path = true ∨
    config.between current now path = true ∧
      ∃ other ∈ active, config.acceptable current now other = true)

variable {config current now}

theorem foldl_visit (active : List SessionPath) (closing : Closing) :
    active.foldl (config.visit current now) closing =
      { closeMe := closing.closeMe ++ active.filter fun path =>
          config.expiring current now path && !config.acceptable current now path
        maybeClose := closing.maybeClose ++
          if closing.foundAcceptableExp then []
          else (active.takeWhile fun path => !config.acceptable current now path).filter
            (config.between current now)
        foundAcceptableExp :=
          closing.foundAcceptableExp || active.any (config.acceptable current now) } := by
  induction active generalizing closing with
  | nil => simp
  | cons path active ih =>
    rw [List.foldl_cons, ih]
    by_cases hcurrent : current = some path.pathLogId
    · simp [visit, acceptable, expiring, between, hcurrent]
    · by_cases hacceptable : config.acceptableExpiry ≤ path.expiresIn now
      · simp [visit, acceptable, hcurrent, hacceptable]
      · have hlt := Int.not_le.mp hacceptable
        by_cases hexpiring : path.expiresIn now < config.minExpiry
        · have hnot := Int.not_le.mpr hexpiring
          simp [visit, acceptable, expiring, between, hcurrent, hacceptable, hexpiring, hnot]
        · have hle := Int.not_lt.mp hexpiring
          cases hfound : closing.foundAcceptableExp <;>
            simp [visit, acceptable, expiring, between, hcurrent, hacceptable, hexpiring, hle,
              hlt, hfound]

theorem mem_closeOldPaths_iff {active : List SessionPath} {path : SessionPath} :
    path ∈ config.closeOldPaths current now active ↔
      path ∈ active ∧ config.expiring current now path = true ∧
          config.acceptable current now path = false ∨
        (∃ other ∈ active, config.acceptable current now other = true) ∧
          path ∈ active.takeWhile (fun other => !config.acceptable current now other) ∧
            config.between current now path = true := by
  rw [closeOldPaths, foldl_visit]
  by_cases hany : active.any (config.acceptable current now) = true
  · have hex : ∃ other ∈ active, config.acceptable current now other = true := by
      simpa using hany
    simp [hany, hex]
  · have hex : ¬∃ other ∈ active, config.acceptable current now other = true := by
      simpa using hany
    simp [hany, hex]

theorem not_expiring_of_between {path : SessionPath}
    (h : config.between current now path = true) :
    ¬config.expiring current now path = true := by
  simp only [between, expiring, Bool.and_eq_true, decide_eq_true_eq] at h ⊢
  omega

/-- The right paths are dropped exactly if those in between are visited before the first
acceptable one, and no path is acceptable that expires sooner than the minimum. -/
theorem closeOldPaths_iff (config : PathsConfig) (current : Option Nat) (now : Int)
    (active : List SessionPath) :
    (∀ path, path ∈ config.closeOldPaths current now active ↔
      config.ShouldClose current now active path) ↔
    (∀ path ∈ active, config.between current now path = true →
      (∃ other ∈ active, config.acceptable current now other = true) →
        path ∈ active.takeWhile fun other => !config.acceptable current now other) ∧
    ∀ path ∈ active, config.expiring current now path = true →
      config.acceptable current now path = false := by
  simp only [mem_closeOldPaths_iff, ShouldClose]
  constructor
  · intro h
    refine ⟨fun path hmem hbetween hex => ?_, fun path hmem hexpiring => ?_⟩
    · rcases (h path).mpr ⟨hmem, .inr ⟨hbetween, hex⟩⟩ with ⟨-, hexpiring, -⟩ | ⟨-, hbefore, -⟩
      · exact absurd hexpiring (not_expiring_of_between hbetween)
      · exact hbefore
    · rcases (h path).mpr ⟨hmem, .inl hexpiring⟩ with ⟨-, -, hnot⟩ | ⟨-, hbefore, -⟩
      · exact hnot
      · simpa using List.mem_takeWhile_imp hbefore
  · rintro ⟨hbefore, hnot⟩ path
    constructor
    · rintro (⟨hmem, hexpiring, -⟩ | ⟨hex, hbefore, hbetween⟩)
      · exact ⟨hmem, .inl hexpiring⟩
      · exact ⟨(List.takeWhile_sublist _).mem hbefore, .inr ⟨hbetween, hex⟩⟩
    · rintro ⟨hmem, hexpiring | ⟨hbetween, hex⟩⟩
      · exact .inl ⟨hmem, hexpiring, hnot path hmem hexpiring⟩
      · exact .inr ⟨hex, hbefore path hmem hbetween hex, hbetween⟩

def pathExpiring (pathLogId : Nat) (expiry : Int) : SessionPath :=
  ⟨pathLogId, default, default, none, expiry, true⟩

theorem closeOldPaths_depends_on_order :
    let config : PathsConfig := ⟨60000, 300000⟩
    let fresh := pathExpiring 1 600000
    let older := pathExpiring 2 120000
    config.ShouldClose none 0 [fresh, older] older ∧
      older ∉ config.closeOldPaths none 0 [fresh, older] ∧
      older ∈ config.closeOldPaths none 0 [older, fresh] := by
  refine ⟨⟨by simp, .inr ⟨by decide, _, List.mem_cons_self .., by decide⟩⟩, ?_, ?_⟩ <;> decide

end PathsConfig

structure ContactUse where
  intros : List ClientIntro
  introUpdateProcessed : Bool
  nextCcUpdate : Int
  ccFetchFailCount : Nat
  ccOk : Bool
  ccLastSigned : Int

def ContactUse.updateIntros (use : ContactUse) (cc : ClientContact) (now : Int) : ContactUse :=
  { use with
    introUpdateProcessed := false
    ccFetchFailCount := 0
    nextCcUpdate := now + 600000
    ccLastSigned := cc.signedAt
    intros := cc.intros }

structure OutboundClientSession extends ContactUse where
  config : PathsConfig
  targetPaths : Int
  paths : List SessionPath
  currentPath : Option SessionPath
  remotePivotTxid : HopID

def ClientIntro.expiresIn (intro : ClientIntro) (now : Int) : Int :=
  int64 (1000 * intro.expiry - now)

namespace OutboundClientSession

variable (s : OutboundClientSession) (now : Int)

def activePaths : List SessionPath :=
  s.paths.filter fun path => path.isActive now

def pairings : List (SessionPath × HopID × Bool) :=
  (s.activePaths now).flatMap fun path =>
    if path.expiresIn now < s.config.minExpiry then []
    else s.intros.filterMap fun intro =>
      if intro.relay ≠ path.terminalRid then none
      else if intro.expiresIn now < s.config.minExpiry then none
      else
        some (path, intro.hop, decide
          (s.config.acceptableExpiry ≤ min (path.expiresIn now) (intro.expiresIn now)))

def switchPath (path : SessionPath) (_pivotHopid : HopID) : OutboundClientSession :=
  { s with
    currentPath := some path
    remotePivotTxid := path.alignedHopid.getD path.terminalHopid }

def candidates : List (SessionPath × HopID × Bool) :=
  let good := (s.pairings now).filter fun pairing => pairing.2.2
  let fallback := (s.pairings now).filter fun pairing => !pairing.2.2
  if good.isEmpty then fallback else good

def selectNewCurrent (draw : Nat) : OutboundClientSession :=
  match (s.candidates now)[draw % (s.candidates now).length]? with
  | none => { s with currentPath := none }
  | some (chosen, hopid, _) => s.switchPath chosen hopid

def dropStale : OutboundClientSession :=
  if s.introUpdateProcessed then s
  else
    { s with
      paths := s.paths.filter fun path => s.intros.any fun intro =>
        intro.relay = path.terminalRid && path.alignedHopid = some intro.hop
      introUpdateProcessed := true }

def Eligible (threshold : Int) (path : SessionPath) : Prop :=
  path ∈ s.activePaths now ∧ threshold ≤ path.expiresIn now ∧
    ∃ intro ∈ s.intros, intro.relay = path.terminalRid ∧ threshold ≤ intro.expiresIn now

def Choosable (path : SessionPath) : Prop :=
  let good := s.Eligible now (max s.config.minExpiry s.config.acceptableExpiry)
  good path ∨ (∀ other, ¬good other) ∧ s.Eligible now s.config.minExpiry path

def LiveIntro (relay : RouterID) (hop : HopID) : Prop :=
  ∃ intro ∈ s.intros, intro.relay = relay ∧ intro.hop = hop ∧
    s.config.minExpiry ≤ intro.expiresIn now

variable {s now} {path : SessionPath}

theorem mem_pairings_iff {hop : HopID} {good : Bool} :
    (path, hop, good) ∈ s.pairings now ↔
      path ∈ s.activePaths now ∧ s.config.minExpiry ≤ path.expiresIn now ∧
        ∃ intro ∈ s.intros, intro.relay = path.terminalRid ∧
          s.config.minExpiry ≤ intro.expiresIn now ∧ intro.hop = hop ∧
          decide (s.config.acceptableExpiry ≤
            min (path.expiresIn now) (intro.expiresIn now)) = good := by
  simp only [pairings, List.mem_flatMap]
  constructor
  · rintro ⟨other, hactive, hmem⟩
    split at hmem
    · cases hmem
    · next hmin =>
      obtain ⟨intro, hintro, hpair⟩ := List.mem_filterMap.mp hmem
      simp only [Option.ite_none_left_eq_some, Option.some.injEq, Prod.mk.injEq,
        Decidable.not_not, Int.not_lt] at hpair
      obtain ⟨hrelay, hlive, rfl, hhop, hgood⟩ := hpair
      exact ⟨hactive, Int.not_lt.mp hmin, intro, hintro, hrelay, hlive, hhop, hgood⟩
  · rintro ⟨hactive, hmin, intro, hintro, hrelay, hlive, hhop, hgood⟩
    refine ⟨path, hactive, ?_⟩
    rw [if_neg (Int.not_lt.mpr hmin), List.mem_filterMap]
    refine ⟨intro, hintro, ?_⟩
    rw [if_neg (not_not_intro hrelay), if_neg (Int.not_lt.mpr hlive), hhop, hgood]

theorem mem_candidates_iff {pairing : SessionPath × HopID × Bool} :
    pairing ∈ s.candidates now ↔ pairing ∈ s.pairings now ∧
      (pairing.2.2 = true ∨ ∀ other ∈ s.pairings now, ¬other.2.2 = true) := by
  unfold candidates
  dsimp only
  split
  · next hempty =>
    have hnone := List.filter_eq_nil_iff.mp (List.isEmpty_iff.mp hempty)
    rw [List.mem_filter]
    refine and_congr_right fun hmem => ?_
    exact ⟨fun _ => .inr hnone, fun _ => by simpa using hnone pairing hmem⟩
  · next hgood =>
    rw [List.isEmpty_iff, List.filter_eq_nil_iff] at hgood
    rw [List.mem_filter, or_iff_left hgood]

theorem exists_mem_candidates_iff :
    (∃ hop good, (path, hop, good) ∈ s.candidates now) ↔ s.Choosable now path := by
  have hgood (other : SessionPath) : (∃ hop, (other, hop, true) ∈ s.pairings now) ↔
      s.Eligible now (max s.config.minExpiry s.config.acceptableExpiry) other := by
    simp only [mem_pairings_iff, Eligible, decide_eq_true_eq, le_min_iff, max_le_iff]
    constructor
    · rintro ⟨_, hactive, hmin, intro, hintro, hrelay, hlive, -, hpath, haccept⟩
      exact ⟨hactive, ⟨hmin, hpath⟩, intro, hintro, hrelay, hlive, haccept⟩
    · rintro ⟨hactive, ⟨hmin, hpath⟩, intro, hintro, hrelay, hlive, haccept⟩
      exact ⟨_, hactive, hmin, intro, hintro, hrelay, hlive, rfl, hpath, haccept⟩
  have hany : (∃ hop good, (path, hop, good) ∈ s.pairings now) ↔
      s.Eligible now s.config.minExpiry path := by
    simp only [mem_pairings_iff, Eligible]
    constructor
    · rintro ⟨_, _, hactive, hmin, intro, hintro, hrelay, hlive, -⟩
      exact ⟨hactive, hmin, intro, hintro, hrelay, hlive⟩
    · rintro ⟨hactive, hmin, intro, hintro, hrelay, hlive⟩
      exact ⟨_, _, hactive, hmin, intro, hintro, hrelay, hlive, rfl, rfl⟩
  simp only [Choosable, ← hgood, ← hany, mem_candidates_iff]
  constructor
  · rintro ⟨hop, good, hmem, rfl | hnone⟩
    · exact .inl ⟨hop, hmem⟩
    · exact .inr ⟨fun other ⟨hop, hother⟩ => hnone _ hother rfl, hop, good, hmem⟩
  · rintro (⟨hop, hmem⟩ | ⟨hnone, hop, good, hmem⟩)
    · exact ⟨hop, true, hmem, .inl rfl⟩
    · refine ⟨hop, good, hmem, .inr fun ⟨other, hop, good⟩ hother htrue => ?_⟩
      cases htrue
      exact hnone other ⟨hop, hother⟩

/-- Whichever path is chosen, its relay and the hop id that is used from then on are those of a
live intro, exactly if every path that can be chosen was built for a live intro.  After another
contact has come, the paths that are left were built for its intros, live or not. -/
theorem selectNewCurrent_aligned_iff (s : OutboundClientSession) (now : Int) :
    ((∀ draw path, (s.selectNewCurrent now draw).currentPath = some path →
        s.LiveIntro now path.terminalRid (s.selectNewCurrent now draw).remotePivotTxid) ↔
      ∀ path, s.Choosable now path →
        s.LiveIntro now path.terminalRid (path.alignedHopid.getD path.terminalHopid)) ∧
    ∀ cc : ClientContact,
      ∀ path ∈ { s with toContactUse := s.toContactUse.updateIntros cc now }.dropStale.paths,
        ∃ intro ∈ cc.intros, intro.relay = path.terminalRid ∧
          path.alignedHopid = some intro.hop := by
  refine ⟨?_, fun cc path hpath => ?_⟩
  swap
  · simpa [ContactUse.updateIntros, dropStale] using (List.mem_filter.mp hpath).2
  constructor
  · intro h path hchoosable
    obtain ⟨hop, good, hmem⟩ := exists_mem_candidates_iff.mpr hchoosable
    obtain ⟨i, hi, hget⟩ := List.mem_iff_getElem.mp hmem
    have hselect : s.selectNewCurrent now i = s.switchPath path hop := by
      rw [selectNewCurrent, Nat.mod_eq_of_lt hi, List.getElem?_eq_getElem hi, hget]
    have haligned := h i path (by rw [hselect]; rfl)
    rw [hselect] at haligned
    exact haligned
  · intro h draw path hcurrent
    unfold selectNewCurrent at hcurrent ⊢
    cases hget : (s.candidates now)[draw % (s.candidates now).length]? with
    | none => simp [hget] at hcurrent
    | some pairing =>
      obtain ⟨chosen, hop, good⟩ := pairing
      rw [hget] at hcurrent
      cases hcurrent
      exact h path (exists_mem_candidates_iff.mp ⟨hop, good, List.mem_of_getElem? hget⟩)

def doubled : OutboundClientSession where
  intros := [⟨default, FixedBytes.filled 16 2, 600⟩, ⟨default, FixedBytes.filled 16 1, 30⟩]
  introUpdateProcessed := true
  nextCcUpdate := 0
  ccFetchFailCount := 0
  ccOk := true
  ccLastSigned := 0
  config := ⟨60000, 300000⟩
  targetPaths := 2
  paths := [⟨1, default, default, some (FixedBytes.filled 16 1), 600000, true⟩]
  currentPath := none
  remotePivotTxid := default

theorem selectNewCurrent_takes_expiring_intro :
    (doubled.selectNewCurrent 0 0).currentPath = doubled.paths.head? ∧
      (doubled.selectNewCurrent 0 0).remotePivotTxid = FixedBytes.filled 16 1 ∧
      ¬doubled.LiveIntro 0 default (FixedBytes.filled 16 1) := by
  refine ⟨by decide +kernel, by decide +kernel, ?_⟩
  rintro ⟨intro, hintro, -, hhop, hlive⟩
  have hexpiring : ∀ intro ∈ doubled.intros, intro.hop = FixedBytes.filled 16 1 →
      ¬doubled.config.minExpiry ≤ intro.expiresIn 0 := by decide +kernel
  exact hexpiring intro hintro hhop hlive

structure PivotChoice where
  selectFrom : Table RouterID (Int × HopID)
  minPathCount : Option Nat

variable (s) (now : Int) in
def tooOld (intro : ClientIntro) : Bool :=
  int64 (1000 * intro.expiry) < now + s.config.acceptableExpiry

variable (s) (now : Int) in
def considerIntro (choice : PivotChoice) (intro : ClientIntro) : PivotChoice :=
  let existingCount := s.paths.countP fun path => path.terminalRid = intro.relay
  if s.tooOld now intro || choice.minPathCount.any (· < existingCount) then choice
  else
    let selectFrom := if choice.minPathCount.all (existingCount < ·) then ∅ else choice.selectFrom
    let exp := min (intro.expiresIn now / 1000) (20 * 60)
    { minPathCount := some existingCount
      selectFrom :=
        if (selectFrom.find intro.relay).all fun entry => entry.1 < exp then
          selectFrom.insertOrAssign intro.relay (exp, intro.hop)
        else selectFrom }

variable (s) (now : Int) in
def selectPivot (draw : Nat) : Option (RouterID × Int × HopID) :=
  let selectFrom := (s.intros.foldl (s.considerIntro now) ⟨∅, none⟩).selectFrom
  selectFrom.entries[draw % selectFrom.entries.length]?.map fun entry => (entry.1, entry.2)

structure BuildAttempt where
  pivotDraw : Nat
  hopDraws : HopDraws
  isStopped : Bool
  hopIdTaken : Bool
  result : SendResult
  pathLogId : Nat
  terminalHopid : HopID

/-- What comes of a build. -/
inductive BuildResult where
  | built (path : SessionPath)
  | failed
  | threw

def buildPathToRemote (sel : PathSelector) (attempt : BuildAttempt) (remote : RouterID)
    (lifetime now : Int) : BuildResult :=
  match sel.selectHopsToRemote attempt.hopDraws remote with
  | none => .failed
  | some hops =>
    if attempt.isStopped || buildLength < hops.length || attempt.hopIdTaken then .failed
    else
      match attempt.result with
      | .sent =>
        .built ⟨attempt.pathLogId, remote, attempt.terminalHopid, none, now + 1000 * lifetime,
          false⟩
      | .notSent => .failed
      | .threw => .threw

def buildLoop (sel : PathSelector) (clock : Nat → Int) (attempts : Nat → BuildAttempt) :
    (fuel round : Nat) → (needed : Int) → OutboundClientSession → Option OutboundClientSession
  | 0, _, _, _ => none
  | fuel + 1, round, needed, s =>
    if needed ≤ 0 then some s
    else
      match s.selectPivot (clock round) (attempts round).pivotDraw with
      | none => some s
      | some (relay, lifetime, hop) =>
        match buildPathToRemote sel (attempts round) relay lifetime (clock round) with
        | .failed => buildLoop sel clock attempts fuel (round + 1) needed s
        | .threw => some s
        | .built path =>
          buildLoop sel clock attempts fuel (round + 1) (needed - 1)
            { s with paths := s.paths ++ [{ path with alignedHopid := some hop }] }

variable (s) (now : Int) in
def settle (draw : Nat) : OutboundClientSession :=
  let kept := s.dropStale
  let kept := { kept with currentPath := kept.currentPath.filter (· ∈ kept.paths) }
  if kept.currentPath.isNone && !(kept.activePaths now).isEmpty then
    kept.selectNewCurrent now draw
  else kept

variable (s) (now : Int) in
def needed : Int :=
  let acceptable := s.paths.countP fun path => !path.isExpired (now + s.config.acceptableExpiry)
  let kept := s.currentPath.any fun path =>
    s.config.minExpiry < path.expiresIn now && path.expiresIn now < s.config.acceptableExpiry
  s.targetPaths - acceptable - if kept then 1 else 0

variable (s) (now : Int) in
def updatePaths (sel : PathSelector) (cooldown : Bool) (draw : Nat) (clock : Nat → Int)
    (attempts : Nat → BuildAttempt) (fuel : Nat) : Option OutboundClientSession :=
  if !s.ccOk then some s
  else
    let settled := s.settle now draw
    if settled.needed now ≤ 0 || cooldown then some settled
    else buildLoop sel clock attempts fuel 0 (settled.needed now) settled

def PivotChoice.Ready (choice : PivotChoice) : Prop :=
  choice.minPathCount.isSome = true → choice.selectFrom.entries ≠ []

theorem entries_ne_nil_of_find {table : Table RouterID (Int × HopID)} {relay : RouterID}
    {entry : Int × HopID} (h : table.find relay = some entry) : table.entries ≠ [] :=
  List.ne_nil_of_mem (Table.find_eq_some_iff.mp h)

theorem ready_considerIntro {choice : PivotChoice} (h : choice.Ready) (intro : ClientIntro) :
    (s.considerIntro now choice intro).Ready := by
  unfold considerIntro
  dsimp only
  split
  · exact h
  · intro _
    dsimp only
    generalize (if choice.minPathCount.all _ = true then ∅ else choice.selectFrom) = table
    split
    · exact entries_ne_nil_of_find
        ((Table.find_insertOrAssign _ _ intro.relay _).trans (if_pos rfl))
    · next hlonger =>
      cases hfind : table.find intro.relay with
      | none => simp [hfind] at hlonger
      | some entry => exact entries_ne_nil_of_find hfind

theorem isSome_considerIntro {choice : PivotChoice} {intro : ClientIntro}
    (h : choice.minPathCount.isSome = true ∨ s.tooOld now intro = false) :
    (s.considerIntro now choice intro).minPathCount.isSome = true := by
  unfold considerIntro
  cases hmin : choice.minPathCount <;> grind

theorem ready_foldl_considerIntro (intros : List ClientIntro) {choice : PivotChoice}
    (h : choice.Ready) :
    (intros.foldl (s.considerIntro now) choice).Ready ∧
      (choice.minPathCount.isSome = true ∨ (∃ intro ∈ intros, s.tooOld now intro = false) →
        (intros.foldl (s.considerIntro now) choice).minPathCount.isSome = true) := by
  induction intros generalizing choice with
  | nil => exact ⟨h, by simp⟩
  | cons intro intros ih =>
    obtain ⟨hready, hsome⟩ := ih (ready_considerIntro h intro)
    refine ⟨hready, fun hex => hsome ?_⟩
    rcases hex with hmin | ⟨young, hmem, hyoung⟩
    · exact .inl (isSome_considerIntro (.inl hmin))
    · rcases List.mem_cons.mp hmem with rfl | hmem
      · exact .inl (isSome_considerIntro (.inr hyoung))
      · exact .inr ⟨young, hmem, hyoung⟩

theorem selectPivot_eq_none_iff (draw : Nat) :
    s.selectPivot now draw = none ↔ ∀ intro ∈ s.intros, s.tooOld now intro = true := by
  constructor
  · intro hnone intro hintro
    by_contra hyoung
    obtain ⟨hready, hsome⟩ := @ready_foldl_considerIntro s now s.intros ⟨∅, none⟩
      fun hsome => absurd hsome Bool.false_ne_true
    have hne := hready (hsome (.inr ⟨intro, hintro, by simpa using hyoung⟩))
    have hlt := Nat.mod_lt draw (List.length_pos_iff.mpr hne)
    simp only [selectPivot, List.getElem?_eq_getElem hlt, Option.map_some] at hnone
    cases hnone
  · intro hold
    have hfold : s.intros.foldl (s.considerIntro now) ⟨∅, none⟩ = ⟨∅, none⟩ :=
      List.foldlRecOn (motive := fun choice : PivotChoice => choice = ⟨∅, none⟩) s.intros _ rfl
        fun choice hchoice intro hintro => by simp [hchoice, considerIntro, hold intro hintro]
    simp only [selectPivot, hfold]
    rfl

variable {sel : PathSelector} {clock : Nat → Int} {attempts : Nat → BuildAttempt}

theorem buildLoop_isSome (rounds round : Nat) (needed : Int) (s : OutboundClientSession)
    (hold : ∀ intro ∈ s.intros, s.tooOld (clock (round + rounds)) intro = true) :
    (buildLoop sel clock attempts (rounds + 1) round needed s).isSome = true := by
  induction rounds generalizing round needed s with
  | zero =>
    have hnone := (selectPivot_eq_none_iff (attempts round).pivotDraw).mpr hold
    rw [Nat.add_zero] at hnone
    rw [buildLoop, hnone]
    split <;> rfl
  | succ rounds ih =>
    have hsucc : round + (rounds + 1) = round + 1 + rounds := by omega
    rw [hsucc] at hold
    rw [buildLoop]
    split
    · rfl
    · split
      · rfl
      · split
        · exact ih (round + 1) needed s hold
        · rfl
        · exact ih (round + 1) (needed - 1) _ hold

theorem buildLoop_eq_none
    (hlive : ∀ round, ∃ intro ∈ s.intros, s.tooOld (clock round) intro = false)
    (hfail : ∀ round relay lifetime now,
      buildPathToRemote sel (attempts round) relay lifetime now = .failed)
    {needed : Int} (hneeded : 0 < needed) (fuel round : Nat) :
    buildLoop sel clock attempts fuel round needed s = none := by
  induction fuel generalizing round with
  | zero => rfl
  | succ fuel ih =>
    rw [buildLoop, if_neg (Int.not_le.mpr hneeded)]
    cases hpivot : s.selectPivot (clock round) (attempts round).pivotDraw with
    | none =>
      obtain ⟨intro, hintro, hyoung⟩ := hlive round
      rw [(selectPivot_eq_none_iff _).mp hpivot intro hintro] at hyoung
      cases hyoung
    | some pivot => simpa only [hfail] using ih (round + 1)

def unsent : BuildAttempt :=
  ⟨0, ⟨fun _ k => ⟨0, k.succ_pos⟩, fun _ k => ⟨0, k.succ_pos⟩⟩, false, false, .notSent, 0, default⟩

theorem buildPathToRemote_unsent (relay : RouterID) (lifetime now : Int) :
    buildPathToRemote sel unsent relay lifetime now = .failed := by
  unfold buildPathToRemote
  split
  · rfl
  · split <;> rfl

theorem settle_intros (draw : Nat) :
    (s.settle now draw).intros = s.intros ∧ (s.settle now draw).config = s.config := by
  unfold settle selectNewCurrent switchPath dropStale
  grind

/-- Whatever comes of the builds, `update_paths` returns, exactly if it has nothing to build or
must not build, or the clock comes to show that all intros are too old.  Else it goes on for as
long as builds fail. -/
theorem updatePaths_returns_iff (s : OutboundClientSession) (now : Int) (sel : PathSelector)
    (cooldown : Bool) (draw : Nat) (clock : Nat → Int) :
    (∀ attempts, ∃ fuel,
      (s.updatePaths now sel cooldown draw clock attempts fuel).isSome = true) ↔
    s.ccOk = false ∨ (s.settle now draw).needed now ≤ 0 ∨ cooldown = true ∨
      ∃ round, ∀ intro ∈ s.intros, s.tooOld (clock round) intro = true := by
  have hintros := @settle_intros s now draw
  have htooOld (round : Nat) (intro : ClientIntro) :
      (s.settle now draw).tooOld (clock round) intro = s.tooOld (clock round) intro := by
    rw [tooOld, tooOld, hintros.2]
  constructor
  · intro hreturns
    by_contra hnot
    simp only [not_or, not_exists, not_forall, Bool.not_eq_false, Bool.not_eq_true,
      Int.not_le] at hnot
    obtain ⟨hok, hneeded, hcooldown, hlive⟩ := hnot
    obtain ⟨fuel, hfuel⟩ := hreturns fun _ => unsent
    have hnone : buildLoop sel clock (fun _ => unsent) fuel 0 ((s.settle now draw).needed now)
        (s.settle now draw) = none := by
      refine buildLoop_eq_none (fun round => ?_) (fun _ => buildPathToRemote_unsent) hneeded fuel 0
      obtain ⟨intro, hintro, hyoung⟩ := hlive round
      exact ⟨intro, hintros.1 ▸ hintro, (htooOld round intro).trans hyoung⟩
    simp [updatePaths, hok, hcooldown, Int.not_le.mpr hneeded, hnone] at hfuel
  · intro hcases attempts
    unfold updatePaths
    dsimp only
    split
    · exact ⟨0, rfl⟩
    · next hok =>
      split
      · exact ⟨0, rfl⟩
      · next hbuilds =>
        simp only [Bool.or_eq_true, decide_eq_true_eq, not_or] at hbuilds
        obtain ⟨round, hold⟩ := (hcases.resolve_left (by simpa using hok)).resolve_left
          hbuilds.1 |>.resolve_left hbuilds.2
        refine ⟨round + 1, buildLoop_isSome round 0 _ _ fun intro hintro => ?_⟩
        rw [htooOld, Nat.zero_add]
        exact hold intro (hintros.1 ▸ hintro)

def noRelays : PathSelector where
  isServiceNode := false
  id := default
  knownRcs := ⟨[], List.nodup_nil⟩
  currentRelays := []
  blacklist _ := false
  isBadForPath _ _ := false
  netmask := 0
  numHops := 3
  now := 0

def farFuture : OutboundClientSession :=
  { doubled with intros := [⟨default, default, 2 ^ 40⟩], paths := [] }

theorem updatePaths_spins : ¬∃ clock attempts fuel, (∀ round, clock round < 2 ^ 49) ∧
      (farFuture.updatePaths 0 noRelays false 0 clock attempts fuel).isSome = true := by
  rintro ⟨clock, attempts, fuel, hclock, hreturns⟩
  have hnone : buildLoop noRelays clock attempts fuel 0 2 (farFuture.settle 0 0) = none := by
    refine buildLoop_eq_none (fun round => ?_) (fun _ _ _ _ => rfl) (by decide) fuel 0
    refine ⟨⟨default, default, 2 ^ 40⟩, by decide +kernel, decide_eq_false ?_⟩
    have hround := hclock round
    have hexpiry : int64 (1000 * 2 ^ 40) = 1000 * 2 ^ 40 := by decide +kernel
    change ¬int64 (1000 * 2 ^ 40) < clock round + 300000
    omega
  have hneeded : (farFuture.settle 0 0).needed 0 = 2 := by decide +kernel
  have hok : farFuture.ccOk = true := rfl
  simp [updatePaths, hneeded, hnone, hok] at hreturns

end OutboundClientSession
end SessionRouter

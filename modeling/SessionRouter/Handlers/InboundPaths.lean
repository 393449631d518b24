import SessionRouter.Lib.LeastLoaded
import SessionRouter.Link.BuildOnion
import SessionRouter.Path.Handler
import SessionRouter.Path.SelectHops

/-!
# Inbound paths
-/

namespace SessionRouter.Handlers

open Lib Reservoir

abbrev Fuzz := Fin 181

structure ExpirySlots where
  basis : Int
  targetPaths : Nat
  targetPaths_pos : 0 < targetPaths

structure InboundPath where
  terminalRid : RouterID
  builtFor : Int
  expiry : Int

structure ChosenExpiry where
  slot : Int
  expiry : Int

structure InboundPaths where
  slotFuzz : Table Int Fuzz
  paths : List InboundPath

namespace ExpirySlots

variable (es : ExpirySlots)

def slots : Nat := min es.targetPaths 4

def slotSize : Int := 1200 / es.slots

def slot0 (now : Int) : Int :=
  (now / 1000 - es.basis).tdiv es.slotSize + 1

def slotOf (expiry : Int) : Int :=
  (expiry - 1000 * es.basis).tdiv (1000 * es.slotSize)

def expiryIn (slot : Int) (fuzz : Fuzz) : Int :=
  es.basis + slot * es.slotSize + fuzz.val

theorem slots_pos : 0 < es.slots := Nat.lt_min.mpr ⟨es.targetPaths_pos, by decide⟩

theorem slots_slotSize : es.slots = 1 ∧ es.slotSize = 1200 ∨ es.slots = 2 ∧ es.slotSize = 600 ∨
      es.slots = 3 ∧ es.slotSize = 400 ∨ es.slots = 4 ∧ es.slotSize = 300 := by
  have hpos := es.slots_pos
  have hle : es.slots ≤ 4 := Nat.min_le_right _ _
  unfold slotSize
  generalize es.slots = slots at hpos hle ⊢
  interval_cases slots <;> decide

theorem slotOf_expiryIn {slot : Int} (hslot : 0 ≤ slot) (fuzz : Fuzz) :
    es.slotOf (1000 * es.expiryIn slot fuzz) = slot := by
  have hfuzz := fuzz.isLt
  unfold slotOf expiryIn
  rw [Int.tdiv_eq_ediv_of_nonneg]
  · rcases es.slots_slotSize with ⟨-, h⟩ | ⟨-, h⟩ | ⟨-, h⟩ | ⟨-, h⟩ <;> rw [h] <;> omega
  · rcases es.slots_slotSize with ⟨-, h⟩ | ⟨-, h⟩ | ⟨-, h⟩ | ⟨-, h⟩ <;> rw [h] <;> omega

variable {es} {now : Int}

section

variable (hnow : es.basis ≤ now / 1000)

include hnow

theorem slot0_bounds : 1 ≤ es.slot0 now ∧ (es.slot0 now - 1) * es.slotSize ≤ now / 1000 - es.basis ∧
      now / 1000 - es.basis < es.slot0 now * es.slotSize := by
  unfold slot0
  rw [Int.tdiv_eq_ediv_of_nonneg (by omega)]
  rcases es.slots_slotSize with ⟨-, h⟩ | ⟨-, h⟩ | ⟨-, h⟩ | ⟨-, h⟩ <;> rw [h] <;> omega

theorem slot0_mono {later : Int} (hle : now ≤ later) :
    es.slot0 now ≤ es.slot0 later := by
  unfold slot0
  rw [Int.tdiv_eq_ediv_of_nonneg (by omega), Int.tdiv_eq_ediv_of_nonneg (by omega)]
  rcases es.slots_slotSize with ⟨-, h⟩ | ⟨-, h⟩ | ⟨-, h⟩ | ⟨-, h⟩ <;> rw [h] <;> omega

theorem expiryIn_bounds {place : Nat} (hplace : place < es.slots)
    (fuzz : Fuzz) :
    now < 1000 * es.expiryIn (es.slot0 now + place) fuzz ∧
      1000 * es.expiryIn (es.slot0 now + place) fuzz ≤ now + Link.maxLifetimeAccepted := by
  obtain ⟨-, hlow, hhigh⟩ := slot0_bounds hnow
  have hfuzz := fuzz.isLt
  unfold expiryIn Link.maxLifetimeAccepted
  rcases es.slots_slotSize with ⟨hn, h⟩ | ⟨hn, h⟩ | ⟨hn, h⟩ | ⟨hn, h⟩ <;>
    rw [h] at hlow hhigh ⊢ <;> omega

end

variable (es) (now)

def countPath (state : (Nat → Nat) × Bool) (path : InboundPath) : (Nat → Nat) × Bool :=
  let slot := es.slotOf path.expiry
  if slot < es.slot0 now then state
  else
    let slot := slot - es.slot0 now
    if es.slots ≤ slot then (state.1, true)
    else (LeastLoaded.add state.1 slot.toNat, state.2)

def countPaths (paths : List InboundPath) : (Nat → Nat) × Bool :=
  paths.foldl (es.countPath now) (fun _ => 0, false)

def inSlot (paths : List InboundPath) (slot : Int) : Nat :=
  paths.countP fun path => es.slotOf path.expiry = slot

theorem countPaths_fst (paths : List InboundPath) {place : Nat} (hplace : place < es.slots) :
    (es.countPaths now paths).1 place = es.inSlot paths (es.slot0 now + place) := by
  suffices hfold : ∀ state : (Nat → Nat) × Bool,
      (paths.foldl (es.countPath now) state).1 place =
        state.1 place + es.inSlot paths (es.slot0 now + place) by
    exact (hfold _).trans (Nat.zero_add _)
  induction paths with
  | nil => exact fun state => rfl
  | cons path paths ih =>
    intro state
    rw [List.foldl_cons, ih, inSlot, inSlot, List.countP_cons]
    unfold countPath
    dsimp only
    split
    · rw [if_neg (by simp; omega)]
      rfl
    · split
      · rw [if_neg (by simp; omega)]
        rfl
      · dsimp only
        rw [LeastLoaded.add_apply]
        simp only [decide_eq_true_eq]
        split <;> split <;> omega

theorem countPaths_snd {paths : List InboundPath}
    (h : ∀ path ∈ paths, es.slotOf path.expiry < es.slot0 now + es.slots) :
    (es.countPaths now paths).2 = false := by
  refine List.foldlRecOn paths (es.countPath now)
    (motive := fun state : (Nat → Nat) × Bool => state.2 = false) rfl ?_
  intro state hstate path hmem
  have hpath := h path hmem
  unfold countPath
  dsimp only
  split
  · exact hstate
  · rw [if_neg (by omega)]
    exact hstate

end ExpirySlots

def cleanupOldFuzz (fuzz : Table Int Fuzz) (oldestSlot : Int) : Table Int Fuzz :=
  if fuzz.keys.any fun slot => oldestSlot ≤ slot then fuzz.eraseIf fun slot _ => slot < oldestSlot
  else fuzz

def inboundPathFuzz (fuzz : Table Int Fuzz) (draw : Int → Fuzz) (slot : Int) :
    Fuzz × Table Int Fuzz :=
  match fuzz.find slot with
  | some value => (value, fuzz)
  | none => (draw slot, fuzz.emplace slot (draw slot))

def fuzzFor (fuzz : Table Int Fuzz) (draw : Int → Fuzz) (slot : Int) : Fuzz :=
  (fuzz.find slot).getD (draw slot)

variable (s : InboundPaths) {path : InboundPath} (fuzz : Table Int Fuzz)

@[simp] theorem inboundPathFuzz_fst (draw : Int → Fuzz) (slot : Int) :
    (inboundPathFuzz fuzz draw slot).1 = fuzzFor fuzz draw slot := by
  unfold inboundPathFuzz fuzzFor
  cases fuzz.find slot with
  | none => rfl
  | some value => rfl

@[simp] theorem fuzzFor_inboundPathFuzz (draw : Int → Fuzz)
    (slot other : Int) :
    fuzzFor (inboundPathFuzz fuzz draw slot).2 draw other = fuzzFor fuzz draw other := by
  unfold inboundPathFuzz
  cases hfind : fuzz.find slot with
  | some value => rfl
  | none =>
    unfold fuzzFor
    rw [Table.emplace_of_find_none hfind, Table.find_insertOrAssign]
    split
    · next heq =>
      subst heq
      rw [hfind]
      rfl
    · rfl

theorem fuzzFor_cleanupOldFuzz (draw : Int → Fuzz) {oldest slot : Int}
    (h : oldest ≤ slot) :
    fuzzFor (cleanupOldFuzz fuzz oldest) draw slot = fuzzFor fuzz draw slot := by
  unfold cleanupOldFuzz
  split
  · unfold fuzzFor
    rw [Table.find_eraseIf]
    have hkept : decide (slot < oldest) = false := by simpa using h
    cases fuzz.find slot with
    | none => rfl
    | some value =>
      simp only [hkept]
      rfl
  · rfl

namespace ExpirySlots

variable (es : ExpirySlots) (now : Int) (draw : Int → Fuzz)

def selectExpiries : (needed : Nat) → (slotCount : Nat → Nat) → Table Int Fuzz →
    List ChosenExpiry × Table Int Fuzz
  | 0, _, fuzz => ([], fuzz)
  | needed + 1, slotCount, fuzz =>
    let best := LeastLoaded.best slotCount es.slots
    let slot := es.slot0 now + best
    let (value, fuzz) := inboundPathFuzz fuzz draw slot
    let (expiries, fuzz) := selectExpiries needed (LeastLoaded.add slotCount best) fuzz
    (⟨slot, es.expiryIn slot value⟩ :: expiries, fuzz)

def expiryAt (fuzz : Table Int Fuzz) (place : Nat) : ChosenExpiry :=
  ⟨es.slot0 now + place,
    es.expiryIn (es.slot0 now + place) (fuzzFor fuzz draw (es.slot0 now + place))⟩

theorem selectExpiries_fst (needed : Nat) (slotCount : Nat → Nat) (fuzz : Table Int Fuzz) :
    (es.selectExpiries now draw needed slotCount fuzz).1 =
      (LeastLoaded.assign es.slots needed slotCount).map (es.expiryAt now draw fuzz) := by
  induction needed generalizing slotCount fuzz with
  | zero => rfl
  | succ needed ih =>
    have hfuzz (slot : Int) : es.expiryAt now draw (inboundPathFuzz fuzz draw slot).2 =
        es.expiryAt now draw fuzz := by
      funext place
      rw [expiryAt, expiryAt, fuzzFor_inboundPathFuzz]
    rw [LeastLoaded.assign, List.map_cons]
    simp only [selectExpiries, ih, hfuzz, inboundPathFuzz_fst]
    rfl

def numPaths (paths : List InboundPath) : Nat :=
  paths.countP fun path => now ≤ path.expiry

def needed (maxPaths : Nat) (paths : List InboundPath) : Int :=
  (if 10 < es.targetPaths ∧ maxPaths < es.targetPaths then maxPaths else es.targetPaths : Nat) -
    numPaths now paths

end ExpirySlots

/-- What one build meets with. -/
structure InboundAttempt where
  hopDraws : HopDraws
  isStopped : Bool
  hopIdTaken : Bool
  result : SendResult

/-- What an update consults and draws. -/
structure UpdateEnv where
  sel : PathSelector
  inboundPivotReuse : Nat
  inUniqueEdgeRange : HopContact → Bool
  cooldown : Bool
  fuzzDraw : Int → Fuzz
  edgeDraw : Nat → Draw
  pivotDraw : Nat → Draw
  attempts : Nat → InboundAttempt

namespace UpdateEnv

variable (env : UpdateEnv)

def maxPaths : Nat :=
  env.sel.knownRcs.rcs.length * env.inboundPivotReuse

def filter (paths : List InboundPath) (rc : HopContact) : Bool :=
  let count := paths.countP fun path => path.terminalRid = rc.routerId
  !env.inUniqueEdgeRange rc && (count == 0 || count < env.inboundPivotReuse) &&
    !env.sel.isBadForPath rc.routerId 1

def newPivots (round needed : Nat) (paths : List InboundPath) : List HopContact :=
  env.sel.sampleRcs (env.pivotDraw round) needed (env.filter paths)

theorem length_newPivots_le (round needed : Nat) (paths : List InboundPath) :
    (env.newPivots round needed paths).length ≤ needed := by
  rw [newPivots, PathSelector.sampleRcs, length_sample]
  exact Nat.min_le_left _ _

end UpdateEnv

structure Building where
  paths : List InboundPath
  nextExpiry : List ChosenExpiry
  attempt : Nat
  rounds : Nat
  overrun : Bool
  threw : Bool

namespace Building

def build (b : Building) (attempt : InboundAttempt) (hops : List HopContact) (rid : RouterID) :
    Building :=
  let b := { b with attempt := b.attempt + 1 }
  match b.nextExpiry with
  | [] => { b with overrun := true }
  | chosen :: rest =>
    let b := { b with nextExpiry := rest }
    let path : InboundPath := ⟨rid, chosen.slot, 1000 * chosen.expiry⟩
    if attempt.isStopped || buildLength < hops.length || attempt.hopIdTaken then b
    else
      match attempt.result with
      | .sent => { b with paths := b.paths ++ [path] }
      | .notSent => b
      | .threw => { b with paths := b.paths ++ [path], threw := true }

variable (env : UpdateEnv)

def singleHop : (needed : Nat) → Building → Building
  | 0, b => b
  | needed + 1, b =>
    match env.sel.selectFirstHop (env.edgeDraw b.attempt) (fun _ => true) with
    | none => b
    | some hop =>
      let b := b.build (env.attempts b.attempt) [hop] hop.routerId
      if b.threw then b else singleHop needed b

def buildPivots : List HopContact → Building → Building
  | [], b => b
  | rc :: pivots, b =>
    match env.sel.selectHopsToRemote (env.attempts b.attempt).hopDraws rc.routerId with
    | none => buildPivots pivots { b with attempt := b.attempt + 1 }
    | some hops =>
      let b := b.build (env.attempts b.attempt) hops rc.routerId
      if b.threw then b else buildPivots pivots b

def pivotRounds (needed : Nat) (b : Building) : Building :=
  match env.newPivots b.rounds needed b.paths with
  | [] => { b with rounds := b.rounds + 1 }
  | first :: others =>
    let b := buildPivots env (first :: others) { b with rounds := b.rounds + 1 }
    if b.threw then b
    else if _hmore : 0 < needed - (first :: others).length then
      pivotRounds (needed - (first :: others).length) b
    else b
  termination_by needed
  decreasing_by
    simp only [List.length_cons] at _hmore ⊢
    omega

variable {Ok : InboundPath → Prop} {n : Nat} {b : Building}

structure Sound (Ok : InboundPath → Prop) (n : Nat) (b : Building) : Prop where
  overrun : b.overrun = false
  room : n ≤ b.nextExpiry.length
  paths : ∀ path ∈ b.paths, Ok path
  next : ∀ chosen ∈ b.nextExpiry, ∀ rid, Ok ⟨rid, chosen.slot, 1000 * chosen.expiry⟩

theorem Sound.mono (h : Sound Ok n b) {m : Nat} (hle : m ≤ n) : Sound Ok m b :=
  { h with room := hle.trans h.room }

theorem Sound.build (h : Sound Ok (n + 1) b) (attempt : InboundAttempt) (hops : List HopContact)
    (rid : RouterID) : Sound Ok n (b.build attempt hops rid) := by
  obtain ⟨hoverrun, hroom, hpaths, hnext⟩ := h
  unfold Building.build
  cases hexpiries : b.nextExpiry with
  | nil => simp [hexpiries] at hroom
  | cons chosen rest =>
    rw [hexpiries, List.length_cons] at hroom
    rw [hexpiries] at hnext
    have hrest := fun other (hmem : other ∈ rest) => hnext other (List.mem_cons_of_mem _ hmem)
    have hmore : ∀ path ∈ b.paths ++ [⟨rid, chosen.slot, 1000 * chosen.expiry⟩], Ok path := by
      intro path hmem
      rcases List.mem_append.mp hmem with hold | hnew
      · exact hpaths path hold
      · rw [List.mem_singleton.mp hnew]
        exact hnext chosen List.mem_cons_self rid
    have hroom : n ≤ rest.length := Nat.le_of_succ_le_succ hroom
    split
    · exact ⟨hoverrun, hroom, hpaths, hrest⟩
    · split
      · exact ⟨hoverrun, hroom, hmore, hrest⟩
      · exact ⟨hoverrun, hroom, hpaths, hrest⟩
      · exact ⟨hoverrun, hroom, hmore, hrest⟩

theorem Sound.singleHop (h : Sound Ok n b) : Sound Ok 0 (b.singleHop env n) := by
  induction n generalizing b with
  | zero => exact h
  | succ n ih =>
    unfold Building.singleHop
    split
    · exact h.mono (Nat.zero_le _)
    · next hop _ =>
      have hbuilt := h.build (env.attempts b.attempt) [hop] hop.routerId
      dsimp only
      split
      · exact hbuilt.mono (Nat.zero_le _)
      · exact ih hbuilt

theorem Sound.buildPivots {pivots : List HopContact} (h : Sound Ok (n + pivots.length) b) :
    Sound Ok n (b.buildPivots env pivots) := by
  induction pivots generalizing b with
  | nil => exact h
  | cons rc pivots ih =>
    have hle : n + pivots.length ≤ n + (rc :: pivots).length := by simp
    unfold Building.buildPivots
    split
    · exact ih { h.mono hle with }
    · next hops _ =>
      have hbuilt := h.build (env.attempts b.attempt) hops rc.routerId
      dsimp only
      split
      · exact hbuilt.mono (Nat.le_add_right _ _)
      · exact ih hbuilt

theorem Sound.pivotRounds (h : Sound Ok n b) : Sound Ok 0 (b.pivotRounds env n) := by
  induction n using Nat.strong_induction_on generalizing b with
  | _ n ih =>
    have hle := env.length_newPivots_le b.rounds n b.paths
    unfold Building.pivotRounds
    split
    · exact { h.mono (Nat.zero_le n) with }
    · next first others hpivots =>
      rw [hpivots] at hle
      have hround : Sound Ok (n - (first :: others).length + (first :: others).length)
          { b with rounds := b.rounds + 1 } := by
        rw [Nat.sub_add_cancel hle]
        exact { h with }
      have hbuilt := Sound.buildPivots env hround
      dsimp only
      split
      · exact hbuilt.mono (Nat.zero_le _)
      · split
        · next hmore => exact ih _ (by simp only [List.length_cons] at hmore ⊢; omega) hbuilt
        · exact hbuilt.mono (Nat.zero_le _)

theorem rounds_build (attempt : InboundAttempt) (hops : List HopContact) (rid : RouterID) :
    (b.build attempt hops rid).rounds = b.rounds := by
  unfold build
  dsimp only
  repeat' split
  all_goals rfl

theorem rounds_singleHop : (b.singleHop env n).rounds = b.rounds := by
  induction n generalizing b with
  | zero => rfl
  | succ n ih =>
    unfold singleHop
    split
    · rfl
    · dsimp only
      split
      · exact rounds_build ..
      · exact ih.trans (rounds_build ..)

theorem rounds_buildPivots (pivots : List HopContact) :
    (b.buildPivots env pivots).rounds = b.rounds := by
  induction pivots generalizing b with
  | nil => rfl
  | cons rc pivots ih =>
    unfold buildPivots
    split
    · exact ih
    · dsimp only
      split
      · exact rounds_build ..
      · exact ih.trans (rounds_build ..)

theorem rounds_pivotRounds_le (hpos : 0 < n) : (b.pivotRounds env n).rounds ≤ b.rounds + n := by
  induction n using Nat.strong_induction_on generalizing b with
  | _ n ih =>
    unfold pivotRounds
    split
    · exact Nat.add_le_add_left hpos _
    · next first others _ =>
      have hround := @rounds_buildPivots env { b with rounds := b.rounds + 1 } (first :: others)
      dsimp only at hround ⊢
      split
      · omega
      · split
        · next hmore =>
          have hlater := @ih (n - (first :: others).length)
            (by simp only [List.length_cons] at hmore ⊢; omega)
            (buildPivots env (first :: others) { b with rounds := b.rounds + 1 }) hmore
          simp only [List.length_cons] at hlater hround hmore ⊢
          omega
        · omega

end Building

structure Update where
  after : InboundPaths
  chosen : List ChosenExpiry
  unexpected : Bool
  overrun : Bool
  rounds : Nat

def InboundPaths.updatePaths (s : InboundPaths) (es : ExpirySlots) (now : Int)
    (env : UpdateEnv) : Update :=
  let needed := es.needed now env.maxPaths s.paths
  if needed ≤ 0 || env.cooldown then ⟨s, [], false, false, 0⟩
  else
    let needed := needed.toNat
    let (slotCount, unexpected) := es.countPaths now s.paths
    let (chosen, fuzz) := es.selectExpiries now env.fuzzDraw needed slotCount
      (cleanupOldFuzz s.slotFuzz (es.slot0 now))
    let b : Building := ⟨s.paths, chosen, 0, 0, false, false⟩
    let b := if env.sel.numHops = 1 then b.singleHop env needed
      else b.pivotRounds env needed
    ⟨⟨fuzz, b.paths⟩, chosen, unexpected, b.overrun, b.rounds⟩

variable {es : ExpirySlots} {now : Int}

def InSlots (es : ExpirySlots) (now : Int) (path : InboundPath) : Prop :=
  0 ≤ path.builtFor ∧ path.builtFor < es.slot0 now + es.slots ∧
    ∃ fuzz, path.expiry = 1000 * es.expiryIn path.builtFor fuzz

theorem InSlots.slotOf_eq (h : InSlots es now path) :
    es.slotOf path.expiry = path.builtFor := by
  obtain ⟨hslot, -, fuzz, hexpiry⟩ := h
  rw [hexpiry, es.slotOf_expiryIn hslot]

theorem InSlots.later (h : InSlots es now path)
    (hbasis : es.basis ≤ now / 1000) {later : Int} (hle : now ≤ later) :
    InSlots es later path :=
  ⟨h.1, h.2.1.trans_le (Int.add_le_add_right (ExpirySlots.slot0_mono hbasis hle) _), h.2.2⟩

def OldOrChosen (s : InboundPaths) (chosen : List ChosenExpiry) (path : InboundPath) : Prop :=
  path ∈ s.paths ∨ ∃ c ∈ chosen, path.builtFor = c.slot ∧ path.expiry = 1000 * c.expiry

theorem chosen_updatePaths (es : ExpirySlots) (now : Int) (env : UpdateEnv) :
    (s.updatePaths es now env).chosen =
      if es.needed now env.maxPaths s.paths ≤ 0 || env.cooldown then []
      else (LeastLoaded.assign es.slots (es.needed now env.maxPaths s.paths).toNat
        (es.countPaths now s.paths).1).map (es.expiryAt now env.fuzzDraw s.slotFuzz) := by
  unfold InboundPaths.updatePaths
  dsimp only
  split
  · rfl
  · dsimp only
    rw [ExpirySlots.selectExpiries_fst]
    refine List.map_congr_left fun place _ => ?_
    rw [ExpirySlots.expiryAt, ExpirySlots.expiryAt, fuzzFor_cleanupOldFuzz _ _ (by omega)]

theorem mem_chosen_updatePaths {s : InboundPaths} {env : UpdateEnv} {c : ChosenExpiry}
    (h : c ∈ (s.updatePaths es now env).chosen) :
    ∃ place < es.slots, c.slot = es.slot0 now + place ∧
      c.expiry = es.expiryIn c.slot (fuzzFor s.slotFuzz env.fuzzDraw c.slot) := by
  rw [chosen_updatePaths] at h
  split at h
  · cases h
  · obtain ⟨place, hplace, rfl⟩ := List.mem_map.mp h
    obtain ⟨before, after, hsplit⟩ := List.append_of_mem hplace
    exact ⟨place, (LeastLoaded.assign_split es.slots_pos hsplit).1, rfl, rfl⟩

theorem updatePaths_sound (es : ExpirySlots) (now : Int) (env : UpdateEnv) :
    let u := s.updatePaths es now env
    (∀ path ∈ u.after.paths, OldOrChosen s u.chosen path) ∧ u.overrun = false ∧
      u.rounds ≤ es.targetPaths := by
  unfold InboundPaths.updatePaths
  dsimp only
  split
  · exact ⟨fun path hmem => .inl hmem, rfl, Nat.zero_le _⟩
  · next hneeded =>
    generalize hchosen : (es.selectExpiries now env.fuzzDraw _ _ _).1 = chosen
    have hlength : chosen.length = (es.needed now env.maxPaths s.paths).toNat := by
      rw [← hchosen, ExpirySlots.selectExpiries_fst, List.length_map, LeastLoaded.length_assign]
    have hstart : Building.Sound (OldOrChosen s chosen)
        (es.needed now env.maxPaths s.paths).toNat ⟨s.paths, chosen, 0, 0, false, false⟩ :=
      ⟨rfl, hlength.ge, fun path hmem => .inl hmem,
        fun c hmem rid => .inr ⟨c, hmem, rfl, rfl⟩⟩
    have hpos : 0 < es.needed now env.maxPaths s.paths := by
      by_contra hnone
      simp [Int.not_lt.mp hnone] at hneeded
    have hle : es.needed now env.maxPaths s.paths ≤ es.targetPaths := by
      unfold ExpirySlots.needed
      split <;> omega
    split
    · have hbuilt := hstart.singleHop env
      refine ⟨hbuilt.paths, hbuilt.overrun, ?_⟩
      rw [Building.rounds_singleHop]
      exact Nat.zero_le _
    · have hbuilt := hstart.pivotRounds env
      refine ⟨hbuilt.paths, hbuilt.overrun, ?_⟩
      refine (Building.rounds_pivotRounds_le env (by omega)).trans ?_
      dsimp only
      omega

structure EndpointPaths where
  inbound : InboundPaths
  clock : Int

inductive InboundAction where
  | update (now : Int) (env : UpdateEnv)
  | lose (keep : InboundPath → Bool)

namespace EndpointPaths

def start (now : Int) : EndpointPaths :=
  ⟨⟨∅, []⟩, now⟩

def step (es : ExpirySlots) (state : EndpointPaths) : InboundAction → EndpointPaths
  | .update now env => ⟨(state.inbound.updatePaths es now env).after, now⟩
  | .lose keep =>
    { state with inbound := { state.inbound with paths := state.inbound.paths.filter keep } }

def InTime (state : EndpointPaths) : InboundAction → Prop
  | .update now _ => state.clock ≤ now
  | .lose _ => True

structure Wf (es : ExpirySlots) (state : EndpointPaths) : Prop where
  basis_le : es.basis ≤ state.clock / 1000
  inSlots : ∀ path ∈ state.inbound.paths, InSlots es state.clock path

theorem Wf.step {state : EndpointPaths} {action : InboundAction} (h : Wf es state)
    (htime : InTime state action) : Wf es (state.step es action) := by
  cases action with
  | lose keep => exact ⟨h.basis_le, fun path hmem => h.inSlots path (List.mem_of_mem_filter hmem)⟩
  | update now env =>
    have htime : state.clock ≤ now := htime
    have hbasis : es.basis ≤ now / 1000 := by
      have hstart := h.basis_le
      omega
    refine ⟨hbasis, fun path hmem => ?_⟩
    rcases (updatePaths_sound state.inbound es now env).1 path hmem with hold | hnew
    · exact (h.inSlots path hold).later h.basis_le htime
    · obtain ⟨c, hc, hslot, hexpiry⟩ := hnew
      obtain ⟨place, hplace, hc, hchosen⟩ := mem_chosen_updatePaths hc
      have hpositive := (ExpirySlots.slot0_bounds hbasis).1
      refine ⟨by omega, ?_, _, hexpiry.trans (by rw [hchosen, hslot])⟩
      change path.builtFor < es.slot0 now + es.slots
      omega

theorem Wf.run {start : Int} (hbasis : es.basis = start / 1000) {actions : List InboundAction}
    (htimes : Run.Meets (EndpointPaths.step es) InTime (.start start) actions) :
    Wf es (Run.run (EndpointPaths.step es) (.start start) actions) :=
  Run.run_invariant (EndpointPaths.step es) InTime (fun _ _ h htime => h.step htime)
    ⟨hbasis.le, fun _ hmem => absurd hmem List.not_mem_nil⟩ htimes

/-- Inbound paths over whole runs of an endpoint that was made at `start`: updates at times that do
not go back, with any random values, any relays and any outcomes of builds, and paths lost in
between.  In the next update, every expiry that is chosen is in the future, at most
`MAX_LIFETIME_ACCEPTED` away; every path is found in the slot it was built for, and counted there
unless the slot has passed, and no unexpected expiry is reported; no expiry is read behind the
last; the loop ends after at most as many rounds as there should be paths; each expiry is for a
slot that has the fewest paths, those counted that were given an expiry before it; and the new
paths have the chosen expiries. -/
theorem updatePaths_slots (es : ExpirySlots) (start : Int) (hbasis : es.basis = start / 1000)
    (actions : List InboundAction)
    (htimes : Run.Meets (EndpointPaths.step es) InTime (.start start) actions) (now : Int)
    (hnow : (Run.run (EndpointPaths.step es) (.start start) actions).clock ≤ now)
    (env : UpdateEnv) :
    let s := (Run.run (EndpointPaths.step es) (.start start) actions).inbound
    let u := s.updatePaths es now env
    let load (before : List ChosenExpiry) (slot : Int) : Nat :=
      s.paths.countP (fun path => path.builtFor = slot) + (before.map ChosenExpiry.slot).count slot
    (∀ c ∈ u.chosen, now < 1000 * c.expiry ∧
        1000 * c.expiry ≤ now + Link.maxLifetimeAccepted) ∧
      (∀ path ∈ s.paths, es.slotOf path.expiry = path.builtFor) ∧
      (∀ place < es.slots, (es.countPaths now s.paths).1 place =
        s.paths.countP fun path => path.builtFor = es.slot0 now + place) ∧
      (es.countPaths now s.paths).2 = false ∧ u.unexpected = false ∧ u.overrun = false ∧
      u.rounds ≤ es.targetPaths ∧
      (∀ before c after, u.chosen = before ++ c :: after →
        (∃ place < es.slots, c.slot = es.slot0 now + place) ∧
          ∀ place < es.slots, load before c.slot ≤ load before (es.slot0 now + place)) ∧
      ∀ path ∈ u.after.paths, path ∈ s.paths ∨
        ∃ c ∈ u.chosen, path.builtFor = c.slot ∧ path.expiry = 1000 * c.expiry := by
  intro s u load
  obtain ⟨hstart, hslots⟩ := Wf.run hbasis htimes
  have hnowBasis : es.basis ≤ now / 1000 := by omega
  have hpaths : ∀ path ∈ s.paths, InSlots es now path :=
    fun path hmem => (hslots path hmem).later hstart hnow
  have hcount (slot : Int) :
      es.inSlot s.paths slot = s.paths.countP fun path => path.builtFor = slot :=
    List.countP_congr fun path hmem => by rw [(hpaths path hmem).slotOf_eq]
  have hexpected : (es.countPaths now s.paths).2 = false :=
    es.countPaths_snd now fun path hmem => by
      rw [(hpaths path hmem).slotOf_eq]
      exact (hpaths path hmem).2.1
  have hplaces {place : Nat} (hplace : place < es.slots) :=
    (es.countPaths_fst now s.paths hplace).trans (hcount _)
  obtain ⟨hafter, hoverrun, hrounds⟩ := updatePaths_sound s es now env
  refine ⟨fun c hc => ?_, fun path hmem => (hpaths path hmem).slotOf_eq, fun place => hplaces,
    hexpected, ?_, hoverrun, hrounds, fun before c after hsplit => ?_, hafter⟩
  · obtain ⟨place, hplace, hslot, hexpiry⟩ := mem_chosen_updatePaths hc
    rw [hexpiry, hslot]
    exact ExpirySlots.expiryIn_bounds hnowBasis hplace _
  · change (s.updatePaths es now env).unexpected = false
    unfold InboundPaths.updatePaths
    dsimp only
    split
    · rfl
    · exact hexpected
  · change (s.updatePaths es now env).chosen = _ at hsplit
    rw [chosen_updatePaths] at hsplit
    split at hsplit
    · simp at hsplit
    · obtain ⟨first, rest, hassign, rfl, hrest⟩ := List.map_eq_append_iff.mp hsplit
      obtain ⟨place, others, rfl, rfl, -⟩ := List.map_eq_cons_iff.mp hrest
      obtain ⟨hplace, hleast⟩ := LeastLoaded.assign_split es.slots_pos hassign
      refine ⟨⟨place, hplace, rfl⟩, fun other hother => ?_⟩
      have hload {place : Nat} (hplace : place < es.slots) :
          load (first.map (es.expiryAt now env.fuzzDraw s.slotFuzz)) (es.slot0 now + place) =
            (es.countPaths now s.paths).1 place + first.count place := by
        rw [hplaces hplace]
        change _ + List.count _ _ = _
        rw [List.map_map, Nat.add_left_cancel_iff]
        exact List.count_map_of_injective first (fun place : Nat => es.slot0 now + place)
          (fun a b hab => by simpa using hab) place
      exact (hload hplace).trans_le ((hleast other hother).trans_eq (hload hother).symm)

def oneHop : UpdateEnv where
  sel := { PathSelector.TwoRelays.client with numHops := 1 }
  inboundPivotReuse := 1
  inUniqueEdgeRange _ := false
  cooldown := false
  fuzzDraw _ := 0
  edgeDraw _ k := ⟨0, k.succ_pos⟩
  pivotDraw _ k := ⟨0, k.succ_pos⟩
  attempts _ := ⟨PathSelector.TwoRelays.zeroDraws, false, false, .sent⟩

def fourPaths : ExpirySlots := ⟨0, 4, by decide⟩

theorem updatePaths_slots_oneHop :
    let s := (Run.run (EndpointPaths.step fourPaths) (.start 0) [.update 0 oneHop]).inbound
    s.paths.length = 4 ∧ (fourPaths.countPaths 300000 s.paths).2 = false :=
  ⟨by decide +kernel, (updatePaths_slots fourPaths 0 (by decide) [.update 0 oneHop]
    ⟨le_rfl, trivial⟩ 300000 (by decide) oneHop).2.2.2.1⟩

end EndpointPaths

def roundSeconds (ms : Int) : Int :=
  let below := ms / 1000
  let rest := ms - 1000 * below
  if rest = 500 then if below % 2 = 1 then below + 1 else below
  else if rest < 500 then below else below + 1

def writtenLifetime (expiry now : Int) : Nat :=
  (roundSeconds (expiry - now) % 2 ^ 32).toNat

theorem roundSeconds_bounds {ms : Int} (hlow : 0 < ms) (hhigh : ms ≤ 1380000) :
    0 ≤ roundSeconds ms ∧ roundSeconds ms ≤ 1380 ∧ (1 ≤ roundSeconds ms ↔ 500 < ms) := by
  unfold roundSeconds
  dsimp only
  split
  · split <;> omega
  · split <;> omega

theorem acceptedLifetime_writtenLifetime {expiry now : Int} (hlow : now < expiry)
    (hhigh : expiry ≤ now + Link.maxLifetimeAccepted) :
    Link.acceptedLifetime (writtenLifetime expiry now) = true ↔ now + 500 < expiry := by
  unfold Link.maxLifetimeAccepted at hhigh
  obtain ⟨hnonneg, hmax, hsoon⟩ := @roundSeconds_bounds (expiry - now) (by omega) (by omega)
  unfold Link.acceptedLifetime writtenLifetime
  rw [Bool.and_eq_true, decide_eq_true_eq, decide_eq_true_eq]
  omega

theorem lack_countPaths (es : ExpirySlots) (now : Int) (paths : List InboundPath) :
    LeastLoaded.lack es.slots (es.countPaths now paths).1 =
      LeastLoaded.lack es.slots fun place => es.inSlot paths (es.slot0 now + place) := by
  refine Finset.sum_congr rfl fun place hplace => ?_
  rw [es.countPaths_fst now paths es.slots_pos,
    es.countPaths_fst now paths (Finset.mem_Ico.mp hplace).2]

theorem soon_iff {place : Nat} (hnow : es.basis ≤ now / 1000) (fuzz : Fuzz) :
    now + 500 < 1000 * es.expiryIn (es.slot0 now + place) fuzz ↔
      (place = 0 → fuzz = 0 → now + 500 < 1000 * (es.basis + es.slot0 now * es.slotSize)) := by
  obtain ⟨-, -, hhigh⟩ := ExpirySlots.slot0_bounds hnow
  have hfuzz : fuzz = 0 ↔ fuzz.val = 0 := Fin.ext_iff
  unfold ExpirySlots.expiryIn
  rw [hfuzz]
  rcases es.slots_slotSize with ⟨-, h⟩ | ⟨-, h⟩ | ⟨-, h⟩ | ⟨-, h⟩ <;> rw [h] at hhigh ⊢ <;> omega

/-- The lifetimes of the paths that an update builds are accepted exactly if none of the expiries
comes too soon.  This happens in the first slot only, if more paths are needed than it takes to
raise the other slots above it, nothing is added to the slot's time, and half a second or less is
left until then.  The lifetime in a frame is what the relay that decodes the frame compares with
its clock. -/
theorem chosen_accepted_iff (s : InboundPaths) (es : ExpirySlots) (env : UpdateEnv)
    (elapsed : Nat) :
    let now := 1000 * es.basis + elapsed
    ((∀ c ∈ (s.updatePaths es now env).chosen,
        Link.acceptedLifetime (writtenLifetime (1000 * c.expiry) now) = true) ↔
      (env.cooldown = false →
        LeastLoaded.lack es.slots (fun place => es.inSlot s.paths (es.slot0 now + place)) <
          es.needed now env.maxPaths s.paths →
        fuzzFor s.slotFuzz env.fuzzDraw (es.slot0 now) = 0 →
        now + 500 < 1000 * (es.basis + es.slot0 now * es.slotSize))) ∧
      ∀ (suite : CryptoSuite) (secretKey : Ed25519SecretKey) (hop : TransitHop)
        (rnd : BuildRandom) (e : Path.EncodedFrame) (src : NextHop) (lifetime : Nat),
        suite.Lawful → suite.edPublic secretKey = hop.routerId → Path.Consistent hop hop.routerId →
        lifetime < 65536 → Path.encodeFrame suite hop lifetime rnd = some e →
        ∃ hop' nonce,
          Path.decryptBuildFrame suite e.frame hop.routerId secretKey src now =
            .ok (hop', nonce) ∧
          (¬ (now + Link.maxLifetimeAccepted < hop'.expiry ∨ hop'.expiry ≤ now) ↔
            Link.acceptedLifetime lifetime = true) := by
  intro now
  have hnow : es.basis ≤ now / 1000 := by omega
  refine ⟨?_, fun suite secretKey hop rnd e src lifetime hlaw hkey hconsistent hsize he =>
    ⟨_, _, Path.decryptBuildFrame_encodeFrame hlaw hkey hsize hconsistent he src now,
      Link.expiry_accepted_iff now lifetime⟩⟩
  rw [chosen_updatePaths]
  split
  · next hnone =>
    refine iff_of_true (fun c hc => absurd hc List.not_mem_nil) fun hcooldown hneeded => ?_
    rw [hcooldown, Bool.or_false, decide_eq_true_eq] at hnone
    omega
  · next hneeded =>
    simp only [Bool.or_eq_true, decide_eq_true_eq, not_or, Bool.not_eq_true] at hneeded
    have hfirst := @LeastLoaded.zero_mem_assign_iff es.slots (es.countPaths now s.paths).1
      es.slots_pos (es.needed now env.maxPaths s.paths).toNat
    rw [lack_countPaths] at hfirst
    have hplace {place : Nat} (hmem : place ∈ LeastLoaded.assign es.slots
        (es.needed now env.maxPaths s.paths).toNat (es.countPaths now s.paths).1) :
        Link.acceptedLifetime (writtenLifetime
          (1000 * (es.expiryAt now env.fuzzDraw s.slotFuzz place).expiry) now) = true ↔
        (place = 0 → fuzzFor s.slotFuzz env.fuzzDraw (es.slot0 now + place) = 0 →
          now + 500 < 1000 * (es.basis + es.slot0 now * es.slotSize)) := by
      obtain ⟨before, after, hsplit⟩ := List.append_of_mem hmem
      obtain ⟨hlow, hhigh⟩ := ExpirySlots.expiryIn_bounds hnow
        (LeastLoaded.assign_split es.slots_pos hsplit).1
        (fuzzFor s.slotFuzz env.fuzzDraw (es.slot0 now + place))
      exact (acceptedLifetime_writtenLifetime hlow hhigh).trans (soon_iff hnow _)
    constructor
    · intro haccepted _ hlack hfuzz
      have hmem := hfirst.mpr (by omega)
      refine (hplace hmem).mp (haccepted _ (List.mem_map_of_mem hmem)) rfl ?_
      rw [Nat.cast_zero, Int.add_zero, hfuzz]
    · intro hsoon c hc
      obtain ⟨place, hmem, rfl⟩ := List.mem_map.mp hc
      refine (hplace hmem).mpr fun hzero hfuzz => ?_
      subst hzero
      rw [Nat.cast_zero, Int.add_zero] at hfuzz
      exact hsoon hneeded.2 (by have hlack := hfirst.mp hmem; omega) hfuzz

theorem chosen_lifetime_zero :
    let now := 299600
    let chosen := (InboundPaths.updatePaths ⟨∅, []⟩ EndpointPaths.fourPaths now
      EndpointPaths.oneHop).chosen
    chosen.map ChosenExpiry.expiry = [1200, 900, 600, 300] ∧ writtenLifetime (1000 * 300) now = 0 ∧
      Link.acceptedLifetime 0 = false := by
  decide +kernel

end SessionRouter.Handlers

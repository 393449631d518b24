import SessionRouter.Lib.Run

/-!
# Bootstrapping
-/

namespace SessionRouter.NodeDB

open Lib

def minActiveRcs : Nat := 6

def bootstrapCooldown : Nat := 3

def bootstrapCooldownMax : Nat := 60

/-- What bootstrapping depends on in a node. -/
structure Bootstrapper where
  started : Bool
  isRunning : Bool
  isStopping : Bool
  numRcs : Nat
  bootstrapRunning : Bool
  bootstrapFails : Nat
  chains : List Nat
  retries : List Nat
  attempts : Nat
deriving DecidableEq

inductive BootstrapReply where
  | failed
  | unparseable (numRcs : Nat)
  | fetched (numRcs : Nat)
deriving DecidableEq

inductive BootstrapAction where
  | start
  | purge (numRcs : Nat)
  | reply (chain : Nat) (reply : BootstrapReply)
  | retry (number : Nat)
  | learn (numRcs : Nat)
  | router (isRunning isStopping : Bool)
deriving DecidableEq

namespace Bootstrapper

def init (numRcs : Nat) : Bootstrapper :=
  ⟨false, false, false, numRcs, false, 0, [], [], 0⟩

def onBootstrapDone (node : Bootstrapper) (success : Bool) : Bootstrapper :=
  let node := { node with
    bootstrapRunning := false
    bootstrapFails := if success then 0 else node.bootstrapFails + 1 }
  if minActiveRcs ≤ node.numRcs then node
  else
    let cooldown := min (bootstrapCooldown * if success then 1 else node.bootstrapFails)
      bootstrapCooldownMax
    { node with retries := node.retries ++ [cooldown] }

section

variable (bootstraps : Nat) (node : Bootstrapper)

def tryNext (asked : Nat) : Bootstrapper :=
  if node.isStopping then node
  else if bootstraps ≤ asked then node.onBootstrapDone false
  else { node with chains := node.chains ++ [asked + 1] }

def bootstrap : Bootstrapper :=
  tryNext bootstraps { node with bootstrapRunning := true, attempts := node.attempts + 1 } 0

def start : Bootstrapper :=
  let needBootstrap := node.numRcs < minActiveRcs ∧ bootstraps ≠ 0
  let node := { node with started := true }
  if needBootstrap then node.bootstrap bootstraps else node

def purgeRcs (numRcs : Nat) : Bootstrapper :=
  if node.isStopping ∨ ¬node.isRunning then node
  else
    let node := { node with numRcs := numRcs }
    if numRcs < minActiveRcs ∧ bootstraps ≠ 0 ∧ ¬node.bootstrapRunning then
      { node with bootstrapFails := 0 }.bootstrap bootstraps
    else node

def handleReply (asked : Nat) : BootstrapReply → Bootstrapper
  | .failed => node.tryNext bootstraps asked
  | .unparseable numRcs => { node with numRcs := numRcs }.tryNext bootstraps asked
  | .fetched numRcs => { node with numRcs := numRcs }.onBootstrapDone true

def step : BootstrapAction → Bootstrapper
  | .start => if node.started then node else node.start bootstraps
  | .purge numRcs => if node.started then node.purgeRcs bootstraps numRcs else node
  | .reply chain reply =>
    match node.chains[chain]? with
    | none => node
    | some asked =>
      { node with chains := node.chains.eraseIdx chain }.handleReply bootstraps asked reply
  | .retry number =>
    if number < node.retries.length then
      { node with retries := node.retries.eraseIdx number }.bootstrap bootstraps
    else node
  | .learn numRcs => { node with numRcs := numRcs }
  | .router isRunning isStopping => { node with isRunning := isRunning, isStopping := isStopping }

end

def OneAttempt (bootstraps numRcs : Nat) (actions : List BootstrapAction) : Prop :=
  ∀ front back, actions = front ++ back →
    let node := Run.run (step bootstraps) (init numRcs) front
    node.chains.length ≤ 1 ∧
      ∀ action rest, back = action :: rest → node.retries ≠ [] →
        (∀ number, action ≠ .retry number) →
        (node.step bootstraps action).attempts = node.attempts

def PurgeStarts (bootstraps : Nat) (node : Bootstrapper) (action : BootstrapAction) : Prop :=
  ∃ numRcs, action = .purge numRcs ∧ node.started = true ∧ node.isRunning = true ∧
    node.isStopping = false ∧ numRcs < minActiveRcs ∧ bootstraps ≠ 0 ∧
    node.bootstrapRunning = false

def AwaitsRetry (bootstraps : Nat) (node : Bootstrapper) (action : BootstrapAction) : Prop :=
  node.retries ≠ [] → ¬PurgeStarts bootstraps node action

structure Quiet (node : Bootstrapper) : Prop where
  one : node.chains.length + node.retries.length ≤ 1
  flagged : node.chains ≠ [] → node.bootstrapRunning = true
  unstarted : node.started = false → node.chains = [] ∧ node.retries = []

theorem quiet_init (numRcs : Nat) : (init numRcs).Quiet where
  one := Nat.zero_le 1
  flagged h := absurd rfl h
  unstarted _ := ⟨rfl, rfl⟩

section

variable {bootstraps : Nat} {node : Bootstrapper}

def Idle (node : Bootstrapper) : Prop :=
  node.started = true ∧ node.chains = [] ∧ node.retries = []

section

variable (h : node.Idle)

include h

theorem Idle.quiet : node.Quiet := by
  obtain ⟨hstarted, hchains, hretries⟩ := h
  refine ⟨?_, fun hne => absurd hchains hne, fun _ => ⟨hchains, hretries⟩⟩
  rw [hchains, hretries]
  exact Nat.zero_le 1

theorem Idle.onBootstrapDone (success : Bool) :
    (node.onBootstrapDone success).Quiet := by
  obtain ⟨hstarted, hchains, hretries⟩ := h
  rw [Bootstrapper.onBootstrapDone]
  dsimp only
  split
  · exact Idle.quiet ⟨hstarted, hchains, hretries⟩
  · refine ⟨?_, fun hne => absurd hchains hne, fun hfalse => ?_⟩
    · dsimp only
      rw [hchains, hretries]
      exact Nat.le_refl 1
    · exact absurd (hstarted.symm.trans hfalse) Bool.noConfusion

theorem Idle.tryNext (hflag : node.bootstrapRunning = true) (asked : Nat) :
    (node.tryNext bootstraps asked).Quiet := by
  rw [Bootstrapper.tryNext]
  split
  · exact h.quiet
  · split
    · exact h.onBootstrapDone false
    · obtain ⟨hstarted, hchains, hretries⟩ := h
      refine ⟨?_, fun _ => hflag, fun hfalse => ?_⟩
      · dsimp only
        rw [hchains, hretries]
        exact Nat.le_refl 1
      · exact absurd (hstarted.symm.trans hfalse) Bool.noConfusion

theorem Idle.bootstrap : (node.bootstrap bootstraps).Quiet := by
  have hidle : Idle { node with bootstrapRunning := true, attempts := node.attempts + 1 } := h
  exact hidle.tryNext rfl 0

theorem Idle.handleReply (hflag : node.bootstrapRunning = true) (asked : Nat)
    (reply : BootstrapReply) : (node.handleReply bootstraps asked reply).Quiet := by
  cases reply with
  | failed => exact h.tryNext hflag asked
  | unparseable numRcs =>
    have hidle : Idle { node with numRcs := numRcs } := h
    exact hidle.tryNext hflag asked
  | fetched numRcs =>
    have hidle : Idle { node with numRcs := numRcs } := h
    exact hidle.onBootstrapDone true

end

theorem purgeRcs_of_not_starts {numRcs : Nat} (hstarted : node.started = true)
    (h : ¬PurgeStarts bootstraps node (.purge numRcs)) :
    ∃ numRcs', node.purgeRcs bootstraps numRcs = { node with numRcs := numRcs' } := by
  rw [purgeRcs]
  split
  · exact ⟨node.numRcs, rfl⟩
  · next hrunning =>
    dsimp only
    split
    · next hstarts =>
      obtain ⟨hfew, hrelays, hflag⟩ := hstarts
      refine absurd ⟨numRcs, rfl, hstarted, ?_, ?_, hfew, hrelays, ?_⟩ h
      · by_contra hnot
        exact hrunning (.inr hnot)
      · by_contra hnot
        exact hrunning (.inl (eq_true_of_ne_false hnot))
      · exact eq_false_of_ne_true hflag
    · exact ⟨numRcs, rfl⟩

theorem purgeRcs_of_starts {numRcs : Nat} (h : PurgeStarts bootstraps node (.purge numRcs)) :
    node.purgeRcs bootstraps numRcs =
      { node with numRcs := numRcs, bootstrapFails := 0 }.bootstrap bootstraps := by
  obtain ⟨_, hsame, -, hrunning, hstopping, hfew, hrelays, hflag⟩ := h
  cases hsame
  have hgoes : ¬(node.isStopping = true ∨ ¬node.isRunning = true) := by simp [hrunning, hstopping]
  rw [purgeRcs, if_neg hgoes]
  dsimp only
  rw [if_pos ⟨hfew, hrelays, by simp [hflag]⟩]

theorem onBootstrapDone_attempts (success : Bool) :
    (node.onBootstrapDone success).attempts = node.attempts := by
  rw [onBootstrapDone]
  dsimp only
  split <;> rfl

theorem tryNext_attempts (asked : Nat) :
    (node.tryNext bootstraps asked).attempts = node.attempts := by
  rw [tryNext]
  split
  · rfl
  · split
    · exact onBootstrapDone_attempts false
    · rfl

theorem bootstrap_attempts : (node.bootstrap bootstraps).attempts = node.attempts + 1 := by
  rw [bootstrap, tryNext_attempts]

theorem handleReply_attempts (asked : Nat) (reply : BootstrapReply) :
    (node.handleReply bootstraps asked reply).attempts = node.attempts := by
  cases reply with
  | failed => exact tryNext_attempts asked
  | unparseable numRcs => rw [handleReply, tryNext_attempts]
  | fetched numRcs => rw [handleReply, onBootstrapDone_attempts]

section

variable (h : node.Quiet)

include h

theorem Quiet.started_of_chains (hchains : node.chains ≠ []) :
    node.started = true := by
  by_contra hnot
  exact hchains (h.unstarted (eq_false_of_ne_true hnot)).1

theorem Quiet.started_of_retries (hretries : node.retries ≠ []) :
    node.started = true := by
  by_contra hnot
  exact hretries (h.unstarted (eq_false_of_ne_true hnot)).2

theorem Quiet.idle_eraseChain {chain : Nat} (hchain : chain < node.chains.length) :
    Idle { node with chains := node.chains.eraseIdx chain } := by
  have hone := h.one
  have hretries : node.retries = [] := List.length_eq_zero_iff.mp (by omega)
  refine ⟨h.started_of_chains (List.ne_nil_of_length_pos (by omega)), ?_, hretries⟩
  rw [← List.length_eq_zero_iff, List.length_eraseIdx_of_lt hchain]
  omega

theorem Quiet.idle_eraseRetry {number : Nat}
    (hnumber : number < node.retries.length) :
    Idle { node with retries := node.retries.eraseIdx number } := by
  have hone := h.one
  have hchains : node.chains = [] := List.length_eq_zero_iff.mp (by omega)
  refine ⟨h.started_of_retries (List.ne_nil_of_length_pos (by omega)), hchains, ?_⟩
  rw [← List.length_eq_zero_iff, List.length_eraseIdx_of_lt hnumber]
  omega

theorem Quiet.start (hnot : node.started = false) :
    (node.start bootstraps).Quiet := by
  obtain ⟨hchains, hretries⟩ := h.unstarted hnot
  have hidle : Idle { node with started := true } := ⟨rfl, hchains, hretries⟩
  rw [Bootstrapper.start]
  split
  · exact hidle.bootstrap
  · exact hidle.quiet

theorem Quiet.purgeRcs (hstarted : node.started = true) {numRcs : Nat}
    (hawaits : AwaitsRetry bootstraps node (.purge numRcs)) :
    (node.purgeRcs bootstraps numRcs).Quiet := by
  by_cases hstarts : PurgeStarts bootstraps node (.purge numRcs)
  · have hretries : node.retries = [] := by
      by_contra hne
      exact hawaits hne hstarts
    -- the flag tells the purge of an attempt in progress
    have hchains : node.chains = [] := by
      by_contra hne
      obtain ⟨_, -, -, -, -, -, -, hflag⟩ := hstarts
      exact absurd (hflag.symm.trans (h.flagged hne)) Bool.noConfusion
    have hidle : Idle { node with numRcs := numRcs, bootstrapFails := 0 } :=
      ⟨hstarted, hchains, hretries⟩
    rw [purgeRcs_of_starts hstarts]
    exact hidle.bootstrap
  · obtain ⟨numRcs', hsame⟩ := purgeRcs_of_not_starts hstarted hstarts
    rw [hsame]
    exact ⟨h.one, h.flagged, h.unstarted⟩

theorem Quiet.step (action : BootstrapAction)
    (hawaits : AwaitsRetry bootstraps node action) : (node.step bootstraps action).Quiet := by
  cases action with
  | start =>
    rw [Bootstrapper.step]
    split
    · exact h
    · next hnot => exact h.start (eq_false_of_ne_true hnot)
  | purge numRcs =>
    rw [Bootstrapper.step]
    split
    · next hstarted => exact h.purgeRcs hstarted hawaits
    · exact h
  | reply chain reply =>
    rw [Bootstrapper.step]
    cases hchain : node.chains[chain]? with
    | none => exact h
    | some asked =>
      obtain ⟨hindex, -⟩ := List.getElem?_eq_some_iff.mp hchain
      have hflag := h.flagged (List.ne_nil_of_length_pos (by omega))
      exact (h.idle_eraseChain hindex).handleReply hflag asked reply
  | retry number =>
    rw [Bootstrapper.step]
    split
    · next hnumber => exact (h.idle_eraseRetry hnumber).bootstrap
    · exact h
  | learn | router => exact ⟨h.one, h.flagged, h.unstarted⟩

theorem Quiet.attempts_step {action : BootstrapAction}
    (hawaits : AwaitsRetry bootstraps node action) (hretries : node.retries ≠ [])
    (hother : ∀ number, action ≠ .retry number) :
    (node.step bootstraps action).attempts = node.attempts := by
  cases action with
  | start => rw [Bootstrapper.step, if_pos (h.started_of_retries hretries)]
  | purge numRcs =>
    rw [Bootstrapper.step]
    split
    · next hstarted =>
      obtain ⟨numRcs', hsame⟩ := purgeRcs_of_not_starts hstarted (hawaits hretries)
      rw [hsame]
    · rfl
  | reply chain reply =>
    rw [Bootstrapper.step]
    cases node.chains[chain]? with
    | none => rfl
    | some asked => exact handleReply_attempts asked reply
  | retry number => exact absurd rfl (hother number)
  | learn numRcs => rfl
  | router isRunning isStopping => rfl

end

theorem awaitsRetry_of_attempts {action : BootstrapAction}
    (h : node.retries ≠ [] → (∀ number, action ≠ .retry number) →
      (node.step bootstraps action).attempts = node.attempts) :
    AwaitsRetry bootstraps node action := by
  intro hretries hstarts
  obtain ⟨numRcs, rfl, hstarted, -⟩ := id hstarts
  have hsame := h hretries fun number heq => by cases heq
  rw [Bootstrapper.step, if_pos hstarted, purgeRcs_of_starts hstarts, bootstrap_attempts] at hsame
  exact absurd hsame (Nat.succ_ne_self _)

end

/-- There is never more than one attempt exactly in the runs in which no purge starts one while a
retry is scheduled. -/
theorem oneAttempt_iff (bootstraps numRcs : Nat) (actions : List BootstrapAction) :
    OneAttempt bootstraps numRcs actions ↔
      Run.Meets (step bootstraps) (AwaitsRetry bootstraps) (init numRcs) actions := by
  constructor
  · intro hone
    refine Run.meets_of_forall_split (step bootstraps) fun front action back hsplit => ?_
    exact awaitsRetry_of_attempts ((hone front (action :: back) hsplit).2 action back rfl)
  · intro hmeets front back hsplit
    subst hsplit
    have hquiet := Run.run_prefix_invariant (step bootstraps) (AwaitsRetry bootstraps)
      (fun _ action h hawaits => h.step action hawaits) (quiet_init numRcs) hmeets
    obtain ⟨-, hback⟩ := (Run.meets_append (step bootstraps) _ _ front back).mp hmeets
    refine ⟨?_, ?_⟩
    · have hone := hquiet.one
      omega
    · rintro action rest rfl hretries hother
      exact hquiet.attempts_step hback.1 hretries hother

def impatientPurge : List BootstrapAction :=
  [.start, .router true false, .reply 0 .failed, .purge 0, .retry 0]

theorem purge_starts_second_attempt : ¬OneAttempt 1 0 impatientPurge := by
  intro hone
  have htwo : (Run.run (step 1) (init 0) impatientPurge).chains.length = 2 := by decide
  have hat := (hone impatientPurge [] (List.append_nil _).symm).1
  rw [htwo] at hat
  exact absurd hat (by decide)

end Bootstrapper
end SessionRouter.NodeDB

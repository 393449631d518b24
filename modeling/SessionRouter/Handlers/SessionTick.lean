import SessionRouter.Handlers.SessionTable
import Mathlib.Data.List.Sort
import Mathlib.Logic.Function.Basic

/-!
# Ticking the sessions
-/

namespace SessionRouter

open Lib

structure WaitingQueue where
  deadlines : List Nat
  sorted : deadlines.Pairwise (· ≤ ·)

namespace WaitingQueue

def empty : WaitingQueue :=
  ⟨[], List.Pairwise.nil⟩

def emplace (queue : WaitingQueue) (deadline : Nat) : WaitingQueue :=
  ⟨queue.deadlines.orderedInsert (· ≤ ·) deadline, queue.sorted.orderedInsert deadline _⟩

def pop (queue : WaitingQueue) : WaitingQueue :=
  ⟨queue.deadlines.tail, queue.sorted.tail⟩

def due (queue : WaitingQueue) (all : Bool) (now : Nat) : Bool :=
  match queue.deadlines with
  | [] => false
  | first :: _ => all || first ≤ now

end WaitingQueue

structure Making where
  remote : NetworkAddress
  tag : SessionTag

inductive Frame where
  | attempted
  | waiting (session : Nat) (all : Bool) (now : Nat) (making : Option Making)

/-- How the construction of an outbound session goes. -/
inductive Construction where
  | threw
  | queued
  | found (now : Nat)
  | missing

inductive CallbackOperation where
  | initiateRemoteSession (remote : NetworkAddress) (onAttempted : Option Nat)
      (construction : Construction)
  | closeSession (session : Nat)
  | closeSessionByRemote (remote : NetworkAddress)
  | closeSessionByTag (tag : SessionTag)
  | onEstablished (session : Nat) (deadline : Nat)
  | stop

inductive TickAction where
  | visit (isExpired : Bool) (now : Nat)
  | callback (operation : CallbackOperation)
  | callbackReturns

/-- A moment in the loop of `SessionEndpoint::tick`. -/
structure TickState where
  table : SessionTable
  isEstablished : Nat → Bool
  onEstablished : Nat → WaitingQueue
  frames : List Frame
  pending : List NetworkAddress
  visited : List (NetworkAddress × Nat)
  writes : List NetworkAddress

namespace TickState

def start (table : SessionTable) (isEstablished : Nat → Bool)
    (onEstablished : Nat → WaitingQueue) : TickState :=
  ⟨table, isEstablished, onEstablished, [], table.sessions.keys, [], []⟩

def Finished (state : TickState) : Prop :=
  state.frames = [] ∧ state.pending = []

def unreachable (state : TickState) (session : Nat) : Bool :=
  state.table.objects[session]?.any SessionRecord.unreachable

def established (state : TickState) (session : Nat) : Bool :=
  state.isEstablished session && state.table.objects[session]?.any fun record => !record.closed

def finishMaking (state : TickState) (session : Nat) : Option Making → TickState
  | none => state
  | some making =>
    if state.unreachable session then state
    else
      { state with
        table :=
          { state.table with
            sessionTags := state.table.sessionTags.emplace making.tag session
            sessions := state.table.sessions.insertOrAssign making.remote session }
        writes := state.writes ++ [making.remote] }

def fire (state : TickState) (session : Nat) (all : Bool) (now : Nat)
    (making : Option Making) : TickState :=
  if (state.onEstablished session).due all now then
    { state with frames := .waiting session all now making :: state.frames }
  else state.finishMaking session making

def callbackReturns (state : TickState) : TickState :=
  match state.frames with
  | [] => state
  | .attempted :: frames => { state with frames := frames }
  | .waiting session all now making :: frames =>
    fire
      { state with
        frames := frames
        onEstablished := Function.update state.onEstablished session
          (state.onEstablished session).pop }
      session all now making

def addCallback (state : TickState) (session : Nat) (deadline : Nat) : TickState :=
  { state with
    onEstablished := Function.update state.onEstablished session
      ((state.onEstablished session).emplace deadline) }

def create (state : TickState) (making : Making) (onAttempted : Option Nat)
    (unreachable : Bool) : TickState :=
  { state with
    table :=
      { state.table with
        objects := state.table.objects ++ [⟨making.remote, making.tag, true, false, unreachable⟩] }
    isEstablished := Function.update state.isEstablished state.table.newSession false
    onEstablished := Function.update state.onEstablished state.table.newSession
      (match onAttempted with
      | some deadline => WaitingQueue.empty.emplace deadline
      | none => WaitingQueue.empty) }

def construct (state : TickState) (making : Making) (onAttempted : Option Nat) :
    Construction → TickState
  | .threw => state
  | .queued =>
    (state.create making onAttempted false).finishMaking state.table.newSession (some making)
  | .found now =>
    (state.create making onAttempted false).fire state.table.newSession false now (some making)
  | .missing =>
    (state.create making onAttempted true).fire state.table.newSession true 0 (some making)

def initiateRemoteSession (state : TickState) (remote : NetworkAddress)
    (onAttempted : Option Nat) (construction : Construction) : TickState :=
  if state.table.reusable remote then
    match onAttempted, state.table.sessions.find remote with
    | some deadline, some session =>
      if state.established session then { state with frames := .attempted :: state.frames }
      else state.addCallback session deadline
    | _, _ => state
  else
    match state.table.nextTag with
    | none => state
    | some tag =>
      construct { state with table := { state.table with lastTag := tag } } ⟨remote, tag⟩
        onAttempted construction

def stop (state : TickState) : TickState :=
  { state with
    table :=
      { state.table with
        objects := state.table.sessions.values.foldl
          (fun objects session => objects.modify session ({ · with closed := true }))
          state.table.objects
        sessionTags := ∅ } }

def operate (state : TickState) : CallbackOperation → TickState
  | .initiateRemoteSession remote onAttempted construction =>
    state.initiateRemoteSession remote onAttempted construction
  | .closeSession session => { state with table := state.table.closeSession session }
  | .closeSessionByRemote remote => { state with table := state.table.closeSessionByRemote remote }
  | .closeSessionByTag tag => { state with table := state.table.closeSessionByTag tag }
  | .onEstablished session deadline => state.addCallback session deadline
  | .stop => state.stop

def callsBack (table : SessionTable) (session : Nat) : Bool :=
  table.objects[session]?.any fun record =>
    record.isOutbound && !record.closed && !record.unreachable

def tickSession (state : TickState) (session : Nat) (isExpired : Bool) (now : Nat) : TickState :=
  let ticked := { state with table := state.table.tickSession (fun _ => isExpired) session }
  if callsBack ticked.table session then
    ticked.fire session (ticked.established session) now none
  else ticked

def visit (state : TickState) (isExpired : Bool) (now : Nat) : TickState :=
  match state.frames, state.pending with
  | [], remote :: pending =>
    match state.table.sessions.find remote with
    | some session =>
      tickSession { state with pending := pending, visited := state.visited ++ [(remote, session)] }
        session isExpired now
    | none => { state with pending := pending }
  | _, _ => state

def step (state : TickState) : TickAction → TickState
  | .visit isExpired now => state.visit isExpired now
  | .callback operation => if state.frames = [] then state else state.operate operation
  | .callbackReturns => state.callbackReturns

/-! ## Without callbacks -/

theorem table_run_visits (isExpired : Nat → Bool) (now : Nat)
    (entries : List (Sigma fun _ : NetworkAddress => Nat)) {state : TickState}
    (hframes : state.frames = []) (hqueues : state.onEstablished = fun _ => WaitingQueue.empty)
    (hpending : state.pending = entries.map Sigma.fst)
    (hfind : ∀ entry ∈ entries, state.table.sessions.find entry.1 = some entry.2) :
    (Run.run step state (entries.map fun entry => .visit (isExpired entry.2) now)).table =
      (entries.map Sigma.snd).foldl (SessionTable.tickSession isExpired) state.table := by
  induction entries generalizing state with
  | nil => rfl
  | cons entry entries ih =>
    obtain ⟨remote, session⟩ := entry
    rw [List.forall_mem_cons] at hfind
    have hvisit : state.step (.visit (isExpired session) now) =
        { state with
          pending := entries.map Sigma.fst
          visited := state.visited ++ [(remote, session)]
          table := state.table.tickSession isExpired session } := by
      simp only [step, visit, hframes, hpending, List.map_cons, hfind.1]
      simp [tickSession, fire, finishMaking, hqueues, WaitingQueue.due, WaitingQueue.empty]
      rfl
    rw [List.map_cons, Run.run_cons, hvisit, List.map_cons, List.foldl_cons]
    refine ih hframes hqueues rfl ?_
    rw [(state.table.sameTables_tickSession isExpired session).sessions]
    exact hfind.2

/-- When no callback waits, the loop does step by step what the tick of the table does at once. -/
theorem table_run_none_waiting (table : SessionTable) (isEstablished : Nat → Bool)
    (isExpired : Nat → Bool) (now : Nat) :
    (Run.run step (start table isEstablished fun _ => WaitingQueue.empty)
      (table.sessions.entries.map fun entry => .visit (isExpired entry.2) now)).table =
        table.tick isExpired :=
  table_run_visits isExpired now table.sessions.entries rfl rfl rfl fun _ hentry =>
    Table.find_eq_some_iff.mpr hentry

/-! ## What a step does to the loop -/

variable {state : TickState}

structure SameIteration (before after : TickState) : Prop where
  sessions : after.table.sessions = before.table.sessions
  writes : after.writes = before.writes
  pending : after.pending = before.pending
  visited : after.visited = before.visited

theorem SameIteration.trans {first second third : TickState} (hfirst : SameIteration first second)
    (hsecond : SameIteration second third) : SameIteration first third where
  sessions := hsecond.sessions.trans hfirst.sessions
  writes := hsecond.writes.trans hfirst.writes
  pending := hsecond.pending.trans hfirst.pending
  visited := hsecond.visited.trans hfirst.visited

theorem sameIteration_refl (state : TickState) : SameIteration state state := ⟨rfl, rfl, rfl, rfl⟩

theorem sameIteration_table (state : TickState) {table : SessionTable}
    (h : SessionTable.SameTables state.table table) :
    SameIteration state { state with table := table } :=
  ⟨h.sessions, rfl, rfl, rfl⟩

structure WritesIff (before after : TickState) (condition : Prop) : Prop where
  keeps : ¬ condition → SameIteration before after
  writes : condition → after.writes ≠ []

variable {after : TickState}

theorem SameIteration.writesIff (h : SameIteration state after)
    {condition : Prop} (hnever : ¬ condition) : WritesIff state after condition :=
  ⟨fun _ => h, fun hcondition => absurd hcondition hnever⟩

theorem WritesIff.of_sameIteration {middle after : TickState} {condition : Prop}
    (h : WritesIff middle after condition) (hsame : SameIteration state middle) :
    WritesIff state after condition :=
  ⟨fun hcondition => hsame.trans (h.keeps hcondition), h.writes⟩

theorem WritesIff.congr {condition condition' : Prop}
    (h : WritesIff state after condition) (hiff : condition ↔ condition') :
    WritesIff state after condition' := by
  rwa [← propext hiff]

theorem writesIff_finishMaking (state : TickState) (session : Nat) (making : Option Making) :
    WritesIff state (state.finishMaking session making)
      (making.isSome = true ∧ state.unreachable session = false) := by
  cases making with
  | none => exact (sameIteration_refl state).writesIff (by simp)
  | some making =>
    rw [finishMaking]
    split
    · next hunreachable => exact (sameIteration_refl state).writesIff (by simp [hunreachable])
    · next hreachable =>
      exact ⟨fun hnot => absurd ⟨rfl, by simpa using hreachable⟩ hnot, fun _ => by simp⟩

theorem writesIff_fire (state : TickState) (session : Nat) (all : Bool) (now : Nat)
    (making : Option Making) :
    WritesIff state (state.fire session all now making)
      ((state.onEstablished session).due all now = false ∧ making.isSome = true ∧
        state.unreachable session = false) := by
  rw [fire]
  split
  · next hdue =>
    have hsame : SameIteration state
        { state with frames := .waiting session all now making :: state.frames } :=
      ⟨rfl, rfl, rfl, rfl⟩
    exact hsame.writesIff (by simp [hdue])
  · next hdue => exact (writesIff_finishMaking state session making).congr (by simp [hdue])

def CompletesMaking (state : TickState) : Prop :=
  ∃ session all now making frames, state.frames = .waiting session all now (some making) :: frames ∧
      (state.onEstablished session).pop.due all now = false ∧
      state.unreachable session = false

theorem writesIff_callbackReturns (state : TickState) :
    WritesIff state state.callbackReturns state.CompletesMaking := by
  unfold callbackReturns
  split
  · next hframes => exact (sameIteration_refl state).writesIff (by simp [CompletesMaking, hframes])
  · next frames hframes =>
    have hsame : SameIteration state { state with frames := frames } := ⟨rfl, rfl, rfl, rfl⟩
    exact hsame.writesIff (by simp [CompletesMaking, hframes])
  · next session all now making frames hframes =>
    have hsame : SameIteration state
        { state with
          frames := frames
          onEstablished := Function.update state.onEstablished session
            (state.onEstablished session).pop } :=
      ⟨rfl, rfl, rfl, rfl⟩
    refine ((writesIff_fire _ session all now making).of_sameIteration hsame).congr ?_
    simp only [Function.update_self]
    cases making with
    | none => simp [CompletesMaking, hframes]
    | some making =>
      simp only [CompletesMaking, hframes, List.cons.injEq, Frame.waiting.injEq,
        Option.some.injEq, Option.isSome_some, true_and]
      constructor
      · rintro ⟨hdue, hreachable⟩
        exact ⟨session, all, now, making, frames, ⟨⟨rfl, rfl, rfl, rfl⟩, rfl⟩, hdue, hreachable⟩
      · rintro ⟨_, _, _, _, _, ⟨⟨rfl, rfl, rfl, rfl⟩, rfl⟩, hdue, hreachable⟩
        exact ⟨hdue, hreachable⟩

/-! ### A session that a callback starts -/

def MadeAtOnce (onAttempted : Option Nat) : Construction → Prop
  | .threw => False
  | .queued => True
  | .found now => ∀ deadline ∈ onAttempted, now < deadline
  | .missing => False

@[simp] theorem unreachable_create (state : TickState) (making : Making)
    (onAttempted : Option Nat) (unreachable : Bool) :
    (state.create making onAttempted unreachable).unreachable state.table.newSession =
      unreachable := by
  simp [TickState.unreachable, create, SessionTable.newSession]

theorem due_create (state : TickState) (making : Making) (onAttempted : Option Nat)
    (unreachable : Bool) (now : Nat) :
    ((state.create making onAttempted unreachable).onEstablished state.table.newSession).due
      false now = false ↔ ∀ deadline ∈ onAttempted, now < deadline := by
  simp only [create, Function.update_self]
  cases onAttempted with
  | none => simp [WaitingQueue.due, WaitingQueue.empty]
  | some deadline => simp [WaitingQueue.due, WaitingQueue.emplace, WaitingQueue.empty]

theorem writesIff_construct (state : TickState) (making : Making) (onAttempted : Option Nat)
    (construction : Construction) :
    WritesIff state (state.construct making onAttempted construction)
      (MadeAtOnce onAttempted construction) := by
  have hcreate (unreachable : Bool) :
      SameIteration state (state.create making onAttempted unreachable) :=
    ⟨rfl, rfl, rfl, rfl⟩
  cases construction with
  | threw => exact (sameIteration_refl state).writesIff id
  | queued =>
    rw [construct]
    refine ((writesIff_finishMaking _ _ _).of_sameIteration (hcreate false)).congr ?_
    simp [MadeAtOnce]
  | found now =>
    refine ((writesIff_fire _ _ _ _ _).of_sameIteration (hcreate false)).congr ?_
    simp [MadeAtOnce, due_create]
  | missing =>
    refine ((writesIff_fire _ _ _ _ _).of_sameIteration (hcreate true)).congr ?_
    simp [MadeAtOnce]

def Starts (state : TickState) (remote : NetworkAddress) (onAttempted : Option Nat)
    (construction : Construction) : Prop :=
  state.table.reusable remote = false ∧ (∃ tag, tag ≠ 0 ∧ state.table.sessionTags.find tag = none) ∧
    MadeAtOnce onAttempted construction

theorem writesIff_initiateRemoteSession (state : TickState) (remote : NetworkAddress)
    (onAttempted : Option Nat) (construction : Construction) :
    WritesIff state (state.initiateRemoteSession remote onAttempted construction)
      (state.Starts remote onAttempted construction) := by
  unfold initiateRemoteSession Starts
  cases hreuse : state.table.reusable remote with
  | true =>
    rw [if_pos rfl]
    refine SameIteration.writesIff ?_ (by simp)
    split
    · split
      · exact ⟨rfl, rfl, rfl, rfl⟩
      · exact ⟨rfl, rfl, rfl, rfl⟩
    · exact sameIteration_refl state
  | false =>
    rw [if_neg Bool.false_ne_true]
    cases hnext : state.table.nextTag with
    | none =>
      refine (sameIteration_refl state).writesIff ?_
      rintro ⟨-, htag, -⟩
      exact SessionTable.nextTag_eq_none_iff.mp hnext htag
    | some tag =>
      have hsame : SameIteration state
          { state with table := { state.table with lastTag := tag } } :=
        ⟨rfl, rfl, rfl, rfl⟩
      refine ((writesIff_construct _ _ _ _).of_sameIteration hsame).congr ?_
      simp [show ∃ tag, tag ≠ 0 ∧ state.table.sessionTags.find tag = none from
        ⟨tag, SessionTable.nextTag_eq_some hnext⟩]

/-! ### The steps -/

def Registers (state : TickState) : TickAction → Prop
  | .callback (.initiateRemoteSession remote onAttempted construction) =>
    state.frames ≠ [] ∧ state.Starts remote onAttempted construction
  | .callbackReturns => state.CompletesMaking
  | _ => False

theorem writesIff_callback (state : TickState) (operation : CallbackOperation) :
    WritesIff state (state.step (.callback operation)) (state.Registers (.callback operation)) := by
  rw [step]
  split
  · next hframes =>
    refine (sameIteration_refl state).writesIff ?_
    cases operation <;> simp [Registers, hframes]
  · next hframes =>
    cases operation with
    | initiateRemoteSession remote onAttempted construction =>
      exact (writesIff_initiateRemoteSession state remote onAttempted construction).congr
        (by simp [Registers, hframes])
    | closeSession session =>
      have hsame := state.table.sameTables_closeSession session
      exact (sameIteration_table state hsame).writesIff id
    | closeSessionByRemote | closeSessionByTag =>
      exact (sameIteration_table state (state.table.sameTables_closeFound _)).writesIff id
    | onEstablished session deadline =>
      have hsame : SameIteration state (state.addCallback session deadline) := ⟨rfl, rfl, rfl, rfl⟩
      exact hsame.writesIff id
    | stop =>
      have hsame : SameIteration state state.stop := ⟨rfl, rfl, rfl, rfl⟩
      exact hsame.writesIff id

theorem sameIteration_tickSession (state : TickState) (session : Nat) (isExpired : Bool)
    (now : Nat) : SameIteration state (state.tickSession session isExpired now) := by
  have hticked := state.sameIteration_table
    (state.table.sameTables_tickSession (fun _ => isExpired) session)
  simp only [tickSession]
  split
  · exact hticked.trans ((writesIff_fire _ _ _ _ _).keeps (by simp))
  · exact hticked

theorem visit_cases (state : TickState) (isExpired : Bool) (now : Nat) :
    state.visit isExpired now = state ∨
      ∃ remote pending visited, state.pending = remote :: pending ∧
        (∀ session, state.table.sessions.find remote = some session →
          visited = state.visited ++ [(remote, session)]) ∧
        SameIteration { state with pending := pending, visited := visited }
          (state.visit isExpired now) := by
  unfold visit
  split
  · next remote pending _ hpending =>
    refine .inr ?_
    split
    · next session hfind =>
      refine ⟨remote, pending, state.visited ++ [(remote, session)], hpending, ?_,
        sameIteration_tickSession _ session isExpired now⟩
      intro other hother
      rw [hfind] at hother
      cases hother
      rfl
    · next hfind =>
      refine ⟨remote, pending, state.visited, hpending, ?_, sameIteration_refl _⟩
      intro session hother
      rw [hfind] at hother
      cases hother
  · exact .inl rfl

/-! ## Runs -/

structure InOrder (table : SessionTable) (state : TickState) : Prop where
  sessions : state.table.sessions = table.sessions
  keys : state.visited.map Prod.fst ++ state.pending = table.sessions.keys
  present : ∀ entry ∈ state.visited, table.sessions.find entry.1 = some entry.2

variable {table : SessionTable}

theorem InOrder.of_sameIteration (h : InOrder table state)
    (hsame : SameIteration state after) : InOrder table after where
  sessions := hsame.sessions.trans h.sessions
  keys := by rw [hsame.visited, hsame.pending, h.keys]
  present := by rw [hsame.visited]; exact h.present

theorem InOrder.visit (h : InOrder table state) (isExpired : Bool) (now : Nat) :
    InOrder table (state.visit isExpired now) := by
  rcases state.visit_cases isExpired now with heq | ⟨remote, pending, visited, hpending,
    hvisited, hsame⟩
  · rwa [heq]
  · have hkeys := h.keys
    rw [hpending] at hkeys
    have hmem : remote ∈ table.sessions.keys := by simp [← hkeys]
    obtain ⟨session, hfind⟩ := Option.isSome_iff_exists.mp (Table.mem_keys_iff.mp hmem)
    obtain rfl := hvisited session (by rw [h.sessions, hfind])
    have hnext : InOrder table
        { state with pending := pending, visited := state.visited ++ [(remote, session)] } := by
      refine ⟨h.sessions, by simpa using hkeys, fun entry hentry => ?_⟩
      rcases List.mem_append.mp hentry with hold | hnew
      · exact h.present entry hold
      · obtain rfl := List.mem_singleton.mp hnew
        exact hfind
    exact hnext.of_sameIteration hsame

theorem writes_visit (state : TickState) (isExpired : Bool) (now : Nat) :
    (state.visit isExpired now).writes = state.writes := by
  rcases state.visit_cases isExpired now with heq | ⟨_, _, _, _, _, hsame⟩
  · rw [heq]
  · exact hsame.writes

theorem step_keeps (state : TickState) (action : TickAction) :
    ((state.step action).writes = [] ↔ state.writes = [] ∧ ¬ state.Registers action) ∧
      (InOrder table state → ¬ state.Registers action → InOrder table (state.step action)) := by
  have hof {after : TickState} {condition : Prop} (h : WritesIff state after condition) :
      (after.writes = [] ↔ state.writes = [] ∧ ¬ condition) ∧
        (InOrder table state → ¬ condition → InOrder table after) := by
    refine ⟨⟨fun hafter => ?_, ?_⟩, fun horder hnot => horder.of_sameIteration (h.keeps hnot)⟩
    · have hnot : ¬ condition := fun hcondition => h.writes hcondition hafter
      exact ⟨by rw [← (h.keeps hnot).writes, hafter], hnot⟩
    · rintro ⟨hbefore, hnot⟩
      rw [(h.keeps hnot).writes, hbefore]
  cases action with
  | visit isExpired now =>
    exact ⟨by simp [step, Registers, writes_visit], fun horder _ => horder.visit isExpired now⟩
  | callback operation => exact hof (state.writesIff_callback operation)
  | callbackReturns => exact hof state.writesIff_callbackReturns

theorem inOrder_start (table : SessionTable) (isEstablished : Nat → Bool)
    (onEstablished : Nat → WaitingQueue) :
    InOrder table (start table isEstablished onEstablished) where
  sessions := rfl
  keys := rfl
  present := nofun

structure TicksEachOnce (table : SessionTable) (state : TickState) : Prop where
  unmodified : state.table.sessions = table.sessions ∧ state.writes = []
  present : ∀ entry ∈ state.visited, table.sessions.find entry.1 = some entry.2
  atMostOnce : ∀ entry, state.visited.count entry ≤ 1
  once : state.Finished → ∀ remote session, table.sessions.find remote = some session →
    state.visited.count (remote, session) = 1

theorem InOrder.nodup (h : InOrder table state) : state.visited.Nodup := by
  have hnodup : (state.visited.map Prod.fst ++ state.pending).Nodup := by
    rw [h.keys]
    exact table.sessions.keys_nodup
  exact hnodup.of_append_left.of_map _

theorem InOrder.ticksEachOnce (h : InOrder table state) (hwrites : state.writes = []) :
    TicksEachOnce table state where
  unmodified := ⟨h.sessions, hwrites⟩
  present := h.present
  atMostOnce := List.nodup_iff_count_le_one.mp h.nodup
  once := by
    rintro ⟨-, hpending⟩ remote session hfind
    have hkeys := h.keys
    rw [hpending, List.append_nil] at hkeys
    have hremote : remote ∈ state.visited.map Prod.fst := by
      rw [hkeys, Table.mem_keys_iff, hfind]
      rfl
    obtain ⟨⟨_, found⟩, hvisited, rfl⟩ := List.mem_map.mp hremote
    have hfound := h.present _ hvisited
    rw [hfind] at hfound
    cases hfound
    exact List.count_eq_one_of_mem h.nodup hvisited

/-! ## The end of the loop -/

theorem frames_callbackReturns {frame : Frame} {frames : List Frame}
    (h : state.frames = frame :: frames) :
    state.callbackReturns.frames = frames ∨
      ∃ session all now making, frame = .waiting session all now making ∧
        state.callbackReturns.frames = frame :: frames ∧
        (state.callbackReturns.onEstablished session).deadlines.length <
          (state.onEstablished session).deadlines.length := by
  cases frame with
  | attempted => exact .inl (by simp [callbackReturns, h])
  | waiting session all now making =>
    simp only [callbackReturns, h, fire, Function.update_self]
    split
    · next hdue =>
      refine .inr ⟨session, all, now, making, rfl, rfl, ?_⟩
      cases hqueue : (state.onEstablished session).deadlines with
      | nil => simp [WaitingQueue.due, WaitingQueue.pop, hqueue] at hdue
      | cons first rest => simp [WaitingQueue.pop, hqueue]
    · left
      cases making with
      | none => rfl
      | some making =>
        rw [finishMaking]
        split <;> rfl

theorem pending_finishMaking (state : TickState) (session : Nat) (making : Option Making) :
    (state.finishMaking session making).pending = state.pending := by
  cases making with
  | none => rfl
  | some making =>
    rw [finishMaking]
    split <;> rfl

theorem pending_callbackReturns (state : TickState) :
    state.callbackReturns.pending = state.pending := by
  unfold callbackReturns
  split
  · rfl
  · rfl
  · rw [fire]
    split
    · rfl
    · exact pending_finishMaking _ _ _

def stillWaiting (state : TickState) : Nat :=
  match state.frames with
  | .waiting session _ _ _ :: _ => (state.onEstablished session).deadlines.length
  | _ => 0

def remaining (state : TickState) : Nat ×ₗ Nat ×ₗ Nat :=
  toLex (state.pending.length, toLex (state.frames.length, state.stillWaiting))

def Idle : TickAction → Prop
  | .callback _ => False
  | _ => True

theorem remaining_callbackReturns (h : state.frames ≠ []) :
    state.callbackReturns.remaining < state.remaining := by
  obtain ⟨frame, frames, hframes⟩ := List.exists_cons_of_ne_nil h
  rw [remaining, remaining, Prod.Lex.toLex_lt_toLex, Prod.Lex.toLex_lt_toLex]
  refine .inr ⟨by rw [pending_callbackReturns], ?_⟩
  rcases frames_callbackReturns hframes with hreturned | ⟨session, all, now, making, rfl, hsame,
    hshorter⟩
  · exact .inl (by rw [hreturned, hframes]; simp)
  · refine .inr ⟨by rw [hsame, hframes], ?_⟩
    simpa only [stillWaiting, hsame, hframes] using hshorter

theorem remaining_visit {remote : NetworkAddress} {pending : List NetworkAddress}
    (hframes : state.frames = []) (hpending : state.pending = remote :: pending) :
    (state.visit false 0).remaining < state.remaining := by
  rw [remaining, remaining, Prod.Lex.toLex_lt_toLex]
  left
  have hafter : (state.visit false 0).pending = pending := by
    simp only [visit, hframes, hpending]
    split
    · next session _ => exact (sameIteration_tickSession _ session false 0).pending
    · rfl
  rw [hafter, hpending]
  exact Nat.lt_succ_self _

theorem exists_finished (state : TickState) :
    ∃ rest, (∀ action ∈ rest, Idle action) ∧ (Run.run step state rest).Finished := by
  induction hremaining : state.remaining using WellFoundedLT.induction generalizing state with
  | ind _ ih =>
    subst hremaining
    have hcontinue (action : TickAction) (hidle : Idle action)
        (hless : (state.step action).remaining < state.remaining) :
        ∃ rest, (∀ action ∈ rest, Idle action) ∧ (Run.run step state rest).Finished := by
      obtain ⟨rest, hrest, hfinished⟩ := ih _ hless _ rfl
      exact ⟨action :: rest, by simpa [hidle] using hrest, hfinished⟩
    by_cases hframes : state.frames = []
    · cases hpending : state.pending with
      | nil => exact ⟨[], by simp, hframes, hpending⟩
      | cons remote pending =>
        exact hcontinue (.visit false 0) trivial (remaining_visit hframes hpending)
    · exact hcontinue .callbackReturns trivial (remaining_callbackReturns hframes)

/-! ## The loop over the sessions -/

theorem inOrder_run (isEstablished : Nat → Bool) (onEstablished : Nat → WaitingQueue)
    {actions : List TickAction}
    (h : Run.Meets step (fun state action => ¬ state.Registers action)
      (start table isEstablished onEstablished) actions) :
    InOrder table (Run.run step (start table isEstablished onEstablished) actions) :=
  Run.run_invariant step _ (fun state action horder hnot => (step_keeps state action).2 horder hnot)
    (inOrder_start table isEstablished onEstablished) h

theorem writes_run_iff (state : TickState) (actions : List TickAction) :
    (Run.run step state actions).writes = [] ↔ state.writes = [] ∧
        Run.Meets step (fun state action => ¬ state.Registers action) state actions :=
  @Run.run_iff_meets _ _ step _ (fun _ => True) (fun state => state.writes = []) (fun _ _ => id)
    (fun state action _ => (@step_keeps state.table state action).1) state actions trivial

/-- Throughout `SessionEndpoint::tick` the session table is unmodified and no session is
visited twice, and at the end every session that was there has been visited, exactly if no
callback registers a session: neither by starting one whose constructor returns at once, nor
by returning to a constructor that calls no more callbacks.  And the loop is never stuck in
between: it ends when the callbacks do nothing more than return. -/
theorem tick_eachOnce_iff (table : SessionTable) (isEstablished : Nat → Bool)
    (onEstablished : Nat → WaitingQueue) (actions : List TickAction) :
    ((∀ front back, actions = front ++ back →
        TicksEachOnce table (Run.run step (start table isEstablished onEstablished) front)) ↔
      Run.Meets step (fun state action => ¬ state.Registers action)
        (start table isEstablished onEstablished) actions) ∧
      ∃ rest, (∀ action ∈ rest, Idle action) ∧
        (Run.run step (start table isEstablished onEstablished) (actions ++ rest)).Finished := by
  refine ⟨⟨fun hall => ?_, ?_⟩, ?_⟩
  · exact ((writes_run_iff _ _).mp (hall actions [] (by simp)).unmodified.2).2
  · rintro hmeets front back rfl
    have hfront := ((Run.meets_append step _ _ front back).mp hmeets).1
    exact (inOrder_run isEstablished onEstablished hfront).ticksEachOnce
      ((writes_run_iff _ _).mpr ⟨rfl, hfront⟩)
  · simp only [Run.run_append]
    exact exists_finished _

def remoteClient : NetworkAddress :=
  ⟨FixedBytes.filled 32 0x43, true⟩

def oneWaiting : TickState :=
  start ((SessionTable.start 1).initiateRemoteSession remoteClient .made) (fun _ => true)
    (fun _ => WaitingQueue.empty.emplace 5000)

theorem callback_writes_during_tick :
    (Run.run step oneWaiting [.visit false 100]).frames.length = 1 ∧
      (Run.run step oneWaiting [.visit false 100, .callback
        (.initiateRemoteSession SessionTable.someRelay none .queued)]).table.sessions.find
          SessionTable.someRelay = some 1 ∧
      oneWaiting.table.sessions.find SessionTable.someRelay = none ∧
      ¬ TicksEachOnce oneWaiting.table (Run.run step oneWaiting [.visit false 100, .callback
        (.initiateRemoteSession SessionTable.someRelay none .queued)]) := by
  have hadded : (Run.run step oneWaiting [.visit false 100, .callback
      (.initiateRemoteSession SessionTable.someRelay none .queued)]).table.sessions.find
        SessionTable.someRelay = some 1 := by decide +kernel
  have habsent : oneWaiting.table.sessions.find SessionTable.someRelay = none := by decide +kernel
  refine ⟨by decide +kernel, hadded, habsent, fun heach => ?_⟩
  rw [heach.unmodified.1, habsent] at hadded
  cases hadded

end TickState
end SessionRouter

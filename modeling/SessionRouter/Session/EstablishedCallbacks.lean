import SessionRouter.Lib.Run
import Mathlib.Data.List.MinMax
import Mathlib.Data.List.Nodup
import Mathlib.Data.List.Perm.Basic

/-!
# Callbacks that wait for a session

Callbacks registered on an outbound session wait in a queue ordered by their deadlines.  They are
called when the session is established, when their deadline has passed, or when the session is
marked unreachable, and may themselves register further callbacks.  A callback that waits when the
session is closed is lost.  `firedOnce_iff` says in which runs every callback is called once.
-/

namespace SessionRouter

open Lib

structure WaitingCallback where
  deadline : Int
  id : Nat
  deriving DecidableEq

structure CallbackState where
  onEstablished : List WaitingCallback
  running : Option (WaitingCallback × Bool × Int)
  isEstablished : Bool
  isClosed : Bool
  unreachable : Bool
  registered : Nat
  invoked : List Nat
  missed : Bool

inductive CallbackAction where
  | onEstablished (deadline : Int)
  | establish (now : Int)
  | tick (now : Int) (isExpired : Bool)
  | markUnreachable
  | callbackReturns (choice : Nat)

namespace CallbackState

def start : CallbackState :=
  ⟨[], none, false, false, false, 0, [], false⟩

def emplace (entry : WaitingCallback) : List WaitingCallback → List WaitingCallback
  | [] => [entry]
  | top :: rest =>
    if entry.deadline < top.deadline then entry :: top :: rest else top :: entry :: rest

def pop (queue : List WaitingCallback) (choice : Nat) : List WaitingCallback :=
  let rest := queue.tail
  let firsts := rest.filter fun entry => rest.all fun other => entry.deadline ≤ other.deadline
  match firsts[choice % firsts.length]? with
  | some top => top :: rest.erase top
  | none => []

def finish (s : CallbackState) (all : Bool) (now : Int) : CallbackState :=
  { s with
    running := none
    missed := s.missed || s.onEstablished.any fun entry => all || entry.deadline ≤ now }

def fire (s : CallbackState) (all : Bool) (now : Int) : CallbackState :=
  match s.onEstablished with
  | [] => s.finish all now
  | top :: _ =>
    if all || top.deadline ≤ now then
      { s with invoked := s.invoked ++ [top.id], running := some (top, all, now) }
    else s.finish all now

def tick (s : CallbackState) (now : Int) (isExpired : Bool) : CallbackState :=
  if s.isClosed || isExpired || s.unreachable then
    -- the session goes away, with whatever still waits
    { s with isClosed := true }.finish true now
  else s.fire s.isEstablished now

def step (s : CallbackState) : CallbackAction → CallbackState
  | .onEstablished deadline =>
    { s with
      onEstablished := emplace ⟨deadline, s.registered⟩ s.onEstablished
      registered := s.registered + 1 }
  | .establish now =>
    if s.running.isSome then s else { s with isEstablished := true }.fire (!s.isClosed) now
  | .tick now isExpired => if s.running.isSome then s else s.tick now isExpired
  | .markUnreachable => if s.running.isSome then s else { s with unreachable := true }.fire true 0
  | .callbackReturns choice =>
    match s.running with
    | none => s
    | some (_, all, now) =>
      { s with onEstablished := pop s.onEstablished choice, running := none }.fire all now

def FiredOnce (s : CallbackState) : Prop :=
  s.invoked.Nodup ∧
    (∀ id < s.registered, id ∈ s.invoked ∨ id ∈ s.onEstablished.map WaitingCallback.id) ∧
    s.missed = false

def Orderly (s : CallbackState) : CallbackAction → Prop
  | .tick _ isExpired => s.running = none → s.isClosed || isExpired || s.unreachable →
    s.onEstablished = []
  | .callbackReturns _ => ∀ entry loop, s.running = some (entry, loop) →
    s.onEstablished.head? = some entry
  | _ => True

def TopFirst (queue : List WaitingCallback) : Prop :=
  ∀ top ∈ queue.head?, ∀ entry ∈ queue, top.deadline ≤ entry.deadline

variable {queue : List WaitingCallback} {entry : WaitingCallback}

theorem emplace_perm : (emplace entry queue).Perm (entry :: queue) := by
  unfold emplace
  split
  · exact List.Perm.refl _
  · split
    · exact List.Perm.refl _
    · exact List.Perm.swap _ _ _

theorem topFirst_emplace (h : TopFirst queue) : TopFirst (emplace entry queue) := by
  cases queue with
  | nil => simp [emplace, TopFirst]
  | cons top rest =>
    have hrest := h top rfl
    by_cases hlt : entry.deadline < top.deadline
    · simp only [emplace, if_pos hlt, TopFirst]
      rintro _ ⟨⟩ other hother
      rcases List.mem_cons.mp hother with rfl | hother
      · exact le_refl _
      · exact hlt.le.trans (hrest other hother)
    · simp only [emplace, if_neg hlt, TopFirst]
      rintro _ ⟨⟩ other hother
      rcases List.mem_cons.mp hother with rfl | hother
      · exact le_refl _
      · rcases List.mem_cons.mp hother with rfl | hother
        · exact Int.not_lt.mp hlt
        · exact hrest other (List.mem_cons_of_mem _ hother)

theorem pop_spec (queue : List WaitingCallback) (choice : Nat) :
    (pop queue choice).Perm queue.tail ∧ TopFirst (pop queue choice) := by
  unfold pop
  dsimp only
  generalize queue.tail = rest
  generalize hfirsts : (rest.filter fun entry => rest.all fun other =>
    entry.deadline ≤ other.deadline) = firsts
  cases hget : firsts[choice % firsts.length]? with
  | none =>
    cases hmin : rest.argmin WaitingCallback.deadline with
    | none =>
      rw [List.argmin_eq_none.mp hmin]
      exact ⟨List.Perm.refl _, by simp [TopFirst]⟩
    | some top =>
      have hmem : top ∈ firsts := by
        simpa [← hfirsts, List.argmin_mem hmin] using
          fun other hother => List.le_of_mem_argmin hother hmin
      have hlt := Nat.mod_lt choice (List.length_pos_of_mem hmem)
      rw [List.getElem?_eq_getElem hlt] at hget
      cases hget
  | some top =>
    have htop := List.mem_of_getElem? hget
    simp only [← hfirsts, List.mem_filter, List.all_eq_true, decide_eq_true_eq] at htop
    have hperm := (List.perm_cons_erase htop.1).symm
    refine ⟨hperm, ?_⟩
    rintro _ ⟨⟩ other hother
    exact htop.2 other (hperm.mem_iff.mp hother)

def uncalled (s : CallbackState) : List WaitingCallback :=
  match s.running with
  | none => s.onEstablished
  | some (entry, _) => s.onEstablished.erase entry

structure Wf (s : CallbackState) : Prop where
  topFirst : TopFirst s.onEstablished
  running : ∀ entry loop, s.running = some (entry, loop) →
    entry ∈ s.onEstablished ∧ entry.id ∈ s.invoked
  accounted : (s.invoked ++ s.uncalled.map WaitingCallback.id).Perm (List.range s.registered)
  missed : s.missed = false

variable {s : CallbackState}

theorem Wf.firedOnce (h : s.Wf) : s.FiredOnce := by
  refine ⟨?_, fun id hid => ?_, h.missed⟩
  · have hnodup := h.accounted.nodup_iff.mpr List.nodup_range
    exact (List.nodup_append.mp hnodup).1
  · have hmem := h.accounted.mem_iff.mpr (List.mem_range.mpr hid)
    refine (List.mem_append.mp hmem).imp_right fun huncalled => ?_
    obtain ⟨entry, hentry, rfl⟩ := List.mem_map.mp huncalled
    refine List.mem_map_of_mem ?_
    unfold uncalled at hentry
    split at hentry
    · exact hentry
    · exact List.mem_of_mem_erase hentry

theorem Wf.fire (h : s.Wf) (hrunning : s.running = none) (all : Bool) (now : Int) :
    (s.fire all now).Wf := by
  have haccounted := h.accounted
  have hfinish
      (hnone : (s.onEstablished.any fun entry => all || entry.deadline ≤ now) = false) :
      (s.finish all now).Wf := by
    refine ⟨h.topFirst, (fun _ _ hsome => by cases hsome), ?_, by simp [finish, h.missed, hnone]⟩
    simpa only [uncalled, hrunning, finish] using haccounted
  unfold CallbackState.fire
  cases hqueue : s.onEstablished with
  | nil => exact hfinish (by simp [hqueue])
  | cons top rest =>
    by_cases hdue : all || top.deadline ≤ now
    · simp only [hdue, if_true]
      refine ⟨hqueue ▸ h.topFirst, ?_, ?_, h.missed⟩
      · rintro _ _ ⟨⟩
        simp
      · simpa [uncalled, hrunning, hqueue] using haccounted
    · simp only [hdue]
      simp only [Bool.or_eq_true, decide_eq_true_eq, not_or, Int.not_le] at hdue
      refine hfinish ?_
      simpa [hdue.1] using fun entry hentry =>
        hdue.2.trans_le (h.topFirst top (by simp [hqueue]) entry hentry)

theorem Wf.register (h : s.Wf) (deadline : Int) : (s.step (.onEstablished deadline)).Wf := by
  have huncalled : (s.step (.onEstablished deadline)).uncalled.Perm
      (⟨deadline, s.registered⟩ :: s.uncalled) := by
    unfold step uncalled
    dsimp only
    split
    · exact emplace_perm
    · next entry loop hrunning =>
      have hold : entry.id < s.registered := by
        rw [← List.mem_range, ← h.accounted.mem_iff]
        exact List.mem_append_left _ (h.running entry loop hrunning).2
      have hne : (⟨deadline, s.registered⟩ : WaitingCallback) ≠ entry := by
        rintro rfl
        exact lt_irrefl _ hold
      refine (emplace_perm.erase entry).trans ?_
      rw [List.erase_cons_tail (by simpa using hne)]
  refine ⟨topFirst_emplace h.topFirst, fun entry loop hrunning => ?_, ?_, h.missed⟩
  · obtain ⟨hmem, hinvoked⟩ := h.running entry loop hrunning
    exact ⟨emplace_perm.mem_iff.mpr (List.mem_cons_of_mem _ hmem), hinvoked⟩
  · have hids := (huncalled.map WaitingCallback.id).append_left s.invoked
    refine hids.trans (List.perm_middle.trans ?_)
    rw [show (s.step (.onEstablished deadline)).registered = s.registered + 1 from rfl,
      List.range_succ]
    exact (List.perm_append_singleton _ _).symm.trans (h.accounted.append_right _)

theorem Wf.callbackReturns (h : s.Wf) {entry : WaitingCallback} {loop : Bool × Int}
    (hrunning : s.running = some (entry, loop)) (htop : s.onEstablished.head? = some entry)
    (choice : Nat) :
    { s with onEstablished := pop s.onEstablished choice, running := none }.Wf := by
  obtain ⟨hperm, htopFirst⟩ := pop_spec s.onEstablished choice
  refine ⟨htopFirst, (fun _ _ hsome => by cases hsome), ?_, h.missed⟩
  have haccounted := h.accounted
  obtain ⟨rest, hqueue⟩ := List.head?_eq_some_iff.mp htop
  simp only [uncalled, hrunning, hqueue, List.erase_cons_head] at haccounted
  refine ((hperm.map _).append_left _).trans ?_
  simpa only [hqueue, List.tail_cons] using haccounted

theorem Wf.lost (h : s.Wf) {entry top : WaitingCallback} {loop : Bool × Int}
    {rest : List WaitingCallback} (hrunning : s.running = some (entry, loop))
    (hqueue : s.onEstablished = top :: rest) (hne : top ≠ entry) :
    top.id < s.registered ∧ top.id ∉ s.invoked ∧ top.id ∉ rest.map WaitingCallback.id := by
  have haccounted := h.accounted
  have hmem := (h.running entry loop hrunning).1
  rw [hqueue, List.mem_cons] at hmem
  have hrest := (List.perm_cons_erase (hmem.resolve_left (Ne.symm hne))).map WaitingCallback.id
  have herase : (top :: rest).erase entry = top :: rest.erase entry :=
    List.erase_cons_tail (by simpa using hne)
  simp only [uncalled, hrunning, hqueue, herase, List.map_cons] at haccounted
  have hnodup := haccounted.nodup_iff.mpr List.nodup_range
  rw [List.nodup_append, List.nodup_cons] at hnodup
  obtain ⟨-, ⟨huncalled, -⟩, hdisjoint⟩ := hnodup
  have hinvoked : top.id ∉ s.invoked := fun hmem => hdisjoint _ hmem _ (List.mem_cons_self ..) rfl
  refine ⟨List.mem_range.mp (haccounted.mem_iff.mp (by simp)), hinvoked, fun hmem => ?_⟩
  rcases List.mem_cons.mp (hrest.mem_iff.mp hmem) with hsame | hmem
  · exact hinvoked (hsame ▸ (h.running entry loop hrunning).2)
  · exact huncalled hmem

theorem fire_frame (all : Bool) (now : Int) :
    (s.fire all now).registered = s.registered ∧
      (s.fire all now).onEstablished = s.onEstablished ∧
      ∀ id ∈ (s.fire all now).invoked,
        id ∈ s.invoked ∨ id ∈ s.onEstablished.map WaitingCallback.id := by
  unfold fire
  cases hqueue : s.onEstablished with
  | nil => exact ⟨rfl, hqueue, fun id hid => .inl hid⟩
  | cons top rest =>
    dsimp only
    split
    · refine ⟨rfl, rfl, fun id hid => ?_⟩
      simp only [List.mem_append, List.mem_singleton] at hid
      exact hid.imp_right fun hid => by simp [hid]
    · exact ⟨rfl, hqueue, fun id hid => .inl hid⟩

theorem wf_step (h : s.Wf) (action : CallbackAction) :
    (s.Orderly action → (s.step action).Wf) ∧
      ((s.step action).FiredOnce → s.Orderly action) := by
  cases hrunning : s.running with
  | none =>
    have hfire (isEstablished unreachable all : Bool) (now : Int) :
        ({ s with isEstablished, unreachable }.fire all now).Wf := by
      have hflags : { s with isEstablished, unreachable }.Wf :=
        ⟨h.topFirst, h.running, h.accounted, h.missed⟩
      exact hflags.fire hrunning all now
    cases action with
    | onEstablished deadline => exact ⟨fun _ => h.register deadline, fun _ => trivial⟩
    | establish now =>
      simp only [step, hrunning, Option.isSome_none, Bool.false_eq_true, if_false]
      exact ⟨fun _ => hfire true s.unreachable _ now, fun _ => trivial⟩
    | tick now isExpired =>
      simp only [step, hrunning, Option.isSome_none, Bool.false_eq_true, if_false, tick, Orderly]
      split
      · next hcloses =>
        refine ⟨fun horderly => ⟨h.topFirst, (fun _ _ hsome => by cases hsome), ?_, ?_⟩,
          fun hfired _ _ => ?_⟩
        · simpa only [uncalled, hrunning, finish] using h.accounted
        · simp [finish, h.missed, horderly trivial hcloses]
        · have hnone := hfired.2.2
          simp only [finish, h.missed, Bool.false_or, List.any_eq_false, Bool.true_or,
            not_true_eq_false] at hnone
          exact List.eq_nil_iff_forall_not_mem.mpr hnone
      · next hcloses =>
        refine ⟨fun _ => hfire s.isEstablished s.unreachable _ now, fun _ _ hthen => ?_⟩
        exact absurd hthen hcloses
    | markUnreachable =>
      simp only [step, hrunning, Option.isSome_none, Bool.false_eq_true, if_false]
      exact ⟨fun _ => hfire s.isEstablished true true 0, fun _ => trivial⟩
    | callbackReturns choice =>
      simp only [step, hrunning, Orderly]
      exact ⟨fun _ => h, fun _ _ _ hsome => by cases hsome⟩
  | some loop =>
    obtain ⟨entry, all, now⟩ := loop
    cases action with
    | onEstablished deadline => exact ⟨fun _ => h.register deadline, fun _ => trivial⟩
    | callbackReturns choice =>
      simp only [step, hrunning, Orderly, Option.some.injEq]
      constructor
      · intro horderly
        have hpopped := h.callbackReturns hrunning (horderly entry (all, now) rfl) choice
        exact hpopped.fire rfl all now
      · rintro ⟨-, hkept, -⟩ _ _ ⟨⟩
        obtain ⟨top, rest, hqueue⟩ :=
          List.exists_cons_of_ne_nil (List.ne_nil_of_mem (h.running entry _ hrunning).1)
        by_contra htop
        have hne : top ≠ entry := fun hsame => htop (by rw [hqueue, hsame]; rfl)
        obtain ⟨hid, hinvoked, hrest⟩ := h.lost hrunning hqueue hne
        have hpop : top.id ∉ (pop s.onEstablished choice).map WaitingCallback.id := by
          rw [((pop_spec s.onEstablished choice).1.map WaitingCallback.id).mem_iff, hqueue]
          exact hrest
        obtain ⟨hregistered, hqueue', hcalled⟩ := @fire_frame
          { s with onEstablished := pop s.onEstablished choice, running := none } all now
        rcases hkept top.id (by rwa [hregistered]) with hkept | hkept
        · exact (hcalled _ hkept).elim hinvoked hpop
        · rw [hqueue'] at hkept
          exact hpop hkept
    | _ => exact ⟨fun _ => by simpa [step, hrunning] using h, fun _ => by simp [Orderly, hrunning]⟩

/-- No callback is called twice or lost in a run exactly if each one is still on top of the queue
when it returns, and none waits at a tick of an expired, closed or unreachable session. -/
theorem firedOnce_iff (actions : List CallbackAction) :
    (∀ front back, actions = front ++ back → (Run.run step start front).FiredOnce) ↔
      Run.Meets step Orderly start actions := by
  have hstart : start.Wf :=
    ⟨by simp [start, TopFirst], (fun _ _ hsome => by cases hsome), List.Perm.refl _, rfl⟩
  refine Run.throughout_iff_meets step Orderly ?_ ?_ actions hstart hstart.firedOnce
  · intro s action hwf hfired
    obtain ⟨hkeeps, horderly⟩ := wf_step hwf action
    exact hkeeps (horderly hfired)
  · intro s action hwf _
    obtain ⟨hkeeps, horderly⟩ := wf_step hwf action
    exact ⟨horderly, fun h => (hkeeps h).firedOnce⟩

theorem registered_earlier_fires_twice :
    let s := Run.run step start
      [.onEstablished 20, .establish 5, .onEstablished 10, .callbackReturns 0,
        .callbackReturns 0, .tick 30 false]
    s.onEstablished = [] ∧ s.registered = 2 ∧ s.invoked = [0, 0] := by
  decide

end CallbackState
end SessionRouter

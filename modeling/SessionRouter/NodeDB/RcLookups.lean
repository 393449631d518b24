import SessionRouter.NodeDB.Buckets

/-!
# Lookups that wait for RCs
-/

namespace SessionRouter.NodeDB

open Lib Bencode Run

inductive Script where
  | done (throws : Bool)
  | lookup (rid : RouterID) (callback : Option RelayContact → Script) (rest : Script)

/-- A lookup that waits, with its number. -/
structure PendingLookup where
  number : Nat
  rid : RouterID
  callback : Option RelayContact → Script

structure LookupState where
  store : RcStore
  fetched : Bool
  pending : List PendingLookup
  made : Nat
  answered : List Nat

namespace LookupState

def initial : LookupState := ⟨RcStore.empty, false, [], 0, []⟩

def answerNow (state : LookupState) (rid : RouterID) : Option (Option RelayContact) :=
  match state.store.knownRcs.find rid with
  | some rc => some (some rc)
  | none => if state.fetched then some none else none

def answer (state : LookupState) (number : Nat) : LookupState :=
  { state with answered := state.answered ++ [number] }

end LookupState

open LookupState

def Script.exec : Script → LookupState → LookupState × Bool
  | .done throws, state => (state, throws)
  | .lookup rid callback rest, state =>
    let made := { state with made := state.made + 1 }
    match state.answerNow rid with
    | some result =>
      let done := (callback result).exec (made.answer state.made)
      if done.2 then done else rest.exec done.1
    | none => rest.exec { made with pending := state.pending ++ [⟨state.made, rid, callback⟩] }

def drain (result : LookupState → RouterID → Option RelayContact) :
    List PendingLookup → LookupState → LookupState
  | [], state => state
  | lookup :: rest, state =>
    drain result rest
      ((lookup.callback (result state lookup.rid)).exec (state.answer lookup.number)).1

structure FetchEnv where
  blake2b : Bytes → RCHash
  self : RouterID
  isServiceNode : Bool
  knownRids : RouterID → Bool
  load : Bytes → Option RelayContact

inductive FetchError where
  | status (text : Bytes)
  | other

def FetchError.isEmpty : FetchError → Bool
  | .status text => (text.takeWhile (· ≠ 0)).isEmpty
  | .other => false

inductive FetchReply where
  | ok (body : Bytes)
  | failed

def storeFetched (env : FetchEnv) : Nat → RcStore → Bytes → RcStore × Option FetchError
  | 0, store, _ => (store, some .other)
  | _ + 1, store, 0x65 :: _ => (store, none)
  | fuel + 1, store, bytes =>
    match readString bytes with
    | none => (store, some .other)
    | some (item, rest) =>
      match env.load item with
      | none => (store, some .other)
      | some rc =>
        storeFetched env fuel
          (if env.knownRids rc.routerId then
            (putRc env.blake2b env.self env.isServiceNode store rc).1
          else store) rest

def readFetched (env : FetchEnv) (store : RcStore) (c : DictConsumer) :
    RcStore × Option FetchError :=
  match c.require (readSpan 0x6c) (ascii "r") with
  | none => (store, some .other)
  | some (span, _) => storeFetched env (skipFuel span) store span.tail

def fetchBody (env : FetchEnv) (store : RcStore) (body : Bytes) : RcStore × Option FetchError :=
  match DictConsumer.ofBytes body with
  | none => (store, some .other)
  | some c =>
    match c.skipUntil (ascii "!") (skipFuel c.data) with
    | none => (store, some .other)
    | some (false, c) => readFetched env store c
    | some (true, c) =>
      match readString c.data with
      | none => (store, some .other)
      | some (status, rest) =>
        if status ≠ ascii "OK" then (store, some (.status status))
        else readFetched env store ⟨none, rest⟩

def failLookups (state : LookupState) : LookupState :=
  drain (fun _ _ => none) state.pending { state with pending := [] }

def handleReply (env : FetchEnv) (state : LookupState) : FetchReply → LookupState
  | .failed => failLookups state
  | .ok body =>
    match fetchBody env state.store body with
    | (store, none) =>
      drain (fun state rid => state.store.knownRcs.find rid) state.pending
        { state with store, fetched := true, pending := [] }
    | (store, some error) =>
      if error.isEmpty then { state with store } else failLookups { state with store }

inductive LookupAction where
  | run (code : Script)
  | reply (reply : FetchReply)
  | update (store : RcStore)

def lookupStep (env : FetchEnv) (state : LookupState) : LookupAction → LookupState
  | .run code => (code.exec state).1
  | .reply reply => handleReply env state reply
  | .update store => { state with store }

def LookupState.waiting (state : LookupState) : List Nat := state.pending.map PendingLookup.number

def Accounted (moved : List PendingLookup) (state : LookupState) : Prop :=
  (state.answered ++ state.waiting ++ moved.map PendingLookup.number).Perm (List.range state.made)

structure Proceeds (moved : List PendingLookup) (state after : LookupState) : Prop where
  accounted : Accounted moved after
  answered : state.answered <+: after.answered

theorem perm_range_succ {front back : List Nat} {made : Nat}
    (h : (front ++ back).Perm (List.range made)) :
    (front ++ made :: back).Perm (List.range (made + 1)) := by
  rw [List.range_succ]
  exact List.perm_middle.trans ((h.cons made).trans (List.perm_append_singleton _ _).symm)

theorem accounted_answer {moved : List PendingLookup} {state : LookupState}
    (h : Accounted moved state) :
    Accounted moved (({ state with made := state.made + 1 } : LookupState).answer state.made) := by
  rw [Accounted, List.append_assoc] at h
  simpa [Accounted, answer, waiting] using perm_range_succ h

theorem exec_proceeds (code : Script) {moved : List PendingLookup} {state : LookupState}
    (h : Accounted moved state) : Proceeds moved state (code.exec state).1 := by
  induction code generalizing state with
  | done throws => exact ⟨h, List.prefix_rfl⟩
  | lookup rid callback rest ihCallback ihRest =>
    rw [Script.exec]
    dsimp only
    split
    · next result hnow =>
      have hcallback := ihCallback result (accounted_answer h)
      have hfirst : Proceeds moved state _ :=
        ⟨hcallback.accounted, (List.prefix_append _ _).trans hcallback.answered⟩
      split
      · exact hfirst
      · have hrest := ihRest hfirst.accounted
        exact ⟨hrest.accounted, hfirst.answered.trans hrest.answered⟩
    · have hwaits : Accounted moved { state with
          made := state.made + 1
          pending := state.pending ++ [⟨state.made, rid, callback⟩] } := by
        rw [Accounted] at h
        simpa [Accounted, waiting] using perm_range_succ h
      have hrest := ihRest hwaits
      exact ⟨hrest.accounted, hrest.answered⟩

theorem drain_proceeds (result : LookupState → RouterID → Option RelayContact)
    {moved : List PendingLookup} {state : LookupState} (h : Accounted moved state) :
    Proceeds [] state (drain result moved state) ∧
      ∀ lookup ∈ moved, lookup.number ∈ (drain result moved state).answered := by
  induction moved generalizing state with
  | nil => exact ⟨⟨h, List.prefix_rfl⟩, by simp⟩
  | cons lookup moved ih =>
    have hanswered : Accounted moved (state.answer lookup.number) := by
      refine List.Perm.trans ?_ h
      simpa [answer, waiting] using List.Perm.append_left state.answered List.perm_middle.symm
    have hexec := exec_proceeds (lookup.callback (result state lookup.rid)) hanswered
    obtain ⟨hrest, hall⟩ := ih hexec.accounted
    have hkept := hexec.answered.trans hrest.answered
    rw [drain]
    refine ⟨⟨hrest.accounted, (List.prefix_append _ _).trans hkept⟩, ?_⟩
    rintro other (_ | ⟨_, hmem⟩)
    · exact hkept.subset (by simp [answer])
    · exact hall other hmem

def statusOf (body : Bytes) : Option Bytes := do
  let c ← DictConsumer.ofBytes body
  let (found, c) ← c.skipUntil (ascii "!") (skipFuel c.data)
  if found then (readString c.data).map Prod.fst else none

def FetchReply.Nameless : FetchReply → Prop
  | .failed => False
  | .ok body => ∃ text, statusOf body = some text ∧ text ≠ ascii "OK" ∧ text.head?.getD 0 = 0

variable (env : FetchEnv) (store : RcStore)

theorem storeFetched_error (fuel : Nat) (store : RcStore) (bytes : Bytes) :
    (storeFetched env fuel store bytes).2 = none ∨
      (storeFetched env fuel store bytes).2 = some .other := by
  fun_induction storeFetched env fuel store bytes with
  | case1 | case3 | case4 => exact .inr rfl
  | case2 => exact .inl rfl
  | case5 _ _ _ _ _ _ _ _ _ ih => exact ih

theorem readFetched_error (c : DictConsumer) :
    (readFetched env store c).2 = none ∨ (readFetched env store c).2 = some .other := by
  unfold readFetched
  split
  · exact .inr rfl
  · exact storeFetched_error ..

theorem fetchBody_error (body : Bytes) :
    (∃ text, statusOf body = some text ∧ text ≠ ascii "OK" ∧
      (fetchBody env store body).2 = some (.status text)) ∨
    (∀ text, statusOf body = some text → text = ascii "OK") ∧
      ((fetchBody env store body).2 = none ∨ (fetchBody env store body).2 = some .other) := by
  unfold fetchBody statusOf
  cases DictConsumer.ofBytes body with
  | none => simp
  | some c =>
    simp only [Option.bind_eq_bind, Option.bind_some]
    cases c.skipUntil (ascii "!") (skipFuel c.data) with
    | none => simp
    | some found =>
      obtain ⟨_ | _, c⟩ := found
      · exact .inr ⟨by simp, readFetched_error ..⟩
      · cases hstatus : readString c.data with
        | none => simp [hstatus]
        | some read =>
          obtain ⟨text, rest⟩ := read
          by_cases hok : text = ascii "OK"
          · subst hok
            refine .inr ⟨fun text h => ?_, by
              simpa [hstatus] using readFetched_error env store ⟨none, rest⟩⟩
            rw [Option.bind_some, if_pos rfl, hstatus] at h
            cases h
            rfl
          · simp [hstatus, hok]

theorem nameless_iff (body : Bytes) :
    (∃ error, (fetchBody env store body).2 = some error ∧ error.isEmpty = true) ↔
      (FetchReply.ok body).Nameless := by
  have htext (text : Bytes) : (FetchError.status text).isEmpty = true ↔
      text.head?.getD 0 = 0 := by
    cases text with
    | nil => simp [FetchError.isEmpty]
    | cons byte rest => by_cases hbyte : byte = 0 <;> simp [FetchError.isEmpty, hbyte]
  unfold FetchReply.Nameless
  rcases fetchBody_error env store body with ⟨text, hstatus, hne, herror⟩ | ⟨hok, herror⟩
  · simp [hstatus, hne, herror, htext]
  · refine iff_of_false ?_ ?_
    · rintro ⟨error, heq, hempty⟩
      rcases herror with herror | herror
      · cases herror.symm.trans heq
      · cases herror.symm.trans heq
        cases hempty
    · rintro ⟨text, hstatus, hne, -⟩
      exact hne (hok text hstatus)

theorem handleReply_answers_iff {state : LookupState} (h : Accounted [] state)
    (reply : FetchReply) :
    Proceeds [] state (handleReply env state reply) ∧
      ((∀ number ∈ state.waiting, number ∈ (handleReply env state reply).answered) ↔
        (reply.Nameless → state.pending = [])) := by
  have hdrain (result : LookupState → RouterID → Option RelayContact) (store : RcStore)
      (fetched : Bool) :
      Proceeds [] state (drain result state.pending ⟨store, fetched, [], state.made,
        state.answered⟩) ∧ ∀ number ∈ state.waiting, number ∈ (drain result state.pending
          ⟨store, fetched, [], state.made, state.answered⟩).answered := by
    have haccounted : Accounted state.pending ⟨store, fetched, [], state.made, state.answered⟩ := by
      simpa [Accounted, waiting] using h
    obtain ⟨hproceeds, hall⟩ := drain_proceeds result haccounted
    exact ⟨⟨hproceeds.accounted, hproceeds.answered⟩, List.forall_mem_map.mpr hall⟩
  cases reply with
  | failed =>
    obtain ⟨hproceeds, hall⟩ := hdrain (fun _ _ => none) state.store state.fetched
    exact ⟨hproceeds, iff_of_true hall fun hnameless => hnameless.elim⟩
  | ok body =>
    rw [← nameless_iff env state.store body]
    cases hfetch : fetchBody env state.store body with
    | mk store error =>
      simp only [handleReply, hfetch]
      cases error with
      | none =>
        obtain ⟨hproceeds, hall⟩ :=
          hdrain (fun state rid => state.store.knownRcs.find rid) store true
        exact ⟨hproceeds, iff_of_true hall (by simp)⟩
      | some error =>
        dsimp only
        split
        · next hempty =>
          refine ⟨⟨h, List.prefix_rfl⟩, ?_⟩
          have hnodup : (state.answered ++ state.waiting).Nodup := by
            rw [Accounted, List.map_nil, List.append_nil] at h
            exact h.nodup_iff.mpr List.nodup_range
          have hdisjoint := (List.nodup_append.mp hnodup).2.2
          constructor
          · intro hall _
            rw [List.eq_nil_iff_forall_not_mem]
            intro lookup hmem
            have hwaits : lookup.number ∈ state.waiting := List.mem_map_of_mem hmem
            exact hdisjoint _ (hall _ hwaits) _ hwaits rfl
          · intro hnone number hmem
            rw [waiting, hnone ⟨error, rfl, hempty⟩] at hmem
            cases hmem
        · next hempty =>
          obtain ⟨hproceeds, hall⟩ := hdrain (fun _ _ => none) store state.fetched
          refine ⟨hproceeds, iff_of_true hall ?_⟩
          rintro ⟨same, heq, hsame⟩
          cases heq
          exact absurd hsame hempty

theorem accounted_step (state : LookupState) (action : LookupAction)
    (h : Accounted [] state) : Accounted [] (lookupStep env state action) := by
  cases action with
  | run code => exact (exec_proceeds code h).accounted
  | reply reply => exact (handleReply_answers_iff env h reply).1.accounted
  | update store => exact h

/-- In every run each lookup is answered once or waits; it is answered at once if its RC is known
or RCs have been fetched; and every reply answers all lookups that wait when it comes, those made by
callbacks of the reply before included, exactly if no reply with an error without a text comes while
lookups wait. -/
theorem lookups_answered_iff (env : FetchEnv) (actions : List LookupAction) :
    Accounted [] (run (lookupStep env) initial actions) ∧
    (∀ (state : LookupState) (rid : RouterID) (callback : Option RelayContact → Script)
      (rest : Script), Accounted [] state → state.answerNow rid ≠ none →
        state.made ∈ ((Script.lookup rid callback rest).exec state).1.answered) ∧
    ((∀ front reply back, actions = front ++ .reply reply :: back →
        ∀ number ∈ (run (lookupStep env) initial front).waiting,
          number ∈ (run (lookupStep env) initial (front ++ [.reply reply])).answered) ↔
      Meets (lookupStep env) (fun state action => ∀ reply, action = .reply reply →
        reply.Nameless → state.pending = []) initial actions) := by
  have hinit : Accounted [] initial := by simp [Accounted, initial, waiting]
  have hinv (front : List LookupAction) : Accounted [] (run (lookupStep env) initial front) :=
    run_invariant_of_step _ (accounted_step env) front hinit
  refine ⟨hinv actions, ?_, ?_, ?_⟩
  · intro state rid callback rest h hnow
    obtain ⟨result, hresult⟩ := Option.ne_none_iff_exists'.mp hnow
    have hfirst := exec_proceeds (callback result) (accounted_answer h)
    have hmem := hfirst.answered.subset
      (List.mem_append_right state.answered (List.mem_singleton_self state.made))
    rw [Script.exec]
    simp only [hresult]
    split
    · exact hmem
    · exact (exec_proceeds rest hfirst.accounted).answered.subset hmem
  · intro hall
    refine meets_of_forall_split _ ?_
    rintro front action back rfl reply rfl
    have hanswers := hall front reply back rfl
    rw [run_append] at hanswers
    exact (handleReply_answers_iff env (hinv front) reply).2.mp hanswers
  · rintro hmeets front reply back rfl
    rw [meets_append] at hmeets
    rw [run_append]
    exact (handleReply_answers_iff env (hinv front) reply).2.mpr (hmeets.2.1 reply rfl)

def quietEnv : FetchEnv :=
  ⟨fun _ => FixedBytes.zero 8, FixedBytes.zero 32, false, fun _ => false, fun _ => none⟩

def keptWaiting : LookupState :=
  run (lookupStep quietEnv) initial
    [.run (.lookup (FixedBytes.zero 32) (fun _ => .done false) (.done false)),
      .reply (.ok (encodeDict [(ascii "!", encodeString [])]))]

theorem lookup_keptWaiting : keptWaiting.answered = [] ∧ keptWaiting.waiting = [0] := by
  decide +kernel

end SessionRouter.NodeDB

import SessionRouter.Link.ContactRequests

/-!
# Looking for a contact at several relays
-/

namespace SessionRouter

open Lib Bencode NodeDB

structure FanOut where
  remaining : Nat
  arrived : Nat
  responses : List (Nat × Bytes)

namespace FanOut

def hook (state : FanOut) (msg : Message) : FanOut :=
  let after := { state with arrived := state.arrived + 1 }
  if state.remaining = 0 then after
  else if Message.succeeded msg then
    { after with
      remaining := 0
      responses := state.responses ++ [(state.arrived, Message.body msg)] }
  else
    let remaining := state.remaining - 1
    if remaining = 0 then { after with remaining }
    else
      { after with
        remaining
        responses := state.responses ++ [(state.arrived, ForwardHandler.findCc.response msg)] }

def responsesTo (remaining : Nat) (arrivals : List Message) : List (Nat × Bytes) :=
  (arrivals.foldl hook ⟨remaining, 0, []⟩).responses

def AnsweredRight (arrivals : List Message) (responses : List (Nat × Bytes)) : Prop :=
  (∃ place msg, arrivals[place]? = some msg ∧ Message.succeeded msg = true ∧
    (∀ earlier < place, ∀ other, arrivals[earlier]? = some other →
      Message.succeeded other = false) ∧
    responses = [(place, Message.body msg)]) ∨
  ((∀ msg ∈ arrivals, Message.succeeded msg = false) ∧
    ∃ last, arrivals.getLast? = some last ∧
      responses = [(arrivals.length - 1, ForwardHandler.findCc.response last)])

def laterResponses : Nat → Nat → List Message → List (Nat × Bytes)
  | _, _, [] => []
  | remaining, arrived, msg :: arrivals =>
    if remaining = 0 then []
    else if Message.succeeded msg then [(arrived, Message.body msg)]
    else if remaining = 1 then []
    else
      (arrived, ForwardHandler.findCc.response msg) ::
        laterResponses (remaining - 1) (arrived + 1) arrivals

theorem laterResponses_zero (arrived : Nat) (arrivals : List Message) :
    laterResponses 0 arrived arrivals = [] := by
  cases arrivals with
  | nil => rfl
  | cons msg arrivals => rfl

theorem foldl_hook (arrivals : List Message) (state : FanOut) :
    (arrivals.foldl hook state).responses =
      state.responses ++ laterResponses state.remaining state.arrived arrivals := by
  induction arrivals generalizing state with
  | nil => exact (List.append_nil _).symm
  | cons msg arrivals ih =>
    rw [List.foldl_cons, ih, laterResponses]
    unfold hook
    dsimp only
    by_cases hdone : state.remaining = 0
    · simp [hdone, laterResponses_zero]
    · rw [if_neg hdone, if_neg hdone]
      cases hsuccess : Message.succeeded msg with
      | true => simp [laterResponses_zero]
      | false =>
        by_cases hlast : state.remaining = 1
        · simp [hlast, laterResponses_zero]
        · have hmore : state.remaining - 1 ≠ 0 := by omega
          simp [hlast, hmore]

theorem responsesTo_eq (remaining : Nat) (arrivals : List Message) :
    responsesTo remaining arrivals = laterResponses remaining 0 arrivals :=
  foldl_hook arrivals ⟨remaining, 0, []⟩

def FirstDecides (arrivals : List Message) : Prop :=
  arrivals.length = 1 ∨ ∃ first, arrivals.head? = some first ∧ Message.succeeded first = true

theorem not_firstDecides_nil : ¬ FirstDecides [] := by
  rintro (hone | ⟨first, hfirst, -⟩)
  · simp at hone
  · simp at hfirst

theorem firstDecides_failure_iff {first : Message} (hfailed : Message.succeeded first = false)
    (arrivals : List Message) : FirstDecides (first :: arrivals) ↔ arrivals = [] := by
  constructor
  · rintro (hone | ⟨other, hother, hgood⟩)
    · simpa using hone
    · cases hother
      rw [hfailed] at hgood
      cases hgood
  · rintro rfl
    exact Or.inl rfl

variable {remaining : Nat}

theorem responsesTo_failure (hmany : 2 ≤ remaining) {first : Message}
    (hfailed : Message.succeeded first = false) (arrivals : List Message) :
    responsesTo remaining (first :: arrivals) =
      (0, ForwardHandler.findCc.response first) :: laterResponses (remaining - 1) 1 arrivals := by
  rw [responsesTo_eq, laterResponses, if_neg (by omega), hfailed, if_neg (by simp),
    if_neg (by omega)]

theorem responsesTo_success (hmany : 2 ≤ remaining) {first : Message}
    (hsuccess : Message.succeeded first = true) (arrivals : List Message) :
    responsesTo remaining (first :: arrivals) = [(0, Message.body first)] := by
  rw [responsesTo_eq, laterResponses, if_neg (by omega), hsuccess, if_pos rfl]

theorem answeredRight_iff (hmany : 2 ≤ remaining) (arrivals : List Message) :
    AnsweredRight arrivals (responsesTo remaining arrivals) ↔ FirstDecides arrivals := by
  cases arrivals with
  | nil =>
    refine iff_of_false ?_ not_firstDecides_nil
    rintro (⟨place, msg, hmsg, -⟩ | ⟨-, last, hlast, -⟩)
    · simp at hmsg
    · simp at hlast
  | cons first arrivals =>
    cases hsuccess : Message.succeeded first with
    | true =>
      rw [responsesTo_success hmany hsuccess]
      refine iff_of_true (Or.inl ⟨0, first, rfl, hsuccess, ?_, rfl⟩)
        (Or.inr ⟨first, rfl, hsuccess⟩)
      intro earlier hearlier
      exact absurd hearlier (Nat.not_lt_zero _)
    | false =>
      rw [responsesTo_failure hmany hsuccess, firstDecides_failure_iff hsuccess]
      constructor
      · rintro (⟨place, msg, hmsg, hgood, -, hresponses⟩ | ⟨-, last, -, hresponses⟩)
        · -- the response to the failure came first
          have hplace : place = 0 := by
            have hpair := (List.cons.inj hresponses).1
            exact (Prod.mk.inj hpair).1.symm
          subst hplace
          cases hmsg
          rw [hsuccess] at hgood
          cases hgood
        · have hpair := (List.cons.inj hresponses).1
          have hlength := (Prod.mk.inj hpair).1
          rw [List.length_cons] at hlength
          exact List.length_eq_zero_iff.mp (by omega)
      · rintro rfl
        refine Or.inr ⟨?_, first, rfl, rfl⟩
        intro msg hmem
        rw [List.mem_singleton.mp hmem]
        exact hsuccess

theorem responsesTo_length_eq_one_iff (hmany : 3 ≤ remaining)
    (arrivals : List Message) :
    (responsesTo remaining arrivals).length = 1 ↔ FirstDecides arrivals := by
  cases arrivals with
  | nil => exact iff_of_false (by simp [responsesTo]) not_firstDecides_nil
  | cons first arrivals =>
    cases hsuccess : Message.succeeded first with
    | true =>
      rw [responsesTo_success (by omega) hsuccess]
      exact iff_of_true rfl (Or.inr ⟨first, rfl, hsuccess⟩)
    | false =>
      rw [responsesTo_failure (by omega) hsuccess, firstDecides_failure_iff hsuccess]
      cases arrivals with
      | nil => exact iff_of_true rfl rfl
      | cons second arrivals =>
        -- whatever the second answer is, it is passed on as well
        refine iff_of_false ?_ (List.cons_ne_nil _ _)
        rw [laterResponses, if_neg (by omega)]
        split
        · simp
        · rw [if_neg (by omega)]
          simp

end FanOut

namespace RelayNode

theorem three_le_others (node : RelayNode) (blindedPk : PubKey)
    (hmany : 4 ≤ node.registered.relays.length) :
    let closestRids := findManyClosestTo node.registered blindedPk ccPublishLocations
    3 ≤ closestRids.length - closestRids.count node.id := by
  have hcount := List.nodup_iff_count_le_one.mp
    (findManyClosestTo_nodup node.registered blindedPk ccPublishLocations) node.id
  have hlength := length_findManyClosestTo node.registered blindedPk ccPublishLocations
  have hfour : ccPublishLocations.toNat = 4 := rfl
  dsimp only
  omega

theorem three_le_remaining {node : RelayNode} {body : Bytes} {now : Int} {remaining : Nat}
    {rids : List RouterID} {name message : Bytes}
    (h : node.handleFindCc body false now = .sendCommands remaining rids name message) :
    3 ≤ remaining := by
  unfold handleFindCc at h
  split at h
  · cases h
  · next request _ =>
    dsimp only at h
    rw [if_neg (by simp)] at h
    split at h
    · cases h
    · next hmany =>
      rw [length_findManyClosestTo, ccPublishLocations] at hmany
      split at h
      · unfold findAt at h
        split at h
        · cases h
        · split at h
          · cases h
          · cases h
      · unfold findAnywhere at h
        dsimp only at h
        split at h
        · cases h
        · cases h
          exact three_le_others node request.blindedPk (by omega)

/-- A request without an index that is passed on gets exactly one response, the right one,
exactly if the first answer to arrive decides. -/
theorem findCc_answeredRight_iff (node : RelayNode) (body : Bytes) (now : Int) (remaining : Nat)
    (rids : List RouterID) (name message : Bytes)
    (hsent : node.handleFindCc body false now = .sendCommands remaining rids name message)
    (arrivals : List Message) :
    FanOut.AnsweredRight arrivals (FanOut.responsesTo remaining arrivals) ↔
      FanOut.FirstDecides arrivals :=
  FanOut.answeredRight_iff (Nat.le_of_succ_le (three_le_remaining hsent)) arrivals

/-! ### A timeout before the success -/

namespace FiveRelays

def contact (byte : UInt8) : RelayContact where
  routerId := FixedBytes.filled 32 byte
  routerVersion := (1, 1, 0)
  timestamp := 0
  payload := []

def asked : RelayNode where
  id := FixedBytes.filled 32 9
  endpoint :=
    { isStopping := false
      isServiceNode := true
      rcs := [1, 2, 3, 4, 5].foldl
        (fun rcs byte => rcs.insertOrAssign (FixedBytes.filled 32 byte) (contact byte)) ∅
      relayConns := ∅
      clientConns := ∅
      pendingOutbound := ∅
      nextConnection := 0 }
  registered := registered
  contacts := ∅
  rcHashes _ := ∅
  rcBucketHashes _ := FixedBytes.zero 8
  oxend := true

def closest : List RouterID :=
  [1, 2, 3, 4].map (FixedBytes.filled 32)

def found : Message :=
  some ⟨encodeDict [(ascii "!", encodeString (ascii "OK"))], false⟩

end FiveRelays

theorem handleFindCc_asked :
    FiveRelays.asked.handleFindCc (relayFindCc (FixedBytes.filled 32 7)) false 0 =
      .sendCommands 4 FiveRelays.closest (ascii "find_cc")
        (relayFindCc (FixedBytes.filled 32 7)) := by
  decide +kernel

theorem findCc_answeredRight_first : FanOut.AnsweredRight [FiveRelays.found, none, none, none]
      (FanOut.responsesTo 4 [FiveRelays.found, none, none, none]) :=
  (findCc_answeredRight_iff _ _ _ _ _ _ _ handleFindCc_asked _).mpr
    (Or.inr ⟨FiveRelays.found, rfl, rfl⟩)

theorem findCc_timeout_answered_first :
    FiveRelays.asked.handleFindCc (relayFindCc (FixedBytes.filled 32 7)) false 0 =
        .sendCommands 4 FiveRelays.closest (ascii "find_cc")
          (relayFindCc (FixedBytes.filled 32 7)) ∧
      FanOut.responsesTo 4 [none, FiveRelays.found, FiveRelays.found, FiveRelays.found] =
        [(0, Messages.timeoutResponse), (1, Message.body FiveRelays.found)] ∧
      ¬ FanOut.AnsweredRight [none, FiveRelays.found, FiveRelays.found, FiveRelays.found]
        (FanOut.responsesTo 4
          [none, FiveRelays.found, FiveRelays.found, FiveRelays.found]) := by
  refine ⟨handleFindCc_asked, by decide, fun hright => ?_⟩
  have hdecides := (FanOut.answeredRight_iff (by decide) _).mp hright
  rcases hdecides with hone | ⟨first, hfirst, hsuccess⟩
  · cases hone
  · cases hfirst
    cases hsuccess

end RelayNode
end SessionRouter

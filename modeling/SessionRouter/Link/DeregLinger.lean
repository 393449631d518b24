import SessionRouter.Link.RelayConns

/-!
# How long a deregistered relay stays connected
-/

namespace SessionRouter.Link

open Lib

variable {Conn : Type}

def deregRuns (events : List (ConnEvent Conn)) : List (Nat × (RouterID → Bool)) :=
  events.filterMap fun event =>
    match event with
    | .deregTimer now registered => some (now, registered)
    | _ => none

def AbsentSince (events : List (ConnEvent Conn)) (rid : RouterID) (since : Nat) : Prop :=
  ∃ (before : List (Nat × (RouterID → Bool))) (registered : RouterID → Bool)
      (after : List (Nat × (RouterID → Bool))),
    deregRuns events = before ++ (since, registered) :: after ∧
    registered rid = false ∧ ∀ run ∈ after, run.2 rid = false

def FullPeriod (events : List (ConnEvent Conn)) (rid : RouterID) (now : Nat) : Prop :=
  ∃ since, AbsentSince events rid since ∧ since + DEREGGED_LINGER ≤ now

def Flaps (table : ConnTable Conn) (event : ConnEvent Conn) : Prop :=
  ∃ now registered, event = .deregTimer now registered ∧
    ∃ rid since, table.pendingDead.find rid = some since ∧
      now < since + DEREGGED_LINGER + 1000 ∧ registered rid = true

variable {events : List (ConnEvent Conn)} {rid : RouterID} {since now : Nat}
  {registered : RouterID → Bool}

@[simp] theorem deregRuns_append (front back : List (ConnEvent Conn)) :
    deregRuns (front ++ back) = deregRuns front ++ deregRuns back :=
  List.filterMap_append

@[simp] theorem deregRuns_deregTimer :
    deregRuns [(.deregTimer now registered : ConnEvent Conn)] = [(now, registered)] :=
  rfl

theorem absentSince_now (habsent : registered rid = false) :
    AbsentSince (events ++ [.deregTimer now registered]) rid now :=
  ⟨deregRuns events, registered, [], by simp, habsent, by simp⟩

theorem AbsentSince.run (h : AbsentSince events rid since) (habsent : registered rid = false) :
    AbsentSince (events ++ [.deregTimer now registered]) rid since := by
  obtain ⟨before, first, after, hruns, hfirst, hafter⟩ := h
  refine ⟨before, first, after ++ [(now, registered)], by simp [hruns], hfirst, ?_⟩
  intro run hrun
  rcases List.mem_append.mp hrun with hold | hnew
  · exact hafter run hold
  · rw [List.mem_singleton.mp hnew]
    exact habsent

theorem AbsentSince.other {event : ConnEvent Conn} (h : AbsentSince events rid since)
    (hevent : deregRuns [event] = []) : AbsentSince (events ++ [event]) rid since := by
  unfold AbsentSince at *
  rwa [deregRuns_append, hevent, List.append_nil]

namespace ConnTable

variable {table : ConnTable Conn}

theorem dropDeregged_cases (handled : Handled Conn) (dead : Sigma fun _ : RouterID => Nat) :
    let after := (dropDeregged now registered handled dead).1
    (now < dead.2 + DEREGGED_LINGER + 1000 ∧ after = handled.1) ∨
      (dead.2 + DEREGGED_LINGER + 1000 ≤ now ∧
        after.pendingDead = handled.1.pendingDead.remove dead.1 ∧
        (after.relayConns = handled.1.relayConns ∨
          registered dead.1 = false ∧
            after.relayConns = handled.1.relayConns.remove dead.1)) := by
  unfold dropDeregged
  dsimp only
  by_cases hdue : now < dead.2 + DEREGGED_LINGER + 1000
  · rw [if_pos hdue]
    exact .inl ⟨hdue, rfl⟩
  · rw [if_neg hdue]
    refine .inr ⟨Nat.not_lt.mp hdue, ?_⟩
    cases hregistered : registered dead.1 with
    | true => exact ⟨rfl, .inl rfl⟩
    | false =>
      rw [if_neg (by simp)]
      cases handled.1.relayConns.find dead.1 with
      | none => exact ⟨rfl, .inl rfl⟩
      | some rc => exact ⟨rfl, .inr ⟨rfl, rfl⟩⟩

theorem find_pendingDead_loop {dead : List (Sigma fun _ : RouterID => Nat)}
    {handled : Handled Conn}
    (h : (dead.foldl (dropDeregged now registered) handled).1.pendingDead.find rid = some since) :
    handled.1.pendingDead.find rid = some since ∧
      ∀ entry ∈ dead, entry.1 = rid → now < entry.2 + DEREGGED_LINGER + 1000 := by
  induction dead generalizing handled with
  | nil => exact ⟨h, by simp⟩
  | cons entry dead ih =>
    obtain ⟨hfind, hrest⟩ := ih h
    rcases dropDeregged_cases handled entry with ⟨hnotDue, hsame⟩ | ⟨hdue, hpending, -⟩
    · rw [hsame] at hfind
      refine ⟨hfind, fun other hother heq => ?_⟩
      rcases List.mem_cons.mp hother with rfl | hmem
      · exact hnotDue
      · exact hrest other hmem heq
    · rw [hpending, Table.find_remove] at hfind
      split at hfind
      · cases hfind
      · next hne =>
        refine ⟨hfind, fun other hother heq => ?_⟩
        rcases List.mem_cons.mp hother with rfl | hmem
        · exact absurd heq.symm hne
        · exact hrest other hmem heq

theorem due_of_dropped {dead : List (Sigma fun _ : RouterID => Nat)} {handled : Handled Conn}
    (hbefore : (handled.1.relayConns.find rid).isSome = true)
    (hafter : (dead.foldl (dropDeregged now registered) handled).1.relayConns.find rid = none) :
    ∃ entry ∈ dead, entry.1 = rid ∧ entry.2 + DEREGGED_LINGER + 1000 ≤ now ∧
      registered rid = false := by
  induction dead generalizing handled with
  | nil =>
    rw [List.foldl_nil] at hafter
    rw [hafter] at hbefore
    cases hbefore
  | cons entry dead ih =>
    by_cases hstill : ((dropDeregged now registered handled entry).1.relayConns.find
        rid).isSome = true
    · obtain ⟨found, hmem, hfound⟩ := ih hstill hafter
      exact ⟨found, List.mem_cons_of_mem _ hmem, hfound⟩
    · refine ⟨entry, List.mem_cons_self, ?_⟩
      rcases dropDeregged_cases handled entry with ⟨-, hsame⟩ | ⟨hdue, -, hkept | hdropped⟩
      · rw [hsame] at hstill
        exact absurd hbefore hstill
      · rw [hkept] at hstill
        exact absurd hbefore hstill
      · obtain ⟨habsent, hremoved⟩ := hdropped
        rw [hremoved, Table.find_remove] at hstill
        split at hstill
        · next heq => exact ⟨heq.symm, hdue, heq ▸ habsent⟩
        · exact absurd hbefore hstill

theorem find_noted {rids : List RouterID} {dead : Table RouterID Nat}
    (h : (rids.foldl (fun (dead : Table RouterID Nat) rid => dead.emplace rid now) dead).find rid =
      some since) : dead.find rid = some since ∨ since = now ∧ rid ∈ rids := by
  induction rids generalizing dead with
  | nil => exact .inl h
  | cons next rids ih =>
    rcases ih h with hfind | ⟨hnow, hmem⟩
    · rw [Table.find_emplace] at hfind
      split at hfind
      · next heq =>
        cases hfind
        exact .inr ⟨rfl, heq.1 ▸ List.mem_cons_self⟩
      · exact .inl hfind
    · exact .inr ⟨hnow, List.mem_cons_of_mem _ hmem⟩

theorem find_pendingDead_checkDereggedConns
    (h : (table.checkDereggedConns now registered).1.pendingDead.find rid = some since) :
    (table.pendingDead.find rid = some since ∧ now < since + DEREGGED_LINGER + 1000) ∨
      since = now ∧ registered rid = false := by
  rcases find_noted h with hkept | ⟨hnow, hmem⟩
  · obtain ⟨hfind, hnotDue⟩ := find_pendingDead_loop hkept
    exact .inl ⟨hfind, hnotDue ⟨rid, since⟩ (Table.find_eq_some_iff.mp hfind) rfl⟩
  · refine .inr ⟨hnow, ?_⟩
    simpa using (List.mem_filter.mp hmem).2

section Events

variable {me : RouterID}

theorem pendingDead_closeRedundant {rids : List RouterID} {handled after : Handled Conn}
    (h : rids.foldlM closeRedundantOne handled = some after) :
    after.1.pendingDead = handled.1.pendingDead := by
  induction rids generalizing handled with
  | nil =>
    cases h
    rfl
  | cons rid rids ih =>
    rw [List.foldlM_cons] at h
    obtain ⟨next, hnext, hrest⟩ := Option.bind_eq_some_iff.mp h
    rw [ih hrest]
    unfold closeRedundantOne at hnext
    split at hnext
    · cases hnext
    · split at hnext
      · cases hnext
        rfl
      · cases hnext

theorem pendingDead_connected {conn : Conn} {isInbound : Bool} {handled : Handled Conn}
    (h : table.connected me rid conn isInbound now = some handled) :
    handled.1.pendingDead = table.pendingDead := by
  obtain ⟨rc, -, rfl⟩ := Option.map_eq_some_iff.mp h
  rfl

variable [DecidableEq Conn]

theorem pendingDead_onConnClosed (conn : Conn) (negotiated : Bool) :
    (table.onConnClosed rid conn negotiated).1.pendingDead = table.pendingDead := by
  unfold onConnClosed
  dsimp only
  split
  · split
    · split
      · rfl
      · rfl
    · rfl
  · split
    · rfl
    · rfl

theorem pendingDead_handle {event : ConnEvent Conn} {handled : Handled Conn}
    (hevent : deregRuns [event] = []) (h : table.handle me event = some handled) :
    handled.1.pendingDead = table.pendingDead := by
  cases event with
  | connect rid conn =>
    cases h
    unfold connect
    dsimp only
    split
    · rfl
    · rfl
  | inbound rid conn now => exact pendingDead_connected h
  | outbound rid now =>
    unfold handle onOutboundConn at h
    dsimp only at h
    split at h
    · cases h
      rfl
    · obtain ⟨connected, hconnected, rfl⟩ := Option.map_eq_some_iff.mp h
      change connected.1.pendingDead = table.pendingDead
      exact pendingDead_connected hconnected
  | closed rid conn negotiated =>
    cases h
    exact pendingDead_onConnClosed conn negotiated
  | redundancyTimer now => exact pendingDead_closeRedundant h
  | deregTimer now registered => cases hevent

theorem handleAll_append_one {front : List (ConnEvent Conn)} {event : ConnEvent Conn}
    {after : ConnTable Conn} (h : table.handleAll me (front ++ [event]) = some after) :
    ∃ before handled, table.handleAll me front = some before ∧
      before.handle me event = some handled ∧ handled.1 = after := by
  rw [handleAll, List.foldlM_append] at h
  obtain ⟨before, hbefore, hlast⟩ := Option.bind_eq_some_iff.mp h
  rw [List.foldlM_cons] at hlast
  obtain ⟨next, hnext, hend⟩ := Option.bind_eq_some_iff.mp hlast
  obtain ⟨handled, hhandled, rfl⟩ := Option.map_eq_some_iff.mp hnext
  cases hend
  exact ⟨before, handled, hbefore, hhandled, rfl⟩

def Steady (me : RouterID) (events : List (ConnEvent Conn)) : Prop :=
  ∀ front event back table, events = front ++ event :: back →
    start.handleAll me front = some table → ¬ Flaps table event

theorem absentSince_of_pendingDead (hsteady : Steady me events)
    {front back : List (ConnEvent Conn)} (hsplit : events = front ++ back)
    (hrun : start.handleAll me front = some table)
    (hfind : table.pendingDead.find rid = some since) : AbsentSince front rid since := by
  induction front using List.reverseRecOn generalizing back table since with
  | nil =>
    cases hrun
    cases hfind
  | append_singleton front event ih =>
    obtain ⟨before, handled, hbefore, hhandled, rfl⟩ := handleAll_append_one hrun
    have hsplit : events = front ++ event :: back := by
      rw [hsplit, List.append_assoc, List.singleton_append]
    by_cases hevent : deregRuns [event] = []
    · rw [pendingDead_handle hevent hhandled] at hfind
      exact (ih hsplit hbefore hfind).other hevent
    · cases event with
      | deregTimer now registered =>
        cases hhandled
        rcases find_pendingDead_checkDereggedConns hfind with ⟨hkept, hnotDue⟩ | ⟨rfl, habsent⟩
        · refine (ih hsplit hbefore hkept).run ?_
          by_contra hregistered
          exact hsteady front _ back before hsplit hbefore
            ⟨now, registered, rfl, rid, since, hkept, hnotDue, by simpa using hregistered⟩
        · exact absentSince_now habsent
      | connect | inbound | outbound | closed | redundancyTimer => exact absurd rfl hevent

/-- As long as no run finds a relay registered that has been noted and is not due, a relay that a
run drops has been unregistered at every run of a whole linger time. -/
theorem deregged_dropped_after_linger (me : RouterID) (events : List (ConnEvent Conn))
    (hsteady : Steady me events) :
    ∀ front now registered back table rid,
      events = front ++ .deregTimer now registered :: back →
      start.handleAll me front = some table →
      (table.relayConns.find rid).isSome = true →
      (table.checkDereggedConns now registered).1.relayConns.find rid = none →
      FullPeriod (front ++ [.deregTimer now registered]) rid now := by
  intro front now registered back table rid hsplit hrun hbefore hafter
  obtain ⟨⟨key, since⟩, hmem, rfl, hdue, habsent⟩ := due_of_dropped hbefore hafter
  dsimp only at hdue
  have hnoted := absentSince_of_pendingDead hsteady hsplit hrun (Table.find_eq_some_iff.mpr hmem)
  exact ⟨since, hnoted.run habsent, by omega⟩

theorem deregged_dropped_after_linger_absent :
    let events : List (ConnEvent Nat) :=
      [.inbound (ridOf 2) 0 0, .deregTimer 0 fun _ => false, .deregTimer 1801000 fun _ => false]
    Steady (ridOf 1) events ∧ FullPeriod events (ridOf 2) 1801000 := by
  intro events
  have hsteady : Steady (ridOf 1) events := by
    rintro front event back table hsplit - ⟨now, registered, rfl, rid, since, -, -, hregistered⟩
    have hmem : .deregTimer now registered ∈ events := by
      rw [hsplit]
      simp
    simp only [events, List.mem_cons, List.not_mem_nil, reduceCtorEq, false_or, or_false,
      ConnEvent.deregTimer.injEq] at hmem
    rcases hmem with ⟨-, rfl⟩ | ⟨-, rfl⟩
    · cases hregistered
    · cases hregistered
  exact ⟨hsteady, deregged_dropped_after_linger (ridOf 1) events hsteady
    [.inbound (ridOf 2) 0 0, .deregTimer 0 fun _ => false] 1801000 (fun _ => false) [] _ (ridOf 2)
    rfl rfl (by decide +kernel) (by decide +kernel)⟩

theorem deregged_dropped_after_flap :
    let front : List (ConnEvent Nat) :=
      [.inbound (ridOf 2) 0 0, .deregTimer 0 fun _ => false, .deregTimer 1740000 fun _ => true]
    ∃ table, start.handleAll (ridOf 1) front = some table ∧
      (table.relayConns.find (ridOf 2)).isSome = true ∧
      (table.checkDereggedConns 1801000 fun _ => false).1.relayConns.find (ridOf 2) = none ∧
      ¬ FullPeriod (front ++ [.deregTimer 1801000 fun _ => false]) (ridOf 2) 1801000 := by
  intro front
  refine ⟨_, rfl, by decide +kernel, by decide +kernel, ?_⟩
  rintro ⟨since, ⟨before, registered, after, hruns, habsent, hafter⟩, hfull⟩
  have hruns : [(0, fun _ => false), (1740000, fun _ => true), (1801000, fun _ => false)] =
      before ++ (since, registered) :: after := hruns
  unfold DEREGGED_LINGER at hfull
  rcases before with _ | ⟨first, _ | ⟨second, _ | ⟨third, rest⟩⟩⟩
  · cases hruns
    exact absurd (hafter _ List.mem_cons_self) (by simp)
  · cases hruns
    exact absurd habsent (by simp)
  · cases hruns
    omega
  · simp at hruns

end Events
end ConnTable
end SessionRouter.Link

import SessionRouter.NodeDB.Buckets

/-!
# Gossiping relay contacts

Relays pass on the contacts of other relays: what is new to a relay is stored and sent to all its
peers, what is not is dropped.  `Network.step` lets contacts be delivered, duplicated and delayed at
will, while connections and registrations come and go.  The main result, `gossip_terminates`, says
that every relay broadcasts a contact once and bounds the messages about it, as long as the
timestamps are not negative as signed words; `rebroadcast` shows four contacts with other timestamps
that are passed on in circles.
-/

namespace SessionRouter.Gossip

open Lib NodeDB

structure Relay where
  registered : List RouterID
  store : RcStore
  relayConns : Table RouterID Nat
  isStopping : Bool

section

variable (blake2b : Bytes → RCHash) (self : RouterID) (relay : Relay) (rc : RelayContact)

def gossipRc (sender : Option Nat) : List RouterID :=
  if relay.isStopping then []
  else (relay.relayConns.entries.filter fun entry =>
    ¬(entry.1 = rc.routerId ∨ sender = some entry.2)).map fun entry => entry.1

def verifyStoreGossipRc : RcStore × Bool × Bool :=
  if rc.routerId ∉ relay.registered ∨ rc.routerId = self then (relay.store, false, false)
  else putRc blake2b self true relay.store rc

def handleGossipRc (conn : Nat) : Relay × Option (List RouterID) :=
  let (store, _, gossip) := verifyStoreGossipRc blake2b self relay rc
  let relay := { relay with store := store }
  (relay, if gossip then some (gossipRc relay rc (some conn)) else none)

def regenerateRc : Relay × Option (List RouterID) :=
  if self ∉ relay.registered then (relay, none)
  else
    let (store, _, gossip) := putRc blake2b self true relay.store rc
    let relay := { relay with store := store }
    (relay, if gossip then some (gossipRc relay rc none) else none)

def storeFetched : Relay × Option (List RouterID) :=
  ({ relay with store := (putRc blake2b self true relay.store rc).1 }, none)

end

structure GossipMessage where
  source : RouterID
  dest : RouterID
  rc : RelayContact
deriving DecidableEq

structure Network where
  relays : RouterID → Relay
  broadcasts : List (RouterID × RelayContact)
  sent : List GossipMessage

inductive Action where
  | deliver (relay : RouterID) (rc : RelayContact) (conn : Nat)
  | regenerate (relay : RouterID) (rc : RelayContact)
  | fetch (relay : RouterID) (rc : RelayContact)
  | connect (relay peer : RouterID) (conn : Nat)
  | disconnect (relay peer : RouterID)
  | register (relay : RouterID) (registered : List RouterID)
  | stop (relay : RouterID)

namespace Network

def start (relays : RouterID → Relay) : Network :=
  ⟨relays, [], []⟩

def handled (network : Network) (self : RouterID) (rc : RelayContact)
    (outcome : Relay × Option (List RouterID)) : Network where
  relays := Function.update network.relays self outcome.1
  broadcasts := network.broadcasts ++ if outcome.2.isSome then [(self, rc)] else []
  sent := network.sent ++ (outcome.2.getD []).map fun peer => ⟨self, peer, rc⟩

def adjust (network : Network) (self : RouterID) (change : Relay → Relay) : Network :=
  { network with relays := Function.update network.relays self (change (network.relays self)) }

def step (blake2b : Bytes → RCHash) (network : Network) : Action → Network
  | .deliver self rc conn =>
    network.handled self rc (handleGossipRc blake2b self (network.relays self) rc conn)
  | .regenerate self rc =>
    if rc.routerId = self then
      network.handled self rc (regenerateRc blake2b self (network.relays self) rc)
    else network
  | .fetch self rc => network.handled self rc (storeFetched blake2b self (network.relays self) rc)
  | .connect self peer conn =>
    network.adjust self fun relay =>
      { relay with relayConns := relay.relayConns.insertOrAssign peer conn }
  | .disconnect self peer =>
    network.adjust self fun relay => { relay with relayConns := relay.relayConns.remove peer }
  | .register self registered =>
    network.adjust self fun relay => { relay with registered := registered }
  | .stop self => network.adjust self fun relay => { relay with isStopping := true }

end Network

def Dated (rc : RelayContact) : Prop :=
  0 ≤ rc.timestamp ∧ FitsInt64 rc.timestamp

instance : DecidablePred Dated :=
  fun _ => instDecidableAnd

def DatedStore (store : RcStore) : Prop :=
  ∀ rid rc, store.knownRcs.find rid = some rc → Dated rc

/-- Whatever contact the action hands to a relay has a timestamp below `2 ^ 63` on the wire. -/
def Action.Dated : Action → Prop
  | .deliver _ rc _ => Gossip.Dated rc
  | .regenerate _ rc => Gossip.Dated rc
  | .fetch _ rc => Gossip.Dated rc
  | .connect _ _ _ => True
  | .disconnect _ _ => True
  | .register _ _ => True
  | .stop _ => True

def Spaced (before after : RcStore) : Prop :=
  ∀ rid old, before.knownRcs.find rid = some old → ∃ new, after.knownRcs.find rid = some new ∧
    (new = old ∨ old.timestamp + RelayContact.minGossipRcAge ≤ new.timestamp)

theorem Spaced.refl (store : RcStore) : Spaced store store :=
  fun _ old hold => ⟨old, hold, .inl rfl⟩

theorem Spaced.le {before after : RcStore} (h : Spaced before after) {rid : RouterID}
    {old : RelayContact} (hold : before.knownRcs.find rid = some old) :
    ∃ new, after.knownRcs.find rid = some new ∧ old.timestamp ≤ new.timestamp := by
  obtain ⟨new, hnew, hage⟩ := h rid old hold
  refine ⟨new, hnew, ?_⟩
  rcases hage with rfl | hage
  · exact le_refl _
  · rw [RelayContact.minGossipRcAge] at hage
    omega

section

variable {blake2b : Bytes → RCHash} {self : RouterID} {store : RcStore} {rc : RelayContact}

theorem newerThan_iff {rc other : RelayContact} (hrc : Dated rc) (hother : Dated other)
    (atLeast : Int) :
    rc.newerThan other atLeast = true ↔ other.timestamp + atLeast ≤ rc.timestamp := by
  rw [RelayContact.newerThan, int64_sub hrc hother, decide_eq_true_eq]
  omega

theorem putRc_cases (blake2b : Bytes → RCHash) (self : RouterID) (isServiceNode : Bool)
    (hstore : DatedStore store) (hrc : Dated rc) :
    putRc blake2b self isServiceNode store rc = (store, false, false) ∨
      (∀ old, store.knownRcs.find rc.routerId = some old →
        old.timestamp + RelayContact.minGossipRcAge ≤ rc.timestamp) ∧
      ∀ rid, (putRc blake2b self isServiceNode store rc).1.knownRcs.find rid =
        if rid = rc.routerId then some rc else store.knownRcs.find rid := by
  unfold putRc
  cases hfind : store.knownRcs.find rc.routerId with
  | none =>
    refine .inr ⟨fun old hold => absurd hold.symm (Option.some_ne_none old), fun rid => ?_⟩
    rw [knownRcs_updateRcBuckets, Table.find_emplace]
    simp only [hfind, and_true]
  | some stored =>
    dsimp only
    by_cases hnewer : rc.newerThan stored RelayContact.minGossipRcAge = true
    · refine .inr ⟨?_, fun rid => ?_⟩
      · intro old hold
        cases hold
        exact (newerThan_iff hrc (hstore _ stored hfind) _).mp hnewer
      · rw [hnewer]
        simp only [Bool.not_true, Bool.false_eq_true, if_false]
        split
        · rw [knownRcs_updateRcBuckets, Table.find_insertOrAssign]
        · rw [Table.find_insertOrAssign]
    · left
      rw [Bool.eq_false_iff.mpr hnewer]
      rfl

theorem putRc_spaced (blake2b : Bytes → RCHash) (self : RouterID) (isServiceNode : Bool)
    (hstore : DatedStore store) (hrc : Dated rc) :
    Spaced store (putRc blake2b self isServiceNode store rc).1 := by
  rcases putRc_cases blake2b self isServiceNode hstore hrc with hrefused | ⟨hage, hfind⟩
  · rw [hrefused]
    exact Spaced.refl store
  · intro rid old hold
    rw [hfind]
    by_cases hrid : rid = rc.routerId
    · rw [if_pos hrid]
      exact ⟨rc, rfl, .inr (hage old (hrid ▸ hold))⟩
    · rw [if_neg hrid]
      exact ⟨old, hold, .inl rfl⟩

theorem putRc_dated (blake2b : Bytes → RCHash) (self : RouterID) (isServiceNode : Bool)
    (hstore : DatedStore store) (hrc : Dated rc) :
    DatedStore (putRc blake2b self isServiceNode store rc).1 := by
  rcases putRc_cases blake2b self isServiceNode hstore hrc with hrefused | ⟨-, hfind⟩
  · rw [hrefused]
    exact hstore
  · intro rid new hnew
    rw [hfind] at hnew
    split at hnew
    · cases hnew
      exact hrc
    · exact hstore rid new hnew

theorem putRc_gossip {isServiceNode : Bool} (hstore : DatedStore store) (hrc : Dated rc)
    (h : (putRc blake2b self isServiceNode store rc).2.2 = true) :
    (∀ old, store.knownRcs.find rc.routerId = some old → old.timestamp < rc.timestamp) ∧
      (putRc blake2b self isServiceNode store rc).1.knownRcs.find rc.routerId = some rc := by
  rcases putRc_cases blake2b self isServiceNode hstore hrc with hrefused | ⟨hage, hfind⟩
  · rw [hrefused] at h
    exact absurd h Bool.false_ne_true
  · refine ⟨fun old hold => ?_, ?_⟩
    · have holder := hage old hold
      rw [RelayContact.minGossipRcAge] at holder
      omega
    · rw [hfind, if_pos rfl]

end

theorem nodup_gossipRc (relay : Relay) (rc : RelayContact) (sender : Option Nat) :
    (gossipRc relay rc sender).Nodup := by
  rw [gossipRc]
  split
  · exact List.nodup_nil
  · have hkeys : (relay.relayConns.entries.map fun entry => entry.1).Nodup :=
      relay.relayConns.nodupKeys
    exact hkeys.sublist (List.filter_sublist.map _)

theorem mem_keys_of_mem_gossipRc {relay : Relay} {rc : RelayContact} {sender : Option Nat}
    {peer : RouterID} (h : peer ∈ gossipRc relay rc sender) : peer ∈ relay.relayConns.keys := by
  rw [gossipRc] at h
  split at h
  · exact absurd h List.not_mem_nil
  · obtain ⟨entry, hentry, rfl⟩ := List.mem_map.mp h
    exact List.mem_map.mpr ⟨entry, List.mem_of_mem_filter hentry, rfl⟩

structure Handles (before : Relay) (rc : RelayContact) (outcome : Relay × Option (List RouterID)) :
    Prop where
  spaced : Spaced before.store outcome.1.store
  dated : DatedStore outcome.1.store
  conns : outcome.1.relayConns = before.relayConns
  newest : ∀ peers, outcome.2 = some peers →
    (∀ old, before.store.knownRcs.find rc.routerId = some old → old.timestamp < rc.timestamp) ∧
      outcome.1.store.knownRcs.find rc.routerId = some rc
  peers : ∀ peers, outcome.2 = some peers →
    peers.Nodup ∧ ∀ peer ∈ peers, peer ∈ before.relayConns.keys

section

variable (blake2b : Bytes → RCHash) (self : RouterID) {relay : Relay} {rc : RelayContact}
  (hstore : DatedStore relay.store) (hrc : Dated rc)

include hstore hrc

theorem handles_putRc (sender : Option Nat) :
    Handles relay rc
      ({ relay with store := (putRc blake2b self true relay.store rc).1 },
        if (putRc blake2b self true relay.store rc).2.2 then
          some (gossipRc { relay with store := (putRc blake2b self true relay.store rc).1 } rc
            sender)
        else none) := by
  refine ⟨putRc_spaced blake2b self true hstore hrc, putRc_dated blake2b self true hstore hrc,
    rfl, ?_, ?_⟩
  · intro peers hpeers
    by_cases hgossip : (putRc blake2b self true relay.store rc).2.2 = true
    · exact putRc_gossip hstore hrc hgossip
    · rw [if_neg hgossip] at hpeers
      exact absurd hpeers.symm (Option.some_ne_none peers)
  · intro peers hpeers
    by_cases hgossip : (putRc blake2b self true relay.store rc).2.2 = true
    · rw [if_pos hgossip] at hpeers
      cases hpeers
      exact ⟨nodup_gossipRc _ rc sender, fun peer hmem => mem_keys_of_mem_gossipRc hmem⟩
    · rw [if_neg hgossip] at hpeers
      exact absurd hpeers.symm (Option.some_ne_none peers)

omit hrc in
theorem handles_refused : Handles relay rc (relay, none) where
  spaced := Spaced.refl relay.store
  dated := hstore
  conns := rfl
  newest peers hpeers := absurd hpeers.symm (Option.some_ne_none peers)
  peers peers hpeers := absurd hpeers.symm (Option.some_ne_none peers)

theorem handles_handleGossipRc (conn : Nat) :
    Handles relay rc (handleGossipRc blake2b self relay rc conn) := by
  rw [handleGossipRc, verifyStoreGossipRc]
  by_cases hrefused : rc.routerId ∉ relay.registered ∨ rc.routerId = self
  · rw [if_pos hrefused]
    exact handles_refused hstore
  · rw [if_neg hrefused]
    exact handles_putRc blake2b self hstore hrc (some conn)

theorem handles_regenerateRc : Handles relay rc (regenerateRc blake2b self relay rc) := by
  rw [regenerateRc]
  by_cases hunregistered : self ∉ relay.registered
  · rw [if_pos hunregistered]
    exact handles_refused hstore
  · rw [if_neg hunregistered]
    exact handles_putRc blake2b self hstore hrc none

theorem handles_storeFetched : Handles relay rc (storeFetched blake2b self relay rc) where
  spaced := putRc_spaced blake2b self true hstore hrc
  dated := putRc_dated blake2b self true hstore hrc
  conns := rfl
  newest peers hpeers := absurd hpeers.symm (Option.some_ne_none peers)
  peers peers hpeers := absurd hpeers.symm (Option.some_ne_none peers)

end

theorem step_cases (blake2b : Bytes → RCHash) {network : Network} {action : Action}
    (hnetwork : ∀ id, DatedStore (network.relays id).store) (haction : action.Dated) :
    (∃ self rc outcome, Handles (network.relays self) rc outcome ∧
      network.step blake2b action = network.handled self rc outcome) ∨
    (∃ self change, network.step blake2b action = network.adjust self change ∧
      ∀ relay : Relay, (change relay).store = relay.store) ∨
    network.step blake2b action = network := by
  cases action with
  | deliver self rc conn =>
    exact .inl ⟨self, rc, _, handles_handleGossipRc _ _ (hnetwork self) haction _, rfl⟩
  | regenerate self rc =>
    rw [Network.step]
    by_cases hself : rc.routerId = self
    · rw [if_pos hself]
      exact .inl ⟨self, rc, _, handles_regenerateRc _ _ (hnetwork self) haction, rfl⟩
    · exact .inr (.inr (if_neg hself))
  | fetch self rc =>
    exact .inl ⟨self, rc, _, handles_storeFetched _ _ (hnetwork self) haction, rfl⟩
  | connect self peer conn =>
    exact .inr (.inl ⟨self, fun relay =>
      { relay with relayConns := relay.relayConns.insertOrAssign peer conn }, rfl, fun _ => rfl⟩)
  | disconnect self peer =>
    exact .inr (.inl ⟨self, fun relay =>
      { relay with relayConns := relay.relayConns.remove peer }, rfl, fun _ => rfl⟩)
  | register self registered =>
    exact .inr (.inl ⟨self, fun relay => { relay with registered := registered }, rfl,
      fun _ => rfl⟩)
  | stop self =>
    exact .inr (.inl ⟨self, fun relay => { relay with isStopping := true }, rfl, fun _ => rfl⟩)

structure Wf (network : Network) : Prop where
  dated : ∀ id, DatedStore (network.relays id).store
  once : network.broadcasts.Nodup
  remembered : ∀ self rc, (self, rc) ∈ network.broadcasts →
    ∃ stored, (network.relays self).store.knownRcs.find rc.routerId = some stored ∧
      rc.timestamp ≤ stored.timestamp
  nodup : network.sent.Nodup
  caused : ∀ message ∈ network.sent, (message.source, message.rc) ∈ network.broadcasts

theorem wf_start {relays : RouterID → Relay} (h : ∀ id, DatedStore (relays id).store) :
    Wf (Network.start relays) where
  dated := h
  once := List.nodup_nil
  remembered _ _ h := absurd h List.not_mem_nil
  nodup := List.nodup_nil
  caused _ h := absurd h List.not_mem_nil

variable {network : Network} {action : Action}

theorem step_stores (blake2b : Bytes → RCHash)
    (hnetwork : ∀ id, DatedStore (network.relays id).store) (haction : action.Dated)
    (id : RouterID) :
    Spaced (network.relays id).store ((network.step blake2b action).relays id).store ∧
      DatedStore ((network.step blake2b action).relays id).store := by
  rcases step_cases blake2b hnetwork haction with
    ⟨self, rc, outcome, hhandles, hstep⟩ | ⟨self, change, hstep, hstore⟩ | hstep
  · rw [hstep, Network.handled]
    dsimp only
    rw [Function.update_apply]
    split
    · next hid =>
      rw [hid]
      exact ⟨hhandles.spaced, hhandles.dated⟩
    · exact ⟨Spaced.refl _, hnetwork id⟩
  · rw [hstep, Network.adjust]
    dsimp only
    rw [Function.update_apply]
    split
    · next hid =>
      rw [hid, hstore]
      exact ⟨Spaced.refl _, hnetwork self⟩
    · exact ⟨Spaced.refl _, hnetwork id⟩
  · rw [hstep]
    exact ⟨Spaced.refl _, hnetwork id⟩

theorem Wf.remembered_step (h : Wf network) (blake2b : Bytes → RCHash) (haction : action.Dated)
    {self : RouterID} {rc : RelayContact} (hmem : (self, rc) ∈ network.broadcasts) :
    ∃ stored, ((network.step blake2b action).relays self).store.knownRcs.find rc.routerId =
        some stored ∧ rc.timestamp ≤ stored.timestamp := by
  obtain ⟨old, hold, hage⟩ := h.remembered self rc hmem
  obtain ⟨new, hnew, hle⟩ := (step_stores blake2b h.dated haction self).1.le hold
  exact ⟨new, hnew, le_trans hage hle⟩

theorem Wf.fresh (h : Wf network) {self : RouterID} {rc : RelayContact}
    {outcome : Relay × Option (List RouterID)} (hhandles : Handles (network.relays self) rc outcome)
    {peers : List RouterID} (hpeers : outcome.2 = some peers) :
    (self, rc) ∉ network.broadcasts := by
  intro hmem
  obtain ⟨stored, hstored, hage⟩ := h.remembered self rc hmem
  have holder := (hhandles.newest peers hpeers).1 stored hstored
  omega

theorem Wf.step (h : Wf network) (blake2b : Bytes → RCHash) (haction : action.Dated) :
    Wf (network.step blake2b action) := by
  have hremembered := fun self rc => @Wf.remembered_step network action h blake2b haction self rc
  have hdated := fun id => (step_stores blake2b h.dated haction id).2
  rcases step_cases blake2b h.dated haction with
    ⟨self, rc, outcome, hhandles, hstep⟩ | ⟨self, change, hstep, -⟩ | hstep
  · rw [hstep] at hremembered hdated ⊢
    cases hpeers : outcome.2 with
    | none =>
      simp only [Network.handled, hpeers, Option.isSome_none, Bool.false_eq_true, if_false,
        List.append_nil, Option.getD_none, List.map_nil] at hremembered hdated ⊢
      exact ⟨hdated, h.once, hremembered, h.nodup, h.caused⟩
    | some peers =>
      have hfresh := h.fresh hhandles hpeers
      obtain ⟨-, hstored⟩ := hhandles.newest peers hpeers
      obtain ⟨hnodup, -⟩ := hhandles.peers peers hpeers
      simp only [Network.handled, hpeers, Option.isSome_some, if_true, Option.getD_some]
        at hremembered hdated ⊢
      refine ⟨hdated, ?_, ?_, ?_, ?_⟩
      · exact h.once.append (List.nodup_singleton _) (by simpa using hfresh)
      · intro self' rc' hmem
        rcases List.mem_append.mp hmem with hold | hnew
        · exact hremembered self' rc' hold
        · cases List.mem_singleton.mp hnew
          dsimp only
          rw [Function.update_self]
          exact ⟨rc, hstored, le_refl _⟩
      · refine h.nodup.append (hnodup.map fun peer peer' hsame => ?_) ?_
        · exact (GossipMessage.mk.inj hsame).2.1
        · -- an earlier message for the RC would belong to an earlier broadcast of it
          intro message hold hnew
          obtain ⟨peer, -, rfl⟩ := List.mem_map.mp hnew
          exact hfresh (h.caused _ hold)
      · intro message hmem
        rcases List.mem_append.mp hmem with hold | hnew
        · exact List.mem_append_left _ (h.caused message hold)
        · obtain ⟨peer, -, rfl⟩ := List.mem_map.mp hnew
          exact List.mem_append_right _ (List.mem_singleton_self _)
  · rw [hstep] at hremembered hdated ⊢
    exact ⟨hdated, h.once, hremembered, h.nodup, h.caused⟩
  · rw [hstep]
    exact h

def ConnectedWithin (blake2b : Bytes → RCHash) (pairs : Finset (RouterID × RouterID))
    (network : Network) (actions : List Action) : Prop :=
  ∀ front back, actions = front ++ back → ∀ self peer,
    peer ∈ ((Run.run (Network.step blake2b) network front).relays self).relayConns.keys →
      (self, peer) ∈ pairs

theorem mem_sent_step {blake2b : Bytes → RCHash} {message : GossipMessage}
    (hnetwork : ∀ id, DatedStore (network.relays id).store) (haction : action.Dated)
    (h : message ∈ (network.step blake2b action).sent) :
    message ∈ network.sent ∨
      message.dest ∈ (network.relays message.source).relayConns.keys := by
  rcases step_cases blake2b hnetwork haction with
    ⟨self, rc, outcome, hhandles, hstep⟩ | ⟨self, change, hstep, -⟩ | hstep
  · rw [hstep, Network.handled] at h
    rcases List.mem_append.mp h with hold | hnew
    · exact .inl hold
    · obtain ⟨peer, hpeer, rfl⟩ := List.mem_map.mp hnew
      cases hpeers : outcome.2 with
      | none =>
        rw [hpeers] at hpeer
        exact absurd hpeer List.not_mem_nil
      | some peers =>
        rw [hpeers] at hpeer
        exact .inr ((hhandles.peers peers hpeers).2 peer hpeer)
  · rw [hstep] at h
    exact .inl h
  · rw [hstep] at h
    exact .inl h

theorem sent_within {blake2b : Bytes → RCHash} {pairs : Finset (RouterID × RouterID)}
    {actions : List Action} (hconnected : ConnectedWithin blake2b pairs network actions)
    (hnetwork : ∀ id, DatedStore (network.relays id).store)
    (hactions : ∀ action ∈ actions, action.Dated)
    (hsent : ∀ message ∈ network.sent, (message.source, message.dest) ∈ pairs) :
    ∀ message ∈ (Run.run (Network.step blake2b) network actions).sent,
      (message.source, message.dest) ∈ pairs := by
  induction actions generalizing network with
  | nil => exact hsent
  | cons action actions ih =>
    obtain ⟨haction, hactions⟩ := List.forall_mem_cons.mp hactions
    refine ih ?_ (fun id => (step_stores blake2b hnetwork haction id).2) hactions ?_
    · rintro front back rfl
      exact hconnected (action :: front) back rfl
    · intro message hmem
      rcases mem_sent_step hnetwork haction hmem with hold | hnew
      · exact hsent message hold
      · exact hconnected [] (action :: actions) rfl message.source message.dest hnew

theorem Wf.length_sent_le (h : Wf network) {pairs : Finset (RouterID × RouterID)}
    (hsent : ∀ message ∈ network.sent, (message.source, message.dest) ∈ pairs)
    (rc : RelayContact) :
    (network.sent.filter fun message => message.rc = rc).length ≤ pairs.card := by
  obtain ⟨about, habout⟩ : ∃ about, about = network.sent.filter fun message => message.rc = rc :=
    ⟨_, rfl⟩
  have hrc : ∀ message ∈ about, message ∈ network.sent ∧ message.rc = rc := by
    intro message hmem
    rw [habout, List.mem_filter, decide_eq_true_eq] at hmem
    exact hmem
  -- the ends of a message identify it among those about the RC
  have hnodup : (about.map fun message => (message.source, message.dest)).Nodup := by
    refine List.Nodup.map_on ?_ (habout ▸ h.nodup.filter _)
    rintro ⟨source, dest, first⟩ hfirst ⟨source', dest', second⟩ hsecond hsame
    obtain ⟨hsource, hdest⟩ := Prod.mk.inj hsame
    rw [GossipMessage.mk.injEq]
    exact ⟨hsource, hdest, (hrc _ hfirst).2.trans (hrc _ hsecond).2.symm⟩
  rw [← habout, ← List.length_map (f := fun message => (message.source, message.dest)),
    ← List.toFinset_card_of_nodup hnodup]
  refine Finset.card_le_card fun pair hpair => ?_
  obtain ⟨message, hmem, rfl⟩ := List.mem_map.mp (List.mem_toFinset.mp hpair)
  exact hsent message (hrc message hmem).1

structure Terminates (blake2b : Bytes → RCHash) (relays : RouterID → Relay)
    (actions : List Action) : Prop where
  once : (Run.run (Network.step blake2b) (Network.start relays) actions).broadcasts.Nodup
  caused : ∀ message ∈ (Run.run (Network.step blake2b) (Network.start relays) actions).sent,
    (message.source, message.rc) ∈
      (Run.run (Network.step blake2b) (Network.start relays) actions).broadcasts
  spaced : ∀ front action back, actions = front ++ action :: back → ∀ id,
    Spaced ((Run.run (Network.step blake2b) (Network.start relays) front).relays id).store
      ((Run.run (Network.step blake2b) (Network.start relays) (front ++ [action])).relays id).store
  bounded : ∀ pairs, ConnectedWithin blake2b pairs (Network.start relays) actions → ∀ rc,
    ((Run.run (Network.step blake2b) (Network.start relays) actions).sent.filter
      fun message => message.rc = rc).length ≤ pairs.card

theorem wf_run (blake2b : Bytes → RCHash) {actions : List Action} (h : Wf network)
    (hactions : ∀ action ∈ actions, action.Dated) :
    Wf (Run.run (Network.step blake2b) network actions) := by
  induction actions generalizing network with
  | nil => exact h
  | cons action actions ih =>
    obtain ⟨haction, hactions⟩ := List.forall_mem_cons.mp hactions
    exact ih (h.step blake2b haction) hactions

/-- With timestamps below `2 ^ 63` every relay broadcasts a contact at most once, its stored
contacts get newer by at least the minimum age, and the messages about one contact are no more than
the pairs of relays that were ever connected. -/
theorem gossip_terminates (blake2b : Bytes → RCHash) (relays : RouterID → Relay)
    (actions : List Action) (hrelays : ∀ id, DatedStore (relays id).store)
    (hactions : ∀ action ∈ actions, action.Dated) : Terminates blake2b relays actions := by
  have hwf := wf_run blake2b (wf_start hrelays) hactions
  refine ⟨hwf.once, hwf.caused, ?_, ?_⟩
  · rintro front action back rfl id
    rw [Run.run_append]
    have hfront := wf_run blake2b (wf_start hrelays) fun earlier hmem =>
      hactions earlier (List.mem_append_left _ hmem)
    exact (step_stores blake2b hfront.dated (hactions action (by simp)) id).1
  · intro pairs hconnected rc
    refine hwf.length_sent_le (sent_within hconnected hrelays hactions ?_) rc
    exact fun message hmem => absurd hmem List.not_mem_nil

def originId : RouterID :=
  .filled 32 1

def relayId : RouterID :=
  .filled 32 2

def rcOfTime (timestamp : Int) : RelayContact where
  routerId := originId
  routerVersion := (1, 1, 0)
  timestamp := timestamp
  payload := []

/-- One relay that knows the origin of the contacts and has a single other peer. -/
def lineRelays (_ : RouterID) : Relay where
  registered := [originId]
  store := RcStore.empty
  relayConns := (∅ : Table RouterID Nat).insertOrAssign (.filled 32 3) 0
  isStopping := false

def deliverAt (timestamp : Int) : Action :=
  .deliver relayId (rcOfTime timestamp) 1

theorem gossip_terminates_repeated :
    Terminates (fun _ => .zero 8) lineRelays
      (([1000, 90000, 1000, 90000] : List Int).map deliverAt) := by
  have hdated : ∀ time ∈ ([1000, 90000, 1000, 90000] : List Int), Dated (rcOfTime time) := by
    decide
  exact gossip_terminates _ lineRelays _ (fun _ _ _ h => nomatch h)
    (List.forall_mem_map.mpr hdated)

/-- Four contacts, none of them expired and each newer than the one before in 64-bit words, and the
first newer than the last: it is broadcast a second time. -/
theorem rebroadcast :
    let times : List Int := [1000, 1000 + 2 ^ 62, 1000 - 2 ^ 63, 1000 - 2 ^ 62, 1000]
    (∀ time ∈ times, (rcOfTime time).isExpired 2000000 = false) ∧
      ¬Terminates (fun _ => .zero 8) lineRelays (times.map deliverAt) := by
  refine ⟨by decide +kernel, fun h => ?_⟩
  have honce := h.once
  revert honce
  decide +kernel

end SessionRouter.Gossip

import SessionRouter.Link.RelayConns

/-!
# Close events
-/

namespace SessionRouter.Link

open Lib

inductive Alpn where
  | bootstrap
  | relay
  | client
  | other
  deriving DecidableEq

/-- What `on_conn_closed` takes from a connection. -/
structure CloseEvent (Conn : Type) where
  conn : Conn
  alpn : Alpn
  remote : Option RouterID
  wasInbound : Bool
  now : Nat

structure LinkTables (Conn : Type) extends ConnTable Conn where
  isServiceNode : Bool
  unreachableSince : Table RouterID Nat
  clientConns : Table RouterID Conn
  inboundClients : Table Conn Unit

variable {Conn : Type} [DecidableEq Conn]

def RelayConn.Holds (rc : RelayConn Conn) (conn : Conn) : Prop :=
  rc.inbound = some conn ∨ rc.outbound = some conn

instance (rc : RelayConn Conn) (conn : Conn) : Decidable (rc.Holds conn) :=
  inferInstanceAs (Decidable (_ ∨ _))

namespace LinkTables

def noteConnectFailure (tables : LinkTables Conn) (relay : RouterID) (now : Nat) :
    LinkTables Conn :=
  if tables.isServiceNode && (tables.relayConns.find relay).isNone then
    { tables with unreachableSince := tables.unreachableSince.emplace relay now }
  else tables

def relayConnClosed (tables : LinkTables Conn) (rid : RouterID) (conn : Conn) (now : Nat) :
    LinkTables Conn :=
  let closed := { tables with toConnTable := (tables.toConnTable.onConnClosed rid conn true).1 }
  if (tables.relayConns.find rid).any fun rc => rc.Holds conn then closed
  else if (tables.pendingOutbound.find rid).isSome then closed.noteConnectFailure rid now
  else closed

def clientConnClosed (tables : LinkTables Conn) (event : CloseEvent Conn) :
    Option (LinkTables Conn) :=
  if tables.isServiceNode then
    if event.wasInbound then
      some { tables with inboundClients := tables.inboundClients.remove event.conn }
    else none
  else
    match event.wasInbound, event.remote with
    | false, some rid =>
      if tables.clientConns.find rid = some event.conn then
        some { tables with clientConns := tables.clientConns.remove rid }
      else some tables
    | _, _ => none

def unestablishedClosed (tables : LinkTables Conn) (event : CloseEvent Conn) :
    Option (LinkTables Conn) :=
  match event.wasInbound, event.remote with
  | false, some rid =>
    if tables.pendingOutbound.find rid = some event.conn then
      let closed :=
        { tables with toConnTable := (tables.toConnTable.onConnClosed rid event.conn false).1 }
      some (closed.noteConnectFailure rid event.now)
    else some tables
  | _, _ => none

def onConnClosed (tables : LinkTables Conn) (event : CloseEvent Conn) : Option (LinkTables Conn) :=
  match event.alpn with
  | .bootstrap => if event.wasInbound then some tables else none
  | .relay =>
    match event.remote with
    | none => some tables
    | some rid =>
      if tables.isServiceNode then some (tables.relayConnClosed rid event.conn event.now)
      else none
  | .client => tables.clientConnClosed event
  | .other => tables.unestablishedClosed event

def EntryOnlyLoses (conn : Conn) (before after : Option (RelayConn Conn)) : Prop :=
  match before, after with
  | none, none => True
  | none, some _ => False
  | some rc, none => rc.Holds conn ∧ ∀ isInbound, rc.direction isInbound = none ∨
      rc.direction isInbound = some conn
  | some rc, some rc' => ∀ isInbound, rc'.direction isInbound = rc.direction isInbound ∨
      rc'.direction isInbound = none ∧ rc.direction isInbound = some conn

structure OnlyLoses (conn : Conn) (before after : LinkTables Conn) : Prop where
  relayConns : ∀ rid, EntryOnlyLoses conn (before.relayConns.find rid) (after.relayConns.find rid)
  clientConns : ∀ rid, after.clientConns.find rid = before.clientConns.find rid ∨
    after.clientConns.find rid = none ∧ before.clientConns.find rid = some conn
  inboundClients : ∀ other, after.inboundClients.find other = before.inboundClients.find other ∨
    after.inboundClients.find other = none ∧ other = conn
  pendingOutbound : ∀ rid, after.pendingOutbound.find rid = before.pendingOutbound.find rid ∨
    after.pendingOutbound.find rid = none ∧ before.pendingOutbound.find rid = some conn
  unreachableSince : ∀ rid, after.unreachableSince.find rid = before.unreachableSince.find rid ∨
    before.pendingOutbound.find rid = some conn

def MistakesPending (tables : LinkTables Conn) (event : CloseEvent Conn) : Prop :=
  event.alpn = .relay ∧ tables.isServiceNode = true ∧ ∃ rid, event.remote = some rid ∧
    (∀ rc, tables.relayConns.find rid = some rc → ¬ rc.Holds event.conn) ∧
    ((∃ rc, tables.relayConns.find rid = some rc ∧ rc.conn = none) ∨
      ∃ pending, tables.pendingOutbound.find rid = some pending ∧ pending ≠ event.conn)

end LinkTables

namespace RelayConn

variable {rc : RelayConn Conn} {conn : Conn}

def without (rc : RelayConn Conn) (conn : Conn) : RelayConn Conn :=
  (ConnTable.closeIf (ConnTable.closeIf rc true conn).1 false conn).1

theorem without_of_not_holds (h : ¬ rc.Holds conn) : rc.without conn = rc := by
  obtain ⟨hinbound, houtbound⟩ := not_or.mp h
  unfold without ConnTable.closeIf
  simp [direction, hinbound, houtbound]

theorem direction_without (isInbound : Bool) :
    (rc.without conn).direction isInbound =
      if rc.direction isInbound = some conn then none else rc.direction isInbound := by
  obtain ⟨wins, inbound, outbound, preferred⟩ := rc
  by_cases hin : inbound = some conn <;> by_cases hout : outbound = some conn <;>
    cases isInbound <;> simp [without, ConnTable.closeIf, direction, close, setDirection, hin, hout]

theorem Holds.direction_without_eq_none (h : rc.Holds conn) (hconn : (rc.without conn).conn = none)
    (isInbound : Bool) : (rc.without conn).direction isInbound = none := by
  obtain ⟨wins, inbound, outbound, preferred⟩ := rc
  by_cases hin : inbound = some conn <;> by_cases hout : outbound = some conn <;>
    cases isInbound <;>
    simp_all [without, ConnTable.closeIf, direction, close, setDirection, Holds]

theorem found_iff_holds : ((ConnTable.closeIf rc true conn).2.2 ||
      (ConnTable.closeIf (ConnTable.closeIf rc true conn).1 false conn).2.2) = true ↔
      rc.Holds conn := by
  obtain ⟨wins, inbound, outbound, preferred⟩ := rc
  by_cases hin : inbound = some conn <;> by_cases hout : outbound = some conn <;>
    simp [ConnTable.closeIf, direction, close, setDirection, Holds, hin, hout]

end RelayConn

namespace ConnTable

variable {table : ConnTable Conn} {rid : RouterID} {conn : Conn}

theorem find_relayConns_onConnClosed (other : RouterID) :
    (table.onConnClosed rid conn true).1.relayConns.find other =
      if other = rid then
        (table.relayConns.find rid).bind fun rc =>
          if (rc.without conn).conn.isNone then none else some (rc.without conn)
      else table.relayConns.find other := by
  unfold onConnClosed
  rw [if_pos rfl]
  cases hfind : table.relayConns.find rid with
  | none =>
    dsimp only
    split
    · next heq => rw [heq, hfind]; rfl
    · rfl
  | some rc =>
    simp only [apply_ite Prod.fst, apply_ite ConnTable.relayConns, ite_self, Option.bind_some]
    change (if (rc.without conn).conn.isNone then _ else _ : Table _ _).find other = _
    split
    · rw [Table.find_remove]
    · rw [Table.find_insertOrAssign]
      rfl

theorem find_pendingOutbound_onConnClosed (other : RouterID) :
    (table.onConnClosed rid conn true).1.pendingOutbound.find other =
      if other = rid ∧ ∀ rc, table.relayConns.find rid = some rc → ¬ rc.Holds conn then none
      else table.pendingOutbound.find other := by
  unfold onConnClosed
  rw [if_pos rfl]
  cases hfind : table.relayConns.find rid with
  | none => simp [Table.find_remove]
  | some rc =>
    simp only [Option.some.injEq, forall_eq']
    by_cases hholds : rc.Holds conn
    · simp only [RelayConn.found_iff_holds.mpr hholds, if_true, hholds, not_true_eq_false,
        and_false, if_false]
    · simp only [mt RelayConn.found_iff_holds.mp hholds, if_false, hholds, not_false_eq_true,
        and_true, Table.find_remove, Bool.false_eq_true]

end ConnTable

namespace LinkTables

variable {tables : LinkTables Conn} {conn : Conn} {rid : RouterID}

omit [DecidableEq Conn] in
theorem EntryOnlyLoses.refl (entry : Option (RelayConn Conn)) :
    EntryOnlyLoses conn entry entry := by
  cases entry with
  | none => trivial
  | some rc => exact fun _ => .inl rfl

theorem OnlyLoses.refl (tables : LinkTables Conn) : OnlyLoses conn tables tables where
  relayConns _ := .refl _
  clientConns _ := .inl rfl
  inboundClients _ := .inl rfl
  pendingOutbound _ := .inl rfl
  unreachableSince _ := .inl rfl

variable {event : CloseEvent Conn} {after : LinkTables Conn} (now : Nat)

omit [DecidableEq Conn] in
@[simp] theorem toConnTable_noteConnectFailure :
    (tables.noteConnectFailure rid now).toConnTable = tables.toConnTable := by
  unfold noteConnectFailure
  split
  · rfl
  · rfl

omit [DecidableEq Conn] in
theorem find_unreachableSince_noteConnectFailure {other : RouterID}
    (h : other ≠ rid) :
    (tables.noteConnectFailure rid now).unreachableSince.find other =
      tables.unreachableSince.find other := by
  unfold noteConnectFailure
  split
  · rw [Table.find_emplace, if_neg fun hboth => h hboth.1]
  · rfl

omit [DecidableEq Conn] in
theorem frame_noteConnectFailure :
    (tables.noteConnectFailure rid now).clientConns = tables.clientConns ∧
      (tables.noteConnectFailure rid now).inboundClients = tables.inboundClients := by
  unfold noteConnectFailure
  split
  · exact ⟨rfl, rfl⟩
  · exact ⟨rfl, rfl⟩

theorem onlyLoses_unestablished (hpending : tables.pendingOutbound.find rid = some conn)
    (now : Nat) :
    OnlyLoses conn tables ({ tables with
      toConnTable := (tables.toConnTable.onConnClosed rid conn false).1 }.noteConnectFailure
        rid now) := by
  have hclosed : (tables.toConnTable.onConnClosed rid conn false).1 =
      { tables.toConnTable with pendingOutbound := tables.pendingOutbound.remove rid } := by
    simp [ConnTable.onConnClosed, hpending]
  rw [hclosed]
  refine ⟨fun other => ?_, fun other => .inl ?_, fun other => .inl ?_, fun other => ?_,
    fun other => ?_⟩
  · rw [toConnTable_noteConnectFailure]
    exact .refl _
  · rw [(frame_noteConnectFailure now).1]
  · rw [(frame_noteConnectFailure now).2]
  · rw [toConnTable_noteConnectFailure]
    dsimp only
    rw [Table.find_remove]
    by_cases heq : other = rid
    · rw [if_pos heq, heq]
      exact .inr ⟨rfl, hpending⟩
    · rw [if_neg heq]
      exact .inl rfl
  · by_cases heq : other = rid
    · exact .inr (heq ▸ hpending)
    · exact .inl (find_unreachableSince_noteConnectFailure now heq)

theorem onlyLoses_unestablishedClosed
    (h : tables.unestablishedClosed event = some after) : OnlyLoses event.conn tables after := by
  unfold unestablishedClosed at h
  split at h
  · split at h
    · next hpending =>
      cases h
      exact onlyLoses_unestablished hpending _
    · cases h
      exact .refl _
  · cases h

theorem onlyLoses_clientConnClosed
    (h : tables.clientConnClosed event = some after) : OnlyLoses event.conn tables after := by
  unfold clientConnClosed at h
  split at h
  · split at h
    · cases h
      refine { OnlyLoses.refl tables with inboundClients := fun other => ?_ }
      rw [Table.find_remove]
      by_cases heq : other = event.conn
      · exact .inr ⟨if_pos heq, heq⟩
      · exact .inl (if_neg heq)
    · cases h
  · split at h
    · next rid _ hremote =>
      split at h
      · next hfind =>
        cases h
        refine { OnlyLoses.refl tables with clientConns := fun other => ?_ }
        rw [Table.find_remove]
        by_cases heq : other = rid
        · exact .inr ⟨if_pos heq, heq ▸ hfind⟩
        · exact .inl (if_neg heq)
      · cases h
        exact .refl _
    · cases h

theorem relayConnClosed_of_holds {rc : RelayConn Conn}
    (hfind : tables.relayConns.find rid = some rc)
    (hholds : rc.Holds conn) (now : Nat) :
    tables.relayConnClosed rid conn now =
      { tables with toConnTable := (tables.toConnTable.onConnClosed rid conn true).1 } := by
  unfold relayConnClosed
  rw [hfind, if_pos (by simpa using hholds)]

theorem toConnTable_relayConnClosed : (tables.relayConnClosed rid conn now).toConnTable =
      (tables.toConnTable.onConnClosed rid conn true).1 := by
  unfold relayConnClosed
  split
  · rfl
  · split
    · rw [toConnTable_noteConnectFailure]
    · rfl

theorem onlyLoses_of_holds {rc : RelayConn Conn} (hfind : tables.relayConns.find rid = some rc)
    (hholds : rc.Holds conn) (now : Nat) :
    OnlyLoses conn tables (tables.relayConnClosed rid conn now) := by
  rw [relayConnClosed_of_holds hfind hholds]
  refine { OnlyLoses.refl tables with
    relayConns := fun other => ?_
    pendingOutbound := fun other => .inl ?_
    unreachableSince := fun _ => .inl rfl }
  · rw [ConnTable.find_relayConns_onConnClosed]
    by_cases heq : other = rid
    · rw [if_pos heq, heq, hfind, Option.bind_some]
      split
      · next hnone =>
        refine ⟨hholds, fun isInbound => ?_⟩
        have hempty := hholds.direction_without_eq_none (Option.isNone_iff_eq_none.mp hnone)
          isInbound
        rw [RelayConn.direction_without] at hempty
        split at hempty
        · next hsome => exact .inr hsome
        · exact .inl hempty
      · intro isInbound
        rw [RelayConn.direction_without]
        split
        · next hsome => exact .inr ⟨rfl, hsome⟩
        · exact .inl rfl
    · rw [if_neg heq]
      exact .refl _
  · rw [ConnTable.find_pendingOutbound_onConnClosed, if_neg fun h => h.2 rc hfind hholds]

theorem onlyLoses_of_not_holds
    (hmissing : ∀ rc, tables.relayConns.find rid = some rc → ¬ rc.Holds conn)
    (hentry : ∀ rc, tables.relayConns.find rid = some rc → rc.conn ≠ none)
    (hpending : ∀ pending, tables.pendingOutbound.find rid = some pending → pending = conn)
    (now : Nat) : OnlyLoses conn tables (tables.relayConnClosed rid conn now) := by
  have hframe : (tables.relayConnClosed rid conn now).clientConns = tables.clientConns ∧
      (tables.relayConnClosed rid conn now).inboundClients = tables.inboundClients := by
    unfold relayConnClosed
    split
    · exact ⟨rfl, rfl⟩
    · split
      · exact frame_noteConnectFailure now
      · exact ⟨rfl, rfl⟩
  refine ⟨fun other => ?_, fun other => .inl ?_, fun other => .inl ?_, fun other => ?_,
    fun other => ?_⟩
  · rw [toConnTable_relayConnClosed, ConnTable.find_relayConns_onConnClosed]
    by_cases heq : other = rid
    · rw [if_pos heq, heq]
      cases hfind : tables.relayConns.find rid with
      | none => trivial
      | some rc =>
        rw [Option.bind_some, RelayConn.without_of_not_holds (hmissing rc hfind),
          if_neg (mt Option.isNone_iff_eq_none.mp (hentry rc hfind))]
        exact .refl _
    · rw [if_neg heq]
      exact .refl _
  · rw [hframe.1]
  · rw [hframe.2]
  · rw [toConnTable_relayConnClosed, ConnTable.find_pendingOutbound_onConnClosed]
    by_cases heq : other = rid
    · rw [if_pos ⟨heq, hmissing⟩, heq]
      cases hfind : tables.pendingOutbound.find rid with
      | none => exact .inl rfl
      | some pending => exact .inr ⟨rfl, congrArg some (hpending pending hfind)⟩
    · rw [if_neg fun h => heq h.1]
      exact .inl rfl
  · unfold relayConnClosed
    split
    · exact .inl rfl
    · split
      · next hsome =>
        obtain ⟨pending, hfind⟩ := Option.isSome_iff_exists.mp hsome
        by_cases heq : other = rid
        · rw [heq, hfind, hpending pending hfind]
          exact .inr rfl
        · exact .inl (find_unreachableSince_noteConnectFailure now heq)
      · exact .inl rfl

theorem onlyLoses_relayConnClosed_iff :
    OnlyLoses conn tables (tables.relayConnClosed rid conn now) ↔
      ¬ ((∀ rc, tables.relayConns.find rid = some rc → ¬ rc.Holds conn) ∧
        ((∃ rc, tables.relayConns.find rid = some rc ∧ rc.conn = none) ∨
          ∃ pending, tables.pendingOutbound.find rid = some pending ∧ pending ≠ conn)) := by
  constructor
  · rintro honly ⟨hmissing, ⟨rc, hfind, hconn⟩ | ⟨pending, hfind, hother⟩⟩
    · have hentry := honly.relayConns rid
      rw [toConnTable_relayConnClosed, ConnTable.find_relayConns_onConnClosed, if_pos rfl, hfind,
        Option.bind_some, RelayConn.without_of_not_holds (hmissing rc hfind), hconn] at hentry
      exact hmissing rc hfind hentry.1
    · have hentry := honly.pendingOutbound rid
      rw [toConnTable_relayConnClosed, ConnTable.find_pendingOutbound_onConnClosed,
        if_pos ⟨rfl, hmissing⟩, hfind] at hentry
      rcases hentry with hkept | ⟨-, hown⟩
      · cases hkept
      · exact hother (Option.some.inj hown)
  · intro hclean
    by_cases hholds : ∃ rc, tables.relayConns.find rid = some rc ∧ rc.Holds conn
    · obtain ⟨rc, hfind, hholds⟩ := hholds
      exact onlyLoses_of_holds hfind hholds now
    · have hmissing : ∀ rc, tables.relayConns.find rid = some rc → ¬ rc.Holds conn :=
        fun rc hfind hrc => hholds ⟨rc, hfind, hrc⟩
      refine onlyLoses_of_not_holds hmissing (fun rc hfind hconn => ?_)
        (fun pending hfind => ?_) now
      · exact hclean ⟨hmissing, .inl ⟨rc, hfind, hconn⟩⟩
      · by_contra hother
        exact hclean ⟨hmissing, .inr ⟨pending, hfind, hother⟩⟩

/-- A close event affects its own connection only, exactly if it is not one of a relay's
connection that is in neither direction of the relay's entry while another connection to that
relay is pending or the entry has no preferred connection. -/
theorem onConnClosed_onlyLoses_iff (tables : LinkTables Conn) (event : CloseEvent Conn) :
    (∀ after, tables.onConnClosed event = some after → OnlyLoses event.conn tables after) ↔
      ¬ tables.MistakesPending event := by
  unfold onConnClosed MistakesPending
  cases halpn : event.alpn with
  | bootstrap =>
    refine iff_of_true (fun after hafter => ?_) fun h => absurd h.1 (by decide)
    dsimp only at hafter
    split at hafter
    · cases hafter
      exact .refl _
    · cases hafter
  | relay =>
    cases hremote : event.remote with
    | none =>
      refine iff_of_true (fun after hafter => ?_) fun ⟨_, _, rid, hrid, _⟩ => by cases hrid
      cases hafter
      exact .refl _
    | some rid =>
      cases hnode : tables.isServiceNode with
      | false => exact iff_of_true (fun after hafter => by cases hafter) (by simp)
      | true =>
        simp only [if_true, Option.some.injEq, forall_eq', true_and, exists_eq_left']
        exact onlyLoses_relayConnClosed_iff event.now
  | client =>
    exact iff_of_true (fun after hafter => onlyLoses_clientConnClosed hafter)
      fun h => absurd h.1 (by decide)
  | other =>
    exact iff_of_true (fun after hafter => onlyLoses_unestablishedClosed hafter)
      fun h => absurd h.1 (by decide)

theorem onConnClosed_replaced_drops_pending :
    ∃ table : ConnTable Nat, ConnTable.start.handleAll (ConnTable.ridOf 1)
        [.connect (ConnTable.ridOf 2) 0, .inbound (ConnTable.ridOf 2) 1 0,
          .inbound (ConnTable.ridOf 2) 2 10] = some table ∧
      table.pendingOutbound.find (ConnTable.ridOf 2) = some 0 ∧
      ∃ after, (LinkTables.mk table true ∅ ∅ ∅).onConnClosed
          ⟨1, .relay, some (ConnTable.ridOf 2), true, 20⟩ = some after ∧
        after.pendingOutbound.find (ConnTable.ridOf 2) = none ∧
        ¬ OnlyLoses 1 (LinkTables.mk table true ∅ ∅ ∅) after := by
  refine ⟨_, rfl, by decide +kernel, _, rfl, by decide +kernel, fun honly => ?_⟩
  rcases honly.pendingOutbound (ConnTable.ridOf 2) with hkept | ⟨-, hown⟩
  · revert hkept
    decide +kernel
  · revert hown
    decide +kernel

end LinkTables
end SessionRouter.Link

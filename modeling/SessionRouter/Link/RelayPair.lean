import SessionRouter.Link.RelayConns

/-!
# Two relays that connect to each other
-/

namespace SessionRouter.Link

open Lib

namespace ConnTable

variable {Conn : Type} {me rid : RouterID} {table after : ConnTable Conn}

def Holds (table : ConnTable Conn) (rid : RouterID) (isInbound : Bool) (conn : Conn) : Prop :=
  ∃ rc, table.relayConns.find rid = some rc ∧ rc.direction isInbound = some conn

/-- Nothing is held or pending that was not before. -/
structure Fewer (after table : ConnTable Conn) : Prop where
  holds : ∀ rid isInbound conn, after.Holds rid isInbound conn → table.Holds rid isInbound conn
  pending : ∀ rid conn, after.pendingOutbound.find rid = some conn →
    table.pendingOutbound.find rid = some conn

theorem Fewer.refl (table : ConnTable Conn) : Fewer table table := ⟨fun _ _ _ => id, fun _ _ => id⟩

theorem Fewer.trans {last : ConnTable Conn} (h : Fewer last after) (h' : Fewer after table) :
    Fewer last table :=
  ⟨fun rid isInbound conn hlast => h'.holds _ _ _ (h.holds rid isInbound conn hlast),
    fun rid conn hlast => h'.pending _ _ (h.pending rid conn hlast)⟩

variable {rc : RelayConn Conn} {other : RouterID} {isInbound : Bool} {conn : Conn}

theorem holds_insertOrAssign {new : RelayConn Conn}
    (hfind : table.relayConns.find rid = some rc)
    (hnew : ∀ isInbound conn, new.direction isInbound = some conn →
      rc.direction isInbound = some conn)
    (hconns : after.relayConns = table.relayConns.insertOrAssign rid new)
    (h : after.Holds other isInbound conn) : table.Holds other isInbound conn := by
  obtain ⟨found, hfound, hdirection⟩ := h
  rw [hconns, Table.find_insertOrAssign] at hfound
  split at hfound
  next heq =>
    cases hfound
    exact ⟨rc, heq ▸ hfind, hnew isInbound conn hdirection⟩
  next => exact ⟨found, hfound, hdirection⟩

theorem holds_remove (hconns : after.relayConns = table.relayConns.remove rid)
    (h : after.Holds other isInbound conn) : table.Holds other isInbound conn := by
  obtain ⟨found, hfound, hdirection⟩ := h
  rw [hconns] at hfound
  exact ⟨found, Table.find_of_find_remove hfound, hdirection⟩

theorem direction_of_close {closed : Bool} {errcode : Nat}
    (h : (rc.close closed errcode).1.direction isInbound = some conn) :
    rc.direction isInbound = some conn := by
  rw [RelayConn.direction_close] at h
  split at h
  · cases h
  · exact h

theorem direction_of_closeIf [DecidableEq Conn] {closed : Bool} {target : Conn}
    (h : (closeIf rc closed target).1.direction isInbound = some conn) :
    rc.direction isInbound = some conn := by
  unfold closeIf at h
  split at h
  · exact direction_of_close h
  · exact h

theorem fewer_onConnClosed [DecidableEq Conn] (table : ConnTable Conn) (rid : RouterID)
    (conn : Conn) (negotiated : Bool) :
    Fewer (table.onConnClosed rid conn negotiated).1 table := by
  have hpending : ∀ other target, (table.pendingOutbound.remove rid).find other = some target →
      table.pendingOutbound.find other = some target :=
    fun _ _ => Table.find_of_find_remove
  unfold onConnClosed
  cases negotiated with
  | false =>
    rw [if_neg (by decide)]
    split
    · exact ⟨fun _ _ _ => id, hpending⟩
    · exact Fewer.refl table
  | true =>
    rw [if_pos rfl]
    cases hfind : table.relayConns.find rid with
    | none => exact ⟨fun _ _ _ => id, hpending⟩
    | some rc =>
      have hdirection : ∀ isInbound target,
          (closeIf (closeIf rc true conn).1 false conn).1.direction isInbound = some target →
            rc.direction isInbound = some target :=
        fun _ _ h => direction_of_closeIf (direction_of_closeIf h)
      -- the tables that remain, whichever entry has been written back
      have hholds : ∀ after : ConnTable Conn, after.relayConns =
          (if (closeIf (closeIf rc true conn).1 false conn).1.conn.isNone then
            table.relayConns.remove rid
          else table.relayConns.insertOrAssign rid
            (closeIf (closeIf rc true conn).1 false conn).1) →
          ∀ other isInbound target, after.Holds other isInbound target →
            table.Holds other isInbound target := by
        intro after hafter other isInbound target
        split at hafter
        · exact holds_remove hafter
        · exact holds_insertOrAssign hfind hdirection hafter
      dsimp only
      split
      · exact ⟨hholds _ rfl, fun _ _ => id⟩
      · exact ⟨hholds _ rfl, hpending⟩

theorem fewer_withoutLoser (hfind : table.relayConns.find rid = some rc) :
    Fewer (table.withoutLoser rid rc) table :=
  ⟨fun _ _ _ => holds_insertOrAssign hfind (fun _ _ => direction_of_close) rfl, fun _ _ => id⟩

theorem fewer_dropDeregged (handled : Handled Conn) (now : Nat) (registered : RouterID → Bool)
    (dead : Sigma fun _ : RouterID => Nat) :
    Fewer (dropDeregged now registered handled dead).1 handled.1 := by
  unfold dropDeregged
  dsimp only
  split
  · exact Fewer.refl _
  split
  · exact ⟨fun _ _ _ => id, fun _ _ => id⟩
  cases handled.1.relayConns.find dead.1 with
  | none => exact ⟨fun _ _ _ => id, fun _ _ => id⟩
  | some rc => exact ⟨fun _ _ _ => holds_remove rfl, fun _ _ => Table.find_of_find_remove⟩

theorem fewer_checkDereggedConns (table : ConnTable Conn) (now : Nat)
    (registered : RouterID → Bool) : Fewer (table.checkDereggedConns now registered).1 table := by
  have hloop : ∀ (dead : List (Sigma fun _ : RouterID => Nat)) (handled : Handled Conn),
      Fewer (dead.foldl (dropDeregged now registered) handled).1 handled.1 := by
    intro dead
    induction dead with
    | nil => exact fun handled => Fewer.refl _
    | cons entry dead ih =>
      exact fun handled => (ih _).trans (fewer_dropDeregged handled now registered entry)
  have hfewer := hloop table.pendingDead.entries (table, [])
  exact ⟨hfewer.holds, hfewer.pending⟩

structure ClosedLoser (table after : ConnTable Conn) (closing : Closing Conn) (rid : RouterID)
    (rc : RelayConn Conn) : Prop where
  find : table.relayConns.find rid = some rc
  closing_eq : rc.direction (!rc.inboundWins) = some closing.conn
  winner : ∃ conn, rc.direction rc.inboundWins = some conn ∧
    after.Holds rid rc.inboundWins conn

variable {closing : Closing Conn}

theorem closings_closeRedundant_rc (h : closing ∈ rc.closeRedundant.2) :
    rc.direction (!rc.inboundWins) = some closing.conn := by
  unfold RelayConn.closeRedundant RelayConn.close at h
  cases hdirection : rc.direction (!rc.inboundWins) with
  | none =>
    rw [hdirection] at h
    cases h
  | some loser =>
    rw [hdirection] at h
    rw [List.mem_singleton.mp h]

theorem inboundWins_closeRedundant (rc : RelayConn Conn) :
    rc.closeRedundant.1.inboundWins = rc.inboundWins :=
  RelayConn.inboundWins_close _ _

theorem direction_closeRedundant (rc : RelayConn Conn) (isInbound : Bool) :
    rc.closeRedundant.1.direction isInbound =
      if isInbound = !rc.inboundWins then none else rc.direction isInbound :=
  RelayConn.direction_close _ _ _

theorem ClosedLoser.of_withoutLoser {last : ConnTable Conn} {found : RelayConn Conn}
    (h : ClosedLoser (table.withoutLoser rid rc) last closing other found) :
    ClosedLoser table last closing other found := by
  refine ⟨?_, h.closing_eq, h.winner⟩
  have hfind := h.find
  rw [find_withoutLoser] at hfind
  split at hfind
  · cases hfind
    -- this entry has no loser any more
    have hgone := h.closing_eq
    rw [inboundWins_closeRedundant, direction_closeRedundant, if_pos rfl] at hgone
    cases hgone
  · exact hfind

variable {handled : Handled Conn}

theorem closeRedundant_loop_closings {rids : List RouterID} (hnodup : rids.Nodup)
    {last : Handled Conn} (hloop : rids.foldlM closeRedundantOne handled = some last) :
    (∀ rid, rid ∉ rids → last.1.relayConns.find rid = handled.1.relayConns.find rid) ∧
      (∀ closing ∈ last.2, closing ∈ handled.2 ∨
        ∃ rid rc, ClosedLoser handled.1 last.1 closing rid rc) ∧
      Fewer last.1 handled.1 := by
  induction rids generalizing handled with
  | nil =>
    cases hloop
    exact ⟨fun _ _ => rfl, fun _ => Or.inl, Fewer.refl _⟩
  | cons rid rids ih =>
    obtain ⟨hfresh, hnodup⟩ := List.nodup_cons.mp hnodup
    rw [List.foldlM_cons] at hloop
    cases hfind : handled.1.relayConns.find rid with
    | none =>
      rw [closeRedundantOne, hfind] at hloop
      cases hloop
    | some rc =>
      rw [closeRedundantOne, hfind] at hloop
      dsimp only at hloop
      split at hloop
      next hboth =>
        obtain ⟨hkept, hclosings, hfewer⟩ := ih hnodup hloop
        refine ⟨?_, ?_, hfewer.trans (fewer_withoutLoser hfind)⟩
        · intro other hother
          rw [List.mem_cons, not_or] at hother
          rw [hkept other hother.2, find_withoutLoser, if_neg hother.1]
        · intro closing hclosing
          rcases hclosings closing hclosing with hmem | ⟨other, found, hloser⟩
          · rcases List.mem_append.mp hmem with hbefore | hnow
            · exact Or.inl hbefore
            · have hwinner : (rc.direction rc.inboundWins).isSome := by
                rw [Bool.and_eq_true] at hboth
                exact ((RelayConn.both_iff rc.inboundWins).mp hboth).1
              obtain ⟨conn, hconn⟩ := Option.isSome_iff_exists.mp hwinner
              have hlast : last.1.relayConns.find rid = some rc.closeRedundant.1 := by
                rw [hkept rid hfresh, find_withoutLoser, if_pos rfl]
              refine Or.inr ⟨rid, rc, hfind, closings_closeRedundant_rc hnow, conn, hconn,
                rc.closeRedundant.1, hlast, ?_⟩
              rw [direction_closeRedundant, if_neg (by simp), hconn]
          · exact Or.inr ⟨other, found, hloser.of_withoutLoser⟩
      next => cases hloop

variable {now : Nat}

theorem closeRedundant_closings (h : table.closeRedundant now = some handled) :
    (∀ closing ∈ handled.2, ∃ rid rc, ClosedLoser table handled.1 closing rid rc) ∧
      Fewer handled.1 table := by
  obtain ⟨-, hclosings, hfewer⟩ := closeRedundant_loop_closings (table.nodup_lingered now) h
  exact ⟨fun closing hmem => (hclosings closing hmem).resolve_left List.not_mem_nil, hfewer⟩

theorem holds_connected (h : table.connected me rid conn isInbound now = some handled)
    {direction : Bool} {held : Conn} (hholds : handled.1.Holds other direction held) :
    table.Holds other direction held ∨ other = rid ∧ direction = isInbound ∧ held = conn := by
  unfold connected at h
  obtain ⟨rc, hrc, heq⟩ := Option.map_eq_some_iff.mp h
  subst heq
  obtain ⟨found, hfound, hdirection⟩ := hholds
  dsimp only at hfound
  rw [Table.find_insertOrAssign] at hfound
  split at hfound
  next hother =>
    cases hfound
    rw [RelayConn.direction_setConn] at hdirection
    split at hdirection
    next hsame => exact Or.inr ⟨hother, hsame, (Option.some.inj hdirection).symm⟩
    next =>
      -- the other direction was there before, so the entry is not a new one
      left
      unfold emplaced at hrc
      cases hfind : table.relayConns.find rid with
      | none =>
        rw [hfind] at hrc
        cases hrc
        cases direction <;> cases hdirection
      | some old =>
        rw [hfind] at hrc
        dsimp only at hrc
        split at hrc
        · cases hrc
          exact ⟨_, hother ▸ hfind, hdirection⟩
        · cases hrc
  next => exact Or.inl ⟨found, hfound, hdirection⟩

theorem errcode_setConn (h : closing ∈ (rc.setConn conn isInbound).2) : closing.errcode = 0 := by
  have hclosings : (rc.setConn conn isInbound).2 =
      (rc.direction isInbound).toList.map fun old => ⟨old, 0⟩ := by
    obtain ⟨wins, inbound, outbound, conn'⟩ := rc
    cases isInbound <;> cases wins <;> cases inbound <;> cases outbound <;> rfl
  rw [hclosings] at h
  obtain ⟨old, -, rfl⟩ := List.mem_map.mp h
  rfl

theorem errcode_connected (h : table.connected me rid conn isInbound now = some handled)
    (hmem : closing ∈ handled.2) : closing.errcode = 0 := by
  unfold connected at h
  obtain ⟨rc, -, heq⟩ := Option.map_eq_some_iff.mp h
  subst heq
  exact errcode_setConn hmem

theorem errcode_onOutboundConn (h : table.onOutboundConn me rid now = some handled)
    (hmem : closing ∈ handled.2) : closing.errcode = 0 := by
  unfold onOutboundConn at h
  cases hpending : table.pendingOutbound.find rid with
  | none =>
    rw [hpending] at h
    cases h
    cases hmem
  | some conn =>
    rw [hpending] at h
    obtain ⟨connected, hconnected, heq⟩ := Option.map_eq_some_iff.mp h
    subst heq
    exact errcode_connected hconnected hmem

theorem errcode_closeIf [DecidableEq Conn] (h : closing ∈ (closeIf rc isInbound conn).2.1) :
    closing.errcode = 0 := by
  unfold closeIf at h
  split at h
  next hdirection =>
    unfold RelayConn.close at h
    rw [hdirection] at h
    rw [List.mem_singleton.mp h]
  next => cases h

theorem errcode_onConnClosed [DecidableEq Conn] {negotiated : Bool}
    (h : closing ∈ (table.onConnClosed rid conn negotiated).2) : closing.errcode = 0 := by
  unfold onConnClosed at h
  cases negotiated with
  | false =>
    rw [if_neg (by decide)] at h
    split at h <;> cases h
  | true =>
    rw [if_pos rfl] at h
    cases hfind : table.relayConns.find rid with
    | none =>
      rw [hfind] at h
      cases h
    | some rc =>
      rw [hfind] at h
      have hmem : closing ∈ (closeIf rc true conn).2.1 ++
          (closeIf (closeIf rc true conn).1 false conn).2.1 := by
        dsimp only at h
        split at h <;> exact h
      exact (List.mem_append.mp hmem).elim errcode_closeIf errcode_closeIf

theorem errcode_checkDereggedConns {registered : RouterID → Bool}
    (h : closing ∈ (table.checkDereggedConns now registered).2) : closing.errcode = 0 := by
  have hloop : ∀ (dead : List (Sigma fun _ : RouterID => Nat)) (handled : Handled Conn),
      (∀ closing ∈ handled.2, closing.errcode = 0) →
        ∀ closing ∈ (dead.foldl (dropDeregged now registered) handled).2,
          closing.errcode = 0 := by
    intro dead
    induction dead with
    | nil => exact fun handled hall => hall
    | cons entry dead ih =>
      intro handled hall
      refine ih _ ?_
      unfold dropDeregged
      dsimp only
      split
      · exact hall
      split
      · exact hall
      cases handled.1.relayConns.find entry.1 with
      | none => exact hall
      | some rc =>
        intro closing hmem
        rcases List.mem_append.mp hmem with hmem | hmem
        · rcases List.mem_append.mp hmem with hmem | hmem
          · exact hall closing hmem
          · obtain ⟨old, -, rfl⟩ := List.mem_map.mp hmem
            rfl
        · obtain ⟨old, -, rfl⟩ := List.mem_map.mp hmem
          rfl
  exact hloop table.pendingDead.entries (table, []) (fun _ hmem => by cases hmem) closing h

end ConnTable

inductive Side where
  | a
  | b
deriving DecidableEq

namespace Side

def other : Side → Side
  | a => b
  | b => a

def larger (id : Side → RouterID) : Side :=
  if ridLt (id a) (id b) then b else a

end Side

structure Pair where
  a : ConnTable Nat
  b : ConnTable Nat
  initiator : List Side

inductive PairAction where
  | attempt (side : Side)
  | inbound (side : Side) (conn now : Nat)
  | outbound (side : Side) (now : Nat)
  | closed (side : Side) (conn : Nat) (negotiated : Bool)
  | redundancyTimer (side : Side) (now : Nat)
  | deregTimer (side : Side) (now : Nat) (registered : RouterID → Bool)

def PairAction.side : PairAction → Side
  | attempt side => side
  | inbound side _ _ => side
  | outbound side _ => side
  | closed side _ _ => side
  | redundancyTimer side _ => side
  | deregTimer side _ _ => side

namespace Pair

def start : Pair :=
  ⟨ConnTable.start, ConnTable.start, []⟩

def table (pair : Pair) : Side → ConnTable Nat
  | .a => pair.a
  | .b => pair.b

def setTable (pair : Pair) : Side → ConnTable Nat → Pair
  | .a, table => { pair with a := table }
  | .b, table => { pair with b := table }

variable (id : Side → RouterID)

def handleAt (pair : Pair) (side : Side) (event : ConnEvent Nat) :
    Option (Pair × List (Closing Nat)) :=
  ((pair.table side).handle (id side) event).map fun (table, closings) =>
    (pair.setTable side table, closings)

def act (pair : Pair) : PairAction → Option (Pair × List (Closing Nat))
  | .attempt side =>
    -- the number of the connection is the next one
    { pair with initiator := pair.initiator ++ [side] }.handleAt id side
      (.connect (id side.other) pair.initiator.length)
  | .inbound side conn now =>
    if pair.initiator[conn]? = some side.other then
      pair.handleAt id side (.inbound (id side.other) conn now)
    else some (pair, [])
  | .outbound side now => pair.handleAt id side (.outbound (id side.other) now)
  | .closed side conn negotiated => pair.handleAt id side (.closed (id side.other) conn negotiated)
  | .redundancyTimer side now => pair.handleAt id side (.redundancyTimer now)
  | .deregTimer side now registered => pair.handleAt id side (.deregTimer now registered)

def actAll (pair : Pair) (actions : List PairAction) : Option Pair :=
  actions.foldlM (fun pair action => (pair.act id action).map Prod.fst) pair

structure Known (initiator : List Side) (side : Side) (table : ConnTable Nat) : Prop where
  holds : ∀ rid isInbound conn, table.Holds rid isInbound conn →
    rid = id side.other ∧ initiator[conn]? = some (if isInbound then side.other else side)
  pending : ∀ rid conn, table.pendingOutbound.find rid = some conn →
    rid = id side.other ∧ initiator[conn]? = some side

def Inv (pair : Pair) : Prop :=
  ∀ side, ConnTable.Wf (id side) (pair.table side) ∧
    Known id pair.initiator side (pair.table side)

variable {id} {pair : Pair} {side : Side} {initiator : List Side} {table after : ConnTable Nat}

theorem inv_start : Inv id start := by
  intro side
  have hholds : ∀ rid isInbound conn,
      ¬ (ConnTable.start : ConnTable Nat).Holds rid isInbound conn := by
    rintro rid isInbound conn ⟨rc, hfind, -⟩
    cases hfind
  cases side <;>
    exact ⟨ConnTable.wf_start _, ⟨fun rid isInbound conn h => absurd h (hholds rid isInbound conn),
      fun rid conn h => by cases h⟩⟩

theorem Known.of_fewer (h : Known id initiator side table) (hfewer : after.Fewer table) :
    Known id initiator side after :=
  ⟨fun rid isInbound conn hholds => h.holds _ _ _ (hfewer.holds rid isInbound conn hholds),
    fun rid conn hpending => h.pending _ _ (hfewer.pending rid conn hpending)⟩

theorem Known.append (h : Known id initiator side table) (more : List Side) :
    Known id (initiator ++ more) side table := by
  have hmore : ∀ (conn : Nat) (by' : Side), initiator[conn]? = some by' →
      (initiator ++ more)[conn]? = some by' := by
    intro conn by' hconn
    rw [List.getElem?_append_left (List.getElem?_eq_some_iff.mp hconn).1, hconn]
  exact ⟨fun rid isInbound conn hholds =>
      (h.holds rid isInbound conn hholds).imp_right (hmore conn _),
    fun rid conn hpending => (h.pending rid conn hpending).imp_right (hmore conn _)⟩

theorem table_setTable (pair : Pair) (side other : Side) (table : ConnTable Nat) :
    (pair.setTable side table).table other = if other = side then table else pair.table other := by
  cases side <;> cases other <;> rfl

@[simp] theorem initiator_setTable (pair : Pair) (side : Side) (table : ConnTable Nat) :
    (pair.setTable side table).initiator = pair.initiator := by
  cases side <;> rfl

theorem Inv.handleAt (h : Inv id pair) (event : ConnEvent Nat)
    (hknown : ∀ handled, (pair.table side).handle (id side) event = some handled →
      Known id pair.initiator side handled.1) :
    ∃ after closings, pair.handleAt id side event = some (after, closings) ∧ Inv id after := by
  obtain ⟨handled, hhandle, hwf⟩ := (h side).1.handle event
  refine ⟨_, _, by rw [Pair.handleAt, hhandle]; rfl, ?_⟩
  intro other
  rw [table_setTable, initiator_setTable]
  split
  next heq =>
    subst heq
    exact ⟨hwf, hknown handled hhandle⟩
  next => exact h other

theorem Known.connect {conn : Nat} (h : Known id initiator side table)
    (hconn : initiator[conn]? = some side) :
    Known id initiator side (table.connect (id side.other) conn) := by
  unfold ConnTable.connect
  split
  · exact h
  · refine ⟨h.holds, fun rid found hpending => ?_⟩
    dsimp only at hpending
    rw [Table.find_emplace] at hpending
    split at hpending
    next hnew =>
      cases hpending
      exact ⟨hnew.1, hconn⟩
    next => exact h.pending rid found hpending

variable {handled : Handled Nat}

theorem Known.connected {me : RouterID} {conn now : Nat} {isInbound : Bool}
    (h : Known id initiator side table)
    (hconn : initiator[conn]? = some (if isInbound then side.other else side))
    (hconnected : table.connected me (id side.other) conn isInbound now = some handled) :
    Known id initiator side handled.1 := by
  refine ⟨fun rid direction held hholds => ?_, ?_⟩
  · rcases ConnTable.holds_connected hconnected hholds with hold | ⟨hrid, hdirection, hheld⟩
    · exact h.holds rid direction held hold
    · subst hdirection hheld
      exact ⟨hrid, hconn⟩
  · unfold ConnTable.connected at hconnected
    obtain ⟨rc, -, heq⟩ := Option.map_eq_some_iff.mp hconnected
    subst heq
    exact h.pending

theorem Known.onOutboundConn {me : RouterID} {now : Nat} (h : Known id initiator side table)
    (hhandled : table.onOutboundConn me (id side.other) now = some handled) :
    Known id initiator side handled.1 := by
  unfold ConnTable.onOutboundConn at hhandled
  cases hpending : table.pendingOutbound.find (id side.other) with
  | none =>
    rw [hpending] at hhandled
    cases hhandled
    exact h
  | some conn =>
    rw [hpending] at hhandled
    obtain ⟨connected, hconnected, heq⟩ := Option.map_eq_some_iff.mp hhandled
    subst heq
    have hknown := h.connected (h.pending _ conn hpending).2 hconnected
    exact ⟨hknown.holds, fun rid conn hfind =>
      hknown.pending rid conn (Table.find_of_find_remove hfind)⟩

theorem Inv.act (h : Inv id pair) (action : PairAction) :
    ∃ after closings, pair.act id action = some (after, closings) ∧ Inv id after := by
  cases action with
  | attempt side =>
    have happend : Inv id { pair with initiator := pair.initiator ++ [side] } := by
      intro other
      obtain ⟨hwf, hknown⟩ := h other
      cases other <;> exact ⟨hwf, hknown.append [side]⟩
    refine happend.handleAt _ ?_
    rintro handled ⟨rfl⟩
    refine (happend side).2.connect ?_
    simp
  | inbound side conn now =>
    rw [Pair.act]
    split
    next hmade =>
      have hconn : pair.initiator[conn]? = some (if true then side.other else side) := hmade
      exact h.handleAt _ fun handled hhandled => (h side).2.connected hconn hhandled
    next => exact ⟨pair, [], rfl, h⟩
  | outbound side now =>
    exact h.handleAt _ fun handled hhandled => (h side).2.onOutboundConn hhandled
  | closed side conn negotiated =>
    refine h.handleAt _ ?_
    rintro handled ⟨rfl⟩
    exact (h side).2.of_fewer (ConnTable.fewer_onConnClosed _ _ _ _)
  | redundancyTimer side now =>
    exact h.handleAt _ fun handled hhandled =>
      (h side).2.of_fewer (ConnTable.closeRedundant_closings hhandled).2
  | deregTimer side now registered =>
    refine h.handleAt _ ?_
    rintro handled ⟨rfl⟩
    exact (h side).2.of_fewer (ConnTable.fewer_checkDereggedConns _ _ _)

theorem Inv.actAll (h : Inv id pair) (actions : List PairAction) :
    ∃ after, pair.actAll id actions = some after ∧ Inv id after := by
  induction actions generalizing pair with
  | nil => exact ⟨pair, rfl, h⟩
  | cons action actions ih =>
    obtain ⟨next, closings, hact, hinv⟩ := h.act action
    obtain ⟨after, hafter, hinv'⟩ := ih hinv
    refine ⟨after, ?_, hinv'⟩
    rw [Pair.actAll, List.foldlM_cons, hact]
    exact hafter

variable {closing : Closing Nat}

theorem errcode_handle {event : ConnEvent Nat} {me : RouterID}
    (hevent : ∀ now, event ≠ .redundancyTimer now) (hhandle : table.handle me event = some handled)
    (hmem : closing ∈ handled.2) : closing.errcode = 0 := by
  cases event with
  | connect rid conn =>
    cases hhandle
    cases hmem
  | inbound rid conn now => exact ConnTable.errcode_connected hhandle hmem
  | outbound rid now => exact ConnTable.errcode_onOutboundConn hhandle hmem
  | closed rid conn negotiated =>
    cases hhandle
    exact ConnTable.errcode_onConnClosed hmem
  | redundancyTimer now => exact absurd rfl (hevent now)
  | deregTimer now registered =>
    cases hhandle
    exact ConnTable.errcode_checkDereggedConns hmem

theorem errcode_act {action : PairAction} {after : Pair} {closings : List (Closing Nat)}
    (haction : ∀ side now, action ≠ .redundancyTimer side now)
    (hact : pair.act id action = some (after, closings)) (hmem : closing ∈ closings) :
    closing.errcode = 0 := by
  have hat : ∀ {start : Pair} {side : Side} {event : ConnEvent Nat},
      (∀ now, event ≠ .redundancyTimer now) →
        start.handleAt id side event = some (after, closings) → closing.errcode = 0 := by
    intro start side event hevent hhandle
    obtain ⟨handled, hhandled, heq⟩ := Option.map_eq_some_iff.mp hhandle
    obtain ⟨-, rfl⟩ := Prod.mk.inj heq
    exact errcode_handle hevent hhandled hmem
  cases action with
  | attempt | outbound | closed | deregTimer => exact hat (fun _ h => by cases h) hact
  | inbound side conn now =>
    rw [act] at hact
    split at hact
    · exact hat (fun _ h => by cases h) hact
    · cases hact
      cases hmem
  | redundancyTimer side now => exact absurd rfl (haction side now)

theorem ridLt_other_iff (hne : id .a ≠ id .b) (side : Side) :
    ridLt (id side.other) (id side) = true ↔ side = Side.larger id := by
  have hdiffer : loadBig (id .a).data ≠ loadBig (id .b).data := by
    intro heq
    apply hne
    apply FixedBytes.ext
    have ha := storeBig_loadBig (id .a).data
    have hb := storeBig_loadBig (id .b).data
    rw [FixedBytes.length_data] at ha hb
    rw [← ha, ← hb, heq]
  by_cases hlt : loadBig (id .a).data < loadBig (id .b).data
  · have hnot : ¬ loadBig (id .b).data < loadBig (id .a).data := by omega
    cases side <;> simp [Side.larger, ridLt, Side.other, hlt, hnot]
  · have hgt : loadBig (id .b).data < loadBig (id .a).data := by omega
    cases side <;> simp [Side.larger, ridLt, Side.other, hlt, hgt]

theorem larger_other_ne (id : Side → RouterID) : (Side.larger id).other ≠ Side.larger id := by
  cases Side.larger id <;> exact nofun

theorem Inv.closed_redundant (h : Inv id pair) (hne : id .a ≠ id .b) {now : Nat}
    (hhandled : (pair.table side).closeRedundant now = some handled) (hmem : closing ∈ handled.2) :
    pair.initiator[closing.conn]? = some (Side.larger id) ∧
      pair.initiator[closing.conn]? ≠ some (Side.larger id).other ∧
      ∃ isInbound conn,
        ((pair.setTable side handled.1).table side).Holds (id side.other) isInbound conn ∧
          pair.initiator[conn]? = some (Side.larger id).other := by
  obtain ⟨hwf, hknown⟩ := h side
  obtain ⟨hclosings, -⟩ := ConnTable.closeRedundant_closings hhandled
  obtain ⟨rid, rc, hfind, hclosing, conn, hconn, hholds⟩ := hclosings closing hmem
  obtain ⟨hrid, hloser⟩ := hknown.holds rid _ _ ⟨rc, hfind, hclosing⟩
  have hwinner := (hknown.holds rid _ _ ⟨rc, hfind, hconn⟩).2
  have hwins := (hwf rid).wins rc hfind
  rw [hrid] at hwins hholds
  -- the inbound connection wins exactly at the relay with the larger id
  have hlarger := ridLt_other_iff hne side
  rw [← hwins] at hlarger
  have hboth : (if !rc.inboundWins then side.other else side) = Side.larger id ∧
      (if rc.inboundWins then side.other else side) = (Side.larger id).other := by
    cases hcase : rc.inboundWins with
    | true =>
      have heq := hlarger.mp hcase
      simp [← heq]
    | false =>
      have hdiffer : side ≠ Side.larger id := fun heq => by
        rw [hlarger.mpr heq] at hcase
        cases hcase
      cases side <;> cases hl : Side.larger id <;> simp_all [Side.other]
  rw [hboth.1] at hloser
  rw [hboth.2] at hwinner
  refine ⟨hloser, ?_, rc.inboundWins, conn, ?_, hwinner⟩
  · rw [hloser]
    intro heq
    exact larger_other_ne id (Option.some.inj heq).symm
  · rw [table_setTable, if_pos rfl]
    exact hholds

/-- Whoever of the two relays closes a connection as redundant, in whatever order the two ends
have learnt of their connections: the connection was made by the relay with the larger id, and
the closing relay keeps one that was made by the relay with the smaller id. -/
theorem redundant_made_by_larger (id : Side → RouterID) (hne : id .a ≠ id .b)
    (actions : List PairAction) :
    ∃ pair, start.actAll id actions = some pair ∧
      ∀ action, ∃ after closings, pair.act id action = some (after, closings) ∧
        ∀ closing ∈ closings, closing.errcode = CONN_CLOSE_REDUNDANT →
          pair.initiator[closing.conn]? = some (Side.larger id) ∧
          pair.initiator[closing.conn]? ≠ some (Side.larger id).other ∧
          ∃ isInbound conn,
            (after.table action.side).Holds (id action.side.other) isInbound conn ∧
              pair.initiator[conn]? = some (Side.larger id).other := by
  obtain ⟨pair, hrun, hinv⟩ := inv_start.actAll actions
  refine ⟨pair, hrun, fun action => ?_⟩
  obtain ⟨after, closings, hact, -⟩ := hinv.act action
  refine ⟨after, closings, hact, fun closing hmem herrcode => ?_⟩
  have htimer : ∃ side now, action = .redundancyTimer side now := by
    by_contra hother
    have hzero := errcode_act (fun side now heq => hother ⟨side, now, heq⟩) hact hmem
    rw [hzero] at herrcode
    cases herrcode
  obtain ⟨side, now, rfl⟩ := htimer
  obtain ⟨handled, hhandled, heq⟩ := Option.map_eq_some_iff.mp hact
  obtain ⟨rfl, rfl⟩ := Prod.mk.inj heq
  exact hinv.closed_redundant hne hhandled hmem

theorem redundant_made_by_larger_crossing :
    ∃ pair, start.actAll (fun side => ConnTable.ridOf (if side = .a then 1 else 2))
        [.attempt .a, .attempt .b, .inbound .a 1 0, .inbound .b 0 5, .outbound .b 10,
          .outbound .a 30, .redundancyTimer .a 20030] = some pair ∧
      ∃ after closings, pair.act (fun side => ConnTable.ridOf (if side = .a then 1 else 2))
          (.redundancyTimer .b 20010) = some (after, closings) := by
  obtain ⟨pair, hrun, hact⟩ := redundant_made_by_larger
    (fun side => ConnTable.ridOf (if side = .a then 1 else 2)) (by decide)
    [.attempt .a, .attempt .b, .inbound .a 1 0, .inbound .b 0 5, .outbound .b 10,
      .outbound .a 30, .redundancyTimer .a 20030]
  obtain ⟨after, closings, hclosed, -⟩ := hact (.redundancyTimer .b 20010)
  exact ⟨pair, hrun, after, closings, hclosed⟩

end Pair
end SessionRouter.Link

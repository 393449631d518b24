import SessionRouter.Crypto.Cipher
import SessionRouter.Lib.Table

/-!
# The connections between relays
-/

namespace SessionRouter.Link

open Lib

def ridLt (left right : RouterID) : Bool :=
  loadBig left.data < loadBig right.data

def CONN_CLOSE_REDUNDANT : Nat := 6

def REDUNDANT_LINGER : Nat := 20 * 1000
def DEREGGED_LINGER : Nat := 30 * 60 * 1000

structure Closing (Conn : Type) where
  conn : Conn
  errcode : Nat
deriving DecidableEq

structure RelayConn (Conn : Type) where
  inboundWins : Bool
  inbound : Option Conn
  outbound : Option Conn
  conn : Option Conn
deriving DecidableEq

variable {Conn : Type}

namespace RelayConn

def new (inboundWins : Bool) : RelayConn Conn :=
  ⟨inboundWins, none, none, none⟩

def direction (rc : RelayConn Conn) (isInbound : Bool) : Option Conn :=
  if isInbound then rc.inbound else rc.outbound

def setDirection (rc : RelayConn Conn) (isInbound : Bool) (conn : Option Conn) : RelayConn Conn :=
  if isInbound then { rc with inbound := conn } else { rc with outbound := conn }

def setConn (rc : RelayConn Conn) (conn : Conn) (isInbound : Bool) :
    RelayConn Conn × List (Closing Conn) :=
  let closings := (rc.direction isInbound).toList.map fun old => ⟨old, 0⟩
  let rc := rc.setDirection isInbound (some conn)
  if (if isInbound then rc.outbound.isNone || rc.inboundWins
      else rc.inbound.isNone || !rc.inboundWins) then
    ({ rc with conn := some conn }, closings)
  else (rc, closings)

def close (rc : RelayConn Conn) (directionInbound : Bool) (errcode : Nat) :
    RelayConn Conn × List (Closing Conn) :=
  match rc.direction directionInbound with
  | none => (rc, [])
  | some toClose =>
    let rc := rc.setDirection directionInbound none
    -- the other direction is preferred now, if it is there
    ({ rc with conn := rc.direction (!directionInbound) }, [⟨toClose, errcode⟩])

def closeAll (rc : RelayConn Conn) (errcode : Nat) : RelayConn Conn × List (Closing Conn) :=
  (new rc.inboundWins, (rc.inbound.toList ++ rc.outbound.toList).map fun old => ⟨old, errcode⟩)

def closeRedundant (rc : RelayConn Conn) : RelayConn Conn × List (Closing Conn) :=
  rc.close (!rc.inboundWins) CONN_CLOSE_REDUNDANT

end RelayConn

/-- The tables of an `Endpoint` for other relays. -/
structure ConnTable (Conn : Type) where
  relayConns : Table RouterID (RelayConn Conn)
  relayBidir : Table RouterID Nat
  pendingOutbound : Table RouterID Conn
  pendingDead : Table RouterID Nat

abbrev Handled (Conn : Type) := ConnTable Conn × List (Closing Conn)

namespace ConnTable

def start : ConnTable Conn :=
  ⟨∅, ∅, ∅, ∅⟩

def emplaced (me : RouterID) (table : ConnTable Conn) (rid : RouterID) : Option (RelayConn Conn) :=
  match table.relayConns.find rid with
  | some rc => if rc.conn.isSome then some rc else none
  | none => some (RelayConn.new (ridLt rid me))

def connected (me : RouterID) (table : ConnTable Conn) (rid : RouterID) (conn : Conn)
    (isInbound : Bool) (now : Nat) : Option (Handled Conn) :=
  (table.emplaced me rid).map fun rc =>
    let (rc, closings) := rc.setConn conn isInbound
    ({ table with
        relayConns := table.relayConns.insertOrAssign rid rc
        relayBidir :=
          if (rc.direction (!isInbound)).isSome then table.relayBidir.insertOrAssign rid now
          else table.relayBidir }, closings)

def onInboundConn (me : RouterID) (table : ConnTable Conn) (rid : RouterID) (conn : Conn)
    (now : Nat) : Option (Handled Conn) :=
  table.connected me rid conn true now

def connect (table : ConnTable Conn) (rid : RouterID) (conn : Conn) : ConnTable Conn :=
  match (table.relayConns.find rid).bind RelayConn.conn with
  | some _ => table
  | none => { table with pendingOutbound := table.pendingOutbound.emplace rid conn }

def onOutboundConn (me : RouterID) (table : ConnTable Conn) (rid : RouterID) (now : Nat) :
    Option (Handled Conn) :=
  match table.pendingOutbound.find rid with
  | none => some (table, [])
  | some conn =>
    (table.connected me rid conn false now).map fun (table, closings) =>
      ({ table with pendingOutbound := table.pendingOutbound.remove rid }, closings)

def closeIf [DecidableEq Conn] (rc : RelayConn Conn) (isInbound : Bool) (conn : Conn) :
    RelayConn Conn × List (Closing Conn) × Bool :=
  if rc.direction isInbound = some conn then
    let (rc, closings) := rc.close isInbound 0
    (rc, closings, true)
  else (rc, [], false)

def onConnClosed [DecidableEq Conn] (table : ConnTable Conn) (rid : RouterID) (conn : Conn)
    (negotiated : Bool) : Handled Conn :=
  if negotiated then
    match table.relayConns.find rid with
    | some rc =>
      let (rc, first, wasInbound) := closeIf rc true conn
      let (rc, second, wasOutbound) := closeIf rc false conn
      let table := { table with
        relayConns :=
          if rc.conn.isNone then table.relayConns.remove rid
          else table.relayConns.insertOrAssign rid rc }
      if wasInbound || wasOutbound then
        ({ table with relayBidir := table.relayBidir.remove rid }, first ++ second)
      else
        ({ table with pendingOutbound := table.pendingOutbound.remove rid }, first ++ second)
    | none => ({ table with pendingOutbound := table.pendingOutbound.remove rid }, [])
  else if table.pendingOutbound.find rid = some conn then
    ({ table with pendingOutbound := table.pendingOutbound.remove rid }, [])
  else (table, [])

def withoutLoser (table : ConnTable Conn) (rid : RouterID) (rc : RelayConn Conn) :
    ConnTable Conn :=
  { table with
    relayConns := table.relayConns.insertOrAssign rid rc.closeRedundant.1
    relayBidir := table.relayBidir.remove rid }

def closeRedundantOne (handled : Handled Conn) (rid : RouterID) : Option (Handled Conn) :=
  match handled.1.relayConns.find rid with
  | none => none
  | some rc =>
    if rc.inbound.isSome && rc.outbound.isSome then
      some (handled.1.withoutLoser rid rc, handled.2 ++ rc.closeRedundant.2)
    else none

def lingered (table : ConnTable Conn) (now : Nat) : List RouterID :=
  (table.relayBidir.entries.filter fun entry => entry.2 + REDUNDANT_LINGER ≤ now).map Sigma.fst

def closeRedundant (table : ConnTable Conn) (now : Nat) : Option (Handled Conn) :=
  (table.lingered now).foldlM closeRedundantOne (table, [])

def dropDeregged (now : Nat) (registered : RouterID → Bool) (handled : Handled Conn)
    (dead : Sigma fun _ : RouterID => Nat) : Handled Conn :=
  let (table, closings) := handled
  let forgotten := { table with pendingDead := table.pendingDead.remove dead.1 }
  if now < dead.2 + DEREGGED_LINGER + 1000 then (table, closings)
  else if registered dead.1 then (forgotten, closings)
  else
    match table.relayConns.find dead.1 with
    | none => (forgotten, closings)
    | some rc =>
      ({ forgotten with
          relayConns := table.relayConns.remove dead.1
          relayBidir := table.relayBidir.remove dead.1
          pendingOutbound := table.pendingOutbound.remove dead.1 },
        closings ++ (rc.closeAll 0).2 ++
          (table.pendingOutbound.find dead.1).toList.map fun conn => ⟨conn, 0⟩)

def checkDereggedConns (table : ConnTable Conn) (now : Nat) (registered : RouterID → Bool) :
    Handled Conn :=
  let (table, closings) := table.pendingDead.entries.foldl (dropDeregged now registered) (table, [])
  let noted := (table.relayConns.keys.filter fun rid => !registered rid).foldl
    (fun (dead : Table RouterID Nat) rid => dead.emplace rid now) table.pendingDead
  ({ table with pendingDead := noted }, closings)

end ConnTable

/-- The events that change the tables. -/
inductive ConnEvent (Conn : Type) where
  | connect (rid : RouterID) (conn : Conn)
  | inbound (rid : RouterID) (conn : Conn) (now : Nat)
  | outbound (rid : RouterID) (now : Nat)
  | closed (rid : RouterID) (conn : Conn) (negotiated : Bool)
  | redundancyTimer (now : Nat)
  | deregTimer (now : Nat) (registered : RouterID → Bool)

namespace ConnTable

variable [DecidableEq Conn]

def handle (me : RouterID) (table : ConnTable Conn) : ConnEvent Conn → Option (Handled Conn)
  | .connect rid conn => some (table.connect rid conn, [])
  | .inbound rid conn now => table.onInboundConn me rid conn now
  | .outbound rid now => table.onOutboundConn me rid now
  | .closed rid conn negotiated => some (table.onConnClosed rid conn negotiated)
  | .redundancyTimer now => table.closeRedundant now
  | .deregTimer now registered => some (table.checkDereggedConns now registered)

def handleAll (me : RouterID) (table : ConnTable Conn) (events : List (ConnEvent Conn)) :
    Option (ConnTable Conn) :=
  events.foldlM (fun table event => (table.handle me event).map Prod.fst) table

end ConnTable

namespace RelayConn

variable {rc : RelayConn Conn}

def preferred (rc : RelayConn Conn) : Option Conn :=
  (rc.direction rc.inboundWins).or (rc.direction (!rc.inboundWins))

def Both (rc : RelayConn Conn) : Prop :=
  rc.inbound.isSome ∧ rc.outbound.isSome

structure Sound (rc : RelayConn Conn) : Prop where
  conn_eq : rc.conn = rc.preferred
  isSome : rc.conn.isSome

theorem Sound.spec (h : rc.Sound) :
    (rc.inbound.isSome ∨ rc.outbound.isSome) ∧ rc.conn.isSome ∧
      (rc.conn = rc.inbound ∨ rc.conn = rc.outbound) ∧
      (rc.inbound.isSome → rc.outbound.isSome →
        rc.conn = if rc.inboundWins then rc.inbound else rc.outbound) := by
  obtain ⟨hconn, hsome⟩ := h
  rw [hconn] at hsome
  rw [hconn]
  obtain ⟨wins, inbound, outbound, conn⟩ := rc
  cases wins <;> cases inbound <;> cases outbound <;>
    simp_all [preferred, direction]

variable (conn : Conn) (isInbound : Bool) (errcode : Nat)

theorem both_iff :
    rc.Both ↔ (rc.direction isInbound).isSome ∧ (rc.direction (!isInbound)).isSome := by
  cases isInbound
  · exact and_comm
  · exact Iff.rfl

theorem inboundWins_setConn : (rc.setConn conn isInbound).1.inboundWins = rc.inboundWins := by
  obtain ⟨wins, inbound, outbound, preferred⟩ := rc
  cases isInbound <;> cases wins <;> cases inbound <;> cases outbound <;> rfl

theorem direction_setConn (isInbound other : Bool) :
    (rc.setConn conn isInbound).1.direction other =
      if other = isInbound then some conn else rc.direction other := by
  obtain ⟨wins, inbound, outbound, preferred⟩ := rc
  cases isInbound <;> cases other <;> cases wins <;> cases inbound <;> cases outbound <;> rfl

theorem sound_setConn (h : rc.conn = rc.preferred) (conn : Conn) (isInbound : Bool) :
    (rc.setConn conn isInbound).1.Sound := by
  obtain ⟨wins, inbound, outbound, conn'⟩ := rc
  have hconn : conn' = preferred ⟨wins, inbound, outbound, none⟩ := h
  subst hconn
  cases isInbound <;> cases wins <;> cases inbound <;> cases outbound <;> exact ⟨rfl, rfl⟩

theorem both_setConn_iff : (rc.setConn conn isInbound).1.Both ↔
      ((rc.setConn conn isInbound).1.direction (!isInbound)).isSome := by
  rw [both_iff isInbound, direction_setConn, if_pos rfl]
  exact and_iff_right rfl

theorem inboundWins_close : (rc.close isInbound errcode).1.inboundWins = rc.inboundWins := by
  obtain ⟨wins, inbound, outbound, preferred⟩ := rc
  cases isInbound <;> cases inbound <;> cases outbound <;> rfl

theorem conn_close (h : rc.conn = rc.preferred) (isInbound : Bool) (errcode : Nat) :
    (rc.close isInbound errcode).1.conn = (rc.close isInbound errcode).1.preferred := by
  obtain ⟨wins, inbound, outbound, conn'⟩ := rc
  have hconn : conn' = preferred ⟨wins, inbound, outbound, none⟩ := h
  subst hconn
  cases isInbound <;> cases wins <;> cases inbound <;> cases outbound <;> rfl

theorem direction_close (isInbound other : Bool) (errcode : Nat) :
    (rc.close isInbound errcode).1.direction other =
      if other = isInbound then none else rc.direction other := by
  obtain ⟨wins, inbound, outbound, conn'⟩ := rc
  cases isInbound <;> cases other <;> cases inbound <;> cases outbound <;> rfl

theorem not_both_close : ¬ (rc.close isInbound errcode).1.Both := by
  rw [both_iff isInbound, direction_close, if_pos rfl]
  simp

theorem Both.sound_close (h : rc.Both) (hconn : rc.conn = rc.preferred) (isInbound : Bool)
    (errcode : Nat) : (rc.close isInbound errcode).1.Sound := by
  refine ⟨conn_close hconn isInbound errcode, ?_⟩
  rw [conn_close hconn, preferred, inboundWins_close, direction_close, direction_close]
  obtain ⟨hwins, hloses⟩ := (both_iff rc.inboundWins).mp h
  obtain ⟨first, hfirst⟩ := Option.isSome_iff_exists.mp hwins
  obtain ⟨second, hsecond⟩ := Option.isSome_iff_exists.mp hloses
  rw [hfirst, hsecond]
  cases isInbound <;> cases rc.inboundWins <;> rfl

end RelayConn

namespace ConnTable

variable {me : RouterID} {table : ConnTable Conn} {rid : RouterID}

/-- What holds of the tables at one relay. -/
structure EntryWf (me : RouterID) (table : ConnTable Conn) (rid : RouterID) : Prop where
  sound : ∀ rc, table.relayConns.find rid = some rc → rc.Sound
  wins : ∀ rc, table.relayConns.find rid = some rc → rc.inboundWins = ridLt rid me
  bidir : (table.relayBidir.find rid).isSome ↔
    ∃ rc, table.relayConns.find rid = some rc ∧ rc.Both

def Wf (me : RouterID) (table : ConnTable Conn) : Prop :=
  ∀ rid, EntryWf me table rid

theorem wf_start (me : RouterID) : Wf me (start : ConnTable Conn) := by
  intro rid
  refine ⟨?_, ?_, ?_⟩ <;> simp [start]

variable {handled : Handled Conn} {after : ConnTable Conn}

theorem EntryWf.congr (h : EntryWf me table rid)
    (hconns : after.relayConns.find rid = table.relayConns.find rid)
    (hbidir : after.relayBidir.find rid = table.relayBidir.find rid) : EntryWf me after rid := by
  refine ⟨?_, ?_, ?_⟩
  · rw [hconns]
    exact h.sound
  · rw [hconns]
    exact h.wins
  · rw [hconns, hbidir]
    exact h.bidir

theorem EntryWf.of_find {rc : RelayConn Conn}
    (hconns : after.relayConns.find rid = some rc) (hsound : rc.Sound)
    (hwins : rc.inboundWins = ridLt rid me)
    (hbidir : (after.relayBidir.find rid).isSome ↔ rc.Both) : EntryWf me after rid := by
  refine ⟨?_, ?_, ?_⟩
  · rw [hconns]
    rintro other ⟨rfl⟩
    exact hsound
  · rw [hconns]
    rintro other ⟨rfl⟩
    exact hwins
  · rw [hconns, hbidir]
    simp

theorem EntryWf.of_none (hconns : after.relayConns.find rid = none)
    (hbidir : after.relayBidir.find rid = none) : EntryWf me after rid := by
  refine ⟨?_, ?_, ?_⟩ <;> simp [hconns, hbidir]

theorem EntryWf.emplaced (h : EntryWf me table rid) :
    ∃ rc, table.emplaced me rid = some rc ∧ rc.conn = rc.preferred ∧
      rc.inboundWins = ridLt rid me ∧ ((table.relayBidir.find rid).isSome ↔ rc.Both) := by
  unfold ConnTable.emplaced
  have hbidir := h.bidir
  cases hfind : table.relayConns.find rid with
  | some rc =>
    have hsound := h.sound rc hfind
    rw [hfind] at hbidir
    refine ⟨rc, if_pos hsound.isSome, hsound.conn_eq, h.wins rc hfind, ?_⟩
    rw [hbidir]
    simp
  | none =>
    rw [hfind] at hbidir
    refine ⟨_, rfl, ?_, rfl, ?_⟩
    · cases ridLt rid me <;> rfl
    · rw [hbidir]
      simp [RelayConn.Both, RelayConn.new]

theorem Wf.connected (h : Wf me table) (rid : RouterID) (conn : Conn) (isInbound : Bool)
    (now : Nat) :
    ∃ handled, table.connected me rid conn isInbound now = some handled ∧ Wf me handled.1 := by
  obtain ⟨rc, hrc, hconn, hwins, hbidir⟩ := (h rid).emplaced
  refine ⟨_, by rw [ConnTable.connected, hrc]; rfl, ?_⟩
  intro other
  by_cases hother : other = rid
  · subst hother
    refine EntryWf.of_find (by rw [Table.find_insertOrAssign, if_pos rfl])
      (RelayConn.sound_setConn hconn conn isInbound) ?_ ?_
    · rw [RelayConn.inboundWins_setConn, hwins]
    · rw [RelayConn.both_setConn_iff]
      dsimp only
      split
      next hboth =>
        rw [Table.find_insertOrAssign, if_pos rfl]
        exact iff_of_true rfl hboth
      next halone =>
        refine iff_of_false ?_ halone
        rw [hbidir, RelayConn.both_iff isInbound]
        rw [RelayConn.direction_setConn, if_neg (by simp)] at halone
        exact fun hboth => halone hboth.2
  · refine (h other).congr (by rw [Table.find_insertOrAssign, if_neg hother]) ?_
    dsimp only
    split
    · rw [Table.find_insertOrAssign, if_neg hother]
    · rfl

theorem Wf.with_pending (h : Wf me table) (pending : Table RouterID Conn) :
    Wf me { table with pendingOutbound := pending } :=
  fun rid => (h rid).congr rfl rfl

theorem Wf.onOutboundConn (h : Wf me table) (rid : RouterID) (now : Nat) :
    ∃ handled, table.onOutboundConn me rid now = some handled ∧ Wf me handled.1 := by
  unfold ConnTable.onOutboundConn
  cases table.pendingOutbound.find rid with
  | none => exact ⟨_, rfl, h⟩
  | some conn =>
    obtain ⟨handled, hconnected, hwf⟩ := h.connected rid conn false now
    dsimp only
    rw [hconnected]
    exact ⟨_, rfl, hwf.with_pending _⟩

section Closed

variable [DecidableEq Conn] {rc : RelayConn Conn}

theorem closeIf_keeps (h : rc.conn = rc.preferred) (isInbound : Bool) (conn : Conn) :
    (closeIf rc isInbound conn).1.conn = (closeIf rc isInbound conn).1.preferred ∧
      (closeIf rc isInbound conn).1.inboundWins = rc.inboundWins := by
  unfold closeIf
  split
  · exact ⟨RelayConn.conn_close h _ _, RelayConn.inboundWins_close _ _⟩
  · exact ⟨h, rfl⟩

theorem closeIf_found (rc : RelayConn Conn) (isInbound : Bool) (conn : Conn) :
    if (closeIf rc isInbound conn).2.2 then ¬ (closeIf rc isInbound conn).1.Both
    else (closeIf rc isInbound conn).1 = rc := by
  unfold closeIf
  split
  · exact RelayConn.not_both_close _ _
  · rfl

theorem closeIf_closeIf (h : rc.Sound) (conn : Conn) :
    let first := closeIf rc true conn
    let second := closeIf first.1 false conn
    second.1.conn = second.1.preferred ∧ second.1.inboundWins = rc.inboundWins ∧
      if first.2.2 || second.2.2 then ¬ second.1.Both else second.1 = rc := by
  intro first second
  obtain ⟨hconn, hwins⟩ := closeIf_keeps h.conn_eq true conn
  obtain ⟨hconn', hwins'⟩ := closeIf_keeps hconn false conn
  refine ⟨hconn', hwins'.trans hwins, ?_⟩
  have hfirst := closeIf_found rc true conn
  have hsecond := closeIf_found first.1 false conn
  by_cases hfound : second.2.2
  · rw [hfound, Bool.or_true]
    rwa [if_pos hfound] at hsecond
  · rw [if_neg hfound] at hsecond
    rw [Bool.not_eq_true] at hfound
    rw [hfound, Bool.or_false]
    change if first.2.2 then ¬ (closeIf first.1 false conn).1.Both
      else (closeIf first.1 false conn).1 = rc
    rw [hsecond]
    exact hfirst

theorem Wf.onConnClosed (h : Wf me table) (rid : RouterID) (conn : Conn) (negotiated : Bool) :
    Wf me (table.onConnClosed rid conn negotiated).1 := by
  unfold ConnTable.onConnClosed
  cases negotiated with
  | false =>
    rw [if_neg (by decide)]
    split
    · exact h.with_pending _
    · exact h
  | true =>
    rw [if_pos rfl]
    cases hfind : table.relayConns.find rid with
    | none => exact h.with_pending _
    | some rc =>
      obtain ⟨hconn, hwins, hfound⟩ := closeIf_closeIf ((h rid).sound rc hfind) conn
      dsimp only
      split
      next hclosed =>
        rw [if_pos hclosed] at hfound
        intro other
        by_cases hother : other = rid
        · subst hother
          have hbidir : (table.relayBidir.remove other).find other = none := by
            rw [Table.find_remove, if_pos rfl]
          cases hnone : (closeIf (closeIf rc true conn).1 false conn).1.conn with
          | none =>
            refine EntryWf.of_none ?_ hbidir
            simp [Table.find_remove]
          | some remaining =>
            refine EntryWf.of_find (by simp [Table.find_insertOrAssign])
              ⟨hconn, by rw [hnone]; rfl⟩ (hwins.trans ((h other).wins rc hfind)) ?_
            rw [hbidir]
            exact iff_of_false (by simp) hfound
        · refine (h other).congr ?_ (by rw [Table.find_remove, if_neg hother])
          dsimp only
          split
          · rw [Table.find_remove, if_neg hother]
          · rw [Table.find_insertOrAssign, if_neg hother]
      next hmissing =>
        rw [if_neg hmissing] at hfound
        have hsome := ((h rid).sound rc hfind).isSome
        rw [hfound,
          if_neg (Option.isSome_iff_ne_none.mp hsome <| Option.isNone_iff_eq_none.mp ·)]
        intro other
        refine (h other).congr ?_ rfl
        rw [Table.find_insertOrAssign]
        split
        next heq => rw [heq, hfind]
        next => rfl

end Closed

theorem Wf.closeRedundantOne (h : Wf me handled.1)
    (hbidir : (handled.1.relayBidir.find rid).isSome) :
    ∃ rc, handled.1.relayConns.find rid = some rc ∧ rc.Both ∧
      ConnTable.closeRedundantOne handled rid =
        some (handled.1.withoutLoser rid rc, handled.2 ++ rc.closeRedundant.2) := by
  obtain ⟨rc, hfind, hboth⟩ := (h rid).bidir.mp hbidir
  refine ⟨rc, hfind, hboth, ?_⟩
  unfold ConnTable.closeRedundantOne
  rw [hfind]
  simp only [hboth.1, hboth.2, Bool.and_self, if_true]

theorem find_withoutLoser (rc : RelayConn Conn) (other : RouterID) :
    (table.withoutLoser rid rc).relayConns.find other =
      if other = rid then some rc.closeRedundant.1 else table.relayConns.find other :=
  Table.find_insertOrAssign _ _ _ _

theorem find_bidir_withoutLoser (rc : RelayConn Conn) (other : RouterID) :
    (table.withoutLoser rid rc).relayBidir.find other =
      if other = rid then none else table.relayBidir.find other :=
  Table.find_remove _ _ _

theorem Wf.withoutLoser {rc : RelayConn Conn} (h : Wf me table)
    (hfind : table.relayConns.find rid = some rc) (hboth : rc.Both) :
    Wf me (table.withoutLoser rid rc) := by
  intro other
  by_cases hother : other = rid
  · subst hother
    have hentry := h other
    have hsound : rc.closeRedundant.1.Sound := hboth.sound_close (hentry.sound rc hfind).conn_eq _ _
    refine EntryWf.of_find (by rw [find_withoutLoser, if_pos rfl]) hsound ?_ ?_
    · rw [RelayConn.closeRedundant, RelayConn.inboundWins_close]
      exact hentry.wins rc hfind
    · rw [find_bidir_withoutLoser, if_pos rfl]
      exact iff_of_false (by simp) (RelayConn.not_both_close _ _)
  · exact (h other).congr (by rw [find_withoutLoser, if_neg hother])
      (by rw [find_bidir_withoutLoser, if_neg hother])

theorem Wf.closeRedundant_loop {rids : List RouterID} (hnodup : rids.Nodup)
    {handled : Handled Conn} (h : Wf me handled.1)
    (hbidir : ∀ rid ∈ rids, (handled.1.relayBidir.find rid).isSome) :
    ∃ after, rids.foldlM ConnTable.closeRedundantOne handled = some after ∧ Wf me after.1 := by
  induction rids generalizing handled with
  | nil => exact ⟨handled, rfl, h⟩
  | cons rid rids ih =>
    obtain ⟨hfresh, hnodup⟩ := List.nodup_cons.mp hnodup
    obtain ⟨rc, hfind, hboth, hone⟩ := h.closeRedundantOne (hbidir rid List.mem_cons_self)
    have hbidir' : ∀ other ∈ rids,
        ((handled.1.withoutLoser rid rc).relayBidir.find other).isSome := by
      intro other hmem
      have hne : other ≠ rid := by
        rintro rfl
        exact hfresh hmem
      rw [find_bidir_withoutLoser, if_neg hne]
      exact hbidir other (List.mem_cons_of_mem _ hmem)
    obtain ⟨after, hrest, hwf⟩ := @ih hnodup
      (handled.1.withoutLoser rid rc, handled.2 ++ rc.closeRedundant.2)
      (h.withoutLoser hfind hboth) hbidir'
    exact ⟨after, by rw [List.foldlM_cons, hone]; exact hrest, hwf⟩

theorem nodup_lingered (table : ConnTable Conn) (now : Nat) : (table.lingered now).Nodup :=
  List.Nodup.sublist (List.filter_sublist.map Sigma.fst) table.relayBidir.nodupKeys

theorem isSome_of_mem_lingered {now : Nat} (h : rid ∈ table.lingered now) :
    (table.relayBidir.find rid).isSome := by
  obtain ⟨⟨key, since⟩, hmem, rfl⟩ := List.mem_map.mp h
  rw [Table.find_eq_some_iff.mpr (List.mem_of_mem_filter hmem)]
  rfl

theorem Wf.closeRedundant (h : Wf me table) (now : Nat) :
    ∃ handled, table.closeRedundant now = some handled ∧ Wf me handled.1 :=
  Wf.closeRedundant_loop (table.nodup_lingered now) h (fun _ => isSome_of_mem_lingered)

theorem Wf.dropDeregged (h : Wf me handled.1) (now : Nat)
    (registered : RouterID → Bool) (dead : Sigma fun _ : RouterID => Nat) :
    Wf me (dropDeregged now registered handled dead).1 := by
  have hforgotten : Wf me { handled.1 with
      pendingDead := handled.1.pendingDead.remove dead.1 } :=
    fun rid => (h rid).congr rfl rfl
  unfold ConnTable.dropDeregged
  dsimp only
  split
  · exact h
  split
  · exact hforgotten
  cases handled.1.relayConns.find dead.1 with
  | none => exact hforgotten
  | some rc =>
    intro other
    by_cases hother : other = dead.1
    · exact EntryWf.of_none (by rw [Table.find_remove, if_pos hother])
        (by rw [Table.find_remove, if_pos hother])
    · exact (h other).congr (by rw [Table.find_remove, if_neg hother])
        (by rw [Table.find_remove, if_neg hother])

theorem Wf.checkDereggedConns (h : Wf me table) (now : Nat) (registered : RouterID → Bool) :
    Wf me (table.checkDereggedConns now registered).1 := by
  have hloop : ∀ (dead : List (Sigma fun _ : RouterID => Nat)) (handled : Handled Conn),
      Wf me handled.1 →
        Wf me (dead.foldl (ConnTable.dropDeregged now registered) handled).1 := by
    intro dead
    induction dead with
    | nil => exact fun handled hwf => hwf
    | cons entry dead ih => exact fun handled hwf => ih _ (hwf.dropDeregged now registered entry)
  intro rid
  exact (hloop table.pendingDead.entries (table, []) h rid).congr rfl rfl

variable [DecidableEq Conn]

theorem Wf.handle (h : Wf me table) (event : ConnEvent Conn) :
    ∃ handled, table.handle me event = some handled ∧ Wf me handled.1 := by
  cases event with
  | connect rid conn =>
    refine ⟨_, rfl, ?_⟩
    unfold ConnTable.connect
    dsimp only
    split
    · exact h
    · exact h.with_pending _
  | inbound rid conn now => exact h.connected rid conn true now
  | outbound rid now => exact h.onOutboundConn rid now
  | closed rid conn negotiated => exact ⟨_, rfl, h.onConnClosed rid conn negotiated⟩
  | redundancyTimer now => exact h.closeRedundant now
  | deregTimer now registered => exact ⟨_, rfl, h.checkDereggedConns now registered⟩

theorem Wf.handleAll (h : Wf me table) (events : List (ConnEvent Conn)) :
    ∃ after, table.handleAll me events = some after ∧ Wf me after := by
  induction events generalizing table with
  | nil => exact ⟨table, rfl, h⟩
  | cons event events ih =>
    obtain ⟨handled, hhandle, hwf⟩ := h.handle event
    obtain ⟨after, hafter, hwf'⟩ := ih hwf
    refine ⟨after, ?_, hwf'⟩
    rw [ConnTable.handleAll, List.foldlM_cons, hhandle]
    exact hafter

/-- After every sequence of events no assertion has failed, every entry has a connection and
prefers the right one, and `relay_bidir` has exactly the relays with both directions. -/
theorem handleAll_invariant (me : RouterID) (events : List (ConnEvent Conn)) :
    ∃ table, start.handleAll me events = some table ∧
      (∀ rid rc, table.relayConns.find rid = some rc →
        (rc.inbound.isSome ∨ rc.outbound.isSome) ∧ rc.conn.isSome ∧
          (rc.conn = rc.inbound ∨ rc.conn = rc.outbound) ∧
          (rc.inbound.isSome → rc.outbound.isSome →
            rc.conn = if ridLt rid me then rc.inbound else rc.outbound)) ∧
      (∀ rid, (table.relayBidir.find rid).isSome ↔
        ∃ rc, table.relayConns.find rid = some rc ∧ rc.inbound.isSome ∧ rc.outbound.isSome) ∧
      ∀ now, (table.closeRedundant now).isSome := by
  obtain ⟨table, hrun, hwf⟩ := (wf_start me).handleAll events
  refine ⟨table, hrun, ?_, ?_, ?_⟩
  · intro rid rc hfind
    rw [← (hwf rid).wins rc hfind]
    exact ((hwf rid).sound rc hfind).spec
  · exact fun rid => (hwf rid).bidir
  · intro now
    obtain ⟨handled, hclosed, _⟩ := hwf.closeRedundant now
    rw [hclosed]
    rfl

def ridOf (byte : UInt8) : RouterID :=
  FixedBytes.ofBytes 32 [byte]

theorem handleAll_invariant_replaced : ∃ table, start.handleAll (ridOf 1)
        [.connect (ridOf 2) 0, .inbound (ridOf 2) 1 0, .inbound (ridOf 2) 2 10,
          .outbound (ridOf 2) 20, .redundancyTimer 20020, .closed (ridOf 2) 1 true] = some table ∧
      (table.closeRedundant 50000).isSome := by
  obtain ⟨table, hrun, -, -, hassert⟩ := handleAll_invariant (ridOf 1)
    [.connect (ridOf 2) 0, .inbound (ridOf 2) 1 0, .inbound (ridOf 2) 2 10,
      .outbound (ridOf 2) 20, .redundancyTimer 20020, .closed (ridOf 2) 1 true]
  exact ⟨table, hrun, hassert 50000⟩

end ConnTable
end SessionRouter.Link

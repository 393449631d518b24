import SessionRouter.Lib.Table
import SessionRouter.Contact.RelayContact

/-!
# Hops and paths
-/

namespace SessionRouter

open Lib

abbrev ConnectionID := Nat

inductive NextHop where
  | router (id : RouterID)
  | connection (id : ConnectionID)
  deriving DecidableEq

/-- One hop of a path. -/
structure TransitHop where
  txid : HopID
  rxid : HopID
  upstream : RouterID
  routerId : RouterID
  downstream : NextHop
  sharedSecret : SymmKey
  xorNonce : SymmNonce
  expiry : Int
  version : UInt8
  terminalHop : Bool
  deriving DecidableEq

namespace TransitHop

def nextId (hop : TransitHop) (h : HopID) : NextHop × HopID :=
  if h = hop.rxid then (.router hop.upstream, hop.txid)
  else (hop.downstream, hop.rxid)

def isExpired (hop : TransitHop) (now : Int) : Bool :=
  hop.expiry ≤ now

@[simp] theorem nextId_rxid (hop : TransitHop) :
    hop.nextId hop.rxid = (.router hop.upstream, hop.txid) := by
  simp [nextId]

theorem nextId_txid {hop : TransitHop} (h : hop.txid ≠ hop.rxid) :
    hop.nextId hop.txid = (hop.downstream, hop.rxid) := by
  simp [nextId, h]

end TransitHop

/-- A client's path. -/
structure Path where
  pathLogId : Nat
  hops : List TransitHop
  hops_ne_nil : hops ≠ []

namespace Path

def edge (path : Path) : TransitHop :=
  path.hops.head path.hops_ne_nil

def terminus (path : Path) : TransitHop :=
  path.hops.getLast path.hops_ne_nil

end Path

def HopChain : List TransitHop → Prop
  | [] => False
  | [last] => last.terminalHop = true ∧ last.txid = last.rxid ∧ last.upstream = last.routerId
  | hop :: next :: rest =>
    hop.terminalHop = false ∧ hop.txid ≠ hop.rxid ∧ hop.txid = next.rxid ∧
      hop.upstream = next.routerId ∧ HopChain (next :: rest)

theorem HopChain.getLast {hops : List TransitHop} (hchain : HopChain hops) (hne : hops ≠ []) :
    (hops.getLast hne).terminalHop = true ∧
      (hops.getLast hne).txid = (hops.getLast hne).rxid := by
  induction hops with
  | nil => exact absurd rfl hne
  | cons hop rest ih =>
    cases rest with
    | nil => exact ⟨hchain.1, hchain.2.1⟩
    | cons next rest =>
      rw [List.getLast_cons (List.cons_ne_nil _ _)]
      exact ih hchain.2.2.2.2 _

def sysMsMin : Int := -9223372036854775808

def RelayContact.frameVersion (rc : RelayContact) : UInt8 :=
  if rc.supportsBuildFrameV1 then 1 else 0

def initHops (ids : Nat → HopID) :
    Nat → HopID → NextHop → List RelayContact → List TransitHop
  | _, _, _, [] => []
  | _, rxid, downstream, [contact] =>
    -- the pivot's transmit id is not useful, so it repeats the receive id
    [{ txid := rxid, rxid := rxid, upstream := contact.routerId,
       routerId := contact.routerId, downstream := downstream,
       sharedSecret := FixedBytes.zero 32, xorNonce := FixedBytes.zero 24,
       expiry := sysMsMin, version := contact.frameVersion, terminalHop := true }]
  | drawn, rxid, downstream, contact :: next :: rest =>
    { txid := ids drawn, rxid := rxid, upstream := next.routerId,
      routerId := contact.routerId, downstream := downstream,
      sharedSecret := FixedBytes.zero 32, xorNonce := FixedBytes.zero 24,
      expiry := sysMsMin, version := contact.frameVersion, terminalHop := false } ::
    initHops ids (drawn + 1) (ids drawn) (.router contact.routerId) (next :: rest)

theorem initHops_length (ids : Nat → HopID) (drawn : Nat) (rxid : HopID)
    (downstream : NextHop) (contacts : List RelayContact) :
    (initHops ids drawn rxid downstream contacts).length = contacts.length := by
  induction contacts generalizing drawn rxid downstream with
  | nil => rfl
  | cons contact rest ih =>
    cases rest with
    | nil => rfl
    | cons next rest =>
      simp only [initHops, List.length_cons]
      rw [ih]
      simp

theorem initHops_hopChain (ids : Nat → HopID) (drawn : Nat) (downstream : NextHop)
    (contacts : List RelayContact) (hcontacts : contacts ≠ [])
    (hids : ∀ i, drawn ≤ i → i + 1 < drawn + contacts.length → ids (i + 1) ≠ ids i) :
    HopChain (initHops ids (drawn + 1) (ids drawn) downstream contacts) := by
  induction contacts generalizing drawn downstream with
  | nil => exact absurd rfl hcontacts
  | cons contact rest ih =>
    cases rest with
    | nil => exact ⟨rfl, rfl, rfl⟩
    | cons next rest =>
      have hfresh : ids (drawn + 1) ≠ ids drawn :=
        hids drawn (Nat.le_refl _) (by simp only [List.length_cons]; omega)
      have hchain := ih (drawn + 1) (.router contact.routerId) (List.cons_ne_nil _ _) (by
        intro i hlower hupper
        refine hids i (by omega) ?_
        simp only [List.length_cons] at hupper ⊢
        omega)
      cases rest with
      | nil | cons => exact ⟨rfl, hfresh, rfl, rfl, hchain⟩

structure TransitHopPtr where
  addr : Nat
  hop : TransitHop
  deriving DecidableEq

structure PathContext where
  pathMap : Table HopID Path
  transitHops : Table HopID TransitHopPtr
  deadPaths : List Nat
  deadHops : List Nat

namespace PathContext

def empty : PathContext :=
  { pathMap := ∅, transitHops := ∅, deadPaths := [], deadHops := [] }

def getPath (ctx : PathContext) (hopId : HopID) : Option Path :=
  ctx.pathMap.find hopId

def getTransitHop (ctx : PathContext) (hopId : HopID) : Option TransitHopPtr :=
  ctx.transitHops.find hopId

def hasTransitHopId (ctx : PathContext) (hopId : HopID) : Bool :=
  (ctx.transitHops.find hopId).isSome

def hasTransitHop (ctx : PathContext) (hop : TransitHop) : Bool :=
  ctx.hasTransitHopId hop.rxid || ctx.hasTransitHopId hop.txid

def addPath (ctx : PathContext) (path : Path) : PathContext :=
  { ctx with pathMap := ctx.pathMap.emplace path.edge.rxid path }

def dropPath (ctx : PathContext) (path : Path) : PathContext :=
  match ctx.pathMap.find path.edge.rxid with
  | none => ctx
  | some stored =>
    { ctx with
      pathMap := ctx.pathMap.remove path.edge.rxid
      deadPaths := stored.pathLogId :: ctx.deadPaths }

def putTransitHop (ctx : PathContext) (ptr : TransitHopPtr) : PathContext :=
  { ctx with
    transitHops := (ctx.transitHops.emplace ptr.hop.rxid ptr).emplace ptr.hop.txid ptr }

def dropTransitHopId (ctx : PathContext) (h : HopID) : PathContext :=
  match ctx.transitHops.find h with
  | none => ctx
  | some stored =>
    { ctx with
      transitHops := ctx.transitHops.remove h
      deadHops := stored.addr :: ctx.deadHops }

def dropTransitHop (ctx : PathContext) (hop : TransitHop) : PathContext :=
  [hop.txid, hop.rxid].foldl dropTransitHopId ctx

def expireHops (ctx : PathContext) (now : Int) : PathContext :=
  { ctx with
    transitHops := ctx.transitHops.eraseIf fun _ ptr => ptr.hop.isExpired now
    deadHops :=
      ((ctx.transitHops.values.filter fun ptr => ptr.hop.isExpired now).map
        TransitHopPtr.addr) ++ ctx.deadHops }

variable (ctx : PathContext)

theorem getTransitHop_putTransitHop (ptr : TransitHopPtr) (id : HopID) :
    (ctx.putTransitHop ptr).getTransitHop id =
      (ctx.getTransitHop id).or
        (if id = ptr.hop.rxid ∨ id = ptr.hop.txid then some ptr else none) := by
  unfold putTransitHop getTransitHop
  rw [Table.find_emplace, Table.find_emplace, Table.find_emplace]
  cases hfind : ctx.transitHops.find id with
  | some stored => grind
  | none => grind

theorem getTransitHop_dropTransitHopId (h id : HopID) :
    (ctx.dropTransitHopId h).getTransitHop id =
      if id = h then none else ctx.getTransitHop id := by
  unfold dropTransitHopId getTransitHop
  cases hfind : ctx.transitHops.find h with
  | none =>
    by_cases hid : id = h
    · rw [if_pos hid, hid, hfind]
    · rw [if_neg hid]
  | some stored => exact Table.find_remove ctx.transitHops h id

theorem getTransitHop_expireHops (now : Int) (id : HopID) :
    (ctx.expireHops now).getTransitHop id =
      (ctx.getTransitHop id).filter fun ptr => !ptr.hop.isExpired now :=
  Table.find_eraseIf _ _ id

theorem getPath_addPath (path : Path) (hopId : HopID) :
    (ctx.addPath path).getPath hopId =
      (ctx.getPath hopId).or (if hopId = path.edge.rxid then some path else none) := by
  unfold addPath getPath
  rw [Table.find_emplace]
  cases hfind : ctx.pathMap.find hopId with
  | some stored => grind
  | none => grind

theorem getPath_dropPath (path : Path) (hopId : HopID) :
    (ctx.dropPath path).getPath hopId =
      if hopId = path.edge.rxid then none else ctx.getPath hopId := by
  unfold dropPath getPath
  cases hfind : ctx.pathMap.find path.edge.rxid with
  | none =>
    by_cases hid : hopId = path.edge.rxid
    · rw [if_pos hid, hid, hfind]
    · rw [if_neg hid]
  | some stored => exact Table.find_remove ctx.pathMap _ hopId

end PathContext
end SessionRouter

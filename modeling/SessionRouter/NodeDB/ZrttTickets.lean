import SessionRouter.Crypto.Cipher
import SessionRouter.Lib.Int64
import SessionRouter.Lib.Run
import SessionRouter.Lib.Table

/-!
# The store of 0-RTT tickets

For every relay a short queue of tickets is kept, a set of relays whose queue has changed, and a
file for each saved queue.  Expiries are whole seconds; they are compared with a clock of
nanoseconds in signed 64-bit words, where an expiry behind the year 2262 wraps.  `Keeps` says what
the store promises over a run of calls, in terms of the true expiries; `keeps_iff` says in which
runs it keeps that.
-/

namespace SessionRouter.NodeDB

open Lib

def max0rttTickets : Nat := 2

structure Ticket where
  data : Bytes
  expiry : Int
deriving DecidableEq

/-- The expiry as the code compares it, in nanoseconds. -/
def Ticket.endsAt (ticket : Ticket) : Int :=
  int64 (ticket.expiry * 1000000000)

/-- The expiry the ticket was given, in nanoseconds. -/
def Ticket.expiresAt (ticket : Ticket) : Int :=
  ticket.expiry * 1000000000

structure ZrttFile where
  rid : RouterID
  relay : Option RouterID
  tickets : List Ticket
deriving DecidableEq

structure ZrttStore where
  tickets : Table RouterID (List Ticket)
  dirty : List RouterID
  disk : Table RouterID ZrttFile

structure ZrttIdentity where
  id : RouterID
  isServiceNode : Bool

def makeRoom : List Ticket → List Ticket
  | [] => []
  | ticket :: tickets =>
    if max0rttTickets ≤ (ticket :: tickets).length then makeRoom tickets else ticket :: tickets

def dropExpired (now : Int) (tickets : List Ticket) : List Ticket :=
  tickets.dropWhile fun ticket => ticket.endsAt < now

namespace ZrttStore

def ticketsFor (store : ZrttStore) (rid : RouterID) : List Ticket :=
  (store.tickets.find rid).getD []

def store0rtt (store : ZrttStore) (rid : RouterID) (ticket : Ticket) : ZrttStore :=
  { store with
    tickets := store.tickets.insertOrAssign rid (makeRoom (store.ticketsFor rid) ++ [ticket])
    dirty := store.dirty.insert rid }

def extract0rtt (store : ZrttStore) (rid : RouterID) (now : Int) : ZrttStore × Option Ticket :=
  match store.tickets.find rid with
  | none => (store, none)
  | some tickets =>
    let left := dropExpired now tickets
    ({ store with
      tickets := store.tickets.insertOrAssign rid left.tail
      dirty := store.dirty.insert rid }, left.head?)

def saveOne (identity : ZrttIdentity) (now : Int) (store : ZrttStore) (rid : RouterID) :
    ZrttStore :=
  match store.tickets.find rid with
  | none => { store with disk := store.disk.remove rid }
  | some tickets =>
    match dropExpired now tickets with
    | [] =>
      { store with
        tickets := store.tickets.remove rid
        disk := store.disk.remove rid }
    | ticket :: left =>
      { store with
        tickets := store.tickets.insertOrAssign rid (ticket :: left)
        disk := store.disk.insertOrAssign rid
          ⟨rid, if identity.isServiceNode then some identity.id else none, ticket :: left⟩ }

def save0rtt (identity : ZrttIdentity) (store : ZrttStore) (now : Int) : ZrttStore :=
  { store.dirty.foldl (saveOne identity now) store with dirty := [] }

end ZrttStore

def ZrttIdentity.accepts (identity : ZrttIdentity) : Option RouterID → Bool
  | some relay => identity.isServiceNode && relay = identity.id
  | none => !identity.isServiceNode

def loadTickets (identity : ZrttIdentity) (now : Int) (filename : RouterID) (file : ZrttFile) :
    Option (List Ticket) :=
  if file.rid ≠ filename then none
  else if !identity.accepts file.relay then none
  else
    match file.tickets.filter fun ticket => now < ticket.endsAt with
    | [] => none
    | ticket :: tickets => some (ticket :: tickets)

namespace ZrttStore

def loadFile (identity : ZrttIdentity) (now : Int) (store : ZrttStore)
    (entry : Sigma fun _ : RouterID => ZrttFile) : ZrttStore :=
  match loadTickets identity now entry.1 entry.2 with
  | none => { store with disk := store.disk.remove entry.1 }
  | some tickets => { store with tickets := store.tickets.insertOrAssign entry.1 tickets }

def loadFromDisk (identity : ZrttIdentity) (disk : Table RouterID ZrttFile) (now : Int) :
    ZrttStore :=
  disk.entries.foldl (loadFile identity now) ⟨∅, [], disk⟩

end ZrttStore

inductive ZrttOp where
  | store (rid : RouterID) (ticket : Ticket)
  | extract (rid : RouterID)
  | save
deriving DecidableEq

structure ZrttCall where
  now : Int
  op : ZrttOp
deriving DecidableEq

namespace ZrttStore

def step (identity : ZrttIdentity) (store : ZrttStore) (call : ZrttCall) : ZrttStore :=
  match call.op with
  | .store rid ticket => store.store0rtt rid ticket
  | .extract rid => (store.extract0rtt rid call.now).1
  | .save => store.save0rtt identity call.now

def extracted (store : ZrttStore) (call : ZrttCall) : Option (RouterID × Ticket) :=
  match call.op with
  | .extract rid => (store.extract0rtt rid call.now).2.map fun ticket => (rid, ticket)
  | .store _ _ => none
  | .save => none

end ZrttStore
theorem length_makeRoom_lt (tickets : List Ticket) :
    (makeRoom tickets).length < max0rttTickets := by
  induction tickets with
  | nil => decide
  | cons ticket tickets ih =>
    rw [makeRoom]
    split
    · exact ih
    · next hroom => exact Nat.lt_of_not_le hroom

theorem makeRoom_sublist (tickets : List Ticket) : (makeRoom tickets).Sublist tickets := by
  induction tickets with
  | nil => exact List.Sublist.refl []
  | cons ticket tickets ih =>
    rw [makeRoom]
    split
    · exact ih.cons ticket
    · exact List.Sublist.refl _

theorem dropExpired_sublist (now : Int) (tickets : List Ticket) :
    (dropExpired now tickets).Sublist tickets :=
  List.dropWhile_sublist _

theorem head?_dropExpired (now : Int) (tickets : List Ticket) :
    (dropExpired now tickets).head? = tickets.find? fun ticket => now ≤ ticket.endsAt := by
  induction tickets with
  | nil => rfl
  | cons ticket tickets ih =>
    rw [dropExpired, List.dropWhile_cons, List.find?_cons]
    by_cases hexpired : ticket.endsAt < now
    · rw [decide_eq_true hexpired, if_pos rfl, decide_eq_false (not_le.mpr hexpired)]
      exact ih
    · rw [decide_eq_false hexpired, if_neg Bool.false_ne_true,
        decide_eq_true (not_lt.mp hexpired)]
      rfl

def unexpired (now : Int) (tickets : List Ticket) : List Ticket :=
  tickets.filter fun ticket => now < ticket.endsAt

theorem unexpired_unexpired {now later : Int} (h : now ≤ later) (tickets : List Ticket) :
    unexpired later (unexpired now tickets) = unexpired later tickets := by
  rw [unexpired, unexpired, List.filter_filter, unexpired]
  refine List.filter_congr fun ticket _ => ?_
  rw [Bool.and_eq_left_iff_imp]
  intro hlater
  rw [decide_eq_true_eq] at hlater ⊢
  omega

theorem loadTickets_getD {identity : ZrttIdentity} {now : Int} {filename : RouterID}
    {file : ZrttFile} (hrid : file.rid = filename) (haccepts : identity.accepts file.relay = true) :
    (loadTickets identity now filename file).getD [] = unexpired now file.tickets := by
  rw [loadTickets, if_neg (not_not_intro hrid), haccepts, unexpired]
  simp only [Bool.not_true, Bool.false_eq_true, if_false]
  cases file.tickets.filter fun ticket => now < ticket.endsAt with
  | nil => rfl
  | cons ticket tickets => rfl

theorem loadTickets_eq_some {identity : ZrttIdentity} {now : Int} {filename : RouterID}
    {file : ZrttFile} {tickets : List Ticket}
    (h : loadTickets identity now filename file = some tickets) :
    file.rid = filename ∧ identity.accepts file.relay = true ∧
      tickets = unexpired now file.tickets := by
  have hrid : file.rid = filename := by
    by_contra hne
    rw [loadTickets, if_pos hne] at h
    cases h
  have haccepts : identity.accepts file.relay = true := by
    by_contra hnot
    rw [loadTickets, if_neg (not_not_intro hrid), eq_false_of_ne_true hnot, Bool.not_false,
      if_pos rfl] at h
    cases h
  refine ⟨hrid, haccepts, ?_⟩
  rw [← loadTickets_getD hrid haccepts, h, Option.getD_some]

namespace ZrttStore

section

variable {identity : ZrttIdentity} {now : Int}

theorem loadFile_other {store : ZrttStore} {entry : Sigma fun _ : RouterID => ZrttFile}
    {rid : RouterID} (h : rid ≠ entry.1) :
    (store.loadFile identity now entry).tickets.find rid = store.tickets.find rid ∧
      (store.loadFile identity now entry).disk.find rid = store.disk.find rid := by
  rw [loadFile]
  cases loadTickets identity now entry.1 entry.2 with
  | none => exact ⟨rfl, by rw [Table.find_remove, if_neg h]⟩
  | some tickets => exact ⟨by rw [Table.find_insertOrAssign, if_neg h], rfl⟩

theorem foldl_loadFile_other {entries : List (Sigma fun _ : RouterID => ZrttFile)}
    {store : ZrttStore} {rid : RouterID} (h : ∀ entry ∈ entries, rid ≠ entry.1) :
    (entries.foldl (loadFile identity now) store).tickets.find rid = store.tickets.find rid ∧
      (entries.foldl (loadFile identity now) store).disk.find rid = store.disk.find rid := by
  induction entries generalizing store with
  | nil => exact ⟨rfl, rfl⟩
  | cons entry entries ih =>
    obtain ⟨hentry, hentries⟩ := List.forall_mem_cons.mp h
    obtain ⟨htickets, hdisk⟩ := @ih (store.loadFile identity now entry) hentries
    obtain ⟨htickets', hdisk'⟩ := @loadFile_other identity now store entry rid hentry
    exact ⟨htickets.trans htickets', hdisk.trans hdisk'⟩

theorem foldl_loadFile_mem {entries : List (Sigma fun _ : RouterID => ZrttFile)}
    (hkeys : (entries.map fun entry => entry.1).Nodup) {store : ZrttStore} {rid : RouterID}
    {file : ZrttFile} (hmem : ⟨rid, file⟩ ∈ entries) (hnew : store.tickets.find rid = none) :
    (entries.foldl (loadFile identity now) store).tickets.find rid =
        loadTickets identity now rid file ∧
      (entries.foldl (loadFile identity now) store).disk.find rid =
        (loadTickets identity now rid file).bind fun _ => store.disk.find rid := by
  induction entries generalizing store with
  | nil => exact absurd hmem List.not_mem_nil
  | cons entry entries ih =>
    obtain ⟨hentry, hothers⟩ := List.nodup_cons.mp hkeys
    rw [List.foldl_cons]
    by_cases hrid : rid = entry.1
    · -- the file is the first one, and there is no other for the relay
      obtain rfl : entry = ⟨rid, file⟩ := by
        rcases List.mem_cons.mp hmem with hfirst | hlater
        · exact hfirst.symm
        · exact absurd (List.mem_map.mpr ⟨_, hlater, hrid⟩) hentry
      have hrest : ∀ other ∈ entries, rid ≠ other.1 := by
        rintro other hother rfl
        exact hentry (List.mem_map.mpr ⟨other, hother, rfl⟩)
      obtain ⟨htickets, hdisk⟩ :=
        @foldl_loadFile_other identity now entries (store.loadFile identity now ⟨rid, file⟩) rid
          hrest
      rw [htickets, hdisk, loadFile]
      cases loadTickets identity now rid file with
      | none => exact ⟨hnew, by rw [Table.find_remove, if_pos rfl]; rfl⟩
      | some tickets => exact ⟨by rw [Table.find_insertOrAssign, if_pos rfl], rfl⟩
    · have hlater : ⟨rid, file⟩ ∈ entries := by
        rcases List.mem_cons.mp hmem with hfirst | hlater
        · exact absurd (congrArg Sigma.fst hfirst) hrid
        · exact hlater
      obtain ⟨hsame, hsameDisk⟩ := @loadFile_other identity now store entry rid hrid
      obtain ⟨htickets, hdisk⟩ := ih hothers hlater (hsame.trans hnew)
      exact ⟨htickets, hdisk.trans (by rw [hsameDisk])⟩

theorem find_loadFromDisk (disk : Table RouterID ZrttFile) (rid : RouterID) :
    (loadFromDisk identity disk now).tickets.find rid =
        (disk.find rid).bind (loadTickets identity now rid) ∧
      (loadFromDisk identity disk now).disk.find rid =
        (disk.find rid).filter fun file => (loadTickets identity now rid file).isSome := by
  rw [loadFromDisk]
  cases hfind : disk.find rid with
  | none =>
    have habsent : ∀ entry ∈ disk.entries, rid ≠ entry.1 := by
      rintro entry hentry rfl
      rw [Table.find_eq_some_iff.mpr hentry] at hfind
      cases hfind
    obtain ⟨htickets, hdisk⟩ := @foldl_loadFile_other identity now disk.entries ⟨∅, [], disk⟩ rid
      habsent
    exact ⟨htickets, hdisk.trans hfind⟩
  | some file =>
    obtain ⟨htickets, hdisk⟩ := @foldl_loadFile_mem identity now disk.entries disk.nodupKeys
      ⟨∅, [], disk⟩ rid file (Table.find_eq_some_iff.mp hfind) rfl
    refine ⟨htickets, hdisk.trans ?_⟩
    rw [hfind]
    cases hload : loadTickets identity now rid file with
    | none | some => simp [Option.filter, hload]

end

def Synced (identity : ZrttIdentity) (now : Int) (store : ZrttStore) (rid : RouterID) : Prop :=
  ∀ later, now ≤ later → ((store.disk.find rid).bind (loadTickets identity later rid)).getD [] =
    unexpired later (store.ticketsFor rid)

structure Wf (identity : ZrttIdentity) (now : Int) (store : ZrttStore) : Prop where
  bounded : ∀ rid, (store.ticketsFor rid).length ≤ max0rttTickets
  synced : ∀ rid, rid ∉ store.dirty → Synced identity now store rid

/-- No expiry in the store is too late for the clock. -/
def Representable (store : ZrttStore) : Prop :=
  ∀ rid, ∀ ticket ∈ store.ticketsFor rid, FitsInt64 ticket.expiresAt

section

variable {identity : ZrttIdentity} {now : Int} {store : ZrttStore}

theorem ticketsFor_loadFromDisk (disk : Table RouterID ZrttFile) (rid : RouterID) :
    (loadFromDisk identity disk now).ticketsFor rid =
      ((disk.find rid).bind (loadTickets identity now rid)).getD [] := by
  rw [ticketsFor, (find_loadFromDisk disk rid).1]

theorem Wf.mono (h : Wf identity now store) {later : Int} (hle : now ≤ later) :
    Wf identity later store where
  bounded := h.bounded
  synced rid hclean latest hlatest := h.synced rid hclean latest (le_trans hle hlatest)

theorem wf_loadFromDisk {disk : Table RouterID ZrttFile}
    (hdisk : ∀ rid file, disk.find rid = some file → file.tickets.length ≤ max0rttTickets) :
    Wf identity now (loadFromDisk identity disk now) where
  bounded rid := by
    rw [ticketsFor_loadFromDisk]
    cases hfind : disk.find rid with
    | none => exact Nat.zero_le _
    | some file =>
      rw [Option.bind_some]
      cases hload : loadTickets identity now rid file with
      | none => exact Nat.zero_le _
      | some tickets =>
        obtain ⟨-, -, rfl⟩ := loadTickets_eq_some hload
        exact le_trans (List.length_filter_le _ _) (hdisk rid file hfind)
  synced rid _ later hlater := by
    rw [ticketsFor_loadFromDisk, (find_loadFromDisk disk rid).2]
    cases hfind : disk.find rid with
    | none => rfl
    | some file =>
      rw [Option.bind_some]
      cases hload : loadTickets identity now rid file with
      | none => simp [Option.filter, hload, unexpired]
      | some tickets =>
        obtain ⟨hrid, haccepts, rfl⟩ := loadTickets_eq_some hload
        simp only [Option.filter, hload, Option.isSome_some, if_true, Option.bind_some]
        rw [loadTickets_getD hrid haccepts, Option.getD_some, unexpired_unexpired hlater]

theorem representable_loadFromDisk {disk : Table RouterID ZrttFile}
    (hdisk : ∀ rid file, disk.find rid = some file →
      ∀ ticket ∈ file.tickets, FitsInt64 ticket.expiresAt) :
    Representable (loadFromDisk identity disk now) := by
  intro rid ticket hmem
  rw [ticketsFor_loadFromDisk] at hmem
  cases hfind : disk.find rid with
  | none =>
    rw [hfind] at hmem
    exact absurd hmem List.not_mem_nil
  | some file =>
    rw [hfind, Option.bind_some] at hmem
    cases hload : loadTickets identity now rid file with
    | none =>
      rw [hload] at hmem
      exact absurd hmem List.not_mem_nil
    | some tickets =>
      obtain ⟨-, -, rfl⟩ := loadTickets_eq_some hload
      rw [hload, Option.getD_some] at hmem
      exact hdisk rid file hfind ticket (List.mem_of_mem_filter hmem)

/-! ### Storing and extracting -/

section

variable (h : Wf identity now store)

include h

theorem Wf.touch {rid : RouterID} {tickets : List Ticket}
    (hlength : tickets.length ≤ max0rttTickets) :
    Wf identity now { store with
      tickets := store.tickets.insertOrAssign rid tickets
      dirty := store.dirty.insert rid } where
  bounded other := by
    rw [ticketsFor, Table.find_insertOrAssign]
    split
    · exact hlength
    · exact h.bounded other
  synced other hclean later hlater := by
    have hclean' : other ∉ store.dirty ∧ other ≠ rid := by
      refine ⟨fun hmem => hclean (List.mem_insert_of_mem hmem), ?_⟩
      rintro rfl
      exact hclean List.mem_insert_self
    rw [ticketsFor, Table.find_insertOrAssign, if_neg hclean'.2]
    exact h.synced other hclean'.1 later hlater

theorem Wf.store0rtt (rid : RouterID) (ticket : Ticket) :
    Wf identity now (store.store0rtt rid ticket) := by
  refine h.touch ?_
  rw [List.length_append]
  exact length_makeRoom_lt _

theorem Wf.extract0rtt (rid : RouterID) (time : Int) :
    Wf identity now (store.extract0rtt rid time).1 := by
  rw [ZrttStore.extract0rtt]
  cases hfind : store.tickets.find rid with
  | none => exact h
  | some tickets =>
    refine h.touch ?_
    have hbounded := h.bounded rid
    rw [ticketsFor, hfind, Option.getD_some] at hbounded
    exact le_trans ((List.tail_sublist _).trans (dropExpired_sublist time tickets)).length_le
      hbounded

end

/-! ### Saving -/

theorem saveOne_other {rid other : RouterID} (h : other ≠ rid) :
    (store.saveOne identity now rid).ticketsFor other = store.ticketsFor other ∧
      (store.saveOne identity now rid).disk.find other = store.disk.find other := by
  rw [saveOne]
  cases store.tickets.find rid with
  | none => exact ⟨rfl, by rw [Table.find_remove, if_neg h]⟩
  | some tickets =>
    dsimp only
    cases dropExpired now tickets with
    | nil =>
      refine ⟨?_, by rw [Table.find_remove, if_neg h]⟩
      rw [ticketsFor, Table.find_remove, if_neg h, ticketsFor]
    | cons ticket left =>
      refine ⟨?_, by rw [Table.find_insertOrAssign, if_neg h]⟩
      rw [ticketsFor, Table.find_insertOrAssign, if_neg h, ticketsFor]

theorem accepts_own (identity : ZrttIdentity) :
    identity.accepts (if identity.isServiceNode then some identity.id else none) = true := by
  cases hrelay : identity.isServiceNode with
  | true | false => simp [ZrttIdentity.accepts, hrelay]

theorem saveOne_self (store : ZrttStore) (rid : RouterID) :
    (store.saveOne identity now rid).ticketsFor rid = dropExpired now (store.ticketsFor rid) ∧
      Synced identity now (store.saveOne identity now rid) rid := by
  rw [Synced, saveOne, ticketsFor, ticketsFor]
  cases hfind : store.tickets.find rid with
  | none =>
    rw [hfind, Table.find_remove, if_pos rfl]
    exact ⟨rfl, fun _ _ => rfl⟩
  | some tickets =>
    dsimp only
    rw [Option.getD_some]
    cases hleft : dropExpired now tickets with
    | nil =>
      dsimp only
      rw [Table.find_remove, if_pos rfl, Table.find_remove, if_pos rfl]
      exact ⟨rfl, fun _ _ => rfl⟩
    | cons ticket left =>
      rw [Table.find_insertOrAssign, if_pos rfl, Table.find_insertOrAssign, if_pos rfl]
      refine ⟨rfl, fun later _ => ?_⟩
      rw [Option.bind_some, Option.getD_some]
      exact loadTickets_getD rfl (accepts_own identity)

theorem foldl_saveOne_other {rids : List RouterID} {other : RouterID} (h : other ∉ rids) :
    (rids.foldl (saveOne identity now) store).ticketsFor other = store.ticketsFor other ∧
      (rids.foldl (saveOne identity now) store).disk.find other = store.disk.find other := by
  induction rids generalizing store with
  | nil => exact ⟨rfl, rfl⟩
  | cons rid rids ih =>
    obtain ⟨hrid, hrids⟩ := not_or.mp (mt List.mem_cons.mpr h)
    obtain ⟨htickets, hdisk⟩ := @ih (store.saveOne identity now rid) hrids
    obtain ⟨htickets', hdisk'⟩ := @saveOne_other identity now store rid other hrid
    exact ⟨htickets.trans htickets', hdisk.trans hdisk'⟩

theorem Synced.congr {other : ZrttStore} {rid : RouterID} (h : Synced identity now store rid)
    (htickets : other.ticketsFor rid = store.ticketsFor rid)
    (hdisk : other.disk.find rid = store.disk.find rid) : Synced identity now other rid := by
  intro later hlater
  rw [htickets, hdisk]
  exact h later hlater

theorem foldl_saveOne_synced {rids : List RouterID} {rid : RouterID} (h : rid ∈ rids) :
    Synced identity now (rids.foldl (saveOne identity now) store) rid := by
  induction rids generalizing store with
  | nil => exact absurd h List.not_mem_nil
  | cons first rids ih =>
    by_cases hlater : rid ∈ rids
    · exact ih hlater
    · obtain rfl : rid = first := (List.mem_cons.mp h).resolve_right hlater
      obtain ⟨htickets, hdisk⟩ :=
        @foldl_saveOne_other identity now (store.saveOne identity now rid) rids rid hlater
      exact (saveOne_self store rid).2.congr htickets hdisk

theorem foldl_saveOne_sublist (rids : List RouterID) (store : ZrttStore) (rid : RouterID) :
    ((rids.foldl (saveOne identity now) store).ticketsFor rid).Sublist (store.ticketsFor rid) := by
  induction rids generalizing store with
  | nil => exact List.Sublist.refl _
  | cons first rids ih =>
    refine (ih _).trans ?_
    by_cases hrid : rid = first
    · rw [hrid, (saveOne_self store first).1]
      exact dropExpired_sublist now _
    · rw [(saveOne_other hrid).1]

theorem ticketsFor_save0rtt (store : ZrttStore) (rid : RouterID) :
    ((store.save0rtt identity now).ticketsFor rid).Sublist (store.ticketsFor rid) :=
  foldl_saveOne_sublist store.dirty store rid

theorem Wf.save0rtt (h : Wf identity now store) :
    Wf identity now (store.save0rtt identity now) where
  bounded rid := le_trans (ticketsFor_save0rtt store rid).length_le (h.bounded rid)
  synced rid _ := by
    by_cases hdirty : rid ∈ store.dirty
    · exact foldl_saveOne_synced hdirty
    · obtain ⟨htickets, hdisk⟩ := @foldl_saveOne_other identity now store store.dirty rid hdirty
      exact (h.synced rid hdirty).congr htickets hdisk

theorem Wf.step (h : Wf identity now store) {call : ZrttCall} (hlater : now ≤ call.now) :
    Wf identity call.now (store.step identity call) := by
  have hnow := h.mono hlater
  rw [ZrttStore.step]
  cases call.op with
  | store rid ticket => exact hnow.store0rtt rid ticket
  | extract rid => exact hnow.extract0rtt rid call.now
  | save => exact hnow.save0rtt

def Clocked (start : Int) (calls : List ZrttCall) : Prop :=
  (start :: calls.map ZrttCall.now).Pairwise (· ≤ ·)

theorem Wf.run {calls : List ZrttCall} (h : Wf identity now store) (hclock : Clocked now calls)
    {later : Int} (hlater : ∀ time ∈ now :: calls.map ZrttCall.now, time ≤ later) :
    Wf identity later (Run.run (ZrttStore.step identity) store calls) := by
  induction calls generalizing now store with
  | nil => exact h.mono (hlater now List.mem_cons_self)
  | cons call calls ih =>
    obtain ⟨hfirst, hrest⟩ := List.pairwise_cons.mp hclock
    refine ih (h.step (hfirst call.now List.mem_cons_self)) hrest ?_
    exact fun time hmem => hlater time (List.mem_cons_of_mem now hmem)

def returned (identity : ZrttIdentity) : ZrttStore → List ZrttCall → List (RouterID × Ticket)
  | _, [] => []
  | store, call :: calls =>
    (store.extracted call).toList ++ returned identity (store.step identity call) calls

def storedBy (calls : List ZrttCall) : List (RouterID × Ticket) :=
  calls.filterMap fun call =>
    match call.op with
    | .store rid ticket => some (rid, ticket)
    | .extract _ => none
    | .save => none

theorem ticketsFor_store0rtt (store : ZrttStore) (other rid : RouterID) (new : Ticket) :
    (store.store0rtt other new).ticketsFor rid =
      if rid = other then makeRoom (store.ticketsFor rid) ++ [new] else store.ticketsFor rid := by
  rw [ticketsFor, store0rtt, Table.find_insertOrAssign]
  split
  · next heq => rw [heq, Option.getD_some]
  · rfl

theorem ticketsFor_extract0rtt (store : ZrttStore) (other rid : RouterID) (time : Int) :
    (store.extract0rtt other time).1.ticketsFor rid =
      if rid = other then (dropExpired time (store.ticketsFor rid)).tail
      else store.ticketsFor rid := by
  rw [extract0rtt]
  cases hfind : store.tickets.find other with
  | none =>
    dsimp only
    split
    · next heq =>
      rw [heq, ticketsFor, hfind]
      rfl
    · rfl
  | some tickets =>
    rw [ticketsFor, Table.find_insertOrAssign]
    split
    · next heq => rw [heq, ticketsFor, hfind, Option.getD_some, Option.getD_some]
    · rfl

theorem extract0rtt_snd (store : ZrttStore) (rid : RouterID) (time : Int) :
    (store.extract0rtt rid time).2 = (dropExpired time (store.ticketsFor rid)).head? := by
  rw [extract0rtt, ticketsFor]
  cases store.tickets.find rid with
  | none => rfl
  | some tickets => rfl

theorem count_map_pair (tickets : List Ticket) (other rid : RouterID) (ticket : Ticket) :
    (tickets.map fun found => (other, found)).count (rid, ticket) =
      if rid = other then tickets.count ticket else 0 := by
  split
  · next heq =>
    rw [heq]
    exact List.count_map_of_injective tickets _ (fun _ _ hsame => (Prod.mk.inj hsame).2) ticket
  · next hne =>
    rw [List.count_eq_zero, List.mem_map]
    rintro ⟨found, -, hsame⟩
    exact hne (Prod.mk.inj hsame).1.symm

theorem count_step (store : ZrttStore) (call : ZrttCall) (rid : RouterID) (ticket : Ticket) :
    (store.extracted call).toList.count (rid, ticket) +
        ((store.step identity call).ticketsFor rid).count ticket ≤
      (store.ticketsFor rid).count ticket + (storedBy [call]).count (rid, ticket) := by
  obtain ⟨time, op⟩ := call
  cases op with
  | store other new =>
    have hstored : (storedBy [⟨time, .store other new⟩]).count (rid, ticket) =
        if rid = other then [new].count ticket else 0 := count_map_pair [new] other rid ticket
    have hroom := (makeRoom_sublist (store.ticketsFor rid)).count_le ticket
    rw [hstored]
    simp only [extracted, step, Option.toList_none, List.count_nil, ticketsFor_store0rtt]
    split_ifs
    · rw [List.count_append]
      omega
    · omega
  | extract other =>
    have hextracted : (store.extracted ⟨time, .extract other⟩).toList.count (rid, ticket) =
        if rid = other then
          (dropExpired time (store.ticketsFor other)).head?.toList.count ticket else 0 := by
      rw [extracted]
      dsimp only
      rw [extract0rtt_snd, Option.toList_map]
      exact count_map_pair _ other rid ticket
    have hleft := (dropExpired_sublist time (store.ticketsFor rid)).count_le ticket
    have hparts (tickets : List Ticket) : tickets.count ticket =
        tickets.head?.toList.count ticket + tickets.tail.count ticket := by
      cases tickets with
      | nil => rfl
      | cons first rest => exact @List.count_append _ _ ticket [first] rest
    rw [hparts] at hleft
    rw [hextracted]
    simp only [step, ticketsFor_extract0rtt]
    split_ifs with hrid
    · subst hrid
      omega
    · omega
  | save =>
    have hless := (@ticketsFor_save0rtt identity time store rid).count_le ticket
    simp only [extracted, step, Option.toList_none, List.count_nil]
    omega

theorem storedBy_cons (call : ZrttCall) (calls : List ZrttCall) :
    storedBy (call :: calls) = storedBy [call] ++ storedBy calls := by
  rw [storedBy, ← List.singleton_append, List.filterMap_append]
  rfl

theorem count_returned (store : ZrttStore) (calls : List ZrttCall) (rid : RouterID)
    (ticket : Ticket) :
    (returned identity store calls).count (rid, ticket) ≤
      (store.ticketsFor rid).count ticket + (storedBy calls).count (rid, ticket) := by
  induction calls generalizing store with
  | nil => exact Nat.zero_le _
  | cons call calls ih =>
    have hstep := @count_step identity store call rid ticket
    have hrest := ih (store.step identity call)
    rw [returned, List.count_append, storedBy_cons, List.count_append]
    omega

end

structure Keeps (identity : ZrttIdentity) (store : ZrttStore) (start : Int)
    (calls : List ZrttCall) : Prop where
  bounded : ∀ front back, calls = front ++ back → ∀ rid,
    ((Run.run (step identity) store front).ticketsFor rid).length ≤ max0rttTickets
  unexpired : ∀ front call back, calls = front ++ call :: back → ∀ rid ticket,
    (Run.run (step identity) store front).extracted call = some (rid, ticket) →
      call.now < ticket.expiresAt
  once : ∀ rid ticket, (returned identity store calls).count (rid, ticket) ≤
    (store.ticketsFor rid).count ticket + (storedBy calls).count (rid, ticket)
  restored : ∀ front time back, calls = front ++ ⟨time, .save⟩ :: back →
    (∀ call ∈ back, call.op ≠ .save) →
    ∀ later, (∀ past ∈ start :: calls.map ZrttCall.now, past ≤ later) → ∀ rid,
      (loadFromDisk identity (Run.run (step identity) store calls).disk later).ticketsFor rid =
        ((Run.run (step identity) store (front ++ [⟨time, .save⟩])).ticketsFor rid).filter
          fun ticket => later < ticket.expiresAt

def NotAtExpiry (store : ZrttStore) (call : ZrttCall) : Prop :=
  ∀ rid, call.op = .extract rid →
    ∀ ticket ∈ ((store.ticketsFor rid).find? fun ticket => call.now ≤ ticket.expiresAt),
      ticket.expiresAt ≠ call.now


section

variable {identity : ZrttIdentity} {now : Int} {store : ZrttStore}

variable {call : ZrttCall}

theorem extracted_eq_some_iff {rid : RouterID} {ticket : Ticket} :
    store.extracted call = some (rid, ticket) ↔
      call.op = .extract rid ∧
        ((store.ticketsFor rid).find? fun ticket => call.now ≤ ticket.endsAt) = some ticket := by
  obtain ⟨time, op⟩ := call
  cases op with
  | store other new => simp [extracted]
  | save => simp [extracted]
  | extract other =>
    have hfirst : (store.extract0rtt other time).2 =
        (store.ticketsFor other).find? fun ticket => time ≤ ticket.endsAt := by
      rw [extract0rtt_snd, head?_dropExpired]
    simp only [extracted, hfirst, Option.map_eq_some_iff, Prod.mk.injEq, ZrttOp.extract.injEq]
    constructor
    · rintro ⟨found, hfound, rfl, rfl⟩
      exact ⟨rfl, hfound⟩
    · rintro ⟨rfl, hfound⟩
      exact ⟨ticket, hfound, rfl, rfl⟩

theorem Representable.endsAt (h : Representable store) {rid : RouterID} {ticket : Ticket}
    (hmem : ticket ∈ store.ticketsFor rid) : ticket.endsAt = ticket.expiresAt :=
  int64_of_fits (h rid ticket hmem)

theorem Representable.find?_endsAt (h : Representable store) (rid : RouterID) (time : Int) :
    ((store.ticketsFor rid).find? fun ticket => time ≤ ticket.endsAt) =
      (store.ticketsFor rid).find? fun ticket => time ≤ ticket.expiresAt :=
  List.find?_congr fun ticket hmem => by rw [h.endsAt hmem]

theorem Representable.step (h : Representable store)
    (hstored : ∀ entry ∈ storedBy [call], FitsInt64 entry.2.expiresAt) :
    Representable (store.step identity call) := by
  intro rid ticket hmem
  have hcount := @count_step identity store call rid ticket
  have hleft := List.count_pos_iff.mpr hmem
  by_cases hold : ticket ∈ store.ticketsFor rid
  · exact h rid ticket hold
  · rw [List.count_eq_zero.mpr hold] at hcount
    exact hstored (rid, ticket) (List.count_pos_iff.mp (by omega))

theorem Representable.run {calls : List ZrttCall} (h : Representable store)
    (hstored : ∀ entry ∈ storedBy calls, FitsInt64 entry.2.expiresAt) :
    Representable (Run.run (ZrttStore.step identity) store calls) := by
  induction calls generalizing store with
  | nil => exact h
  | cons call calls ih =>
    rw [storedBy_cons, List.forall_mem_append] at hstored
    exact ih (h.step hstored.1) hstored.2

theorem Representable.notAtExpiry_iff (h : Representable store) : NotAtExpiry store call ↔
      ∀ rid ticket, store.extracted call = some (rid, ticket) → call.now < ticket.expiresAt := by
  constructor
  · intro hnot rid ticket hextracted
    obtain ⟨hop, hfind⟩ := extracted_eq_some_iff.mp hextracted
    rw [h.find?_endsAt] at hfind
    have hle : call.now ≤ ticket.expiresAt :=
      of_decide_eq_true
        (List.find?_some (p := fun ticket : Ticket => call.now ≤ ticket.expiresAt) hfind)
    exact lt_of_le_of_ne hle (Ne.symm (hnot rid hop ticket hfind))
  · intro hunexpired rid hop ticket hfind
    rw [← h.find?_endsAt] at hfind
    have hlt := hunexpired rid ticket (extracted_eq_some_iff.mpr ⟨hop, hfind⟩)
    exact ne_of_gt hlt

theorem step_disk_of_ne_save (h : call.op ≠ .save) :
    (store.step identity call).disk = store.disk := by
  obtain ⟨time, op⟩ := call
  cases op with
  | store rid ticket => rfl
  | extract rid =>
    unfold step extract0rtt
    dsimp only
    cases store.tickets.find rid <;> rfl
  | save => exact absurd rfl h

theorem run_disk_of_ne_save {calls : List ZrttCall} (h : ∀ call ∈ calls, call.op ≠ .save) :
    (Run.run (step identity) store calls).disk = store.disk := by
  induction calls generalizing store with
  | nil => rfl
  | cons call calls ih =>
    obtain ⟨hcall, hcalls⟩ := List.forall_mem_cons.mp h
    rw [Run.run_cons, ih hcalls, step_disk_of_ne_save hcall]

theorem Clocked.front {start : Int} {front back : List ZrttCall}
    (h : Clocked start (front ++ back)) : Clocked start front := by
  rw [Clocked, List.map_append, ← List.cons_append] at h
  exact (List.pairwise_append.mp h).1

end

/-- With expiries that the clock can represent, the store keeps all its promises exactly in the
runs in which no ticket is extracted at the moment at which it expires. -/
theorem keeps_iff (identity : ZrttIdentity) (disk : Table RouterID ZrttFile) (start : Int)
    (calls : List ZrttCall)
    (hdisk : ∀ rid file, disk.find rid = some file →
      file.tickets.length ≤ max0rttTickets ∧ ∀ ticket ∈ file.tickets, FitsInt64 ticket.expiresAt)
    (hstored : ∀ entry ∈ storedBy calls, FitsInt64 entry.2.expiresAt)
    (hclock : Clocked start calls) :
    Keeps identity (loadFromDisk identity disk start) start calls ↔
      Run.Meets (step identity) NotAtExpiry (loadFromDisk identity disk start) calls := by
  have hwf : Wf identity start (loadFromDisk identity disk start) :=
    wf_loadFromDisk fun rid file hfile => (hdisk rid file hfile).1
  have hfits (front back : List ZrttCall) (hsplit : calls = front ++ back) :
      Representable (Run.run (step identity) (loadFromDisk identity disk start) front) := by
    refine (representable_loadFromDisk fun rid file hfile => (hdisk rid file hfile).2).run ?_
    rw [hsplit, storedBy, List.filterMap_append] at hstored
    exact (List.forall_mem_append.mp hstored).1
  constructor
  · intro hkeeps
    refine Run.meets_of_forall_split (step identity) fun front call back hsplit => ?_
    exact (hfits front _ hsplit).notAtExpiry_iff.mpr (hkeeps.unexpired front call back hsplit)
  · intro hmeets
    refine ⟨?_, ?_, fun rid ticket => count_returned _ calls rid ticket, ?_⟩
    · rintro front back rfl rid
      obtain ⟨later, hlater⟩ := (start :: front.map ZrttCall.now).toFinset.exists_le
      exact (hwf.run hclock.front fun time hmem =>
        hlater time (List.mem_toFinset.mpr hmem)).bounded rid
    · rintro front call back rfl
      obtain ⟨-, hback⟩ := (Run.meets_append (step identity) _ _ front _).mp hmeets
      exact (hfits front _ rfl).notAtExpiry_iff.mp hback.1
    · rintro front time back rfl hnosave later hlater rid
      have hsplit : front ++ ⟨time, .save⟩ :: back = (front ++ [⟨time, .save⟩]) ++ back := by
        rw [List.append_assoc, List.singleton_append]
      have hsavedFits := hfits _ back hsplit
      rw [hsplit] at hclock hlater ⊢
      -- the files are those that the save has left
      have hsaved := hwf.run hclock.front fun past hmem => hlater past (by
        rw [List.map_append, ← List.cons_append]
        exact List.mem_append_left _ hmem)
      have hclean : (Run.run (step identity) (loadFromDisk identity disk start)
          (front ++ [⟨time, .save⟩])).dirty = [] := by
        rw [Run.run_append]
        rfl
      rw [ticketsFor_loadFromDisk, Run.run_append _ _ (front ++ [_]) back,
        run_disk_of_ne_save hnosave]
      refine (hsaved.synced rid (by rw [hclean]; exact List.not_mem_nil) later
        (le_refl later)).trans ?_
      exact List.filter_congr fun ticket hmem => by rw [hsavedFits.endsAt hmem]

def client : ZrttIdentity :=
  ⟨.filled 32 0, false⟩

def peer : RouterID :=
  .filled 32 1

def freshStore : ZrttStore :=
  loadFromDisk client ∅ 0

def lateCalls (later : Int) : List ZrttCall :=
  [⟨0, .store peer ⟨[7], 10⟩⟩, ⟨0, .save⟩, ⟨later, .extract peer⟩]

theorem keeps_lateCalls : Keeps client freshStore 0 (lateCalls 9999999999) :=
  (keeps_iff client ∅ 0 (lateCalls 9999999999)
    (fun _ _ hfile => absurd hfile.symm (Option.some_ne_none _))
    (by decide) (by unfold Clocked; decide)).mpr (by
      refine ⟨fun _ hop => (nomatch hop), fun _ hop => (nomatch hop), ?_, trivial⟩
      rintro rid hop ticket hfind
      cases hop
      have hticket : ((Run.run (step client) freshStore ((lateCalls 9999999999).take 2)).ticketsFor
          peer).find? (fun ticket => 9999999999 ≤ ticket.expiresAt) = some ⟨[7], 10⟩ := by
        decide +kernel
      cases hticket.symm.trans hfind
      decide)

theorem extract_returns_expired : (loadFromDisk client (Run.run (step client) freshStore
        ((lateCalls 10000000000).take 2)).disk 10000000000).ticketsFor peer = [] ∧
      ¬Keeps client freshStore 0 (lateCalls 10000000000) := by
  refine ⟨by decide +kernel, fun hkeeps => ?_⟩
  have hlate := hkeeps.unexpired ((lateCalls 10000000000).take 2) ⟨10000000000, .extract peer⟩ []
    rfl peer ⟨[7], 10⟩ (by decide +kernel)
  exact absurd hlate (by decide)

def farCalls : List ZrttCall :=
  [⟨0, .store peer ⟨[7], 10⟩⟩, ⟨0, .store peer ⟨[8], 9223372037⟩⟩, ⟨0, .save⟩]

/-- A ticket that expires in the year 2262 is saved behind another one, and dropped as expired when
the store is reloaded. -/
theorem reload_loses_unexpired :
    Clocked 0 farCalls ∧ Run.Meets (step client) NotAtExpiry freshStore farCalls ∧
      ¬Keeps client freshStore 0 farCalls := by
  refine ⟨by unfold Clocked; decide, ⟨fun _ hop => (nomatch hop), fun _ hop => (nomatch hop),
    fun _ hop => (nomatch hop), trivial⟩, fun hkeeps => ?_⟩
  have hreload := hkeeps.restored (farCalls.take 2) 0 [] rfl
    (fun _ hmem => absurd hmem List.not_mem_nil) 0 (by decide) peer
  revert hreload
  decide +kernel

end ZrttStore
end SessionRouter.NodeDB

import SessionRouter.Handlers.SessionTable
import SessionRouter.Path.Control

/-!
# Resolving a name
-/

namespace SessionRouter.Handlers

open Lib Bencode

/-- What the handler makes of a reply. -/
inductive SnsReply where
  | failed
  | threw
  | notFound
  | undecryptable
  | found (addr : NetworkAddress)
deriving DecidableEq

def readSns (decryptName : Bytes → SymmNonce → Option NetworkAddress) (body : Bytes) :
    Option SnsReply := do
  let c ← DictConsumer.ofBytes body
  let (status, c) ← c.maybe readString (ascii "!")
  if status.all (· = ascii "OK") then
    let (ciphertext, c) ← c.require readString (ascii "c")
    let (nonce, c) ← c.require (readFixed 24) (ascii "n")
    if c.finish then
      match decryptName ciphertext nonce with
      | some addr => return .found addr
      | none => return .undecryptable
    else none
  else if status = some (ascii "NOT FOUND") then return .notFound
  else none

def snsReply (decryptName : Bytes → SymmNonce → Option NetworkAddress)
    (resp : PathControlResponse) : SnsReply :=
  if resp.ok then (readSns decryptName resp.body).getD .threw else .failed

def SNS_CACHE_TIME : Nat := 5 * 60 * 1000

structure SnsCall where
  addr : Option NetworkAddress
  assertive : Bool
  ttl : Nat
deriving DecidableEq

/-- `sns_results_t`, and the calls made so far. -/
structure SnsResults where
  resultCount : Table NetworkAddress Nat
  notFoundCount : Nat
  remaining : Int
  threshold : Nat
  calls : List SnsCall

namespace SnsResults

def start (queried : Nat) : SnsResults :=
  ⟨∅, 0, queried, (queried + 1) / 2, []⟩

def call (results : SnsResults) (addr : Option NetworkAddress) (assertive : Bool) : SnsResults :=
  { results with
    calls := results.calls ++ [⟨addr, assertive, if assertive then SNS_CACHE_TIME else 0⟩] }

def callEarly (results : SnsResults) (addr : Option NetworkAddress) : SnsResults :=
  { results.call addr true with remaining := 0 }

def count (results : SnsResults) : SnsReply → SnsResults
  | .notFound => { results with notFoundCount := results.notFoundCount + 1 }
  | .found addr =>
    { results with
      resultCount := results.resultCount.insertOrAssign addr
        ((results.resultCount.find addr).getD 0 + 1) }
  | _ => results

def agreed (results : SnsResults) : Option NetworkAddress :=
  (results.resultCount.entries.find? fun entry => results.threshold ≤ entry.2).map Sigma.fst

def collect (best : List NetworkAddress × Nat) (entry : Sigma fun _ : NetworkAddress => Nat) :
    List NetworkAddress × Nat :=
  if best.2 ≤ entry.2 then
    if best.2 < entry.2 then ([entry.1], entry.2) else (best.1 ++ [entry.1], best.2)
  else best

def best (results : SnsResults) : List NetworkAddress × Nat :=
  results.resultCount.entries.foldl collect ([], 0)

def finish (results : SnsResults) (draw : Nat) : SnsResults :=
  if results.resultCount.entries.isEmpty then
    results.call none (0 < results.notFoundCount)
  else
    let (best, bestCount) := results.best
    if bestCount ≤ results.notFoundCount then results.call none true
    else results.call best[draw % best.length]? true

def finishIfLast (results : SnsResults) (draw : Nat) : SnsResults :=
  if results.remaining = 0 then results.finish draw else results

def confirm (results : SnsResults) (draw : Nat) : SnsResults :=
  if results.threshold ≤ results.notFoundCount then results.callEarly none
  else
    match results.agreed with
    | some addr => results.callEarly (some addr)
    | none => results.finishIfLast draw

def respond (results : SnsResults) (reply : SnsReply) (draw : Nat) : SnsResults :=
  let results := { results with remaining := results.remaining - 1 }
  if results.remaining < 0 then results
  else
    match reply with
    | .failed => results.finishIfLast draw
    | .threw => results.finishIfLast draw
    | reply => (results.count reply).confirm draw

end SnsResults

def snsQueried (activePaths : Nat) : Nat :=
  min 5 activePaths

def resolveSns (decryptName : Bytes → SymmNonce → Option NetworkAddress) (activePaths : Nat)
    (replies : List (PathControlResponse × Nat)) : SnsResults :=
  replies.foldl (fun results reply => results.respond (snsReply decryptName reply.1) reply.2)
    (SnsResults.start (snsQueried activePaths))

def SnsReply.outcome : SnsReply → Option (Option NetworkAddress)
  | .notFound => some none
  | .found addr => some (some addr)
  | _ => none

def reports (replies : List SnsReply) (outcome : Option NetworkAddress) : Nat :=
  replies.countP fun reply => reply.outcome = some outcome

theorem reports_append (front back : List SnsReply) (outcome : Option NetworkAddress) :
    reports (front ++ back) outcome = reports front outcome + reports back outcome :=
  List.countP_append

theorem reports_singleton (reply : SnsReply) (outcome : Option NetworkAddress) :
    reports [reply] outcome = if reply.outcome = some outcome then 1 else 0 := by
  simp [reports, List.countP_cons]

theorem reports_found (addr other : NetworkAddress) :
    reports [.found addr] (some other) = if other = addr then 1 else 0 := by
  rw [reports_singleton]
  simp only [SnsReply.outcome, Option.some.injEq, eq_comm]

theorem reports_add_le (replies : List SnsReply) {first second : Option NetworkAddress}
    (hne : first ≠ second) : reports replies first + reports replies second ≤ replies.length := by
  induction replies with
  | nil => exact Nat.le_refl _
  | cons reply replies ih =>
    rw [← List.singleton_append, reports_append, reports_append, reports_singleton,
      reports_singleton, List.length_append, List.length_singleton]
    have hone : (if reply.outcome = some first then 1 else 0) +
        (if reply.outcome = some second then 1 else 0) ≤ 1 := by
      split
      next hfirst => rw [hfirst, if_neg (fun heq => hne (Option.some.inj heq))]
      next => split <;> omega
    omega

def Winner (replies : List SnsReply) : Option NetworkAddress → Prop
  | none => ∀ addr, reports replies (some addr) ≤ reports replies none
  | some addr => reports replies none < reports replies (some addr) ∧
      ∀ outcome, reports replies outcome ≤ reports replies (some addr)

namespace SnsResults

variable {results : SnsResults}

structure Collected (start : List NetworkAddress × Nat)
    (entries : List (Sigma fun _ : NetworkAddress => Nat)) (last : List NetworkAddress × Nat) :
    Prop where
  start_le : start.2 ≤ last.2
  le : ∀ entry ∈ entries, entry.2 ≤ last.2
  mem : ∀ addr ∈ last.1, (addr ∈ start.1 ∧ last.2 = start.2) ∨ ⟨addr, last.2⟩ ∈ entries
  ne_nil : (start.1 ≠ [] ∨ ∃ entry ∈ entries, start.2 < entry.2) → last.1 ≠ []

theorem collected_foldl (entries : List (Sigma fun _ : NetworkAddress => Nat))
    (start : List NetworkAddress × Nat) :
    Collected start entries (entries.foldl collect start) := by
  induction entries generalizing start with
  | nil => exact ⟨Nat.le_refl _, by simp, fun addr hmem => Or.inl ⟨hmem, rfl⟩, by simp⟩
  | cons entry entries ih =>
    rcases Nat.lt_trichotomy start.2 entry.2 with hlt | heq | hgt
    · have hstep : collect start entry = ([entry.1], entry.2) := by
        rw [collect, if_pos (Nat.le_of_lt hlt), if_pos hlt]
      rw [List.foldl_cons, hstep]
      obtain ⟨hstart, hle, hmem, hne⟩ := ih ([entry.1], entry.2)
      refine ⟨Nat.le_trans (Nat.le_of_lt hlt) hstart, List.forall_mem_cons.mpr ⟨hstart, hle⟩,
        fun addr haddr => ?_, fun _ => hne (Or.inl (by simp))⟩
      rcases hmem addr haddr with ⟨hfirst, hlast⟩ | hlater
      · rw [List.mem_singleton.mp hfirst, hlast]
        exact Or.inr List.mem_cons_self
      · exact Or.inr (List.mem_cons_of_mem _ hlater)
    · have hstep : collect start entry = (start.1 ++ [entry.1], start.2) := by
        rw [collect, if_pos (Nat.le_of_eq heq), if_neg (by omega)]
      rw [List.foldl_cons, hstep]
      obtain ⟨hstart, hle, hmem, hne⟩ := ih (start.1 ++ [entry.1], start.2)
      refine ⟨hstart, List.forall_mem_cons.mpr ⟨heq ▸ hstart, hle⟩, fun addr haddr => ?_,
        fun _ => hne (Or.inl (by simp))⟩
      rcases hmem addr haddr with ⟨hfirst, hlast⟩ | hlater
      · rcases List.mem_append.mp hfirst with hbefore | hnow
        · exact Or.inl ⟨hbefore, hlast⟩
        · rw [List.mem_singleton.mp hnow, hlast, heq]
          exact Or.inr List.mem_cons_self
      · exact Or.inr (List.mem_cons_of_mem _ hlater)
    · have hstep : collect start entry = start := by
        rw [collect, if_neg (by omega)]
      rw [List.foldl_cons, hstep]
      obtain ⟨hstart, hle, hmem, hne⟩ := ih start
      refine ⟨hstart, List.forall_mem_cons.mpr ⟨by omega, hle⟩, fun addr haddr => ?_, ?_⟩
      · exact (hmem addr haddr).imp_right (List.mem_cons_of_mem _)
      · rintro (hnonempty | ⟨other, hother, hhigher⟩)
        · exact hne (Or.inl hnonempty)
        · rcases List.mem_cons.mp hother with rfl | hlater
          · omega
          · exact hne (Or.inr ⟨other, hlater, hhigher⟩)

variable {queried : Nat} {replies : List SnsReply}

structure Tallies (results : SnsResults) (queried : Nat) (replies : List SnsReply) : Prop where
  notFound : results.notFoundCount = reports replies none
  found : ∀ addr, (results.resultCount.find addr).getD 0 = reports replies (some addr)
  positive : ∀ addr count, results.resultCount.find addr = some count → 0 < count
  threshold : results.threshold = (queried + 1) / 2

theorem tallies_start (queried : Nat) : Tallies (start queried) queried [] :=
  ⟨rfl, fun _ => rfl, (fun _ _ hfind => nomatch hfind), rfl⟩

section

variable (h : Tallies results queried replies)

include h

theorem Tallies.count (reply : SnsReply) :
    Tallies (results.count reply) queried (replies ++ [reply]) := by
  obtain ⟨hnotFound, hfound, hpositive, hthreshold⟩ := h
  cases reply with
  | failed | threw | undecryptable =>
    refine ⟨?_, fun addr => ?_, hpositive, hthreshold⟩
    · rw [reports_append, reports_singleton]
      exact hnotFound
    · rw [reports_append, reports_singleton]
      exact hfound addr
  | notFound =>
    refine ⟨?_, fun addr => ?_, hpositive, hthreshold⟩
    · rw [reports_append, reports_singleton, ← hnotFound]
      rfl
    · rw [reports_append, reports_singleton]
      exact hfound addr
  | found addr =>
    refine ⟨?_, fun other => ?_, fun other value => ?_, hthreshold⟩
    · rw [reports_append, reports_singleton]
      exact hnotFound
    · rw [reports_append, reports_found, ← hfound other, SnsResults.count]
      dsimp only
      rw [Table.find_insertOrAssign]
      by_cases heq : other = addr
      · rw [if_pos heq, if_pos heq, heq]
        rfl
      · rw [if_neg heq, if_neg heq]
        rfl
    · rw [SnsResults.count]
      dsimp only
      rw [Table.find_insertOrAssign]
      split
      · rintro ⟨rfl⟩
        exact Nat.succ_pos _
      · exact hpositive other value

theorem Tallies.agreed_eq_some {addr : NetworkAddress}
    (hagreed : results.agreed = some addr) :
    results.threshold ≤ reports replies (some addr) := by
  obtain ⟨⟨found, count⟩, hfind, rfl⟩ := Option.map_eq_some_iff.mp hagreed
  have hcount := List.find?_some hfind
  have hentry := Table.find_eq_some_iff.mpr (List.mem_of_find?_eq_some hfind)
  rw [← h.found found, hentry]
  exact of_decide_eq_true hcount

theorem Tallies.agreed_eq_none (hpos : 0 < results.threshold)
    (hagreed : results.agreed = none) (addr : NetworkAddress) :
    reports replies (some addr) < results.threshold := by
  rw [← h.found addr]
  cases hfind : results.resultCount.find addr with
  | none => exact hpos
  | some count =>
    have hall := List.find?_eq_none.mp (Option.map_eq_none_iff.mp hagreed)
    have hentry := hall _ (Table.find_eq_some_iff.mp hfind)
    exact Nat.lt_of_not_le (by simpa using hentry)

theorem Tallies.reports_eq_zero
    (hempty : results.resultCount.entries = []) (addr : NetworkAddress) :
    reports replies (some addr) = 0 := by
  rw [← h.found addr]
  cases hfind : results.resultCount.find addr with
  | none => rfl
  | some count =>
    have hmem := Table.find_eq_some_iff.mp hfind
    rw [hempty] at hmem
    cases hmem

theorem Tallies.reports_le_best (addr : NetworkAddress) :
    reports replies (some addr) ≤ results.best.2 := by
  obtain ⟨-, hle, -, -⟩ := collected_foldl results.resultCount.entries ([], 0)
  rw [← best] at hle
  rw [← h.found addr]
  cases hfind : results.resultCount.find addr with
  | none => exact Nat.zero_le _
  | some count => exact hle _ (Table.find_eq_some_iff.mp hfind)

theorem Tallies.best_ne_nil (hempty : results.resultCount.entries ≠ []) : results.best.1 ≠ [] := by
  obtain ⟨-, -, -, hne⟩ := collected_foldl results.resultCount.entries ([], 0)
  rw [← best] at hne
  obtain ⟨entry, rest, hentries⟩ := List.exists_cons_of_ne_nil hempty
  have hentry : entry ∈ results.resultCount.entries := hentries ▸ List.mem_cons_self
  exact hne (Or.inr ⟨entry, hentry, h.positive _ _ (Table.find_eq_some_iff.mpr hentry)⟩)

theorem Tallies.reports_best {addr : NetworkAddress}
    (hbest : addr ∈ results.best.1) : reports replies (some addr) = results.best.2 := by
  obtain ⟨-, -, hmem, -⟩ := collected_foldl results.resultCount.entries ([], 0)
  rw [← best] at hmem
  have hentry := (hmem addr hbest).resolve_left (by simp)
  rw [← h.found addr, Table.find_eq_some_iff.mpr hentry, Option.getD_some]

theorem Tallies.finish (draw : Nat) :
    ∃ call, (results.finish draw).calls = results.calls ++ [call] ∧ Winner replies call.addr ∧
      (results.finish draw).remaining = results.remaining := by
  unfold SnsResults.finish
  by_cases hempty : results.resultCount.entries.isEmpty
  · rw [if_pos hempty]
    refine ⟨_, rfl, fun addr => ?_, rfl⟩
    rw [h.reports_eq_zero (List.isEmpty_iff.mp hempty)]
    exact Nat.zero_le _
  · rw [if_neg hempty]
    dsimp only
    split
    next hties =>
      refine ⟨_, rfl, fun addr => ?_, rfl⟩
      rw [← h.notFound]
      exact Nat.le_trans (h.reports_le_best addr) hties
    next hmore =>
      have hsome := h.best_ne_nil fun hnil => hempty (List.isEmpty_iff.mpr hnil)
      have hbound : draw % results.best.1.length < results.best.1.length :=
        Nat.mod_lt _ (List.length_pos_iff.mpr hsome)
      have hreports := h.reports_best (List.getElem_mem hbound)
      refine ⟨_, rfl, ?_, rfl⟩
      rw [List.getElem?_eq_getElem hbound]
      have hfewer : reports replies none < results.best.2 := by
        rw [← h.notFound]
        exact Nat.lt_of_not_le hmore
      refine ⟨hreports ▸ hfewer, fun outcome => ?_⟩
      rw [hreports]
      cases outcome with
      | none => exact Nat.le_of_lt hfewer
      | some addr => exact h.reports_le_best addr

end

/-- The counters while there is no result. -/
structure Counted (results : SnsResults) (queried : Nat) (replies : List SnsReply) : Prop extends
    Tallies results queried replies where
  remaining : results.remaining = queried - replies.length
  length_le : replies.length ≤ queried
  calls : results.calls = []

structure Open (results : SnsResults) (queried : Nat) (replies : List SnsReply) : Prop extends
    Counted results queried replies where
  missing : replies.length < queried
  below : ∀ outcome, reports replies outcome < (queried + 1) / 2

def Justified (queried : Nat) (replies : List SnsReply) (outcome : Option NetworkAddress) : Prop :=
  (queried + 1) / 2 ≤ reports replies outcome ∨
    replies.length = queried ∧ (∀ other, reports replies other < (queried + 1) / 2) ∧
      Winner replies outcome

def Decided (results : SnsResults) (queried : Nat) (replies : List SnsReply) : Prop :=
  ∃ call front, results.calls = [call] ∧ results.remaining ≤ 0 ∧ front <+: replies ∧
    Justified queried front call.addr

section

variable (h : Counted results queried replies)

include h

theorem Counted.finishIfLast
    (hbelow : ∀ outcome, reports replies outcome < (queried + 1) / 2) (draw : Nat) :
    Open (results.finishIfLast draw) queried replies ∨
      Decided (results.finishIfLast draw) queried replies := by
  have hremaining := h.remaining
  unfold SnsResults.finishIfLast
  split
  next hlast =>
    obtain ⟨call, hcall, hwinner, hkept⟩ := h.finish draw
    rw [h.calls, List.nil_append] at hcall
    have hall : replies.length = queried := by omega
    exact Or.inr ⟨call, replies, hcall, by omega, List.prefix_rfl, Or.inr ⟨hall, hbelow, hwinner⟩⟩
  next hmore => exact Or.inl ⟨h, by have := h.length_le; omega, hbelow⟩

theorem Counted.callEarly
    {outcome : Option NetworkAddress} (hreached : results.threshold ≤ reports replies outcome) :
    Decided (results.callEarly outcome) queried replies := by
  rw [h.threshold] at hreached
  refine ⟨⟨outcome, true, SNS_CACHE_TIME⟩, replies, ?_, Int.le_refl _, List.prefix_rfl,
    Or.inl hreached⟩
  rw [SnsResults.callEarly, SnsResults.call, h.calls]
  rfl

theorem Counted.confirm (hqueried : 1 ≤ queried)
    (draw : Nat) :
    Open (results.confirm draw) queried replies ∨
      Decided (results.confirm draw) queried replies := by
  unfold SnsResults.confirm
  split
  next hnotFound =>
    rw [h.notFound] at hnotFound
    exact Or.inr (h.callEarly hnotFound)
  next hfewer =>
    cases hagreed : results.agreed with
    | some addr => exact Or.inr (h.callEarly (h.agreed_eq_some hagreed))
    | none =>
      refine h.finishIfLast (fun outcome => ?_) draw
      rw [← h.threshold]
      cases outcome with
      | none =>
        rw [← h.notFound]
        exact Nat.lt_of_not_le hfewer
      | some addr =>
        refine h.agreed_eq_none ?_ hagreed addr
        rw [h.threshold]
        omega

end

section

variable (h : Open results queried replies)

include h

theorem Open.count (reply : SnsReply) :
    Counted ({ results with remaining := results.remaining - 1 }.count reply) queried
      (replies ++ [reply]) := by
  have hmissing := h.missing
  have hremaining := h.remaining
  have htallies : Tallies { results with remaining := results.remaining - 1 } queried replies :=
    ⟨h.notFound, h.found, h.positive, h.threshold⟩
  refine ⟨htallies.count reply, ?_, ?_, ?_⟩
  · rw [List.length_append, List.length_singleton]
    cases reply <;> simp only [SnsResults.count] <;> omega
  · rw [List.length_append, List.length_singleton]
    omega
  · cases reply <;> exact h.calls

theorem Open.below_append {reply : SnsReply}
    (hnone : reply.outcome = none) (outcome : Option NetworkAddress) :
    reports (replies ++ [reply]) outcome < (queried + 1) / 2 := by
  rw [reports_append, reports_singleton, hnone]
  exact h.below outcome

theorem Open.respond (reply : SnsReply) (draw : Nat) :
    Open (results.respond reply draw) queried (replies ++ [reply]) ∨
      Decided (results.respond reply draw) queried (replies ++ [reply]) := by
  have hmissing := h.missing
  have hremaining := h.remaining
  have hnow : ¬results.remaining - 1 < 0 := by omega
  have hqueried : 1 ≤ queried := by omega
  unfold SnsResults.respond
  dsimp only
  rw [if_neg hnow]
  cases reply with
  | failed => exact (h.count .failed).finishIfLast (h.below_append rfl) draw
  | threw => exact (h.count .threw).finishIfLast (h.below_append rfl) draw
  | notFound => exact (h.count .notFound).confirm hqueried draw
  | undecryptable => exact (h.count .undecryptable).confirm hqueried draw
  | found addr => exact (h.count (.found addr)).confirm hqueried draw

end

theorem Decided.respond (h : Decided results queried replies) (reply : SnsReply) (draw : Nat) :
    Decided (results.respond reply draw) queried (replies ++ [reply]) := by
  obtain ⟨call, front, hcalls, hremaining, hfront, hjustified⟩ := h
  have hlate : results.remaining - 1 < 0 := by omega
  unfold SnsResults.respond
  dsimp only
  rw [if_pos hlate]
  exact ⟨call, front, hcalls, Int.le_of_lt hlate, hfront.trans (List.prefix_append _ _),
    hjustified⟩

end SnsResults

theorem reports_le_of_prefix {front replies : List SnsReply} (hfront : front <+: replies)
    (outcome : Option NetworkAddress) : reports front outcome ≤ reports replies outcome :=
  hfront.sublist.countP_le

theorem eq_of_majority {queried : Nat} {replies : List SnsReply}
    {first second : Option NetworkAddress} (hlength : replies.length = queried)
    (hfirst : queried < 2 * reports replies first)
    (hsecond : (queried + 1) / 2 ≤ reports replies second) : second = first := by
  by_contra hne
  have hshared := reports_add_le replies hne
  omega

section

variable (decryptName : Bytes → SymmNonce → Option NetworkAddress) {activePaths : Nat}

def snsReplies (replies : List (PathControlResponse × Nat)) : List SnsReply :=
  replies.map fun reply => snsReply decryptName reply.1

theorem resolveSns_append (replies : List (PathControlResponse × Nat))
    (reply : PathControlResponse × Nat) :
    resolveSns decryptName activePaths (replies ++ [reply]) =
      (resolveSns decryptName activePaths replies).respond (snsReply decryptName reply.1)
        reply.2 := by
  simp only [resolveSns, List.foldl_append, List.foldl_cons, List.foldl_nil]

theorem resolveSns_open_or_decided (hpaths : 1 ≤ activePaths)
    (replies : List (PathControlResponse × Nat)) :
    (resolveSns decryptName activePaths replies).Open (snsQueried activePaths)
        (snsReplies decryptName replies) ∨
      (resolveSns decryptName activePaths replies).Decided (snsQueried activePaths)
        (snsReplies decryptName replies) := by
  have hqueried : 1 ≤ snsQueried activePaths := by
    unfold snsQueried
    omega
  induction replies using List.reverseRecOn with
  | nil =>
    refine Or.inl ⟨⟨SnsResults.tallies_start _, ?_, Nat.zero_le _, rfl⟩, hqueried, ?_⟩
    · simp only [resolveSns, snsReplies, SnsResults.start, List.foldl_nil, List.map_nil,
        List.length_nil, Nat.cast_zero, sub_zero]
    · intro outcome
      show 0 < (snsQueried activePaths + 1) / 2
      omega
  | append_singleton replies reply ih =>
    rw [resolveSns_append, snsReplies, List.map_append, List.map_singleton]
    rcases ih with hopen | hdecided
    · exact hopen.respond _ reply.2
    · exact Or.inr (hdecided.respond _ reply.2)

/-- Once every queried relay has replied, in whatever order, there has been one call: with the
outcome of a strict majority if there is one, with an address only if a relay reported it, and
with the outcome reported most often if none reached half of the relays. -/
theorem resolveSns_calls_once (hpaths : 1 ≤ activePaths)
    (replies : List (PathControlResponse × Nat))
    (hlength : replies.length = snsQueried activePaths) :
    ∃ call, (resolveSns decryptName activePaths replies).calls = [call] ∧
      (∀ outcome, snsQueried activePaths < 2 * reports (snsReplies decryptName replies) outcome →
        call.addr = outcome) ∧
      (∀ addr, call.addr = some addr → .found addr ∈ snsReplies decryptName replies) ∧
      ((∀ outcome, 2 * reports (snsReplies decryptName replies) outcome <
          snsQueried activePaths) → Winner (snsReplies decryptName replies) call.addr) := by
  have hall : (snsReplies decryptName replies).length = snsQueried activePaths := by
    rw [snsReplies, List.length_map, hlength]
  have hpositive : 1 ≤ snsQueried activePaths := by
    unfold snsQueried
    omega
  rcases resolveSns_open_or_decided decryptName hpaths replies with hopen | hdecided
  · exact absurd hopen.missing (by omega)
  obtain ⟨call, front, hcalls, -, hfront, hjustified⟩ := hdecided
  refine ⟨call, hcalls, ?_, ?_, ?_⟩
  · intro outcome hmajority
    rcases hjustified with hreached | ⟨hlast, hbelow, -⟩
    · have hkept := reports_le_of_prefix hfront call.addr
      exact eq_of_majority hall hmajority (by omega)
    · rw [hfront.eq_of_length (hlast.trans hall.symm)] at hbelow
      have := hbelow outcome
      omega
  · intro addr haddr
    rw [haddr] at hjustified
    have hreported : 0 < reports front (some addr) := by
      rcases hjustified with hreached | ⟨-, -, hwinner⟩
      · omega
      · exact Nat.lt_of_le_of_lt (Nat.zero_le _) hwinner.1
    obtain ⟨reply, hmem, houtcome⟩ := List.countP_pos_iff.mp hreported
    have hfound : reply = .found addr := by cases reply <;> simp_all [SnsReply.outcome]
    exact hfront.subset (hfound ▸ hmem)
  · intro hbelow
    rcases hjustified with hreached | ⟨hlast, -, hwinner⟩
    · have hkept := reports_le_of_prefix hfront call.addr
      have := hbelow call.addr
      omega
    · rw [← hfront.eq_of_length (hlast.trans hall.symm)]
      exact hwinner

end

def dissent : List (PathControlResponse × Nat) :=
  let found : PathControlResponse :=
    ⟨ascii "d1:c0:1:n24:" ++ List.replicate 24 0 ++ ascii "e", false, false⟩
  [(found, 0), (⟨ascii "d1:!9:NOT FOUNDe", false, false⟩, 0), (found, 0)]

theorem resolveSns_calls_once_dissent :
    ∃ call, (resolveSns (fun _ _ => some ⟨.filled 32 7, true⟩) 3 dissent).calls = [call] ∧
      call.addr = some ⟨.filled 32 7, true⟩ := by
  have hpaths : 1 ≤ 3 := by decide
  obtain ⟨call, hcalls, hmajority, -⟩ :=
    resolveSns_calls_once (fun _ _ => some ⟨.filled 32 7, true⟩) hpaths dissent (by decide)
  exact ⟨call, hcalls, hmajority _ (by decide +kernel)⟩

end SessionRouter.Handlers

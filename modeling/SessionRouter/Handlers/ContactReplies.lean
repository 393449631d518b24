import SessionRouter.Contact.Authenticity

/-!
# The replies to a contact lookup
-/

namespace SessionRouter.Handlers

open Lib

/-- What happens while a lookup is under way. -/
inductive LookupEvent where
  | reply (now : Int) (resp : PathControlResponse)
  | recached (cache : ContactCache)

namespace LookupEvent

def isReply : LookupEvent → Bool
  | .reply _ _ => true
  | .recached _ => false

def contact (suite : CryptoSuite) (remote : RouterID) : LookupEvent → Option ClientContact
  | .reply _ resp => contactOfReply suite remote resp
  | .recached _ => none

end LookupEvent

def replies (events : List LookupEvent) : Nat :=
  events.countP LookupEvent.isReply

@[simp] theorem replies_reply (now : Int) (resp : PathControlResponse)
    (events : List LookupEvent) : replies (.reply now resp :: events) = replies events + 1 :=
  List.countP_cons_of_pos rfl

@[simp] theorem replies_recached (cache : ContactCache) (events : List LookupEvent) :
    replies (.recached cache :: events) = replies events :=
  List.countP_cons_of_neg (by simp [LookupEvent.isReply])

theorem replies_append (front back : List LookupEvent) :
    replies (front ++ back) = replies front + replies back :=
  List.countP_append

def Lookup.handle (suite : CryptoSuite) (remote : RouterID) (lookup : Lookup) :
    LookupEvent → Lookup
  | .reply now resp => responseHandler suite remote lookup (now, resp)
  | .recached cache => { lookup with cache }

def ExpiresAt (cache : ContactCache) (remote : RouterID) (now : Int) : Prop :=
  ∃ cc, cache.find remote = some (some cc, now)

def Fresh (cache : ContactCache) (remote : RouterID) (now : Int)
    (offered result : Option ClientContact) : Prop :=
  match offered with
  | some cc => ∃ newest, result = some newest ∧ cc.signedAt ≤ newest.signedAt ∧
      ∀ cached exp, cache.find remote = some (some cached, exp) → now < exp →
        cached.signedAt ≤ newest.signedAt
  | none => ∀ cached, result = some cached →
      ∃ exp, cache.find remote = some (some cached, exp) ∧ now < exp

section

variable (suite : CryptoSuite) (remote : RouterID)

def CallsOnce (lookup : Lookup) (events : List LookupEvent) : Prop :=
  ∃ front now resp rest, events = front ++ .reply now resp :: rest ∧
    (∀ event ∈ front, event.contact suite remote = none) ∧
    (contactOfReply suite remote resp = none → replies rest = 0) ∧
    (Run.run (Lookup.handle suite remote) lookup front).handed = [] ∧
    ∃ result,
      (Run.run (Lookup.handle suite remote) lookup (front ++ [.reply now resp])).handed =
        [result] ∧
      (Run.run (Lookup.handle suite remote) lookup events).handed = [result] ∧
      Fresh (Run.run (Lookup.handle suite remote) lookup front).cache remote now
        (contactOfReply suite remote resp) result

def OffersAll (lookup : Lookup) (events : List LookupEvent) : Prop :=
  ∀ front now resp rest cc, events = front ++ .reply now resp :: rest →
    contactOfReply suite remote resp = some cc →
    (Run.run (Lookup.handle suite remote) lookup (front ++ [.reply now resp])).cache =
      (updateCc (Run.run (Lookup.handle suite remote) lookup front).cache remote (some cc) now).1

def LooksUp (now : Int) (outcome : ContactCache × LookupStart) (events : List LookupEvent) :
    Prop :=
  match outcome.2 with
  | .answered cc => Fresh outcome.1 remote now none cc
  | .asked _ lookup => CallsOnce suite remote lookup events ∧ OffersAll suite remote lookup events

def NotAtExpiry (cache : ContactCache) (allowCache : Bool) (now : Int) (start : LookupStart)
    (events : List LookupEvent) : Prop :=
  match start with
  | .answered _ => allowCache = false → ¬ExpiresAt cache remote now
  | .asked _ lookup => (∀ event ∈ events, event.contact suite remote = none) →
      ∀ front at' resp rest, events = front ++ .reply at' resp :: rest → replies rest = 0 →
        ¬ExpiresAt (Run.run (Lookup.handle suite remote) lookup front).cache remote at'

end

section

variable {suite : CryptoSuite} {remote : RouterID}

theorem updateCc_some_newest (cache : ContactCache) (cc : ClientContact) (now : Int) :
    ∃ newest, (updateCc cache remote (some cc) now).2 = some newest ∧
      cc.signedAt ≤ newest.signedAt ∧
      ∀ cached exp, cache.find remote = some (some cached, exp) → now ≤ exp →
        cached.signedAt ≤ newest.signedAt := by
  unfold updateCc
  cases hfind : cache.find remote with
  | none => exact ⟨cc, rfl, Int.le_refl _, fun cached exp hcached => nomatch hcached⟩
  | some stored =>
    obtain ⟨entry, exp⟩ := stored
    by_cases hbetter : entry.isNone || exp < now || signedLater (some cc) entry
    · refine ⟨cc, by simp only [hbetter, if_true], Int.le_refl _, ?_⟩
      intro cached exp' hcached hunexpired
      cases hcached
      simp only [Option.isNone_some, signedLater, Bool.false_or, Bool.or_eq_true,
        decide_eq_true_eq] at hbetter
      omega
    · cases entry with
      | none => exact absurd rfl hbetter
      | some cached =>
        simp only [Option.isNone_some, signedLater, Bool.false_or, Bool.or_eq_true,
          decide_eq_true_eq, not_or] at hbetter
        refine ⟨cached, ?_, by omega, ?_⟩
        · simp [signedLater, hbetter.1, hbetter.2]
        · intro cached' exp' hcached _
          cases hcached
          exact Int.le_refl _

theorem updateCc_none_eq_some_iff (cache : ContactCache) (cached : ClientContact) (now : Int) :
    (updateCc cache remote none now).2 = some cached ↔
      ∃ exp, cache.find remote = some (some cached, exp) ∧ now ≤ exp := by
  unfold updateCc
  cases hfind : cache.find remote with
  | none => simp
  | some stored =>
    obtain ⟨entry, exp⟩ := stored
    cases entry with
    | none => simp
    | some entry =>
      by_cases hexpired : exp < now
      · simp [signedLater, hexpired]
      · simp [signedLater, hexpired, Int.not_lt.mp hexpired]

theorem fresh_updateCc_iff (cache : ContactCache) (offered : Option ClientContact) (now : Int) :
    Fresh cache remote now offered (updateCc cache remote offered now).2 ↔
      (offered = none → ¬ExpiresAt cache remote now) := by
  cases offered with
  | some cc =>
    obtain ⟨newest, hresult, hoffered, hcached⟩ := @updateCc_some_newest remote cache cc now
    refine iff_of_true ⟨newest, hresult, hoffered, ?_⟩ (fun h => nomatch h)
    exact fun cached exp hfind hunexpired => hcached cached exp hfind (Int.le_of_lt hunexpired)
  | none =>
    constructor
    · rintro hfresh - ⟨cached, hfind⟩
      have hreturned := (updateCc_none_eq_some_iff cache cached now).mpr
        ⟨now, hfind, Int.le_refl _⟩
      obtain ⟨exp, hfind', hunexpired⟩ := hfresh cached hreturned
      rw [hfind] at hfind'
      cases hfind'
      exact absurd hunexpired (Int.lt_irrefl _)
    · intro hnot cached hreturned
      obtain ⟨exp, hfind, hle⟩ := (updateCc_none_eq_some_iff cache cached now).mp hreturned
      refine ⟨exp, hfind, lt_of_le_of_ne hle ?_⟩
      rintro rfl
      exact hnot rfl ⟨cached, hfind⟩

variable {lookup : Lookup} {now : Int} {resp : PathControlResponse}

structure Lookup.Waiting (lookup : Lookup) (missing : Nat) : Prop where
  remaining : lookup.remaining = missing
  pos : 0 < missing
  handed : lookup.handed = []

theorem handle_contact {cc : ClientContact}
    (hcontact : contactOfReply suite remote resp = some cc) :
    lookup.handle suite remote (.reply now resp) =
      { cache := (updateCc lookup.cache remote (some cc) now).1
        remaining := if 0 < lookup.remaining - 1 then 0 else lookup.remaining - 1
        handed := if 0 ≤ lookup.remaining - 1 then
          lookup.handed ++ [(updateCc lookup.cache remote (some cc) now).2]
          else lookup.handed } := by
  simp only [Lookup.handle, responseHandler, hcontact]

theorem handle_noContact (hnone : contactOfReply suite remote resp = none) :
    lookup.handle suite remote (.reply now resp) =
      if lookup.remaining - 1 = 0 then
        { cache := (updateCc lookup.cache remote none now).1
          remaining := lookup.remaining - 1
          handed := lookup.handed ++ [(updateCc lookup.cache remote none now).2] }
      else { lookup with remaining := lookup.remaining - 1 } := by
  simp only [Lookup.handle, responseHandler, hnone]

variable {missing : Nat}

theorem handle_decisive (hwaiting : lookup.Waiting missing)
    (hdecisive : contactOfReply suite remote resp = none → missing = 1) :
    (lookup.handle suite remote (.reply now resp)).handed =
        [(updateCc lookup.cache remote (contactOfReply suite remote resp) now).2] ∧
      (lookup.handle suite remote (.reply now resp)).remaining ≤ 0 := by
  have hremaining := hwaiting.remaining
  have hpos := hwaiting.pos
  cases hcontact : contactOfReply suite remote resp with
  | some cc =>
    have hinTime : 0 ≤ lookup.remaining - 1 := by omega
    rw [handle_contact hcontact, hwaiting.handed]
    dsimp only
    rw [if_pos hinTime]
    refine ⟨rfl, ?_⟩
    split <;> omega
  | none =>
    have hlast : lookup.remaining - 1 = 0 := by
      have := hdecisive hcontact
      omega
    rw [handle_noContact hcontact, if_pos hlast, hwaiting.handed]
    exact ⟨rfl, Int.le_of_eq hlast⟩

theorem Lookup.Waiting.handle_reply (hwaiting : lookup.Waiting (missing + 1))
    (hnone : contactOfReply suite remote resp = none) (hmore : 0 < missing) :
    (lookup.handle suite remote (.reply now resp)).Waiting missing := by
  have hremaining := hwaiting.remaining
  rw [handle_noContact hnone, if_neg (by omega)]
  exact ⟨by dsimp only; omega, hmore, hwaiting.handed⟩

theorem handle_answered (hanswered : lookup.remaining ≤ 0) (event : LookupEvent) :
    (lookup.handle suite remote event).handed = lookup.handed ∧
      (lookup.handle suite remote event).remaining ≤ 0 := by
  have hlate : ¬0 ≤ lookup.remaining - 1 := by omega
  cases event with
  | recached cache => exact ⟨rfl, hanswered⟩
  | reply now resp =>
    cases hcontact : contactOfReply suite remote resp with
    | some cc =>
      rw [handle_contact hcontact]
      dsimp only
      rw [if_neg hlate, if_neg (by omega)]
      exact ⟨rfl, by omega⟩
    | none =>
      rw [handle_noContact hcontact, if_neg (by omega)]
      exact ⟨rfl, by dsimp only; omega⟩

theorem offersAll (lookup : Lookup) (events : List LookupEvent) :
    OffersAll suite remote lookup events := by
  rintro front now resp rest cc - hcontact
  rw [Run.run_append, Run.run_cons, Run.run_nil, handle_contact hcontact]

theorem run_answered (hanswered : lookup.remaining ≤ 0) (events : List LookupEvent) :
    (Run.run (Lookup.handle suite remote) lookup events).handed = lookup.handed := by
  induction events generalizing lookup with
  | nil => rfl
  | cons event events ih =>
    obtain ⟨hhanded, hafter⟩ := @handle_answered suite remote _ hanswered event
    rw [Run.run_cons, ih hafter, hhanded]

structure DecidedAt (suite : CryptoSuite) (remote : RouterID) (lookup : Lookup)
    (events front : List LookupEvent) (now : Int) (resp : PathControlResponse)
    (rest : List LookupEvent) : Prop where
  split : events = front ++ .reply now resp :: rest
  first : ∀ event ∈ front, event.contact suite remote = none
  last : contactOfReply suite remote resp = none → replies rest = 0
  waiting : ∃ left, (Run.run (Lookup.handle suite remote) lookup front).Waiting left ∧
    (contactOfReply suite remote resp = none → left = 1)

theorem DecidedAt.cons {event : LookupEvent} {events front rest : List LookupEvent}
    (hnone : event.contact suite remote = none)
    (h : DecidedAt suite remote (lookup.handle suite remote event) events front now resp rest) :
    DecidedAt suite remote lookup (event :: events) (event :: front) now resp rest :=
  ⟨by rw [h.split, List.cons_append], List.forall_mem_cons.mpr ⟨hnone, h.first⟩, h.last,
    h.waiting⟩

theorem exists_decidedAt (hwaiting : lookup.Waiting missing)
    {events : List LookupEvent} (hreplies : replies events = missing) :
    ∃ front now resp rest, DecidedAt suite remote lookup events front now resp rest := by
  induction events generalizing lookup missing with
  | nil => exact absurd hreplies.symm (Nat.ne_of_gt hwaiting.pos)
  | cons event events ih =>
    cases event with
    | recached cache =>
      rw [replies_recached] at hreplies
      have hwaiting' : (lookup.handle suite remote (.recached cache)).Waiting missing :=
        ⟨hwaiting.remaining, hwaiting.pos, hwaiting.handed⟩
      obtain ⟨front, now, resp, rest, hdecided⟩ := ih hwaiting' hreplies
      exact ⟨_, now, resp, rest, hdecided.cons rfl⟩
    | reply now resp =>
      rw [replies_reply] at hreplies
      subst hreplies
      by_cases hdecisive : contactOfReply suite remote resp = none → replies events = 0
      · refine ⟨[], now, resp, events, rfl, (fun _ h => nomatch h), hdecisive, _, hwaiting, ?_⟩
        intro hnone
        rw [hdecisive hnone]
      · obtain ⟨hnone, hmore⟩ := Classical.not_imp.mp hdecisive
        have hwaiting' : (lookup.handle suite remote (.reply now resp)).Waiting _ :=
          hwaiting.handle_reply hnone (Nat.pos_of_ne_zero hmore)
        obtain ⟨front, now', resp', rest, hdecided⟩ := ih hwaiting' rfl
        exact ⟨_, now', resp', rest, hdecided.cons hnone⟩

theorem last_reply_unique {front front' : List LookupEvent} {now now' : Int}
    {resp resp' : PathControlResponse} {rest rest' : List LookupEvent}
    (hsplit : front ++ .reply now resp :: rest = front' ++ .reply now' resp' :: rest')
    (hrest : replies rest = 0) (hrest' : replies rest' = 0) : front = front' ∧ now = now' := by
  induction front generalizing front' with
  | nil =>
    cases front' with
    | nil =>
      cases hsplit
      exact ⟨rfl, rfl⟩
    | cons event front' =>
      rw [List.nil_append, List.cons_append, List.cons.injEq] at hsplit
      rw [hsplit.2, replies_append, replies_reply] at hrest
      omega
  | cons event front ih =>
    cases front' with
    | nil =>
      rw [List.nil_append, List.cons_append, List.cons.injEq] at hsplit
      rw [← hsplit.2, replies_append, replies_reply] at hrest'
      omega
    | cons event' front' =>
      rw [List.cons_append, List.cons_append] at hsplit
      obtain ⟨rfl, htail⟩ := List.cons.inj hsplit
      obtain ⟨rfl, hnow⟩ := ih htail
      exact ⟨rfl, hnow⟩

theorem DecidedAt.handed {events front rest : List LookupEvent}
    (h : DecidedAt suite remote lookup events front now resp rest) :
    (Run.run (Lookup.handle suite remote) lookup (front ++ [.reply now resp])).handed =
        [(updateCc (Run.run (Lookup.handle suite remote) lookup front).cache remote
          (contactOfReply suite remote resp) now).2] ∧
      (Run.run (Lookup.handle suite remote) lookup events).handed =
        [(updateCc (Run.run (Lookup.handle suite remote) lookup front).cache remote
          (contactOfReply suite remote resp) now).2] := by
  obtain ⟨left, hwaiting, hleft⟩ := h.waiting
  obtain ⟨hhanded, hanswered⟩ := @handle_decisive suite remote _ now resp left hwaiting hleft
  constructor
  · rw [Run.run_append, Run.run_cons, Run.run_nil, hhanded]
  · rw [h.split, Run.run_append, Run.run_cons, run_answered hanswered, hhanded]

theorem callsOnce_iff (hwaiting : lookup.Waiting missing)
    {events : List LookupEvent} (hreplies : replies events = missing) :
    CallsOnce suite remote lookup events ↔
      ((∀ event ∈ events, event.contact suite remote = none) →
        ∀ front now resp rest, events = front ++ .reply now resp :: rest → replies rest = 0 →
          ¬ExpiresAt (Run.run (Lookup.handle suite remote) lookup front).cache remote now) := by
  obtain ⟨front, now, resp, rest, hdecided⟩ :=
    @exists_decidedAt suite remote lookup missing hwaiting events hreplies
  obtain ⟨hhanded, hfinal⟩ := hdecided.handed
  constructor
  · rintro ⟨front', now', resp', rest', hsplit', -, hlast', -, result, -, hresult, hfresh⟩
    intro hnone front'' now'' resp'' rest'' hsplit'' hrest''
    have hcontact : ∀ {front now resp rest}, events = front ++ .reply now resp :: rest →
        contactOfReply suite remote resp = none := by
      intro front now resp rest hsplit
      refine hnone (.reply now resp) ?_
      rw [hsplit]
      exact List.mem_append_right _ (List.mem_cons_self ..)
    have hrest := hdecided.last (hcontact hdecided.split)
    have hrest' := hlast' (hcontact hsplit')
    -- all three splits are at the last reply
    obtain ⟨rfl, rfl⟩ := last_reply_unique (hdecided.split.symm.trans hsplit') hrest hrest'
    obtain ⟨rfl, rfl⟩ := last_reply_unique (hdecided.split.symm.trans hsplit'') hrest hrest''
    rw [hfinal] at hresult
    cases hresult
    rw [hcontact hdecided.split, hcontact hsplit'] at hfresh
    exact (fresh_updateCc_iff _ none _).mp hfresh rfl
  · intro hexpiry
    obtain ⟨left, hleft, -⟩ := hdecided.waiting
    refine ⟨front, now, resp, rest, hdecided.split, hdecided.first, hdecided.last, hleft.handed,
      _, hhanded, hfinal, (fresh_updateCc_iff _ _ _).mpr fun hnone => ?_⟩
    refine hexpiry ?_ front now resp rest hdecided.split (hdecided.last hnone)
    intro event hmem
    rw [hdecided.split, List.mem_append, List.mem_cons] at hmem
    rcases hmem with hfront | rfl | hrest
    · exact hdecided.first event hfront
    · exact hnone
    · cases event with
      | recached cache => rfl
      | reply now' resp' =>
        have hpos : 0 < replies rest := List.countP_pos_iff.mpr ⟨_, hrest, rfl⟩
        exact absurd (hdecided.last hnone) (Nat.ne_of_gt hpos)

def LookupStart.requests : LookupStart → Nat
  | .answered _ => 0
  | .asked _ _ => 4

def AnsweredFromCache (cache : ContactCache) (remote : RouterID) (allowCache : Bool) (now : Int) :
    Prop :=
  allowCache = true ∧ ∃ cc exp, cache.find remote = some (cc, exp) ∧ now < exp

variable {self : RouterID} {own : Option ClientContact} {activePaths : Nat} {cache : ContactCache}
  {allowCache : Bool}

theorem lookupClientIntro_query (hremote : remote ≠ self) (hpaths : 0 < activePaths)
    (hmiss : ¬AnsweredFromCache cache remote allowCache now) :
    ∃ checked : ContactCache, (allowCache = false → checked = cache) ∧
      (allowCache = true → checked.find remote = none) ∧
      lookupClientIntro suite self own activePaths cache remote allowCache now =
        match Crypto.blind suite remote Crypto.clientContactDomain with
        | none =>
          ((updateCc checked remote none now).1, .answered (updateCc checked remote none now).2)
        | some remoteKey =>
          (checked, .asked remoteKey { cache := checked, remaining := 4, handed := [] }) := by
  have hsome : activePaths ≠ 0 := Nat.ne_of_gt hpaths
  unfold lookupClientIntro
  cases allowCache with
  | false =>
    refine ⟨cache, fun _ => rfl, (fun h => absurd h Bool.false_ne_true), ?_⟩
    cases Crypto.blind suite remote Crypto.clientContactDomain <;>
      simp only [hremote, hsome, if_false, Bool.false_eq_true]
  | true =>
    cases hfind : cache.find remote with
    | none =>
      refine ⟨cache, (fun h => absurd h.symm Bool.false_ne_true), fun _ => hfind, ?_⟩
      cases Crypto.blind suite remote Crypto.clientContactDomain <;>
        simp only [hremote, hsome, if_false, if_true]
    | some stored =>
      obtain ⟨cc, exp⟩ := stored
      have hexpired : exp ≤ now := by
        by_contra hunexpired
        exact hmiss ⟨rfl, cc, exp, hfind, Int.not_le.mp hunexpired⟩
      refine ⟨cache.remove remote, (fun h => absurd h.symm Bool.false_ne_true), fun _ => ?_, ?_⟩
      · rw [Table.find_remove, if_pos rfl]
      · cases Crypto.blind suite remote Crypto.clientContactDomain <;>
          simp only [hremote, hsome, hexpired, if_false, if_true]

theorem fresh_updateCc_none (cache : ContactCache) (now : Int) :
    Fresh (updateCc cache remote none now).1 remote now none (updateCc cache remote none now).2 ↔
      ¬ExpiresAt cache remote now := by
  have hbefore : Fresh cache remote now none (updateCc cache remote none now).2 ↔
      ¬ExpiresAt cache remote now :=
    (fresh_updateCc_iff cache none now).trans (forall_prop_of_true rfl)
  rw [← hbefore]
  rcases updateCc_cases cache remote none now with ⟨hnone, -⟩ | ⟨entry, exp, -, hsame⟩
  · rw [hnone]
    exact iff_of_true (fun _ h => nomatch h) (fun _ h => nomatch h)
  · rw [hsame]

/-- A lookup that is not answered from the cache calls the function once, at the first reply with
a contact or at the last one, with a contact as new as it should be; later contacts reach the
cache.  The one exception is a lookup that fails at the moment at which a cached contact
expires. -/
theorem lookupClientIntro_looksUp_iff (hremote : remote ≠ self) (hpaths : 0 < activePaths)
    (hmiss : ¬AnsweredFromCache cache remote allowCache now) (events : List LookupEvent)
    (hreplies : replies events =
      (lookupClientIntro suite self own activePaths cache remote allowCache now).2.requests) :
    LooksUp suite remote now
        (lookupClientIntro suite self own activePaths cache remote allowCache now) events ↔
      NotAtExpiry suite remote cache allowCache now
        (lookupClientIntro suite self own activePaths cache remote allowCache now).2 events := by
  obtain ⟨checked, hkept, hremoved, hstart⟩ :=
    @lookupClientIntro_query suite remote now self own activePaths cache allowCache hremote hpaths
      hmiss
  rw [hstart] at hreplies ⊢
  cases hblind : Crypto.blind suite remote Crypto.clientContactDomain with
  | some remoteKey =>
    rw [hblind] at hreplies
    have hwaiting : Lookup.Waiting ⟨checked, 4, []⟩ 4 := ⟨rfl, by decide, rfl⟩
    exact (and_iff_left (offersAll _ events)).trans (callsOnce_iff hwaiting hreplies)
  | none =>
    refine (fresh_updateCc_none checked now).trans ?_
    cases allowCache with
    | false =>
      rw [hkept rfl]
      exact ⟨fun h _ => h, fun h => h rfl⟩
    | true =>
      refine iff_of_true ?_ (fun h => nomatch h)
      rintro ⟨cc, hfind⟩
      rw [hremoved rfl] at hfind
      cases hfind

end

namespace Failing

open Contact.Composed (suite root relayKey)

def contact : ClientContact where
  pubkey := root
  intros := [⟨relayKey, default, 1000⟩]
  intros_sorted := List.pairwise_singleton _ _
  srv := []
  protos := 0
  signedAt := 0
  exitPolicy := none

def cache : ContactCache :=
  (updateCc ∅ root (some contact) 0).1

def timeout (now : Int) : LookupEvent :=
  .reply now ⟨[], true, false⟩

theorem not_answeredFromCache : ¬AnsweredFromCache cache root false 0 :=
  fun h => absurd h.1 Bool.false_ne_true

theorem root_ne_relayKey : root ≠ relayKey := by decide +kernel

theorem lookupClientIntro_asked : ∃ remoteKey,
    lookupClientIntro suite relayKey none 1 cache root false 0 =
      (cache, .asked remoteKey { cache, remaining := 4, handed := [] }) := by
  have hblind : (Crypto.blind suite root Crypto.clientContactDomain).isSome = true := by
    decide +kernel
  obtain ⟨remoteKey, hblind⟩ := Option.isSome_iff_exists.mp hblind
  obtain ⟨checked, hkept, -, hstart⟩ :=
    @lookupClientIntro_query suite root 0 relayKey none 1 cache false root_ne_relayKey
      (by decide) not_answeredFromCache
  rw [hblind, hkept rfl] at hstart
  exact ⟨remoteKey, hstart⟩

end Failing

open Failing Contact.Composed

theorem lookupClientIntro_looksUp_contact :
    LooksUp suite root 0 (lookupClientIntro suite relayKey none 1 cache root false 0)
      [timeout 10, .reply 20 Contact.Composed.reply.2, timeout 30, timeout 40] := by
  have hcontact : contactOfReply suite root Contact.Composed.reply.2 ≠ none := by decide +kernel
  obtain ⟨remoteKey, hstart⟩ := lookupClientIntro_asked
  refine (lookupClientIntro_looksUp_iff root_ne_relayKey (by decide) not_answeredFromCache _
    ?_).mpr ?_
  · rw [hstart]
    rfl
  · rw [hstart]
    intro hnone
    exact absurd (hnone (.reply 20 Contact.Composed.reply.2) (by simp)) hcontact

theorem lookupClientIntro_expired :
    ¬LooksUp suite root 0 (lookupClientIntro suite relayKey none 1 cache root false 0)
      (List.replicate 4 (timeout 1000000)) := by
  obtain ⟨remoteKey, hstart⟩ := lookupClientIntro_asked
  rw [hstart]
  rintro ⟨hcalls, -⟩
  have hwaiting : Lookup.Waiting ⟨cache, 4, []⟩ 4 := ⟨rfl, by decide, rfl⟩
  refine (callsOnce_iff hwaiting rfl).mp hcalls ?_ (List.replicate 3 (timeout 1000000)) 1000000
    ⟨[], true, false⟩ [] rfl rfl ⟨contact, by decide +kernel⟩
  intro event hmem
  rw [List.eq_of_mem_replicate hmem]
  rfl

end SessionRouter.Handlers

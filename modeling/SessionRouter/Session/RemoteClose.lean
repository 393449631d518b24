import SessionRouter.Handlers.ContactLookup
import SessionRouter.Session.OutboundPaths

/-!
# Contacts after a remote close
-/

namespace SessionRouter

open Lib Handlers

namespace ContactUse

def recvClose (use : ContactUse) (now : Int) : ContactUse :=
  { use with ccOk := false, nextCcUpdate := now }

def lookupResult (use : ContactUse) (cc : Option ClientContact) (now : Int) : ContactUse :=
  match cc with
  | some cc =>
    if !use.ccOk && cc.signedAt ≤ use.ccLastSigned then use
    else { use.updateIntros cc now with ccOk := true }
  | none =>
    { use with
      ccFetchFailCount := use.ccFetchFailCount + 1
      nextCcUpdate := now + min (990 * (use.ccFetchFailCount + 1)) 10000 }

end ContactUse

/-- What happens to the contact of a session. -/
inductive ContactEvent where
  | closed (now : Int)
  | lookup (cc : Option ClientContact) (now : Int)
  | pushed (cache : ContactCache) (cc : Option ClientContact) (now : Int)

def ContactEvent.contact (remote : RouterID) : ContactEvent → Option ClientContact
  | .closed _ => none
  | .lookup cc _ => cc
  | .pushed cache cc now => cc.bind fun cc => (updateCc cache remote (some cc) now).2

def ContactUse.handleClientContact (use : ContactUse) (cc : Option ClientContact) (now : Int) :
    ContactUse :=
  match cc with
  | some cc => use.updateIntros cc now
  | none => use

/-- A session since a close by the remote. -/
structure ClosedSession where
  use : ContactUse
  signedAtClose : Int
  newerCame : Bool

namespace ClosedSession

variable (remote : RouterID)

def start (use : ContactUse) (now : Int) : ClosedSession :=
  ⟨use.recvClose now, use.ccLastSigned, false⟩

def step (s : ClosedSession) (event : ContactEvent) : ClosedSession :=
  let newerCame := s.newerCame ||
    (event.contact remote).any fun cc => s.signedAtClose < cc.signedAt
  match event with
  | .closed now => start s.use now
  | .lookup cc now => { s with use := s.use.lookupResult cc now, newerCame }
  | .pushed _ _ now =>
    { s with use := s.use.handleClientContact (event.contact remote) now, newerCame }

def Recovered (s : ClosedSession) : Prop :=
  s.use.ccOk = s.newerCame

def NewerFromLookup (s : ClosedSession) (event : ContactEvent) : Prop :=
  s.use.ccOk = true ∨ ∀ cc, event.contact remote = some cc →
    match event with
    | .closed _ => True
    | .lookup _ _ => s.use.ccLastSigned < cc.signedAt ↔ s.signedAtClose < cc.signedAt
    | .pushed _ _ _ => cc.signedAt ≤ s.signedAtClose

variable {remote}

theorem recovered_step_iff (s : ClosedSession) (event : ContactEvent) (h : s.Recovered) :
    (s.step remote event).Recovered ↔ s.NewerFromLookup remote event := by
  unfold Recovered NewerFromLookup step at *
  cases event with
  | closed now => simp [start, ContactUse.recvClose, ContactEvent.contact]
  | lookup cc now =>
    cases cc with
    | none => exact iff_of_true (h.trans (Bool.or_false _).symm) (.inr fun _ hcc => by cases hcc)
    | some cc =>
      cases hok : s.use.ccOk
      · by_cases hlater : cc.signedAt ≤ s.use.ccLastSigned
        · have hnot := Int.not_lt.mpr hlater
          simp [ContactUse.lookupResult, ContactEvent.contact, ← h, hok, hlater, hnot]
        · simp [ContactUse.lookupResult, ContactEvent.contact, ← h, hok, hlater,
            Int.not_le.mp hlater]
      · simp [ContactUse.lookupResult, ContactEvent.contact, ← h, hok]
  | pushed cache cc now =>
    dsimp only
    generalize (ContactEvent.pushed cache cc now).contact remote = processed
    cases processed with
    | none => simp [ContactUse.handleClientContact, h]
    | some processed =>
      cases hok : s.use.ccOk <;>
        simp [ContactUse.handleClientContact, ContactUse.updateIntros, ← h, hok]

/-- From a close on, path building is enabled exactly while a newer contact has come since the
last close, if and only if newer contacts come from lookups. -/
theorem recovered_iff (remote : RouterID) (use : ContactUse) (closedAt : Int)
    (events : List ContactEvent) :
    (∀ front back, events = front ++ back →
      (Run.run (step remote) (start use closedAt) front).Recovered) ↔
    Run.Meets (step remote) (NewerFromLookup remote) (start use closedAt) events :=
  Run.throughout_iff_meets (step remote) (NewerFromLookup remote)
    (fun _ _ (_ : True) _ => trivial) (fun s event _ h => recovered_step_iff s event h) events
    trivial rfl

def usingFive : ContactUse :=
  ⟨(contactSignedAt 5).intros, true, 0, 0, true, 5⟩

theorem pushed_contact_not_recovered :
    let s := Run.run (step default) (start usingFive 10)
      [.pushed ∅ (some (contactSignedAt 9)) 11, .lookup (some (contactSignedAt 9)) 12]
    s.newerCame = true ∧ s.use.ccOk = false := by
  decide +kernel

end ClosedSession
end SessionRouter

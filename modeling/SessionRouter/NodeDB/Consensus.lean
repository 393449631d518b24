import SessionRouter.Path.Control

/-!
# The RouterID consensus of a client
-/

namespace SessionRouter.NodeDB

open Lib Bencode

def ridSourceCount : Nat := 5

def selectMore (selected terminals : List RouterID) : List RouterID :=
  terminals.foldl (fun selected rid =>
    if ridSourceCount ≤ selected.length then selected
    else if rid ∈ selected then selected
    else selected ++ [rid]) selected

structure RidFetch where
  results : Table RouterID (List RouterID)
  resultCount : Nat
  inboundSources : List RouterID
  knownRids : List RouterID
  conclusive : Option Bool

def selectSources (active outbound : List RouterID) : List RouterID × List RouterID :=
  let inbound := selectMore [] active
  (inbound, if inbound.length < ridSourceCount then selectMore inbound outbound else inbound)

def fetchRids (knownRids active outbound : List RouterID) : Option RidFetch :=
  let (inbound, selected) := selectSources active outbound
  if inbound.isEmpty then none
  else
    some
      { results := selected.foldl (fun results rid => results.emplace rid []) ∅
        resultCount := 0
        inboundSources := inbound
        knownRids
        conclusive := none }

def parseRids (body : Bytes) : Option (List RouterID) := do
  let c ← DictConsumer.ofBytes body
  let (rids, _) ← c.require (readList (readFixed 32)) (ascii "r")
  return rids

def affirmed (resp : PathControlResponse) : List RouterID :=
  if resp.ok then (parseRids resp.body).getD [] else []

def agreement (results : Table RouterID (List RouterID)) (inboundSources : List RouterID)
    (rid : RouterID) : Nat × Bool :=
  results.entries.foldl (fun (agree, inboundAgrees) other =>
    if rid ∈ other.2 then (agree + 1, inboundAgrees || other.1 ∈ inboundSources)
    else (agree, inboundAgrees)) (0, false)

def considerRid (results : Table RouterID (List RouterID)) (inboundSources : List RouterID)
    (needed : Nat) (accepted : List RouterID) (rid : RouterID) : List RouterID :=
  if rid ∈ accepted then accepted
  else
    let (agree, inboundAgrees) := agreement results inboundSources rid
    if agree < needed then accepted
    else if !inboundAgrees then accepted
    else rid :: accepted

def handleFetchedRouterIds (results : Table RouterID (List RouterID))
    (inboundSources knownRids : List RouterID) : List RouterID × Bool :=
  let asked := results.entries.length
  let needed := asked / 2 + 1
  let accepted := results.entries.foldl (fun accepted entry =>
    entry.2.foldl (considerRid results inboundSources needed) accepted) []
  if accepted.isEmpty then (knownRids, false) else (accepted, true)

def recordReply (results : Table RouterID (List RouterID)) (source : RouterID)
    (resp : PathControlResponse) : Table RouterID (List RouterID) :=
  if resp.ok then
    match parseRids resp.body with
    | some rids => results.insertOrAssign source (rids ∪ (results.find source).getD [])
    -- ids that were read before the error are taken out again
    | none => results.insertOrAssign source []
  else results

def resultCb (fetch : RidFetch) (source : RouterID) (resp : PathControlResponse) : RidFetch :=
  let resultCount := fetch.resultCount + 1
  let results := recordReply fetch.results source resp
  if resultCount = results.entries.length then
    let decided := handleFetchedRouterIds results fetch.inboundSources fetch.knownRids
    { fetch with results, resultCount, knownRids := decided.1, conclusive := some decided.2 }
  else { fetch with results, resultCount }

def runReplies (replies : RouterID → PathControlResponse) (fetch : RidFetch)
    (order : List RouterID) : RidFetch :=
  order.foldl (fun fetch source => resultCb fetch source (replies source)) fetch

section

variable {results : Table RouterID (List RouterID)} {inboundSources : List RouterID}

theorem agreement_eq (rid : RouterID) :
    agreement results inboundSources rid =
      (results.entries.countP (fun other => rid ∈ other.2),
        results.entries.any (fun other => rid ∈ other.2 && other.1 ∈ inboundSources)) := by
  have hloop (entries : List (Sigma fun _ : RouterID => List RouterID)) (agree : Nat)
      (inboundAgrees : Bool) :
      entries.foldl (fun (acc : Nat × Bool) other =>
        if rid ∈ other.2 then (acc.1 + 1, acc.2 || other.1 ∈ inboundSources) else acc)
          (agree, inboundAgrees) =
        (agree + entries.countP (fun other => rid ∈ other.2),
          inboundAgrees ||
            entries.any (fun other => rid ∈ other.2 && other.1 ∈ inboundSources)) := by
    induction entries generalizing agree inboundAgrees with
    | nil => simp
    | cons other entries ih =>
      rw [List.foldl_cons]
      by_cases hmem : rid ∈ other.2
      · rw [if_pos hmem, ih]
        simp [hmem, Bool.or_assoc]
        omega
      · rw [if_neg hmem, ih]
        simp [hmem]
  have h := hloop results.entries 0 false
  simpa [agreement] using h

variable (results inboundSources) in
def Passes (needed : Nat) (rid : RouterID) : Prop :=
  needed ≤ (agreement results inboundSources rid).1 ∧
    (agreement results inboundSources rid).2 = true

variable {accepted : List RouterID}

variable {needed : Nat}

theorem mem_considerRid_iff {rid other : RouterID} :
    other ∈ considerRid results inboundSources needed accepted rid ↔
      other ∈ accepted ∨ (other = rid ∧ Passes results inboundSources needed rid) := by
  unfold considerRid Passes
  by_cases hold : rid ∈ accepted
  · simp only [hold, if_true]
    constructor
    · exact Or.inl
    · rintro (h | ⟨rfl, -⟩)
      · exact h
      · exact hold
  · simp only [hold, if_false]
    by_cases hagree : (agreement results inboundSources rid).1 < needed
    · simp [hagree]
    · cases hinbound : (agreement results inboundSources rid).2
      · simp [hagree]
      · simp [hagree, not_lt.mp hagree, or_comm]

theorem mem_foldl_considerRid_iff {rids : List RouterID} {other : RouterID} :
    other ∈ rids.foldl (considerRid results inboundSources needed) accepted ↔
      other ∈ accepted ∨ (other ∈ rids ∧ Passes results inboundSources needed other) := by
  induction rids generalizing accepted with
  | nil => simp
  | cons rid rids ih =>
    rw [List.foldl_cons, ih, mem_considerRid_iff]
    constructor
    · rintro ((h | ⟨rfl, h⟩) | ⟨hmem, h⟩)
      · exact .inl h
      · exact .inr ⟨List.mem_cons_self, h⟩
      · exact .inr ⟨List.mem_cons_of_mem _ hmem, h⟩
    · rintro (h | ⟨hmem, h⟩)
      · exact .inl (.inl h)
      · rcases List.mem_cons.mp hmem with rfl | hmem
        · exact .inl (.inr ⟨rfl, h⟩)
        · exact .inr ⟨hmem, h⟩

theorem mem_foldl_entries_iff {other : RouterID}
    (entries : List (Sigma fun _ : RouterID => List RouterID)) :
    other ∈ entries.foldl (fun accepted entry =>
        entry.2.foldl (considerRid results inboundSources needed) accepted) accepted ↔
      other ∈ accepted ∨
        ((∃ entry ∈ entries, other ∈ entry.2) ∧ Passes results inboundSources needed other) := by
  induction entries generalizing accepted with
  | nil => simp
  | cons entry entries ih =>
    rw [List.foldl_cons, ih, mem_foldl_considerRid_iff]
    simp only [List.mem_cons, exists_eq_or_imp]
    tauto

end

section

variable (sources inbound : List RouterID) (replies : RouterID → PathControlResponse)

def Consensus (rid : RouterID) : Prop :=
  sources.length < 2 * sources.countP (fun source => rid ∈ affirmed (replies source)) ∧
    ∃ source ∈ inbound, rid ∈ affirmed (replies source)

structure Recorded (arrived : List RouterID) (results : Table RouterID (List RouterID)) : Prop where
  keys : results.keys.Perm sources
  here : ∀ source rids, results.find source = some rids → source ∈ arrived →
    ∀ rid, rid ∈ rids ↔ rid ∈ affirmed (replies source)
  missing : ∀ source rids, results.find source = some rids → source ∉ arrived → rids = []

variable {sources inbound replies}

variable {results : Table RouterID (List RouterID)} {arrived : List RouterID}

section

variable (h : Recorded sources replies arrived results)

include h

theorem length_entries : results.entries.length = sources.length := by
  rw [← h.keys.length_eq, AList.keys, List.keys, List.length_map]

theorem Recorded.recordReply {source : RouterID}
    (hsource : source ∈ sources) (hnew : source ∉ arrived) :
    Recorded sources replies (arrived ++ [source])
      (recordReply results source (replies source)) := by
  have hpresent : (results.find source).isSome = true :=
    Table.mem_keys_iff.mp (h.keys.mem_iff.mpr hsource)
  obtain ⟨before, hbefore⟩ := Option.isSome_iff_exists.mp hpresent
  obtain rfl : before = [] := h.missing source before hbefore hnew
  -- in each case one entry changes, and the ids in it are those of the reply
  have hassign (rids : List RouterID)
      (hrids : ∀ rid, rid ∈ rids ↔ rid ∈ affirmed (replies source)) :
      Recorded sources replies (arrived ++ [source]) (results.insertOrAssign source rids) := by
    refine ⟨(Table.keys_insertOrAssign_perm hpresent rids).trans h.keys, ?_, ?_⟩
    · intro other rids' hfind harrived
      rw [Table.find_insertOrAssign] at hfind
      by_cases hother : other = source
      · rw [if_pos hother] at hfind
        cases hfind
        rw [hother]
        exact hrids
      · rw [if_neg hother] at hfind
        have harrived : other ∈ arrived := by simpa [hother] using harrived
        exact h.here other rids' hfind harrived
    · intro other rids' hfind hmissing
      have hother : other ≠ source := fun heq => hmissing (by simp [heq])
      rw [Table.find_insertOrAssign, if_neg hother] at hfind
      exact h.missing other rids' hfind fun hmem => hmissing (List.mem_append_left _ hmem)
  unfold NodeDB.recordReply
  by_cases hok : (replies source).ok = true
  · rw [if_pos hok]
    cases hparse : parseRids (replies source).body with
    | some rids =>
      apply hassign
      simp [affirmed, hok, hparse, hbefore]
    | none =>
      apply hassign
      simp [affirmed, hok, hparse]
  · rw [if_neg hok]
    refine ⟨h.keys, ?_, ?_⟩
    · intro other rids hfind harrived
      by_cases hother : other = source
      · subst hother
        rw [hbefore] at hfind
        cases hfind
        simp [affirmed, hok]
      · have harrived : other ∈ arrived := by simpa [hother] using harrived
        exact h.here other rids hfind harrived
    · intro other rids hfind hmissing
      exact h.missing other rids hfind fun hmem => hmissing (List.mem_append_left _ hmem)

theorem Recorded.passes_iff
    (hall : ∀ source ∈ sources, source ∈ arrived) (hinbound : ∀ source ∈ inbound, source ∈ sources)
    (rid : RouterID) :
    Passes results inbound (results.entries.length / 2 + 1) rid ↔
      Consensus sources inbound replies rid := by
  have hvalue (source : RouterID) (rids : List RouterID) (hfind : results.find source = some rids) :
      (rid ∈ rids) = (rid ∈ affirmed (replies source)) := by
    have hkey : source ∈ results.keys := Table.mem_keys_iff.mpr (by simp [hfind])
    exact propext (h.here source rids hfind (hall source (h.keys.mem_iff.mp hkey)) rid)
  have hcount : results.entries.countP (fun other => rid ∈ other.2) =
      sources.countP (fun source => rid ∈ affirmed (replies source)) := by
    rw [← h.keys.countP_eq]
    exact Table.countP_entries (p := fun _ rids => decide (rid ∈ rids)) fun source rids hfind =>
      decide_eq_decide.mpr (iff_of_eq (hvalue source rids hfind))
  have hany : results.entries.any (fun other => rid ∈ other.2 && other.1 ∈ inbound) = true ↔
      ∃ source ∈ inbound, rid ∈ affirmed (replies source) := by
    rw [List.any_eq_true]
    constructor
    · rintro ⟨entry, hmem, hentry⟩
      have hfind : results.find entry.1 = some entry.2 := Table.find_eq_some_iff.mpr hmem
      simp only [Bool.and_eq_true, decide_eq_true_eq, hvalue _ _ hfind] at hentry
      exact ⟨entry.1, hentry.2, hentry.1⟩
    · rintro ⟨source, hmem, haffirmed⟩
      have hkey : source ∈ results.keys := h.keys.mem_iff.mpr (hinbound source hmem)
      obtain ⟨rids, hfind⟩ := Option.isSome_iff_exists.mp (Table.mem_keys_iff.mp hkey)
      refine ⟨⟨source, rids⟩, Table.find_eq_some_iff.mp hfind, ?_⟩
      simp [hvalue _ _ hfind, haffirmed, hmem]
  unfold Passes Consensus
  rw [agreement_eq, hany, hcount, length_entries h]
  constructor
  · rintro ⟨hneeded, hinboundAgrees⟩
    exact ⟨by omega, hinboundAgrees⟩
  · rintro ⟨hmajority, hinboundAgrees⟩
    exact ⟨by omega, hinboundAgrees⟩

end

variable {known : List RouterID}

theorem Recorded.handleFetchedRouterIds (h : Recorded sources replies arrived results)
    (hall : ∀ source ∈ sources, source ∈ arrived)
    (hinbound : ∀ source ∈ inbound, source ∈ sources) :
    ((∃ rid, Consensus sources inbound replies rid) →
      ∀ rid, rid ∈ (handleFetchedRouterIds results inbound known).1 ↔
        Consensus sources inbound replies rid) ∧
    ((¬ ∃ rid, Consensus sources inbound replies rid) →
      (handleFetchedRouterIds results inbound known).1 = known) := by
  let accepted := results.entries.foldl (fun accepted entry =>
    entry.2.foldl (considerRid results inbound (results.entries.length / 2 + 1)) accepted) []
  have haccepted (rid : RouterID) : rid ∈ accepted ↔ Consensus sources inbound replies rid := by
    rw [mem_foldl_entries_iff, h.passes_iff hall hinbound]
    constructor
    · rintro (hnil | ⟨-, hconsensus⟩)
      · cases hnil
      · exact hconsensus
    · intro hconsensus
      -- an id that somebody affirms comes up in the loop
      obtain ⟨source, hsource, haffirmed⟩ := hconsensus.2
      have hkey : source ∈ results.keys := h.keys.mem_iff.mpr (hinbound source hsource)
      obtain ⟨rids, hfind⟩ := Option.isSome_iff_exists.mp (Table.mem_keys_iff.mp hkey)
      have hmem : rid ∈ rids :=
        (h.here source rids hfind (hall source (hinbound source hsource)) rid).mpr haffirmed
      exact .inr ⟨⟨⟨source, rids⟩, Table.find_eq_some_iff.mp hfind, hmem⟩, hconsensus⟩
  have heq : NodeDB.handleFetchedRouterIds results inbound known =
      if accepted.isEmpty then (known, false) else (accepted, true) := rfl
  constructor
  · rintro ⟨rid, hconsensus⟩ other
    have hnonempty : accepted.isEmpty = false := by
      rw [List.isEmpty_eq_false_iff_exists_mem]
      exact ⟨rid, (haccepted rid).mpr hconsensus⟩
    rw [heq, hnonempty]
    exact haccepted other
  · intro hnone
    have hempty : accepted.isEmpty = true := by
      rw [List.isEmpty_iff, List.eq_nil_iff_forall_not_mem]
      intro rid hmem
      exact hnone ⟨rid, (haccepted rid).mp hmem⟩
    rw [heq, hempty]
    rfl

variable (sources inbound replies) in
structure Undecided (known arrived : List RouterID) (fetch : RidFetch) : Prop where
  recorded : Recorded sources replies arrived fetch.results
  resultCount : fetch.resultCount = arrived.length
  inboundSources : fetch.inboundSources = inbound
  knownRids : fetch.knownRids = known

variable {fetch : RidFetch}

section

variable (h : Undecided sources inbound replies known arrived fetch)

include h

theorem Undecided.resultCb
    {source : RouterID} (hsource : source ∈ sources) (hnew : source ∉ arrived)
    (hmore : arrived.length + 1 < sources.length) :
    Undecided sources inbound replies known (arrived ++ [source])
      (resultCb fetch source (replies source)) := by
  have hrecorded := h.recorded.recordReply hsource hnew
  have hcount : ¬ fetch.resultCount + 1 =
      (NodeDB.recordReply fetch.results source (replies source)).entries.length := by
    rw [length_entries hrecorded, h.resultCount]
    omega
  unfold NodeDB.resultCb
  simp only [hcount, if_false]
  exact ⟨hrecorded, by simp [h.resultCount], h.inboundSources, h.knownRids⟩

theorem Undecided.resultCb_last
    {source : RouterID} (hsource : source ∈ sources) (hnew : source ∉ arrived)
    (hlast : arrived.length + 1 = sources.length) :
    ∃ results, Recorded sources replies (arrived ++ [source]) results ∧
      (NodeDB.resultCb fetch source (replies source)).knownRids =
        (NodeDB.handleFetchedRouterIds results inbound known).1 := by
  have hrecorded := h.recorded.recordReply hsource hnew
  have hcount : fetch.resultCount + 1 =
      (NodeDB.recordReply fetch.results source (replies source)).entries.length := by
    rw [length_entries hrecorded, h.resultCount]
    exact hlast
  refine ⟨_, hrecorded, ?_⟩
  unfold NodeDB.resultCb
  simp only [hcount, if_true]
  rw [h.inboundSources, h.knownRids]

end

variable {order : List RouterID}

section

variable (h : Undecided sources inbound replies known [] fetch)

include h

theorem Undecided.runReplies (hsources : ∀ source ∈ order, source ∈ sources) (hnodup : order.Nodup)
    (hmore : order.length < sources.length) :
    Undecided sources inbound replies known order (runReplies replies fetch order) := by
  induction order using List.reverseRecOn with
  | nil => exact h
  | append_singleton order source ih =>
    have hlength : order.length + 1 < sources.length := by simpa using hmore
    obtain ⟨hnodup, -, hdisjoint⟩ := List.nodup_append.mp hnodup
    have hnew : source ∉ order := fun hmem => hdisjoint source hmem source (by simp) rfl
    have hbefore := ih (fun other hmem => hsources other (by simp [hmem])) hnodup (by omega)
    have hrun : NodeDB.runReplies replies fetch (order ++ [source]) =
        NodeDB.resultCb (NodeDB.runReplies replies fetch order) source (replies source) := by
      simp [NodeDB.runReplies]
    rw [hrun]
    exact hbefore.resultCb (hsources source (by simp)) hnew hlength

theorem Undecided.runReplies_front
    (hdistinct : sources.Nodup) {front back : List RouterID} (horder : order.Perm sources)
    (hsplit : order = front ++ back) (hback : back ≠ []) :
    Undecided sources inbound replies known front (NodeDB.runReplies replies fetch front) := by
  subst hsplit
  apply h.runReplies
  · exact fun source hmem => horder.mem_iff.mp (List.mem_append_left _ hmem)
  · exact (List.nodup_append.mp (horder.nodup_iff.mpr hdistinct)).1
  · have hpos := List.length_pos_iff.mpr hback
    rw [← horder.length_eq, List.length_append]
    omega

theorem Undecided.runReplies_decided (hdistinct : sources.Nodup)
    (hinbound : ∀ source ∈ inbound, source ∈ sources) (hnonempty : inbound ≠ [])
    (horder : order.Perm sources) :
    let final := (NodeDB.runReplies replies fetch order).knownRids
    ((∃ rid, Consensus sources inbound replies rid) →
      ∀ rid, rid ∈ final ↔ Consensus sources inbound replies rid) ∧
    ((¬ ∃ rid, Consensus sources inbound replies rid) → final = known) := by
  intro final
  -- there is an inbound source, so there is a last reply
  obtain ⟨first, hfirst⟩ := List.exists_mem_of_ne_nil _ hnonempty
  have hsome : order ≠ [] := List.ne_nil_of_mem (horder.mem_iff.mpr (hinbound first hfirst))
  obtain ⟨front, last, hsplit⟩ := (List.eq_nil_or_concat order).resolve_left hsome
  rw [List.concat_eq_append] at hsplit
  have hbefore := h.runReplies_front hdistinct horder hsplit (List.cons_ne_nil _ _)
  have hlast : last ∉ front := by
    have hnodup := horder.nodup_iff.mpr hdistinct
    rw [hsplit] at hnodup
    exact fun hmem => (List.nodup_append.mp hnodup).2.2 last hmem last (by simp) rfl
  have hlength : front.length + 1 = sources.length := by
    rw [← horder.length_eq, hsplit, List.length_append, List.length_singleton]
  obtain ⟨results, hrecorded, hknown⟩ := hbefore.resultCb_last
    (horder.mem_iff.mp (by simp [hsplit])) hlast hlength
  have hall : ∀ source ∈ sources, source ∈ front ++ [last] := by
    intro source hsource
    rw [← hsplit]
    exact horder.mem_iff.mpr hsource
  have hfinal : final = (NodeDB.handleFetchedRouterIds results inbound known).1 := by
    rw [← hknown]
    simp [final, hsplit, NodeDB.runReplies]
  rw [hfinal]
  exact hrecorded.handleFetchedRouterIds hall hinbound

end

end

theorem subset_selectMore (selected terminals : List RouterID) :
    ∀ rid ∈ selected, rid ∈ selectMore selected terminals := by
  induction terminals generalizing selected with
  | nil => exact fun _ h => h
  | cons terminal terminals ih =>
    intro rid hmem
    rw [selectMore, List.foldl_cons]
    apply ih
    split
    · exact hmem
    · split
      · exact hmem
      · exact List.mem_append_left _ hmem

theorem nodup_selectMore {selected : List RouterID} (h : selected.Nodup)
    (terminals : List RouterID) : (selectMore selected terminals).Nodup := by
  induction terminals generalizing selected with
  | nil => exact h
  | cons terminal terminals ih =>
    rw [selectMore, List.foldl_cons]
    apply ih
    split
    · exact h
    · split
      · exact h
      · next hnew =>
        rw [List.nodup_append]
        refine ⟨h, List.nodup_singleton _, ?_⟩
        rintro rid hmem other hother rfl
        rw [List.mem_singleton.mp hother] at hmem
        exact hnew hmem

theorem selectSources_spec (active outbound : List RouterID) :
    (selectSources active outbound).2.Nodup ∧
      ∀ rid ∈ (selectSources active outbound).1, rid ∈ (selectSources active outbound).2 := by
  have hinbound : (selectMore [] active).Nodup := nodup_selectMore List.nodup_nil active
  unfold selectSources
  dsimp only
  split
  · exact ⟨nodup_selectMore hinbound outbound, subset_selectMore _ _⟩
  · exact ⟨hinbound, fun _ h => h⟩

theorem recorded_blank {sources : List RouterID} (hnodup : sources.Nodup)
    (replies : RouterID → PathControlResponse) :
    Recorded sources replies []
      (sources.foldl (fun results rid => results.emplace rid []) ∅) := by
  induction sources using List.reverseRecOn with
  | nil => exact ⟨List.Perm.refl _, fun _ _ h => (nomatch h), fun _ _ h => (nomatch h)⟩
  | append_singleton sources source ih =>
    obtain ⟨hnodup, -, hdisjoint⟩ := List.nodup_append.mp hnodup
    have hnew : source ∉ sources := fun hmem => hdisjoint source hmem source (by simp) rfl
    have h := ih hnodup
    rw [List.foldl_append, List.foldl_cons, List.foldl_nil]
    have habsent : (sources.foldl (fun results rid => Table.emplace results rid []) ∅ :
        Table RouterID (List RouterID)).find source = none := by
      rw [← Option.not_isSome_iff_eq_none, ← Table.mem_keys_iff, h.keys.mem_iff]
      exact hnew
    refine ⟨?_, fun _ _ _ hmem => (nomatch hmem), ?_⟩
    · rw [Table.keys_emplace habsent]
      exact (h.keys.cons source).trans (List.perm_append_singleton source sources).symm
    · intro other rids hfind hmissing
      rw [Table.find_emplace] at hfind
      split at hfind
      · cases hfind
        rfl
      · exact h.missing other rids hfind hmissing

theorem fetchRids_undecided {known active outbound : List RouterID} {fetch : RidFetch}
    (hfetch : fetchRids known active outbound = some fetch)
    (replies : RouterID → PathControlResponse) :
    (selectSources active outbound).1 ≠ [] ∧
      Undecided (selectSources active outbound).2 (selectSources active outbound).1 replies known []
        fetch := by
  unfold fetchRids at hfetch
  dsimp only at hfetch
  split at hfetch
  · cases hfetch
  · next hinbound =>
    cases hfetch
    refine ⟨by simpa using hinbound,
      recorded_blank (selectSources_spec active outbound).1 replies,
      rfl, rfl, rfl⟩

section

variable {sources inbound : List RouterID} {replies : RouterID → PathControlResponse}

theorem consensus_iff_of_majority {coalition known : List RouterID} (hnodup : coalition.Nodup)
    (hsources : ∀ source ∈ coalition, source ∈ sources)
    (hmajority : sources.length < 2 * coalition.length)
    (hinbound : ∃ source ∈ coalition, source ∈ inbound)
    (hagree : ∀ source ∈ coalition, ∀ rid, rid ∈ affirmed (replies source) ↔ rid ∈ known)
    (rid : RouterID) : Consensus sources inbound replies rid ↔ rid ∈ known := by
  have hsubperm : coalition.Subperm sources := List.subperm_of_subset hnodup hsources
  constructor
  · intro hconsensus
    by_contra hother
    -- then no member of the coalition affirms it, and the others are too few
    have hagainst : coalition.length ≤
        sources.countP (fun source => !decide (rid ∈ affirmed (replies source))) := by
      have hall : coalition.countP (fun source => !decide (rid ∈ affirmed (replies source))) =
          coalition.length := by
        rw [List.countP_eq_length]
        intro source hmem
        simpa using fun haffirmed => hother ((hagree source hmem rid).mp haffirmed)
      rw [← hall]
      exact hsubperm.countP_le _
    have htotal := List.length_eq_countP_add_countP
      (fun source => decide (rid ∈ affirmed (replies source))) (l := sources)
    have hfor := hconsensus.1
    simp only [Bool.not_eq_true, decide_eq_false_iff_not] at htotal
    simp only [← decide_not] at hagainst
    omega
  · intro hmem
    have hall : coalition.countP (fun source => decide (rid ∈ affirmed (replies source))) =
        coalition.length := by
      rw [List.countP_eq_length]
      intro source hsource
      simpa using (hagree source hsource rid).mpr hmem
    have hfor := hsubperm.countP_le (fun source => decide (rid ∈ affirmed (replies source)))
    obtain ⟨source, hsource, hin⟩ := hinbound
    exact ⟨by omega, source, hin, (hagree source hsource rid).mpr hmem⟩

theorem not_consensus_of_coalition {coalition : List RouterID} (hnodup : sources.Nodup)
    (hinbound : ∀ source ∈ inbound, source ∈ sources)
    (hweak : 2 * coalition.length ≤ sources.length ∨ ∀ source ∈ coalition, source ∉ inbound)
    {rid : RouterID}
    (hothers : ∀ source ∈ sources, source ∉ coalition → rid ∉ affirmed (replies source)) :
    ¬ Consensus sources inbound replies rid := by
  rintro ⟨hmajority, source, hin, haffirmed⟩
  have hmember (source : RouterID) (hsource : source ∈ sources)
      (haffirmed : rid ∈ affirmed (replies source)) : source ∈ coalition := by
    by_contra hmem
    exact hothers source hsource hmem haffirmed
  rcases hweak with hminority | houtside
  · let affirming := sources.filter fun source => decide (rid ∈ affirmed (replies source))
    have hsubperm : affirming.Subperm coalition := by
      apply List.subperm_of_subset (hnodup.filter _)
      intro source hmem
      obtain ⟨hsource, haffirmed⟩ := List.mem_filter.mp hmem
      exact hmember source hsource (by simpa using haffirmed)
    have hfew : sources.countP (fun source => decide (rid ∈ affirmed (replies source))) ≤
        coalition.length := by
      rw [List.countP_eq_length_filter]
      exact hsubperm.length_le
    omega
  · exact houtside source (hmember source (hinbound source hin) haffirmed) hin

end

/-- A round of the RouterID consensus, with any sources, replies and order of arrival.
Before the last reply the known ids stay as they are.  Afterwards they are exactly the
ids with a consensus, or as before if there is none.  A majority with an inbound member
that reports one set gets exactly that set, and a minority or a coalition without inbound
member adds no id that nobody else reports. -/
theorem fetchRids_consensus (known active outbound : List RouterID) {fetch : RidFetch}
    (hfetch : fetchRids known active outbound = some fetch)
    (replies : RouterID → PathControlResponse) {order : List RouterID}
    (horder : order.Perm (selectSources active outbound).2) :
    let sources := (selectSources active outbound).2
    let inbound := (selectSources active outbound).1
    let final := (runReplies replies fetch order).knownRids
    (∀ front back, order = front ++ back → back ≠ [] →
      (runReplies replies fetch front).knownRids = known) ∧
    ((∃ rid, Consensus sources inbound replies rid) →
      ∀ rid, rid ∈ final ↔ Consensus sources inbound replies rid) ∧
    ((¬ ∃ rid, Consensus sources inbound replies rid) → final = known) ∧
    (∀ coalition reported : List RouterID, coalition.Nodup →
      (∀ source ∈ coalition, source ∈ sources) → sources.length < 2 * coalition.length →
      (∃ source ∈ coalition, source ∈ inbound) → reported ≠ [] →
      (∀ source ∈ coalition, ∀ rid, rid ∈ affirmed (replies source) ↔ rid ∈ reported) →
      ∀ rid, rid ∈ final ↔ rid ∈ reported) ∧
    (∀ coalition : List RouterID,
      (2 * coalition.length ≤ sources.length ∨ ∀ source ∈ coalition, source ∉ inbound) →
      ∀ rid ∉ known,
        (∀ source ∈ sources, source ∉ coalition → rid ∉ affirmed (replies source)) →
        rid ∉ final) := by
  intro sources inbound final
  obtain ⟨hnonempty, hstart⟩ := fetchRids_undecided hfetch replies
  obtain ⟨hdistinct, hinbound⟩ := selectSources_spec active outbound
  obtain ⟨hconsensus, hnone⟩ := hstart.runReplies_decided hdistinct hinbound hnonempty horder
  refine ⟨fun front back hsplit hback =>
    (hstart.runReplies_front hdistinct horder hsplit hback).knownRids, hconsensus, hnone, ?_, ?_⟩
  · intro coalition reported hcoalition hsources hmajority hin hreported hagree rid
    have hiff := consensus_iff_of_majority hcoalition hsources hmajority hin hagree
    obtain ⟨some, hsome⟩ := List.exists_mem_of_ne_nil _ hreported
    rw [hconsensus ⟨some, (hiff some).mpr hsome⟩ rid, hiff rid]
  · intro coalition hweak rid hnew hothers hmem
    have hnot := not_consensus_of_coalition hdistinct hinbound hweak hothers
    by_cases hsome : ∃ rid, Consensus sources inbound replies rid
    · exact hnot ((hconsensus hsome rid).mp hmem)
    · have hkept : final = known := hnone hsome
      rw [hkept] at hmem
      exact hnew hmem

namespace Round

def relay (byte : UInt8) : RouterID := FixedBytes.filled 32 byte

def replies (source : RouterID) : PathControlResponse where
  body :=
    if source = relay 3 then ascii "nonsense"
    else encodeDict [(ascii "r", encodeList [encodeString (relay 7).data])]
  timedOut := false
  error := false

end Round

open Round

theorem fetchRids_consensus_round :
    ∃ fetch, fetchRids [relay 5] [relay 1, relay 1] [relay 2, relay 1, relay 3] = some fetch ∧
      ∀ rid, rid ∈ (runReplies replies fetch [relay 3, relay 1, relay 2]).knownRids ↔
        rid ∈ [relay 7] := by
  have hsources : selectSources [relay 1, relay 1] [relay 2, relay 1, relay 3] =
      ([relay 1], [relay 1, relay 2, relay 3]) := by decide
  have horder : [relay 3, relay 1, relay 2].Perm
      (selectSources [relay 1, relay 1] [relay 2, relay 1, relay 3]).2 := by
    rw [hsources]
    decide
  have hone : affirmed (replies (relay 1)) = [relay 7] := by decide +kernel
  have htwo : affirmed (replies (relay 2)) = [relay 7] := by decide +kernel
  refine ⟨_, rfl, ?_⟩
  obtain ⟨-, -, -, hmajority, -⟩ := fetchRids_consensus [relay 5] _ _ rfl replies horder
  refine hmajority [relay 1, relay 2] [relay 7] (by decide) ?_ ?_ ?_ (by decide) ?_
  · rw [hsources]
    decide
  · rw [hsources]
    decide
  · rw [hsources]
    decide
  · intro source hmem rid
    rcases List.mem_pair.mp hmem with rfl | rfl
    · rw [hone]
    · rw [htwo]

end SessionRouter.NodeDB

import Mathlib.Algebra.Order.BigOperators.Group.Finset
import SessionRouter.Util.QueueInvariant

/-!
# Every step of a thread keeps the lock-free queue in order
-/

namespace SessionRouter

open Lib.RoundRobin

variable {α : Type} {capacity : ℕ} {memory : QueueMemory α} {history : QueueHistory α}
  {thread : ℕ}

structure QueueStepOk (capacity : ℕ) (memory : QueueMemory α) (history : QueueHistory α)
    (thread : ℕ) (standing : QueueThread α) (outcome : QueueOutcome α) : Prop where
  effect : QueueEffect capacity memory history thread
    (fun index => (memory.state index).Busy ∧ index ∉ standing.owned) outcome.memory outcome.event
  ok : outcome.thread.Ok capacity outcome.memory (history.record thread outcome.event) thread
  owned : ∀ index ∈ outcome.thread.owned, index ∈ standing.owned ∨ ¬ (memory.state index).Busy

theorem QueueEffect.mono {kept kept' : ℕ → Prop} {memory' : QueueMemory α} {event : QueueEvent α}
    (h : QueueEffect capacity memory history thread kept memory' event)
    (hkept : ∀ index, kept' index → kept index) :
    QueueEffect capacity memory history thread kept' memory' event :=
  ⟨h.coherent, h.growth.mono hkept⟩

variable {memory' : QueueMemory α} {event : QueueEvent α}

theorem QueueEffect.of_owned {index : ℕ}
    {owned : List ℕ} (h : QueueEffect capacity memory history thread (· ≠ index) memory' event)
    (howned : index ∈ owned) :
    QueueEffect capacity memory history thread
      (fun other => (memory.state other).Busy ∧ other ∉ owned) memory' event :=
  h.mono fun _ hother heq => hother.2 (heq ▸ howned)

theorem QueueEffect.of_not_busy {index : ℕ}
    {owned : List ℕ} (h : QueueEffect capacity memory history thread (· ≠ index) memory' event)
    (hbusy : ¬ (memory.state index).Busy) :
    QueueEffect capacity memory history thread
      (fun other => (memory.state other).Busy ∧ other ∉ owned) memory' event :=
  h.mono fun _ hother heq => hbusy (heq ▸ hother.1)

namespace QueueCoherent

variable (h : QueueCoherent capacity memory history) (hpos : 0 < capacity)
  (hle : capacity ≤ 2 ^ 30)

include h hpos

include hle in
theorem generation_of_word {loaded : ℕ} {state : ElementState}
    (hlower : loaded / capacity ≤ history.generation (loaded % capacity) + 1)
    (hupper : history.generation (loaded % capacity) <
      loaded / capacity + numGenerations capacity)
    (hword : memory.states (loaded % capacity) =
      encodeElement (loaded / capacity % numGenerations capacity) state) :
    history.generation (loaded % capacity) = loaded / capacity ∧
      memory.state (loaded % capacity) = state := by
  have hcell := h.cellWord (loaded % capacity) (Nat.mod_lt loaded hpos)
  rw [hword] at hcell
  have hgeneration := congrArg decodeGenerationFromElementState hcell
  have hstate := congrArg decodeStateFromElementState hcell
  rw [decodeGeneration_encodeElement, decodeGeneration_encodeElement] at hgeneration
  rw [decodeState_encodeElement, decodeState_encodeElement] at hstate
  exact ⟨eq_of_mod_eq_of_le_succ (two_le_numGenerations hpos hle) hgeneration.symm hlower hupper,
    hstate.symm⟩

theorem le_generation_of_push {loaded : ℕ} (hloaded : loaded ≤ history.pushIndex) :
    loaded / capacity ≤ history.generation (loaded % capacity) + 1 := by
  have hdiv := h.writes.div_le hpos (hloaded.trans h.pushIndex_le)
  have hwritten : (memory.state (loaded % capacity)).written ≤ 1 := by
    cases memory.state (loaded % capacity) <;> decide
  omega

theorem le_generation_of_pop {loaded : ℕ} (hloaded : loaded ≤ history.popIndex) :
    loaded / capacity ≤ history.generation (loaded % capacity) + 1 := by
  have hdiv := h.reads.div_le hpos (hloaded.trans h.popIndex_le)
  have hread : (memory.state (loaded % capacity)).read ≤ 1 := by
    cases memory.state (loaded % capacity) <;> decide
  omega

omit h hpos in
theorem turn_eq_loaded {loaded : ℕ}
    (hgeneration : history.generation (loaded % capacity) = loaded / capacity) :
    history.turn capacity (loaded % capacity) = loaded := by
  rw [QueueHistory.turn, hgeneration, Nat.div_add_mod']

include hle in
theorem advancePush {kept : ℕ → Prop} {combined : ℕ}
    (hread : ReadTaken capacity history thread history.pushIndex history.pushed.length combined)
    (hwithin : WithinWrap capacity history thread history.pushIndex)
    (hword : memory.pushIndex = combined) :
    QueueEffect capacity memory history thread kept
      { memory with pushIndex := nextCombinedIndex capacity combined } .pushIndexAdvanced := by
  have hwrap : 0 < numCombined capacity := hpos.trans (lt_numCombined hpos hle)
  obtain ⟨⟨rfl, hloaded⟩, htaken⟩ := hread
  have hsmall := (Nat.mod_lt (history.loaded thread) hwrap).trans_le numCombined_le
  -- The exchange fails on a disabled queue, since the thread's own word has no flag.
  have hpush : memory.pushIndex = history.pushIndex % numCombined capacity := by
    rcases h.pushWord with hpush | hpush
    · exact hpush
    · omega
  have hindex : history.pushIndex = history.loaded thread :=
    eq_of_mod_eq (hpush.symm.trans hword) hloaded hwithin.1
  rw [← hword]
  exact h.pushIndexAdvanced hwrap hpush (hindex ▸ htaken)

include hle in
theorem advancePop {kept : ℕ → Prop} {loaded : ℕ}
    (hread : ReadTaken capacity history thread history.popIndex history.popped loaded)
    (hwithin : WithinWrap capacity history thread history.popIndex)
    (hword : memory.popIndex = loaded) :
    QueueEffect capacity memory history thread kept
      { memory with popIndex := nextCombinedIndex capacity loaded } .popIndexAdvanced := by
  have hwrap : 0 < numCombined capacity := hpos.trans (lt_numCombined hpos hle)
  obtain ⟨⟨rfl, hloaded⟩, htaken⟩ := hread
  have hindex : history.popIndex = history.loaded thread :=
    eq_of_mod_eq (h.popWord.symm.trans hword) hloaded hwithin.1
  rw [← hword]
  exact h.popIndexAdvanced hwrap (hindex ▸ htaken)

omit hpos in
theorem readFrom_pushIndex (value : α) (saved : ℕ) :
    (QueueThread.pushReserve value memory.pushIndex saved).Ok capacity memory
      (history.record thread .readPushIndex) thread := by
  have hread (word : ℕ) (hword : word = history.pushIndex % numCombined capacity) :
      ReadFrom capacity (history.record thread .readPushIndex) thread history.pushIndex word := by
    simp [ReadFrom, QueueHistory.record, hword]
  rcases h.pushWord with hpush | hpush
  · exact .inl (hread _ hpush)
  · exact .inr ⟨_, hpush, hread _ rfl⟩

omit hpos in
theorem readFrom_popIndex :
    ReadFrom capacity (history.record thread .readPopIndex) thread history.popIndex
      memory.popIndex := by
  simp [ReadFrom, QueueHistory.record, h.popWord]

variable {guarded : QueueSlot} {standing next : QueueThread α} {slot : QueueSlot}

omit hpos in
theorem stays (hok : next.Ok capacity memory history thread)
    (howned : next.owned ⊆ standing.owned) :
    QueueStepOk capacity memory history thread standing ⟨memory, next, .nothing⟩ :=
  ⟨h.nothing, hok, fun _ hindex => .inl (howned hindex)⟩

section Push

variable {loaded : ℕ} (hloaded : loaded ≤ history.pushIndex)
  (hupper : history.generation (loaded % capacity) <
    loaded / capacity + numGenerations capacity)

include hloaded hupper hle

theorem loaded_eq_pushed (hword : memory.states (loaded % capacity) =
      encodeElement (loaded / capacity % numGenerations capacity) .empty) :
    history.generation (loaded % capacity) = loaded / capacity ∧
      memory.state (loaded % capacity) = .empty ∧ loaded = history.pushed.length := by
  obtain ⟨hgeneration, hstate⟩ :=
    h.generation_of_word hpos hle (h.le_generation_of_push hpos hloaded) hupper hword
  refine ⟨hgeneration, hstate, ?_⟩
  have hnot : ¬ loaded < history.pushed.length := by
    rw [h.writes.lt_iff hpos, hgeneration, hstate]
    exact lt_irrefl _
  have hpushIndex := h.pushIndex_le
  omega

omit h hpos hle hloaded hupper in
theorem isGenerationBehind_succ (hwrap : 0 < numGenerations capacity) (generation : ℕ) :
    isGenerationBehind capacity ((generation + 1) % numGenerations capacity)
      (generation % numGenerations capacity) = true := by
  rw [← wrap_succ hwrap, isGenerationBehind, maxGeneration]
  split
  next hlast => simp [hlast]
  next => simp

omit hupper in
theorem loaded_lt_pushed (hword : memory.states (loaded % capacity) ≠
      encodeElement (loaded / capacity % numGenerations capacity) .empty)
    (hbehind : isGenerationBehind capacity (loaded / capacity % numGenerations capacity)
      (decodeGenerationFromElementState (memory.states (loaded % capacity))) = false) :
    loaded < history.pushed.length := by
  have hlower := h.le_generation_of_push hpos hloaded
  have hcell := h.cellWord (loaded % capacity) (Nat.mod_lt loaded hpos)
  have htwo := two_le_numGenerations hpos hle
  have hne : loaded / capacity ≠ history.generation (loaded % capacity) + 1 := by
    intro heq
    rw [heq, hcell, decodeGeneration_encodeElement,
      isGenerationBehind_succ (by omega)] at hbehind
    exact Bool.noConfusion hbehind
  rw [h.writes.lt_iff hpos]
  rcases Nat.lt_or_ge (loaded / capacity) (history.generation (loaded % capacity)) with hlt | hge
  · omega
  · have heq : history.generation (loaded % capacity) = loaded / capacity := by omega
    have hstate : memory.state (loaded % capacity) ≠ .empty := by
      intro hempty
      rw [hempty, heq] at hcell
      exact hword hcell
    have hwritten : (memory.state (loaded % capacity)).written = 1 := by
      cases hcase : memory.state (loaded % capacity) <;> first | rfl | exact absurd hcase hstate
    omega

end Push

include hle in
theorem reservePushIndex_ok {value : α} {loaded saved : ℕ}
    (hok : (QueueThread.pushReserve value loaded saved).Ok capacity memory history thread)
    (hwithin : WithinWrap capacity history thread history.pushIndex) :
    QueueStepOk capacity memory history thread (.pushReserve value loaded saved)
      (reservePushIndex capacity memory value loaded saved) := by
  have hwrap : 0 < numCombined capacity := hpos.trans (lt_numCombined hpos hle)
  have hsmall := (Nat.mod_lt (history.loaded thread) hwrap).trans_le numCombined_le
  rcases hok with hread | ⟨word, rfl, rfl, -⟩
  · obtain ⟨rfl, hloaded⟩ := id hread
    simp only [reservePushIndex, isDisabledFlagSet_of_lt hsmall, Bool.false_eq_true, if_false,
      discardDisabledFlag_of_lt hsmall, ofCombined_mod]
    split
    next hword =>
      obtain ⟨hgeneration, hstate, hnext⟩ := h.loaded_eq_pushed hpos hle hloaded hwithin.2 hword
      have hturn := turn_eq_loaded hgeneration
      have hbusy : ¬ (memory.state (history.loaded thread % capacity)).Busy := by
        simp [ElementState.Busy, hstate]
      have heffect : QueueEffect capacity memory history thread _ _ (.pushReserved value) :=
        h.pushReserved hpos value (by rw [hnext]) hstate
      rw [QueueMemory.mark, hgeneration] at heffect
      refine ⟨heffect.of_not_busy hbusy, ⟨⟨hread, ?_⟩, ⟨?_, ?_, ?_⟩, ?_, ?_⟩, ?_⟩
      · simp [QueueHistory.record, hnext]
      · exact Nat.mod_lt _ hpos
      · simp [QueueHistory.record, hgeneration]
      · simp
      · exact (Function.update_self ..).trans (hnext.symm.trans hturn.symm)
      · show (history.pushed ++ [value])[history.turn capacity
          (history.loaded thread % capacity)]? = some value
        rw [hturn, hnext]
        exact List.getElem?_concat_length
      · simp [QueueThread.owned, hbusy]
    next hword =>
      split
      next hbehind =>
        split
        · exact h.stays trivial (List.nil_subset _)
        · split
          · exact h.stays trivial (List.nil_subset _)
          · exact h.stays trivial (List.nil_subset _)
      next hbehind =>
        have htaken := h.loaded_lt_pushed hpos hle hloaded hword (Bool.not_eq_true _ ▸ hbehind)
        exact h.stays ⟨hread, htaken⟩ (List.nil_subset _)
  · simp only [reservePushIndex, isDisabledFlagSet_flagged hsmall, if_true]
    exact h.stays trivial (List.nil_subset _)

section Pop

variable {loaded : ℕ} (hloaded : loaded ≤ history.popIndex)
  (hupper : history.generation (loaded % capacity) <
    loaded / capacity + numGenerations capacity)

include hloaded hupper hle

theorem loaded_eq_popped (hword : memory.states (loaded % capacity) =
      encodeElement (loaded / capacity % numGenerations capacity) .full) :
    history.generation (loaded % capacity) = loaded / capacity ∧
      memory.state (loaded % capacity) = .full ∧ loaded = history.popped ∧
      history.popped = history.popIndex := by
  obtain ⟨hgeneration, hstate⟩ :=
    h.generation_of_word hpos hle (h.le_generation_of_pop hpos hloaded) hupper hword
  have hnot : ¬ loaded < history.popped := by
    rw [h.reads.lt_iff hpos, hgeneration, hstate]
    exact lt_irrefl _
  have hpopIndex := h.popIndex_le
  exact ⟨hgeneration, hstate, by omega, by omega⟩

theorem loaded_lt_popped (hgeneration : loaded / capacity % numGenerations capacity =
      decodeGenerationFromElementState (memory.states (loaded % capacity)))
    (hstate : memory.state (loaded % capacity) = .reading) : loaded < history.popped := by
  have hcell := h.cellWord (loaded % capacity) (Nat.mod_lt loaded hpos)
  rw [hcell, decodeGeneration_encodeElement] at hgeneration
  have heq := eq_of_mod_eq_of_le_succ (two_le_numGenerations hpos hle) hgeneration.symm
      (h.le_generation_of_pop hpos hloaded) hupper
  rw [h.reads.lt_iff hpos, heq, hstate]
  exact Nat.lt_succ_self _

end Pop

include hle in
theorem takeFull {loaded : ℕ}
    (hread : ReadFrom capacity history thread history.popIndex loaded)
    (hwithin : WithinWrap capacity history thread history.popIndex)
    (hword : memory.states (QueueSlot.ofCombined capacity loaded).index =
      encodeElement (QueueSlot.ofCombined capacity loaded).generation .full) :
    let slot := QueueSlot.ofCombined capacity loaded
    let memory' := memory.setState slot.index (encodeElement slot.generation .reading)
    let history' := history.record thread .popReserved
    memory.state slot.index = .full ∧
      QueueEffect capacity memory history thread (· ≠ slot.index) memory' .popReserved ∧
      ReadTaken capacity history' thread history'.popIndex history'.popped loaded ∧
      Holds capacity memory' history' .reading slot ∧
      Delivers capacity memory' history' thread slot := by
  obtain ⟨rfl, hloaded⟩ := id hread
  simp only [ofCombined_mod] at hword ⊢
  obtain ⟨hgeneration, hstate, hnext, hpopped⟩ :=
    h.loaded_eq_popped hpos hle hloaded hwithin.2 hword
  have hindex : history.loaded thread % capacity < capacity := Nat.mod_lt _ hpos
  have hturn := turn_eq_loaded hgeneration
  have heffect : QueueEffect capacity memory history thread _ _ .popReserved :=
    h.popReserved hpos (by rw [hnext]) hpopped (.inl hstate)
  rw [QueueMemory.mark, hgeneration] at heffect
  refine ⟨hstate, heffect, ⟨hread, ?_⟩, ⟨hindex, ?_, ?_⟩, h.stores _ hindex hstate, ?_, ?_⟩
  · simp [QueueHistory.record, hnext]
  · simp [QueueHistory.record, hgeneration]
  · simp
  · exact (Function.update_self ..).trans (hnext.symm.trans hturn.symm)
  · -- Only pops that were reserved before have handed out an element.
    intro hmem
    obtain ⟨entry, hentry, hnumber⟩ := List.mem_map.mp hmem
    have hlt := (h.delivered_pushed entry hentry).1
    have hentry : entry.1 = history.loaded thread := hnumber.trans hturn
    omega

include hle in
theorem reservePopIndex_ok {loaded saved : ℕ}
    (hread : ReadFrom capacity history thread history.popIndex loaded)
    (hwithin : WithinWrap capacity history thread history.popIndex) :
    QueueStepOk capacity memory history thread (.popReserve loaded saved)
      (reservePopIndex capacity memory loaded saved) := by
  simp only [reservePopIndex]
  split
  next hword =>
    obtain ⟨hstate, heffect, hok⟩ := h.takeFull hpos hle hread hwithin hword
    have hbusy : ¬ (memory.state (QueueSlot.ofCombined capacity loaded).index).Busy := by
      simp [ElementState.Busy, hstate]
    exact ⟨heffect.of_not_busy hbusy, hok, by simp [QueueThread.owned, hbusy]⟩
  next hword =>
    split
    · exact h.stays trivial (List.nil_subset _)
    · split
      · split
        · exact h.stays trivial (List.nil_subset _)
        · exact h.stays trivial (List.nil_subset _)
      · split
        · exact h.stays trivial (List.nil_subset _)
        next hnotEmpty hnotWriting =>
          refine h.stays ⟨hread, ?_⟩ (List.nil_subset _)
          obtain ⟨rfl, hloaded⟩ := hread
          rw [ofCombined_mod] at hword hnotEmpty hnotWriting
          obtain ⟨hgeneration, hwriting⟩ := not_or.mp hnotWriting
          have hgeneration := not_not.mp hgeneration
          have hcell := h.cellWord _ (Nat.mod_lt (history.loaded thread) hpos)
          have hstate : memory.state (history.loaded thread % capacity) = .reading := by
            cases hcase : memory.state (history.loaded thread % capacity) with
            | empty => exact absurd ⟨hgeneration, hcase⟩ hnotEmpty
            | writing => exact absurd hcase hwriting
            | full =>
              refine absurd ?_ hword
              rw [hgeneration, hcell, decodeGeneration_encodeElement, hcase]
            | reading => rfl
          exact h.loaded_lt_popped hpos hle hloaded hwithin.2 hgeneration hstate

theorem popped_le_turn (hholds : Holds capacity memory history .writing slot) :
    history.popped ≤ history.turn capacity slot.index := by
  by_contra hlt
  have hreading := (h.turn_lt_popped_iff hpos hholds.1).mp (Nat.lt_of_not_le hlt)
  rw [hholds.2.2] at hreading
  exact ElementState.noConfusion hreading

omit hpos in
theorem turn_le_popIndex_add (hholds : Holds capacity memory history .writing slot) :
    history.turn capacity slot.index ≤ history.popIndex + capacity := by
  have hupper : (history.generation slot.index + (memory.state slot.index).read) * capacity +
      slot.index < history.popped + capacity := (h.reads slot.index hholds.1).2
  have hpopped := h.popped_le
  rw [hholds.2.2] at hupper
  simp only [ElementState.read, Nat.add_zero] at hupper
  rw [QueueHistory.turn]
  omega

omit h hpos in
theorem combined_of_holds {state : ElementState} {slot : QueueSlot}
    (hholds : Holds capacity memory history state slot) :
    slot.generation * capacity + slot.index =
      history.turn capacity slot.index % numCombined capacity := by
  obtain ⟨hindex, hgeneration, -⟩ := hholds
  rw [hgeneration, ← Nat.div_add_mod' (history.turn capacity slot.index % numCombined capacity)
    capacity, numCombined, Nat.mul_comm (numGenerations capacity), Nat.mod_mul_right_div_self,
    Nat.mod_mul_right_mod, history.turn_mod hindex, history.turn_div hindex]

include hle in
theorem reservePopForClear_ok {loaded : ℕ}
    (hok : (QueueThread.clearReserve guarded loaded).Ok capacity memory history thread)
    (hwithin : WithinWrap capacity history thread history.popIndex) :
    QueueStepOk capacity memory history thread (.clearReserve guarded loaded)
      (reservePopForClear capacity memory guarded loaded) := by
  have hlt := lt_numCombined hpos hle
  obtain ⟨hread, hbound, hholds⟩ := hok
  obtain ⟨hword, hloaded⟩ := id hread
  have hpopped := h.popped_le_turn hpos hholds
  have hpopIndex := h.popIndex_le
  have hlast : maxCombinedIndex capacity + 1 = numCombined capacity :=
    Nat.sub_add_cancel (hpos.trans hlt)
  have hend : circularDifference (guarded.generation * capacity + guarded.index) loaded
      (maxCombinedIndex capacity + 1) = 0 ↔
      history.turn capacity guarded.index = history.loaded thread := by
    rw [hlast, combined_of_holds hholds, hword, circularDifference_eq_zero_iff
      (Nat.mod_lt _ (hpos.trans hlt)) (Nat.mod_lt _ (hpos.trans hlt))]
    exact ⟨fun hmod => eq_of_mod_eq hmod (by omega) (by omega), fun heq => by rw [heq]⟩
  simp only [reservePopForClear, hend]
  split
  next heq => exact h.stays ⟨by omega, hholds⟩ (List.Subset.refl _)
  next hne =>
    split
    next hfull =>
      obtain ⟨hstate, heffect, htaken, hreading, -⟩ := h.takeFull hpos hle hread hwithin hfull
      have hbusy : ¬ (memory.state (QueueSlot.ofCombined capacity loaded).index).Busy := by
        simp [ElementState.Busy, hstate]
      have hother : guarded.index ≠ (QueueSlot.ofCombined capacity loaded).index := by
        intro heq
        rw [← heq, hholds.2.2] at hstate
        exact ElementState.noConfusion hstate
      exact ⟨heffect.of_not_busy hbusy, ⟨htaken, hholds.grow heffect.growth hother, hreading⟩,
        by simp [QueueThread.owned, hbusy]⟩
    next hfull =>
      split
      · exact h.stays hholds (List.Subset.refl _)
      next hstate =>
        refine h.stays ⟨⟨hread, ?_⟩, hbound, hholds⟩ (List.Subset.refl _)
        -- The guarded push is reserved and comes later, so this one is reserved: the cell can
        -- only be read, or already be empty in a later generation.
        have hpushed : history.loaded thread < history.pushed.length := by
          have hguarded := (h.turn_lt_pushed_iff hpos hholds.1).mpr (by simp [hholds.2.2])
          omega
        rw [h.writes.lt_iff hpos] at hpushed
        rw [h.reads.lt_iff hpos]
        rw [hword, ofCombined_mod] at hstate
        cases hcase : memory.state (history.loaded thread % capacity) with
        | empty => rwa [hcase] at hpushed
        | writing => exact absurd (.inl hcase) hstate
        | full => exact absurd (.inr hcase) hstate
        | reading => rwa [hcase] at hpushed

omit hpos in
theorem readFrom_popIndex_clear (hholds : Holds capacity memory history .writing guarded) :
    (QueueThread.clearReserve guarded memory.popIndex).Ok capacity memory
      (history.record thread .readPopIndex) thread := by
  refine ⟨h.readFrom_popIndex, ?_, hholds⟩
  simp only [QueueHistory.record, Function.update_self]
  exact h.turn_le_popIndex_add hholds

theorem abortTake_ok {loaded : ℕ}
    (hok : (QueueThread.abortTake guarded loaded).Ok capacity memory history thread) :
    QueueStepOk capacity memory history thread (.abortTake guarded loaded)
      ⟨memory.setState guarded.index (encodeElement guarded.generation .reading),
        .abortAdvance guarded loaded, .popReserved⟩ := by
  obtain ⟨hread, hturn, hholds⟩ := hok
  have hpopped := h.popped_le_turn hpos hholds
  have hpopIndex := h.popIndex_le
  have hloaded := hread.2
  have hindex : guarded.index = history.popped % capacity := by
    rw [← history.turn_mod hholds.1]
    congr 1
    omega
  have heffect : QueueEffect capacity memory history thread _ _ .popReserved :=
    h.popReserved hpos hindex (by omega) (.inr hholds.2.2)
  rw [QueueMemory.mark, ← hholds.2.1] at heffect
  refine ⟨heffect.of_owned (List.mem_singleton_self _), ⟨⟨hread, ?_⟩, hholds.1, hholds.2.1, ?_⟩,
    fun _ hi => .inl hi⟩
  · simp only [QueueHistory.record]
    omega
  · simp

include hle in
theorem advancePushIndex_ok {standing moved read : QueueThread α} {combined : ℕ}
    (htaken : ReadTaken capacity history thread history.pushIndex history.pushed.length combined)
    (hwithin : WithinWrap capacity history thread history.pushIndex)
    (hmoved : moved.Ok capacity { memory with pushIndex := nextCombinedIndex capacity combined }
      (history.record thread .pushIndexAdvanced) thread)
    (hread : read.Ok capacity memory (history.record thread .readPushIndex) thread)
    (hmovedOwned : moved.owned ⊆ standing.owned) (hreadOwned : read.owned ⊆ standing.owned) :
    QueueStepOk capacity memory history thread standing
      (advancePushIndex capacity memory combined moved read) := by
  rw [advancePushIndex]
  split
  next hword =>
    exact ⟨h.advancePush hpos hle htaken hwithin hword, hmoved, fun _ hi => .inl (hmovedOwned hi)⟩
  next => exact ⟨h.readPushIndex, hread, fun _ hi => .inl (hreadOwned hi)⟩

include hle in
theorem advancePopIndex_ok {standing moved read : QueueThread α} {loaded : ℕ}
    (htaken : ReadTaken capacity history thread history.popIndex history.popped loaded)
    (hwithin : WithinWrap capacity history thread history.popIndex)
    (hmoved : moved.Ok capacity { memory with popIndex := nextCombinedIndex capacity loaded }
      (history.record thread .popIndexAdvanced) thread)
    (hread : read.Ok capacity memory (history.record thread .readPopIndex) thread)
    (hmovedOwned : moved.owned ⊆ standing.owned) (hreadOwned : read.owned ⊆ standing.owned) :
    QueueStepOk capacity memory history thread standing
      (advancePopIndex capacity memory loaded moved read) := by
  rw [advancePopIndex]
  split
  next hword =>
    exact ⟨h.advancePop hpos hle htaken hwithin hword, hmoved, fun _ hi => .inl (hmovedOwned hi)⟩
  next => exact ⟨h.readPopIndex, hread, fun _ hi => .inl (hreadOwned hi)⟩

include hle in
theorem commitPopIndex_ok
    (hholds : Holds capacity memory history .reading slot) (hslot : slot.index ∈ standing.owned)
    (hnext : ∀ memory', QueueGrowth capacity memory memory' history
        (history.record thread (.popCommitted slot.index)) (· ≠ slot.index) →
      next.Ok capacity memory' (history.record thread (.popCommitted slot.index)) thread)
    (howned : next.owned ⊆ standing.owned) :
    QueueStepOk capacity memory history thread standing
      (commitPopIndex capacity memory slot next) := by
  have hgenerations : 0 < numGenerations capacity :=
    lt_of_lt_of_le Nat.zero_lt_two (two_le_numGenerations hpos hle)
  have heffect : QueueEffect capacity memory history thread _ _ (.popCommitted slot.index) :=
    h.popCommitted hgenerations hholds.1 hholds.2.2
  rw [← hholds.2.1] at heffect
  exact ⟨heffect.of_owned hslot, hnext _ heffect.growth, fun _ hi => .inl (howned hi)⟩

omit hpos in
theorem setData_ok {index : ℕ} {element : Option α}
    (hstate : memory.state index ≠ .full) (hindex : index ∈ standing.owned)
    (hok : next.Ok capacity (memory.setData index element) history thread)
    (howned : next.owned ⊆ standing.owned) :
    QueueStepOk capacity memory history thread standing
      ⟨memory.setData index element, next, .nothing⟩ :=
  ⟨(h.setData element hstate).of_owned hindex, hok, fun _ hi => .inl (howned hi)⟩

end QueueCoherent

section Places

variable (h : QueueCoherent capacity memory history) (hpos : 0 < capacity)
  (hle : capacity ≤ 2 ^ 30)

include h hpos hle

theorem QueueThread.Ok.step {standing : QueueThread α}
    (hok : standing.Ok capacity memory history thread)
    (hawake : standing.Awake capacity history thread) (throws : Bool) :
    QueueStepOk capacity memory history thread standing
      (standing.step capacity memory throws) := by
  have hflag := (Nat.mod_lt history.pushIndex (hpos.trans (lt_numCombined hpos hle))).trans_le
    numCombined_le
  cases standing with
  | rest result => exact h.stays trivial (List.nil_subset _)
  | pushLoad value saved =>
    exact ⟨h.readPushIndex, h.readFrom_pushIndex value saved, by simp [QueueThread.owned,
      QueueThread.step]⟩
  | pushReserve value loaded saved => exact h.reservePushIndex_ok hpos hle hok hawake
  | pushHelp value combined saved =>
    exact h.advancePushIndex_ok hpos hle hok hawake
      (.inl ⟨hok.1.1, hok.1.2.trans (Nat.le_succ _)⟩) (h.readFrom_pushIndex value saved)
      (List.nil_subset _) (List.nil_subset _)
  | pushAdvance value slot combined =>
    exact h.advancePushIndex_ok hpos hle hok.1 hawake hok.2 hok.2 (List.Subset.refl _)
      (List.Subset.refl _)
  | pushConstruct value slot =>
    obtain ⟨hholds, hpushes⟩ := hok
    cases throws with
    | true => exact h.stays hholds (List.Subset.refl _)
    | false =>
      refine h.setData_ok (by simp [hholds.2.2]) (List.mem_singleton_self _) ?_
        (List.Subset.refl _)
      exact ⟨hholds, value, memory.data_setData_self slot.index _, hpushes⟩
  | pushCommit slot =>
    obtain ⟨hholds, value, hdata, hnumber, hpushed⟩ := hok
    have heffect := h.pushCommitted hholds.2.2 hnumber hdata hpushed
    rw [QueueMemory.mark, ← hholds.2.1] at heffect
    exact ⟨heffect.of_owned (List.mem_singleton_self _), trivial,
      by simp [QueueThread.step, QueueThread.owned]⟩
  | popLoad saved =>
    exact ⟨h.readPopIndex, h.readFrom_popIndex, by simp [QueueThread.step, QueueThread.owned]⟩
  | popReserve loaded saved => exact h.reservePopIndex_ok hpos hle hok hawake
  | popHelp loaded saved =>
    exact h.advancePopIndex_ok hpos hle hok hawake
      ⟨hok.1.1, hok.1.2.trans (Nat.le_succ _)⟩ h.readFrom_popIndex (List.nil_subset _)
      (List.nil_subset _)
  | popAdvance | clearAdvance | abortAdvance =>
    exact h.advancePopIndex_ok hpos hle hok.1 hawake hok.2 hok.2 (List.Subset.refl _)
      (List.Subset.refl _)
  | popMove slot =>
    obtain ⟨hholds, hdelivers⟩ := hok
    obtain ⟨-, value, hdata, -⟩ := hdelivers.1
    cases throws with
    | true =>
      exact h.setData_ok (by simp [hholds.2.2]) (List.mem_singleton_self _) hholds
        (List.Subset.refl _)
    | false =>
      have heffect := h.popped hpos hholds hdelivers hdata
      simp only [QueueThread.step, moveElement, Bool.false_eq_true, if_false, hdata]
      exact ⟨heffect.of_owned (List.mem_singleton_self _), hholds, fun _ hi => .inl hi⟩
  | popCommit | abortCommit =>
    exact h.commitPopIndex_ok hpos hle hok (List.mem_singleton_self _) (fun _ _ => trivial)
      (List.nil_subset _)
  | clearLoad guarded => exact ⟨h.readPopIndex, h.readFrom_popIndex_clear hok, fun _ hi => .inl hi⟩
  | clearReserve guarded loaded => exact h.reservePopForClear_ok hpos hle hok hawake
  | clearHelp guarded loaded =>
    obtain ⟨htaken, hbound, hholds⟩ := hok
    exact h.advancePopIndex_ok hpos hle htaken hawake
      ⟨⟨htaken.1.1, htaken.1.2.trans (Nat.le_succ _)⟩, hbound, hholds⟩
      (h.readFrom_popIndex_clear hholds) (List.Subset.refl _) (List.Subset.refl _)
  | clearDestroy guarded slot =>
    exact h.setData_ok (by simp [hok.2.2.2]) (by simp [QueueThread.owned]) hok
      (List.Subset.refl _)
  | clearCommit guarded slot =>
    obtain ⟨hguarded, hslot⟩ := hok
    have hother : guarded.index ≠ slot.index := by
      intro heq
      have hstate := hguarded.2.2
      rw [heq, hslot.2.2] at hstate
      exact ElementState.noConfusion hstate
    exact h.commitPopIndex_ok hpos hle hslot (by simp [QueueThread.owned])
      (fun _ hgrowth => hguarded.grow hgrowth hother) (by simp [QueueThread.owned])
  | abortLoad guarded =>
    refine ⟨h.readPopIndex, ⟨h.readFrom_popIndex, ?_, hok.2⟩, fun _ hi => .inl hi⟩
    simp only [QueueThread.step, QueueHistory.record, Function.update_self]
    exact hok.1
  | abortTake guarded loaded => exact h.abortTake_ok hpos hok
  | disableLoad | enableLoad =>
    simp only [QueueThread.step]
    split <;> exact h.stays trivial (List.nil_subset _)
  | disableExchange index =>
    simp only [QueueThread.step]
    split
    next hword =>
      refine ⟨h.flagged (.inr ?_), trivial, by simp [QueueThread.owned]⟩
      rcases h.pushWord with hpush | hpush
      · rw [← hword, hpush, or_disabledMask_of_lt hflag]
      · rw [← hword, hpush, or_disabledMask_flagged hflag]
    next => exact h.stays trivial (List.nil_subset _)
  | enableExchange index =>
    simp only [QueueThread.step]
    split
    next hword =>
      refine ⟨h.flagged (.inl ?_), trivial, by simp [QueueThread.owned]⟩
      rcases h.pushWord with hpush | hpush
      · rw [← hword, hpush, discardDisabledFlag_of_lt hflag]
      · rw [← hword, hpush, discardDisabledFlag_flagged hflag]
    next => exact h.stays trivial (List.nil_subset _)

end Places

open Lib.Run

variable {α : Type} {capacity : ℕ}

structure QueueInvariant (capacity : ℕ) (tracked : TrackedQueue α) : Prop where
  coherent : QueueCoherent capacity tracked.system.memory tracked.history
  ok : ∀ thread, (tracked.system.threads thread).Ok capacity tracked.system.memory
    tracked.history thread
  exclusive : ∀ first second index, index ∈ (tracked.system.threads first).owned →
    index ∈ (tracked.system.threads second).owned → first = second

theorem queueCoherent_initial :
    QueueCoherent capacity (.initial : QueueMemory α) (.initial : QueueHistory α) where
  pushWord := .inl (Nat.zero_mod _).symm
  popWord := (Nat.zero_mod _).symm
  cellWord := by
    intro index _
    rw [QueueMemory.state_initial, QueueHistory.initial, Nat.zero_mod]
    rfl
  writes := by
    simp only [QueueMemory.state_initial]
    exact serving_zero
  reads := by
    simp only [QueueMemory.state_initial]
    exact serving_zero
  pushIndex_le := le_rfl
  popIndex_le := le_rfl
  popped_le := Nat.zero_le _
  stores := by simp
  released_eq := by simp [QueueHistory.initial]
  delivered_nodup := List.nodup_nil
  delivered_pushed := by simp [QueueHistory.initial]

namespace QueueInvariant

theorem initial : QueueInvariant capacity (.initial : TrackedQueue α) where
  coherent := queueCoherent_initial
  ok := fun _ => trivial
  exclusive := by simp [TrackedQueue.initial, QueueSystem.initial, QueueThread.owned]

variable {tracked : TrackedQueue α} (h : QueueInvariant capacity tracked)

include h

theorem call {thread : ℕ} {first : QueueThread α}
    (hok : first.Ok capacity tracked.system.memory tracked.history thread)
    (howned : first.owned = []) :
    QueueInvariant capacity ⟨tracked.system.call thread first, tracked.history⟩ := by
  rw [QueueSystem.call]
  split
  · refine ⟨h.coherent, fun other => ?_, fun one two index hone htwo => ?_⟩
    · by_cases heq : other = thread
      · subst heq
        simpa using hok
      · simpa [heq] using h.ok other
    · have hne {other : ℕ}
          (hother : index ∈ (Function.update tracked.system.threads thread first other).owned) :
          other ≠ thread ∧ index ∈ (tracked.system.threads other).owned := by
        by_cases heq : other = thread
        · subst heq
          simp [howned] at hother
        · exact ⟨heq, by simpa [heq] using hother⟩
      exact h.exclusive one two index (hne hone).2 (hne htwo).2
  · exact h

theorem stepThread (hpos : 0 < capacity) (hle : capacity ≤ 2 ^ 30) {thread : ℕ} (throws : Bool)
    (hawake : (tracked.system.threads thread).Awake capacity tracked.history thread) :
    QueueInvariant capacity (tracked.step capacity (.step thread throws)) := by
  have hstep : QueueStepOk capacity tracked.system.memory tracked.history thread _
      (tracked.system.outcome capacity thread throws) :=
    (h.ok thread).step h.coherent hpos hle hawake throws
  -- The cells of the other threads are taken, and none is one of this thread's.
  have hkept {other index : ℕ} (hother : other ≠ thread)
      (hindex : index ∈ (tracked.system.threads other).owned) :
      (tracked.system.memory.state index).Busy ∧
        index ∉ (tracked.system.threads thread).owned :=
    ⟨((h.ok other).busy index hindex).2, fun hown => hother (h.exclusive _ _ _ hindex hown)⟩
  refine ⟨hstep.effect.coherent, fun other => ?_, fun one two index hone htwo => ?_⟩
  · by_cases heq : other = thread
    · subst heq
      simpa [TrackedQueue.step, QueueSystem.step] using hstep.ok
    · have hframe := hstep.effect.growth.frame heq rfl
      have hok := (h.ok other).frame hframe fun _ hindex => hkept heq hindex
      simpa [TrackedQueue.step, QueueSystem.step, heq] using hok
  · -- A cell that the thread has now was its own before, or nobody's.
    have hbefore {other : ℕ} (hother : other ≠ thread)
        (hown : index ∈ (tracked.system.outcome capacity thread throws).thread.owned) :
        index ∉ (tracked.system.threads other).owned := by
      intro hindex
      obtain ⟨hbusy, hnot⟩ := hkept hother hindex
      exact (hstep.owned index hown).elim hnot fun hfree => hfree hbusy
    simp only [TrackedQueue.step, QueueSystem.step] at hone htwo
    by_cases hfirst : one = thread <;> by_cases hsecond : two = thread
    · rw [hfirst, hsecond]
    · subst hfirst
      rw [Function.update_self] at hone
      rw [Function.update_of_ne hsecond] at htwo
      exact absurd htwo (hbefore hsecond hone)
    · subst hsecond
      rw [Function.update_self] at htwo
      rw [Function.update_of_ne hfirst] at hone
      exact absurd hone (hbefore hfirst htwo)
    · rw [Function.update_of_ne hfirst] at hone
      rw [Function.update_of_ne hsecond] at htwo
      exact h.exclusive one two index hone htwo

end QueueInvariant

def TrackedQueue.Awake (capacity : ℕ) (tracked : TrackedQueue α) : QueueAction α → Prop
  | .step thread _ => (tracked.system.threads thread).Awake capacity tracked.history thread
  | _ => True

theorem QueueInvariant.step (hpos : 0 < capacity) (hle : capacity ≤ 2 ^ 30)
    (tracked : TrackedQueue α) (action : QueueAction α) (h : QueueInvariant capacity tracked)
    (hawake : tracked.Awake capacity action) :
    QueueInvariant capacity (tracked.step capacity action) := by
  cases action with
  | tryPushBack | tryPopFront => exact h.call trivial rfl
  | disable | enable => exact h.call trivial rfl
  | step thread throws => exact h.stepThread hpos hle throws hawake

section Short

variable {history : QueueHistory α} {bound : ℕ}

def QueueHistory.CountsUpTo (history : QueueHistory α) (bound : ℕ) : Prop :=
  history.pushIndex ≤ bound ∧ history.popIndex ≤ bound ∧
    ∀ index, history.generation index ≤ bound

theorem QueueHistory.CountsUpTo.record (h : history.CountsUpTo bound) (thread : ℕ)
    (event : QueueEvent α) : (history.record thread event).CountsUpTo (bound + 1) := by
  obtain ⟨hpush, hpop, hgeneration⟩ := h
  have hpush' := hpush.trans (Nat.le_succ bound)
  have hpop' := hpop.trans (Nat.le_succ bound)
  have hgeneration' (index : ℕ) := (hgeneration index).trans (Nat.le_succ bound)
  cases event with
  | nothing | readPushIndex | readPopIndex | pushReserved | pushCommitted | popReserved
  | popped => exact ⟨hpush', hpop', hgeneration'⟩
  | pushIndexAdvanced => exact ⟨Nat.succ_le_succ hpush, hpop', hgeneration'⟩
  | popIndexAdvanced => exact ⟨hpush', Nat.succ_le_succ hpop, hgeneration'⟩
  | popCommitted index =>
    refine ⟨hpush', hpop', fun other => ?_⟩
    by_cases heq : other = index
    · subst heq
      simpa [QueueHistory.record] using hgeneration other
    · simpa [QueueHistory.record, heq] using hgeneration' other

theorem QueueHistory.CountsUpTo.step {tracked : TrackedQueue α}
    (h : tracked.history.CountsUpTo bound) (action : QueueAction α) :
    (tracked.step capacity action).history.CountsUpTo (bound + 1) := by
  cases action with
  | step thread throws => exact h.record thread _
  | tryPushBack | tryPopFront | disable | enable => exact h.record 0 .nothing

theorem QueueHistory.CountsUpTo.withinWrap (h : history.CountsUpTo bound) (hpos : 0 < capacity)
    (hbound : bound < numGenerations capacity) (thread : ℕ) :
    WithinWrap capacity history thread history.pushIndex ∧
      WithinWrap capacity history thread history.popIndex := by
  obtain ⟨hpush, hpop, hgeneration⟩ := h
  have hwrap : numGenerations capacity ≤ numCombined capacity := Nat.le_mul_of_pos_right _ hpos
  have hcell : history.generation (history.loaded thread % capacity) <
      history.loaded thread / capacity + numGenerations capacity :=
    Nat.lt_add_left _ ((hgeneration _).trans_lt hbound)
  exact ⟨⟨by omega, hcell⟩, ⟨by omega, hcell⟩⟩

theorem meets_awake_of_length (hpos : 0 < capacity) {tracked : TrackedQueue α}
    {actions : List (QueueAction α)} (h : tracked.history.CountsUpTo bound)
    (hlength : bound + actions.length < numGenerations capacity) :
    Meets (TrackedQueue.step capacity) (TrackedQueue.Awake capacity) tracked actions := by
  induction actions generalizing tracked bound with
  | nil => trivial
  | cons action actions ih =>
    rw [List.length_cons] at hlength
    refine ⟨?_, ih (h.step action) (by omega)⟩
    cases action with
    | tryPushBack | tryPopFront | disable | enable => trivial
    | step thread throws =>
      obtain ⟨hpush, hpop⟩ := h.withinWrap hpos (by omega) thread
      simp only [TrackedQueue.Awake]
      cases tracked.system.threads thread <;> first | exact hpush | exact hpop | trivial

end Short

structure QueueSafe (capacity : ℕ) (tracked : TrackedQueue α) : Prop where
  owner_unique : ∀ first second index, index ∈ (tracked.system.threads first).owned →
    index ∈ (tracked.system.threads second).owned → first = second
  popped_once : (tracked.history.delivered.map Prod.fst).Nodup
  popped_pushed : ∀ number value, (number, value) ∈ tracked.history.delivered →
    number ∈ tracked.history.committed ∧ tracked.history.pushed[number]? = some value
  bounded : tracked.history.pushed.length ≤ tracked.history.released + capacity

theorem QueueCoherent.pushed_le {memory : QueueMemory α} {history : QueueHistory α}
    (h : QueueCoherent capacity memory history) (hpos : 0 < capacity) :
    history.pushed.length ≤ history.released + capacity := by
  calc history.pushed.length
      = ∑ index ∈ Finset.range capacity,
          (history.generation index + (memory.state index).written) :=
        (h.writes.sum_turns hpos).symm
    _ ≤ ∑ index ∈ Finset.range capacity, (history.generation index + 1) := by
        apply Finset.sum_le_sum
        intro index _
        cases memory.state index <;> simp [ElementState.written]
    _ = history.released + capacity := by
        rw [Finset.sum_add_distrib, h.released_eq]
        simp

theorem QueueInvariant.safe {tracked : TrackedQueue α} (h : QueueInvariant capacity tracked)
    (hpos : 0 < capacity) : QueueSafe capacity tracked where
  owner_unique := h.exclusive
  popped_once := h.coherent.delivered_nodup
  popped_pushed := fun _ _ hmem => (h.coherent.delivered_pushed _ hmem).2
  bounded := h.coherent.pushed_le hpos

/-- The queue is safe in every state that threads reach by steps of which none follows a pause
of a full wrap. -/
theorem queueSafe_run (hpos : 0 < capacity) (hle : capacity ≤ 65536)
    (actions : List (QueueAction α))
    (hawake : Meets (TrackedQueue.step capacity) (TrackedQueue.Awake capacity) .initial actions) :
    QueueSafe capacity (run (TrackedQueue.step capacity) .initial actions) := by
  have hle : capacity ≤ 2 ^ 30 := hle.trans (by decide)
  have hinvariant := run_invariant _ _ (QueueInvariant.step hpos hle) .initial hawake
  exact hinvariant.safe hpos

def handOver : List (QueueAction ℕ) :=
  [.tryPushBack 0 7, .tryPopFront 1, .step 0 false, .step 1 false, .step 0 false, .step 1 false,
    .step 0 false, .step 0 false, .step 0 false, .step 1 false, .step 1 false, .step 1 false,
    .step 1 false, .step 1 false]

theorem queueSafe_handOver : Meets (TrackedQueue.step 2) (TrackedQueue.Awake 2) .initial handOver ∧
      QueueSafe 2 (run (TrackedQueue.step 2) .initial handOver) := by
  have hcounts : (TrackedQueue.initial : TrackedQueue ℕ).history.CountsUpTo 0 :=
    ⟨le_rfl, le_rfl, fun _ => le_rfl⟩
  have hawake : Meets (TrackedQueue.step 2) (TrackedQueue.Awake 2) .initial handOver :=
    meets_awake_of_length (by decide) hcounts (by decide)
  exact ⟨hawake, queueSafe_run (by decide) (by decide) handOver hawake⟩

example : (run (TrackedQueue.step 2) .initial handOver).history.delivered = [(0, 7)] := by decide

end SessionRouter

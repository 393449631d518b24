import SessionRouter.Lib.RoundRobin
import SessionRouter.Lib.Run
import SessionRouter.Util.QueueManager

/-!
# What holds of the lock-free queue between any two steps
-/

namespace SessionRouter

open Lib.RoundRobin

variable {α : Type} {capacity : ℕ}

def numCombined (capacity : ℕ) : ℕ :=
  numGenerations capacity * capacity

section Capacity

variable (hpos : 0 < capacity) (hle : capacity ≤ 2 ^ 30)

include hle hpos in
theorem two_le_numGenerations : 2 ≤ numGenerations capacity := by
  have hdiv : 2 ≤ NUM_COMBINED_INDEXES / capacity := by
    rw [Nat.le_div_iff_mul_le hpos, NUM_COMBINED_INDEXES, DISABLED_STATE_MASK]
    omega
  exact le_min hdiv (by decide)

theorem numCombined_le : numCombined capacity ≤ 2 ^ 31 :=
  calc numCombined capacity ≤ NUM_COMBINED_INDEXES / capacity * capacity :=
        Nat.mul_le_mul_right capacity (min_le_left _ _)
    _ ≤ NUM_COMBINED_INDEXES := Nat.div_mul_le_self _ _

include hle hpos in
theorem lt_numCombined : capacity < numCombined capacity := by
  have hmul := Nat.mul_le_mul_right capacity (two_le_numGenerations hpos hle)
  rw [numCombined]
  omega

end Capacity

theorem ofCombined_mod (count : ℕ) :
    QueueSlot.ofCombined capacity (count % numCombined capacity) =
      ⟨count / capacity % numGenerations capacity, count % capacity⟩ := by
  rw [QueueSlot.ofCombined, numCombined, Nat.mul_comm, Nat.mod_mul_right_div_self,
    Nat.mod_mul_right_mod]

theorem nextCombinedIndex_mod (hwrap : 0 < numCombined capacity) (count : ℕ) :
    nextCombinedIndex capacity (count % numCombined capacity) =
      (count + 1) % numCombined capacity :=
  wrap_succ hwrap count

theorem nextGeneration_mod (hwrap : 0 < numGenerations capacity) (count : ℕ) :
    nextGeneration capacity (count % numGenerations capacity) =
      (count + 1) % numGenerations capacity :=
  wrap_succ hwrap count

theorem circularDifference_eq_zero_iff {first second modulo : ℕ} (hfirst : first < modulo)
    (hsecond : second < modulo) : circularDifference first second modulo = 0 ↔ first = second := by
  simp only [circularDifference]
  split_ifs <;> omega

structure QueueHistory (α : Type) where
  pushIndex : ℕ
  popIndex : ℕ
  generation : ℕ → ℕ
  loaded : ℕ → ℕ
  pushed : List α
  pushNumber : ℕ → ℕ
  committed : List ℕ
  popped : ℕ
  popNumber : ℕ → ℕ
  delivered : List (ℕ × α)
  released : ℕ

namespace QueueHistory

def initial : QueueHistory α where
  pushIndex := 0
  popIndex := 0
  generation := fun _ => 0
  loaded := fun _ => 0
  pushed := []
  pushNumber := fun _ => 0
  committed := []
  popped := 0
  popNumber := fun _ => 0
  delivered := []
  released := 0

def record (history : QueueHistory α) (thread : ℕ) : QueueEvent α → QueueHistory α
  | .nothing => history
  | .readPushIndex =>
    { history with loaded := Function.update history.loaded thread history.pushIndex }
  | .readPopIndex =>
    { history with loaded := Function.update history.loaded thread history.popIndex }
  | .pushIndexAdvanced => { history with pushIndex := history.pushIndex + 1 }
  | .popIndexAdvanced => { history with popIndex := history.popIndex + 1 }
  | .pushReserved value =>
    { history with
      pushed := history.pushed ++ [value]
      pushNumber := Function.update history.pushNumber thread history.pushed.length }
  | .pushCommitted => { history with committed := history.committed ++ [history.pushNumber thread] }
  | .popReserved =>
    { history with
      popped := history.popped + 1
      popNumber := Function.update history.popNumber thread history.popped }
  | .popped value =>
    { history with delivered := history.delivered ++ [(history.popNumber thread, value)] }
  | .popCommitted index =>
    { history with
      generation := Function.update history.generation index (history.generation index + 1)
      released := history.released + 1 }

def turn (capacity : ℕ) (history : QueueHistory α) (index : ℕ) : ℕ :=
  history.generation index * capacity + index

theorem turn_mod (history : QueueHistory α) {index : ℕ} (hindex : index < capacity) :
    history.turn capacity index % capacity = index := by
  rw [turn, Nat.mul_add_mod', Nat.mod_eq_of_lt hindex]

theorem turn_div (history : QueueHistory α) {index : ℕ} (hindex : index < capacity) :
    history.turn capacity index / capacity = history.generation index := by
  have hpos : 0 < capacity := by omega
  rw [turn, Nat.mul_comm, Nat.mul_add_div hpos, Nat.div_eq_of_lt hindex, Nat.add_zero]

end QueueHistory

/-- The queue with its history. -/
structure TrackedQueue (α : Type) where
  system : QueueSystem α
  history : QueueHistory α

namespace TrackedQueue

def initial : TrackedQueue α :=
  ⟨.initial, .initial⟩

def step (capacity : ℕ) (tracked : TrackedQueue α) (action : QueueAction α) : TrackedQueue α where
  system := tracked.system.step capacity action
  history :=
    match action with
    | .step thread throws =>
      tracked.history.record thread (tracked.system.outcome capacity thread throws).event
    | _ => tracked.history

end TrackedQueue

def WithinWrap (capacity : ℕ) (history : QueueHistory α) (thread index : ℕ) : Prop :=
  let loaded := history.loaded thread
  index < loaded + numCombined capacity ∧
    history.generation (loaded % capacity) < loaded / capacity + numGenerations capacity

def QueueThread.Awake (capacity : ℕ) (history : QueueHistory α) (thread : ℕ) :
    QueueThread α → Prop
  | .pushReserve .. | .pushHelp .. | .pushAdvance .. =>
    WithinWrap capacity history thread history.pushIndex
  | .popReserve .. | .popHelp .. | .popAdvance .. | .clearReserve .. | .clearHelp ..
  | .clearAdvance .. | .abortAdvance .. => WithinWrap capacity history thread history.popIndex
  | _ => True

def ElementState.written : ElementState → ℕ
  | .empty => 0
  | _ => 1

def ElementState.read : ElementState → ℕ
  | .reading => 1
  | _ => 0

def ElementState.Busy (state : ElementState) : Prop :=
  state = .writing ∨ state = .reading

def Stores (capacity : ℕ) (memory : QueueMemory α) (history : QueueHistory α) (index : ℕ) : Prop :=
  history.turn capacity index ∈ history.committed ∧
    ∃ value, memory.data index = some value ∧
      history.pushed[history.turn capacity index]? = some value

structure QueueCoherent (capacity : ℕ) (memory : QueueMemory α) (history : QueueHistory α) :
    Prop where
  pushWord : memory.pushIndex = history.pushIndex % numCombined capacity ∨
    memory.pushIndex = history.pushIndex % numCombined capacity + 2 ^ 31
  popWord : memory.popIndex = history.popIndex % numCombined capacity
  cellWord : ∀ index < capacity, memory.states index =
    encodeElement (history.generation index % numGenerations capacity) (memory.state index)
  writes : Serving capacity history.pushed.length fun index =>
    history.generation index + (memory.state index).written
  reads : Serving capacity history.popped fun index =>
    history.generation index + (memory.state index).read
  pushIndex_le : history.pushIndex ≤ history.pushed.length
  popIndex_le : history.popIndex ≤ history.popped
  popped_le : history.popped ≤ history.popIndex + 1
  stores : ∀ index < capacity, memory.state index = .full →
    Stores capacity memory history index
  released_eq : history.released = ∑ index ∈ Finset.range capacity, history.generation index
  delivered_nodup : (history.delivered.map Prod.fst).Nodup
  delivered_pushed : ∀ entry ∈ history.delivered, entry.1 < history.popped ∧
    entry.1 ∈ history.committed ∧ history.pushed[entry.1]? = some entry.2

namespace QueueCoherent

variable {memory : QueueMemory α} {history : QueueHistory α}
  (h : QueueCoherent capacity memory history) (hpos : 0 < capacity)

include h hpos

theorem turn_lt_pushed_iff {index : ℕ} (hindex : index < capacity) :
    history.turn capacity index < history.pushed.length ↔ memory.state index ≠ .empty := by
  rw [h.writes.lt_iff hpos, history.turn_mod hindex, history.turn_div hindex]
  cases memory.state index <;> simp [ElementState.written]

theorem turn_lt_popped_iff {index : ℕ} (hindex : index < capacity) :
    history.turn capacity index < history.popped ↔ memory.state index = .reading := by
  rw [h.reads.lt_iff hpos, history.turn_mod hindex, history.turn_div hindex]
  cases memory.state index <;> simp [ElementState.read]

end QueueCoherent

section Knowledge

variable (capacity : ℕ) (memory : QueueMemory α) (history : QueueHistory α) (thread : ℕ)

def Holds (state : ElementState) (slot : QueueSlot) : Prop :=
  slot.index < capacity ∧
    slot.generation = history.generation slot.index % numGenerations capacity ∧
    memory.state slot.index = state

def ReadFrom (index word : ℕ) : Prop :=
  word = history.loaded thread % numCombined capacity ∧ history.loaded thread ≤ index

def ReadTaken (index count word : ℕ) : Prop :=
  ReadFrom capacity history thread index word ∧ history.loaded thread < count

def Pushes (slot : QueueSlot) (value : α) : Prop :=
  history.pushNumber thread = history.turn capacity slot.index ∧
    history.pushed[history.turn capacity slot.index]? = some value

def Delivers (slot : QueueSlot) : Prop :=
  Stores capacity memory history slot.index ∧
    history.popNumber thread = history.turn capacity slot.index ∧
    history.turn capacity slot.index ∉ history.delivered.map Prod.fst

def QueueThread.Ok : QueueThread α → Prop
  | .pushReserve _ loaded _ =>
    ReadFrom capacity history thread history.pushIndex loaded ∨
      ∃ word, loaded = word + 2 ^ 31 ∧ ReadFrom capacity history thread history.pushIndex word
  | .pushHelp _ combined _ =>
    ReadTaken capacity history thread history.pushIndex history.pushed.length combined
  | .pushAdvance value slot combined =>
    ReadTaken capacity history thread history.pushIndex history.pushed.length combined ∧
    Holds capacity memory history .writing slot ∧
    Pushes capacity history thread slot value
  | .pushConstruct value slot =>
    Holds capacity memory history .writing slot ∧
    Pushes capacity history thread slot value
  | .pushCommit slot =>
    Holds capacity memory history .writing slot ∧
    ∃ value, memory.data slot.index = some value ∧ Pushes capacity history thread slot value
  | .popReserve loaded _ => ReadFrom capacity history thread history.popIndex loaded
  | .popHelp loaded _ => ReadTaken capacity history thread history.popIndex history.popped loaded
  | .popAdvance slot loaded =>
    ReadTaken capacity history thread history.popIndex history.popped loaded ∧
    Holds capacity memory history .reading slot ∧
    Delivers capacity memory history thread slot
  | .popMove slot =>
    Holds capacity memory history .reading slot ∧
    Delivers capacity memory history thread slot
  | .popCommit slot _ => Holds capacity memory history .reading slot
  | .clearLoad guarded => Holds capacity memory history .writing guarded
  | .clearReserve guarded loaded =>
    ReadFrom capacity history thread history.popIndex loaded ∧
    history.turn capacity guarded.index ≤ history.loaded thread + capacity ∧
    Holds capacity memory history .writing guarded
  | .clearHelp guarded loaded =>
    ReadTaken capacity history thread history.popIndex history.popped loaded ∧
    history.turn capacity guarded.index ≤ history.loaded thread + capacity ∧
    Holds capacity memory history .writing guarded
  | .clearAdvance guarded slot loaded =>
    ReadTaken capacity history thread history.popIndex history.popped loaded ∧
    Holds capacity memory history .writing guarded ∧
    Holds capacity memory history .reading slot
  | .clearDestroy guarded slot | .clearCommit guarded slot =>
    Holds capacity memory history .writing guarded ∧
    Holds capacity memory history .reading slot
  | .abortLoad guarded =>
    history.turn capacity guarded.index ≤ history.popIndex ∧
    Holds capacity memory history .writing guarded
  | .abortTake guarded loaded =>
    ReadFrom capacity history thread history.popIndex loaded ∧
    history.turn capacity guarded.index ≤ history.loaded thread ∧
    Holds capacity memory history .writing guarded
  | .abortAdvance guarded loaded =>
    ReadTaken capacity history thread history.popIndex history.popped loaded ∧
    Holds capacity memory history .reading guarded
  | .abortCommit guarded => Holds capacity memory history .reading guarded
  | .rest _ | .pushLoad .. | .popLoad _ | .disableLoad | .disableExchange _ | .enableLoad
  | .enableExchange _ => True

end Knowledge

theorem QueueThread.Ok.busy {memory : QueueMemory α} {history : QueueHistory α} {thread : ℕ}
    {standing : QueueThread α} (h : standing.Ok capacity memory history thread) :
    ∀ index ∈ standing.owned, index < capacity ∧ (memory.state index).Busy := by
  have hwriting {slot : QueueSlot} (h : Holds capacity memory history .writing slot) :
      slot.index < capacity ∧ (memory.state slot.index).Busy := ⟨h.1, .inl h.2.2⟩
  have hreading {slot : QueueSlot} (h : Holds capacity memory history .reading slot) :
      slot.index < capacity ∧ (memory.state slot.index).Busy := ⟨h.1, .inr h.2.2⟩
  cases standing <;>
    simp only [QueueThread.owned, List.not_mem_nil, IsEmpty.forall_iff, implies_true,
      forall_eq, List.mem_cons, or_false, forall_eq_or_imp]
  case pushAdvance => exact hwriting h.2.1
  case pushConstruct | pushCommit => exact hwriting h.1
  case popAdvance => exact hreading h.2.1
  case popMove => exact hreading h.1
  case popCommit | abortCommit => exact hreading h
  case clearLoad => exact hwriting h
  case clearReserve | clearHelp | abortTake => exact hwriting h.2.2
  case clearAdvance => exact ⟨hwriting h.2.1, hreading h.2.2⟩
  case clearDestroy | clearCommit => exact ⟨hwriting h.1, hreading h.2⟩
  case abortLoad => exact hwriting h.2
  case abortAdvance => exact hreading h.2

structure QueueGrowth (capacity : ℕ) (memory memory' : QueueMemory α)
    (history history' : QueueHistory α) (kept : ℕ → Prop) : Prop where
  pushIndex_le : history.pushIndex ≤ history'.pushIndex
  popIndex_le : history.popIndex ≤ history'.popIndex
  pushed_prefix : history.pushed <+: history'.pushed
  popped_le : history.popped ≤ history'.popped
  committed_subset : history.committed ⊆ history'.committed
  cell_eq : ∀ index, kept index → memory'.state index = memory.state index ∧
    history'.generation index = history.generation index ∧
    memory'.data index = memory.data index
  undelivered : ∀ index, index < capacity → kept index →
    history.turn capacity index ∉ history.delivered.map Prod.fst →
    history.turn capacity index ∉ history'.delivered.map Prod.fst

structure QueueFrame (capacity : ℕ) (memory memory' : QueueMemory α)
    (history history' : QueueHistory α) (thread : ℕ) (kept : ℕ → Prop) : Prop
    extends QueueGrowth capacity memory memory' history history' kept where
  loaded_eq : history'.loaded thread = history.loaded thread
  pushNumber_eq : history'.pushNumber thread = history.pushNumber thread
  popNumber_eq : history'.popNumber thread = history.popNumber thread

section Growth

variable {memory memory' : QueueMemory α} {history history' : QueueHistory α}
  {kept kept' : ℕ → Prop}

theorem QueueGrowth.refl (memory : QueueMemory α) (history : QueueHistory α) (kept : ℕ → Prop) :
    QueueGrowth capacity memory memory history history kept where
  pushIndex_le := le_rfl
  popIndex_le := le_rfl
  pushed_prefix := List.prefix_rfl
  popped_le := le_rfl
  committed_subset := List.Subset.refl _
  cell_eq := fun _ _ => ⟨rfl, rfl, rfl⟩
  undelivered := fun _ _ _ h => h

variable (hgrowth : QueueGrowth capacity memory memory' history history' kept)

include hgrowth

theorem QueueGrowth.mono (hkept : ∀ index, kept' index → kept index) :
    QueueGrowth capacity memory memory' history history' kept' :=
  { hgrowth with
    cell_eq := fun index h => hgrowth.cell_eq index (hkept index h)
    undelivered := fun index hindex h => hgrowth.undelivered index hindex (hkept index h) }

theorem QueueGrowth.turn_eq {index : ℕ} (hkept : kept index) :
    history'.turn capacity index = history.turn capacity index := by
  rw [QueueHistory.turn, QueueHistory.turn, (hgrowth.cell_eq index hkept).2.1]

theorem QueueGrowth.pushed_length_le : history.pushed.length ≤ history'.pushed.length :=
  hgrowth.pushed_prefix.length_le

theorem QueueGrowth.getElem? {number : ℕ} {value : α} (h : history.pushed[number]? = some value) :
    history'.pushed[number]? = some value := by
  obtain ⟨later, hlater⟩ := hgrowth.pushed_prefix
  rw [← hlater, List.getElem?_append_left (List.getElem?_eq_some_iff.mp h).1, h]

theorem Holds.grow {state : ElementState} {slot : QueueSlot} (hkept : kept slot.index)
    (h : Holds capacity memory history state slot) :
    Holds capacity memory' history' state slot := by
  obtain ⟨hindex, hgeneration, hstate⟩ := h
  obtain ⟨hstate', hgeneration', -⟩ := hgrowth.cell_eq slot.index hkept
  exact ⟨hindex, by rw [hgeneration', hgeneration], by rw [hstate', hstate]⟩

theorem Stores.grow {index : ℕ} (hkept : kept index) (h : Stores capacity memory history index) :
    Stores capacity memory' history' index := by
  obtain ⟨hcommitted, value, hdata, hpushed⟩ := h
  rw [Stores, hgrowth.turn_eq hkept, (hgrowth.cell_eq index hkept).2.2]
  exact ⟨hgrowth.committed_subset hcommitted, value, hdata, hgrowth.getElem? hpushed⟩

theorem QueueGrowth.frame {thread other : ℕ} {event : QueueEvent α} (hother : other ≠ thread)
    (hevent : history' = history.record thread event) :
    QueueFrame capacity memory memory' history history' other kept := by
  subst hevent
  refine { hgrowth with loaded_eq := ?_, pushNumber_eq := ?_, popNumber_eq := ?_ } <;>
    cases event <;> simp [QueueHistory.record, hother]

end Growth

section Frame

variable {memory memory' : QueueMemory α} {history history' : QueueHistory α} {thread : ℕ}
  {kept : ℕ → Prop} (hframe : QueueFrame capacity memory memory' history history' thread kept)

include hframe

theorem ReadFrom.frame {index index' word : ℕ} (hle : index ≤ index')
    (h : ReadFrom capacity history thread index word) :
    ReadFrom capacity history' thread index' word := by
  rw [ReadFrom, hframe.loaded_eq]
  exact ⟨h.1, h.2.trans hle⟩

theorem ReadTaken.frame {index index' count count' word : ℕ} (hindex : index ≤ index')
    (hcount : count ≤ count') (h : ReadTaken capacity history thread index count word) :
    ReadTaken capacity history' thread index' count' word := by
  refine ⟨h.1.frame hframe hindex, ?_⟩
  rw [hframe.loaded_eq]
  exact h.2.trans_le hcount

theorem Pushes.frame {slot : QueueSlot} {value : α} (hkept : kept slot.index)
    (h : Pushes capacity history thread slot value) :
    Pushes capacity history' thread slot value := by
  rw [Pushes, hframe.turn_eq hkept, hframe.pushNumber_eq]
  exact ⟨h.1, hframe.getElem? h.2⟩

theorem Delivers.frame {slot : QueueSlot} (hindex : slot.index < capacity)
    (hkept : kept slot.index)
    (h : Delivers capacity memory history thread slot) :
    Delivers capacity memory' history' thread slot := by
  obtain ⟨hstores, hnumber, hundelivered⟩ := h
  refine ⟨hstores.grow hframe.toQueueGrowth hkept, ?_, ?_⟩
  · rw [hframe.popNumber_eq, hframe.turn_eq hkept, hnumber]
  · rw [hframe.turn_eq hkept]
    exact hframe.undelivered slot.index hindex hkept hundelivered

theorem QueueThread.Ok.frame {standing : QueueThread α}
    (hkept : ∀ index ∈ standing.owned, kept index)
    (h : standing.Ok capacity memory history thread) :
    standing.Ok capacity memory' history' thread := by
  have hgrowth := hframe.toQueueGrowth
  have hpush {word : ℕ}
      (h : ReadTaken capacity history thread history.pushIndex history.pushed.length word) :=
    h.frame hframe hframe.pushIndex_le hframe.pushed_length_le
  have hpop {word : ℕ}
      (h : ReadTaken capacity history thread history.popIndex history.popped word) :=
    h.frame hframe hframe.popIndex_le hframe.popped_le
  cases standing with
  | rest | pushLoad | popLoad | disableLoad | disableExchange | enableLoad | enableExchange =>
    trivial
  | pushReserve value loaded saved =>
    rcases h with hread | ⟨word, hword, hread⟩
    · exact .inl (hread.frame hframe hframe.pushIndex_le)
    · exact .inr ⟨word, hword, hread.frame hframe hframe.pushIndex_le⟩
  | pushHelp value combined saved => exact hpush h
  | pushAdvance value slot combined =>
    have hslot := hkept slot.index (by simp [QueueThread.owned])
    exact ⟨hpush h.1, h.2.1.grow hgrowth hslot, h.2.2.frame hframe hslot⟩
  | pushConstruct value slot =>
    have hslot := hkept slot.index (by simp [QueueThread.owned])
    exact ⟨h.1.grow hgrowth hslot, h.2.frame hframe hslot⟩
  | pushCommit slot =>
    have hslot := hkept slot.index (by simp [QueueThread.owned])
    obtain ⟨hholds, value, hdata, hpushes⟩ := h
    refine ⟨hholds.grow hgrowth hslot, value, ?_, hpushes.frame hframe hslot⟩
    rw [(hframe.cell_eq _ hslot).2.2, hdata]
  | popReserve loaded saved => exact ReadFrom.frame hframe hframe.popIndex_le h
  | popHelp loaded saved => exact hpop h
  | popAdvance slot loaded =>
    have hslot := hkept slot.index (by simp [QueueThread.owned])
    exact ⟨hpop h.1, h.2.1.grow hgrowth hslot, h.2.2.frame hframe h.2.1.1 hslot⟩
  | popMove slot =>
    have hslot := hkept slot.index (by simp [QueueThread.owned])
    exact ⟨h.1.grow hgrowth hslot, h.2.frame hframe h.1.1 hslot⟩
  | popCommit slot result =>
    exact Holds.grow hgrowth (hkept slot.index (by simp [QueueThread.owned])) h
  | clearLoad guarded | abortCommit guarded =>
    exact Holds.grow hgrowth (hkept guarded.index (by simp [QueueThread.owned])) h
  | clearReserve guarded loaded | abortTake guarded loaded =>
    have hslot := hkept guarded.index (by simp [QueueThread.owned])
    refine ⟨h.1.frame hframe hframe.popIndex_le, ?_, h.2.2.grow hgrowth hslot⟩
    rw [hframe.turn_eq hslot, hframe.loaded_eq]
    exact h.2.1
  | clearHelp guarded loaded =>
    have hslot := hkept guarded.index (by simp [QueueThread.owned])
    refine ⟨hpop h.1, ?_, h.2.2.grow hgrowth hslot⟩
    rw [hframe.turn_eq hslot, hframe.loaded_eq]
    exact h.2.1
  | clearAdvance guarded slot loaded =>
    exact ⟨hpop h.1,
      h.2.1.grow hgrowth (hkept guarded.index (by simp [QueueThread.owned])),
      h.2.2.grow hgrowth (hkept slot.index (by simp [QueueThread.owned]))⟩
  | clearDestroy guarded slot | clearCommit guarded slot =>
    exact ⟨h.1.grow hgrowth (hkept guarded.index (by simp [QueueThread.owned])),
      h.2.grow hgrowth (hkept slot.index (by simp [QueueThread.owned]))⟩
  | abortLoad guarded =>
    have hslot := hkept guarded.index (by simp [QueueThread.owned])
    refine ⟨?_, h.2.grow hgrowth hslot⟩
    rw [hframe.turn_eq hslot]
    exact h.1.trans hframe.popIndex_le
  | abortAdvance guarded loaded =>
    exact ⟨hpop h.1, h.2.grow hgrowth (hkept guarded.index (by simp [QueueThread.owned]))⟩

end Frame

variable {α : Type} {capacity : ℕ} {memory : QueueMemory α} {history : QueueHistory α}
  {thread : ℕ} {kept : ℕ → Prop}

/-- The cell gets a new state, in the generation that it has. -/
abbrev QueueMemory.mark (memory : QueueMemory α) (capacity : ℕ) (history : QueueHistory α)
    (index : ℕ) (state : ElementState) : QueueMemory α :=
  memory.setState index (encodeElement (history.generation index % numGenerations capacity) state)

structure QueueEffect (capacity : ℕ) (memory : QueueMemory α) (history : QueueHistory α)
    (thread : ℕ) (kept : ℕ → Prop) (memory' : QueueMemory α) (event : QueueEvent α) : Prop where
  coherent : QueueCoherent capacity memory' (history.record thread event)
  growth : QueueGrowth capacity memory memory' history (history.record thread event) kept

namespace QueueCoherent

variable (h : QueueCoherent capacity memory history)

include h

theorem nothing : QueueEffect capacity memory history thread kept memory .nothing where
  coherent := h
  growth := .refl memory history kept

theorem readPushIndex : QueueEffect capacity memory history thread kept memory .readPushIndex where
  coherent := { h with }
  growth := { QueueGrowth.refl memory history kept with }

theorem readPopIndex : QueueEffect capacity memory history thread kept memory .readPopIndex where
  coherent := { h with }
  growth := { QueueGrowth.refl memory history kept with }

theorem pushIndexAdvanced (hwrap : 0 < numCombined capacity)
    (hword : memory.pushIndex = history.pushIndex % numCombined capacity)
    (hlt : history.pushIndex < history.pushed.length) :
    QueueEffect capacity memory history thread kept
      { memory with pushIndex := nextCombinedIndex capacity memory.pushIndex }
      .pushIndexAdvanced where
  coherent :=
    { h with
      pushWord := .inl (by
        rw [hword]
        exact nextCombinedIndex_mod hwrap history.pushIndex)
      pushIndex_le := hlt }
  growth := { QueueGrowth.refl memory history kept with pushIndex_le := Nat.le_succ _ }

theorem popIndexAdvanced (hwrap : 0 < numCombined capacity)
    (hlt : history.popIndex < history.popped) :
    QueueEffect capacity memory history thread kept
      { memory with popIndex := nextCombinedIndex capacity memory.popIndex }
      .popIndexAdvanced where
  coherent :=
    { h with
      popWord := by
        rw [h.popWord]
        exact nextCombinedIndex_mod hwrap history.popIndex
      popIndex_le := hlt
      popped_le := h.popped_le.trans (Nat.le_succ _) }
  growth := { QueueGrowth.refl memory history kept with popIndex_le := Nat.le_succ _ }

theorem flagged {word : ℕ}
    (hword : word = history.pushIndex % numCombined capacity ∨
      word = history.pushIndex % numCombined capacity + 2 ^ 31) :
    QueueEffect capacity memory history thread kept { memory with pushIndex := word }
      .nothing where
  coherent := { h with pushWord := hword }
  growth := { QueueGrowth.refl memory history kept with }

omit h in
theorem turns_setState (taken : ElementState → ℕ) (index generation : ℕ) (state : ElementState) :
    (fun other => history.generation other +
        taken ((memory.setState index (encodeElement generation state)).state other)) =
      Function.update (fun other => history.generation other + taken (memory.state other)) index
        (history.generation index + taken state) := by
  funext other
  by_cases heq : other = index
  · subst heq
    simp
  · simp [heq]

omit h in
theorem turns_setState_of_eq {taken : ElementState → ℕ} {index generation : ℕ}
    {state : ElementState} (htaken : taken state = taken (memory.state index)) :
    (fun other => history.generation other +
        taken ((memory.setState index (encodeElement generation state)).state other)) =
      fun other => history.generation other + taken (memory.state other) := by
  rw [turns_setState, htaken, Function.update_eq_self]

theorem cellWord_setState (index : ℕ) (state : ElementState) :
    ∀ other < capacity, (memory.mark capacity history index state).states other =
      encodeElement (history.generation other % numGenerations capacity)
        ((memory.mark capacity history index state).state other) := by
  intro other hother
  by_cases heq : other = index
  · subst heq
    simp
  · simp [heq, h.cellWord other hother]

omit h in
theorem growth_setState (capacity : ℕ) (memory : QueueMemory α) (history : QueueHistory α)
    (index word : ℕ) :
    QueueGrowth capacity memory (memory.setState index word) history history (· ≠ index) :=
  { QueueGrowth.refl memory history (· ≠ index) with
    cell_eq := fun _ hne => ⟨memory.state_setState_of_ne index word hne, rfl, rfl⟩ }

omit h in
theorem growth_setData (capacity : ℕ) (memory : QueueMemory α) (history : QueueHistory α)
    (index : ℕ) (element : Option α) :
    QueueGrowth capacity memory (memory.setData index element) history history (· ≠ index) :=
  { QueueGrowth.refl memory history (· ≠ index) with
    cell_eq := fun _ hne => ⟨rfl, rfl, memory.data_setData_of_ne index element hne⟩ }

theorem stores_of_growth {memory' : QueueMemory α} {history' : QueueHistory α} {index : ℕ}
    (hgrowth : QueueGrowth capacity memory memory' history history' (· ≠ index))
    (hindex : index < capacity → memory'.state index = .full →
      Stores capacity memory' history' index) :
    ∀ other < capacity, memory'.state other = .full → Stores capacity memory' history' other := by
  intro other hother hfull
  by_cases heq : other = index
  · subst heq
    exact hindex hother hfull
  · rw [(hgrowth.cell_eq other heq).1] at hfull
    exact (h.stores other hother hfull).grow hgrowth heq

theorem pushReserved (hpos : 0 < capacity) {index : ℕ} (value : α)
    (hindex : index = history.pushed.length % capacity) (hstate : memory.state index = .empty) :
    QueueEffect capacity memory history thread (· ≠ index)
      (memory.mark capacity history index .writing) (.pushReserved value) := by
  have hgrowth : QueueGrowth capacity memory (memory.mark capacity history index .writing)
      history (history.record thread (.pushReserved value)) (· ≠ index) :=
    { growth_setState capacity memory history index _ with pushed_prefix := List.prefix_append _ _ }
  refine ⟨{ h with
    cellWord := h.cellWord_setState index .writing
    writes := ?_
    reads := ?_
    pushIndex_le := h.pushIndex_le.trans hgrowth.pushed_length_le
    stores := h.stores_of_growth hgrowth (by simp)
    delivered_pushed := ?_ }, hgrowth⟩
  · have hnext := h.writes.next hpos
    rw [← hindex, hstate] at hnext
    simp only [QueueHistory.record, List.length_append, List.length_singleton, turns_setState]
    exact hnext
  · have hread : ElementState.read .writing = (memory.state index).read := by rw [hstate]; rfl
    simp only [QueueHistory.record, turns_setState_of_eq hread]
    exact h.reads
  · intro entry hentry
    obtain ⟨hlt, hcommitted, hpushed⟩ := h.delivered_pushed entry hentry
    exact ⟨hlt, hcommitted, hgrowth.getElem? hpushed⟩

theorem popReserved (hpos : 0 < capacity) {index : ℕ}
    (hindex : index = history.popped % capacity) (hpopped : history.popped = history.popIndex)
    (hstate : memory.state index = .full ∨ memory.state index = .writing) :
    QueueEffect capacity memory history thread (· ≠ index)
      (memory.mark capacity history index .reading) .popReserved := by
  have hgrowth : QueueGrowth capacity memory (memory.mark capacity history index .reading)
      history (history.record thread .popReserved) (· ≠ index) :=
    { growth_setState capacity memory history index _ with popped_le := Nat.le_succ _ }
  refine ⟨{ h with
    cellWord := h.cellWord_setState index .reading
    writes := ?_
    reads := ?_
    popIndex_le := h.popIndex_le.trans (Nat.le_succ _)
    popped_le := by simp [QueueHistory.record, hpopped]
    stores := h.stores_of_growth hgrowth (by simp)
    delivered_pushed := ?_ }, hgrowth⟩
  · have hwritten : ElementState.written .reading = (memory.state index).written := by
      rcases hstate with hstate | hstate <;> rw [hstate] <;> rfl
    simp only [QueueHistory.record, turns_setState_of_eq hwritten]
    exact h.writes
  · have hread : (memory.state index).read = 0 := by
      rcases hstate with hstate | hstate <;> rw [hstate] <;> rfl
    have hnext := h.reads.next hpos
    rw [← hindex, hread] at hnext
    simp only [QueueHistory.record, turns_setState]
    exact hnext
  · intro entry hentry
    obtain ⟨hlt, hcommitted, hpushed⟩ := h.delivered_pushed entry hentry
    exact ⟨hlt.trans (Nat.lt_succ_self _), hcommitted, hpushed⟩

theorem pushCommitted {index : ℕ} {value : α} (hstate : memory.state index = .writing)
    (hnumber : history.pushNumber thread = history.turn capacity index)
    (hdata : memory.data index = some value)
    (hpushed : history.pushed[history.turn capacity index]? = some value) :
    QueueEffect capacity memory history thread (· ≠ index)
      (memory.mark capacity history index .full) .pushCommitted := by
  have hgrowth : QueueGrowth capacity memory (memory.mark capacity history index .full)
      history (history.record thread .pushCommitted) (· ≠ index) :=
    { growth_setState capacity memory history index _ with
      committed_subset := List.subset_append_left _ _ }
  refine ⟨{ h with
    cellWord := h.cellWord_setState index .full
    writes := ?_
    reads := ?_
    stores := h.stores_of_growth hgrowth ?_
    delivered_pushed := ?_ }, hgrowth⟩
  · have hwritten : ElementState.written .full = (memory.state index).written := by
      rw [hstate]; rfl
    simp only [QueueHistory.record, turns_setState_of_eq hwritten]
    exact h.writes
  · have hread : ElementState.read .full = (memory.state index).read := by rw [hstate]; rfl
    simp only [QueueHistory.record, turns_setState_of_eq hread]
    exact h.reads
  · intro _ _
    refine ⟨?_, value, hdata, hpushed⟩
    simp only [QueueHistory.record, hnumber]
    exact List.mem_append_right _ (List.mem_singleton.mpr rfl)
  · intro entry hentry
    obtain ⟨hlt, hcommitted, hentry⟩ := h.delivered_pushed entry hentry
    exact ⟨hlt, hgrowth.committed_subset hcommitted, hentry⟩

theorem popCommitted (hwrap : 0 < numGenerations capacity) {index : ℕ} (hindex : index < capacity)
    (hstate : memory.state index = .reading) :
    QueueEffect capacity memory history thread (· ≠ index)
      (memory.setState index
        (encodeElement
          (nextGeneration capacity (history.generation index % numGenerations capacity)) .empty))
      (.popCommitted index) := by
  have hgrowth : QueueGrowth capacity memory
      (memory.setState index
        (encodeElement
          (nextGeneration capacity (history.generation index % numGenerations capacity)) .empty))
      history (history.record thread (.popCommitted index)) (· ≠ index) :=
    { QueueGrowth.refl memory history (· ≠ index) with
      cell_eq := fun other hne =>
        ⟨memory.state_setState_of_ne index _ hne, Function.update_of_ne hne .., rfl⟩ }
  -- Being empty in the next generation counts as being read in this one.
  have hturns (taken : ElementState → ℕ) (hempty : taken .empty = 0)
      (hreading : taken .reading = 1) :
      (fun other => (history.record thread (.popCommitted index)).generation other +
        taken ((memory.setState index
          (encodeElement (nextGeneration capacity
            (history.generation index % numGenerations capacity)) .empty)).state other)) =
      fun other => history.generation other + taken (memory.state other) := by
    funext other
    by_cases heq : other = index
    · subst heq
      simp [QueueHistory.record, hstate, hempty, hreading]
    · simp [QueueHistory.record, heq]
  refine ⟨{ h with
    cellWord := ?_
    writes := ?_
    reads := ?_
    stores := h.stores_of_growth hgrowth (by simp)
    released_eq := ?_ }, hgrowth⟩
  · intro other hother
    by_cases heq : other = index
    · subst heq
      simp [QueueHistory.record, nextGeneration_mod hwrap]
    · simp [QueueHistory.record, heq, h.cellWord other hother]
  · rw [hturns ElementState.written rfl rfl]
    exact h.writes
  · rw [hturns ElementState.read rfl rfl]
    exact h.reads
  · have hmem : index ∈ Finset.range capacity := Finset.mem_range.mpr hindex
    have herase := Finset.add_sum_erase _ history.generation hmem
    simp only [QueueHistory.record]
    rw [Finset.sum_update_of_mem hmem, Finset.sdiff_singleton_eq_erase, h.released_eq]
    omega

theorem setData {index : ℕ} (element : Option α) (hstate : memory.state index ≠ .full) :
    QueueEffect capacity memory history thread (· ≠ index) (memory.setData index element)
      .nothing := by
  have hgrowth := growth_setData capacity memory history index element
  exact ⟨{ h with stores := h.stores_of_growth hgrowth fun _ hfull => absurd hfull hstate },
    hgrowth⟩

theorem popped (hpos : 0 < capacity) {slot : QueueSlot} {value : α}
    (hholds : Holds capacity memory history .reading slot)
    (hdelivers : Delivers capacity memory history thread slot)
    (hdata : memory.data slot.index = some value) :
    QueueEffect capacity memory history thread (· ≠ slot.index)
      (memory.setData slot.index none) (.popped value) := by
  obtain ⟨⟨hcommitted, stored, hstored, hpushed⟩, hnumber, hundelivered⟩ := hdelivers
  obtain ⟨hindex, -, hstate⟩ := hholds
  obtain rfl : stored = value := Option.some_injective _ (hstored.symm.trans hdata)
  have hgrowth : QueueGrowth capacity memory (memory.setData slot.index none) history
      (history.record thread (.popped stored)) (· ≠ slot.index) :=
    { growth_setData capacity memory history slot.index none with
      undelivered := by
        intro other hother hne hother'
        simp only [QueueHistory.record, List.map_append, List.mem_append, List.map_cons,
          List.map_nil, List.mem_singleton, hnumber, not_or]
        refine ⟨hother', fun heq => hne ?_⟩
        rw [← QueueHistory.turn_mod history hother, heq, QueueHistory.turn_mod history hindex] }
  refine ⟨{ h with
    stores := h.stores_of_growth hgrowth fun _ hfull => by simp [hstate] at hfull
    delivered_nodup := ?_
    delivered_pushed := ?_ }, hgrowth⟩
  · simp only [QueueHistory.record, List.map_append, List.map_cons, List.map_nil, hnumber]
    exact List.nodup_append.mpr ⟨h.delivered_nodup, List.nodup_singleton _, by
      rintro number hmem _ hlast rfl
      exact hundelivered (List.mem_singleton.mp hlast ▸ hmem)⟩
  · intro entry hentry
    rcases List.mem_append.mp hentry with hbefore | hnew
    · exact h.delivered_pushed entry hbefore
    · rw [List.mem_singleton.mp hnew, hnumber]
      exact ⟨(h.turn_lt_popped_iff hpos hindex).mpr hstate, hcommitted, hpushed⟩

end QueueCoherent
end SessionRouter

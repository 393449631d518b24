import Mathlib.Data.Nat.Bitwise
import Mathlib.Logic.Function.Basic

/-!
# The lock-free queue
-/

namespace SessionRouter

/-- The state of a cell. -/
inductive ElementState
  | empty
  | writing
  | full
  | reading
  deriving DecidableEq, Repr

def ElementState.toUnderlying : ElementState → ℕ
  | .empty => 0
  | .writing => 1
  | .full => 2
  | .reading => 3

/-- What `tryPushBack` returns. -/
inductive QueueReturn
  | success
  | queueDisabled
  | queueEmpty
  | queueFull
  deriving DecidableEq, Repr

def DISABLED_STATE_MASK : ℕ := 2 ^ 31

def NUM_COMBINED_INDEXES : ℕ := DISABLED_STATE_MASK

def NUM_ELEMENT_GENERATIONS : ℕ := 2 ^ 30

def isDisabledFlagSet (encodedIndex : ℕ) : Bool :=
  encodedIndex &&& DISABLED_STATE_MASK != 0

def discardDisabledFlag (encodedIndex : ℕ) : ℕ :=
  encodedIndex &&& (2 ^ 31 - 1)

def encodeElement (generation : ℕ) (state : ElementState) : ℕ :=
  generation <<< 2 ||| state.toUnderlying

def decodeGenerationFromElementState (word : ℕ) : ℕ :=
  word >>> 2

def decodeStateFromElementState (word : ℕ) : ElementState :=
  match word &&& 3 with
  | 0 => .empty
  | 1 => .writing
  | 2 => .full
  | _ => .reading

theorem encodeElement_eq (generation : ℕ) (state : ElementState) :
    encodeElement generation state = generation * 4 + state.toUnderlying := by
  have hlt : state.toUnderlying < 2 ^ 2 := by cases state <;> decide
  rw [encodeElement, ← Nat.shiftLeft_add_eq_or_of_lt hlt, Nat.shiftLeft_eq]

@[simp] theorem decodeGeneration_encodeElement (generation : ℕ) (state : ElementState) :
    decodeGenerationFromElementState (encodeElement generation state) = generation := by
  rw [encodeElement_eq, decodeGenerationFromElementState, Nat.shiftRight_eq_div_pow]
  cases state <;> simp only [ElementState.toUnderlying] <;> omega

@[simp] theorem decodeState_encodeElement (generation : ℕ) (state : ElementState) :
    decodeStateFromElementState (encodeElement generation state) = state := by
  have hmask (word : ℕ) : word &&& 3 = word % 4 := Nat.and_two_pow_sub_one_eq_mod word 2
  rw [encodeElement_eq, decodeStateFromElementState, hmask]
  cases state <;> simp [ElementState.toUnderlying]

theorem isDisabledFlagSet_of_lt {index : ℕ} (hlt : index < 2 ^ 31) :
    isDisabledFlagSet index = false := by
  rw [isDisabledFlagSet, DISABLED_STATE_MASK, Nat.and_two_pow, Nat.testBit_lt_two_pow hlt]
  rfl

theorem isDisabledFlagSet_flagged {index : ℕ} (hlt : index < 2 ^ 31) :
    isDisabledFlagSet (index + 2 ^ 31) = true := by
  have hbit : (index + 2 ^ 31).testBit 31 = true := by
    rw [Nat.add_comm, Nat.testBit_two_pow_add_eq, Nat.testBit_lt_two_pow hlt]
    rfl
  rw [isDisabledFlagSet, DISABLED_STATE_MASK, Nat.and_two_pow, hbit]
  rfl

theorem discardDisabledFlag_of_lt {index : ℕ} (hlt : index < 2 ^ 31) :
    discardDisabledFlag index = index := by
  rw [discardDisabledFlag, Nat.and_two_pow_sub_one_eq_mod, Nat.mod_eq_of_lt hlt]

theorem discardDisabledFlag_flagged {index : ℕ} (hlt : index < 2 ^ 31) :
    discardDisabledFlag (index + 2 ^ 31) = index := by
  rw [discardDisabledFlag, Nat.and_two_pow_sub_one_eq_mod, Nat.add_mod_right, Nat.mod_eq_of_lt hlt]

theorem or_disabledMask_of_lt {index : ℕ} (hlt : index < 2 ^ 31) :
    index ||| DISABLED_STATE_MASK = index + 2 ^ 31 := by
  have hadd := Nat.two_pow_add_eq_or_of_lt hlt 1
  rw [Nat.mul_one] at hadd
  rw [DISABLED_STATE_MASK, Nat.or_comm, ← hadd, Nat.add_comm]

theorem or_disabledMask_flagged {index : ℕ} (hlt : index < 2 ^ 31) :
    (index + 2 ^ 31) ||| DISABLED_STATE_MASK = index + 2 ^ 31 := by
  rw [← or_disabledMask_of_lt hlt, Nat.or_assoc, Nat.or_self]

def numGenerations (capacity : ℕ) : ℕ :=
  min (NUM_COMBINED_INDEXES / capacity) NUM_ELEMENT_GENERATIONS

def maxGeneration (capacity : ℕ) : ℕ :=
  numGenerations capacity - 1

def maxCombinedIndex (capacity : ℕ) : ℕ :=
  numGenerations capacity * capacity - 1

def nextCombinedIndex (capacity index : ℕ) : ℕ :=
  if maxCombinedIndex capacity = index then 0 else index + 1

def nextGeneration (capacity generation : ℕ) : ℕ :=
  if maxGeneration capacity = generation then 0 else generation + 1

def circularDifference (startingValue subtractValue modulo : ℕ) : ℤ :=
  let difference : ℤ := startingValue - subtractValue
  if difference > (modulo / 2 : ℕ) then difference - modulo
  else if difference < -((modulo / 2 : ℕ) : ℤ) then difference + modulo
  else difference

def isGenerationBehind (capacity currGen elemGen : ℕ) : Bool :=
  let difference : ℤ := currGen - elemGen
  difference == 1 || difference == -(maxGeneration capacity : ℤ)

variable {α : Type}

structure QueueMemory (α : Type) where
  pushIndex : ℕ
  popIndex : ℕ
  states : ℕ → ℕ
  data : ℕ → Option α

namespace QueueMemory

def initial : QueueMemory α where
  pushIndex := 0
  popIndex := 0
  states := fun _ => 0
  data := fun _ => none

def setState (memory : QueueMemory α) (index word : ℕ) : QueueMemory α :=
  { memory with states := Function.update memory.states index word }

def setData (memory : QueueMemory α) (index : ℕ) (element : Option α) : QueueMemory α :=
  { memory with data := Function.update memory.data index element }

def state (memory : QueueMemory α) (index : ℕ) : ElementState :=
  decodeStateFromElementState (memory.states index)

@[simp] theorem state_initial (index : ℕ) : (initial : QueueMemory α).state index = .empty := by
  simp [state, initial, decodeStateFromElementState]

section Access

variable (memory : QueueMemory α) (index word : ℕ) (element : Option α) {other : ℕ}

@[simp] theorem data_setState : (memory.setState index word).data = memory.data := rfl

@[simp] theorem states_setState_self : (memory.setState index word).states index = word :=
  Function.update_self ..

@[simp] theorem states_setState_of_ne (hne : other ≠ index) :
    (memory.setState index word).states other = memory.states other :=
  Function.update_of_ne hne ..

@[simp] theorem state_setState_self :
    (memory.setState index word).state index = decodeStateFromElementState word := by
  simp [state]

@[simp] theorem state_setState_of_ne (hne : other ≠ index) :
    (memory.setState index word).state other = memory.state other := by
  simp [state, hne]

@[simp] theorem states_setData : (memory.setData index element).states = memory.states := rfl

@[simp] theorem state_setData : (memory.setData index element).state = memory.state := rfl

@[simp] theorem data_setData_self : (memory.setData index element).data index = element :=
  Function.update_self ..

@[simp] theorem data_setData_of_ne (hne : other ≠ index) :
    (memory.setData index element).data other = memory.data other :=
  Function.update_of_ne hne ..

end Access
end QueueMemory

/-- A cell as the reservations give it out. -/
structure QueueSlot where
  generation : ℕ
  index : ℕ
  deriving DecidableEq, Repr

def QueueSlot.ofCombined (capacity combined : ℕ) : QueueSlot :=
  ⟨combined / capacity, combined % capacity⟩

inductive QueueResult (α : Type)
  | nothing
  | pushed (result : QueueReturn)
  | popped (result : Option α)
  | threw

inductive QueueThread (α : Type)
  | rest (result : QueueResult α)
  -- `reservePushIndex` within `tryPushBack`
  | pushLoad (value : α) (savedPushIndex : ℕ)
  | pushReserve (value : α) (loadedPushIndex savedPushIndex : ℕ)
  | pushHelp (value : α) (combinedIndex savedPushIndex : ℕ)
  | pushAdvance (value : α) (slot : QueueSlot) (combinedIndex : ℕ)
  | pushConstruct (value : α) (slot : QueueSlot)
  | pushCommit (slot : QueueSlot)
  -- `reservePopIndex` within `tryPopFront`
  | popLoad (savedPopIndex : ℕ)
  | popReserve (loadedPopIndex savedPopIndex : ℕ)
  | popHelp (loadedPopIndex savedPopIndex : ℕ)
  | popAdvance (slot : QueueSlot) (loadedPopIndex : ℕ)
  | popMove (slot : QueueSlot)
  | popCommit (slot : QueueSlot) (result : QueueResult α)
  -- the push guard's destructor, after a constructor that threw: `reservePopForClear`
  | clearLoad (guarded : QueueSlot)
  | clearReserve (guarded : QueueSlot) (loadedCombinedIndex : ℕ)
  | clearHelp (guarded : QueueSlot) (loadedCombinedIndex : ℕ)
  | clearAdvance (guarded slot : QueueSlot) (loadedCombinedIndex : ℕ)
  | clearDestroy (guarded slot : QueueSlot)
  | clearCommit (guarded slot : QueueSlot)
  -- and `abortPushIndexReservation`
  | abortLoad (guarded : QueueSlot)
  | abortTake (guarded : QueueSlot) (loadedPopIndex : ℕ)
  | abortAdvance (guarded : QueueSlot) (loadedPopIndex : ℕ)
  | abortCommit (guarded : QueueSlot)
  -- `disable` and `enable`
  | disableLoad
  | disableExchange (index : ℕ)
  | enableLoad
  | enableExchange (index : ℕ)

inductive QueueEvent (α : Type)
  | nothing
  | readPushIndex
  | readPopIndex
  | pushIndexAdvanced
  | popIndexAdvanced
  | pushReserved (value : α)
  | pushCommitted
  | popReserved
  | popped (value : α)
  | popCommitted (index : ℕ)

/-- The outcome of one step of a thread. -/
structure QueueOutcome (α : Type) where
  memory : QueueMemory α
  thread : QueueThread α
  event : QueueEvent α

section Steps

variable (capacity : ℕ) (memory : QueueMemory α)

def advancePushIndex (combinedIndex : ℕ) (moved read : QueueThread α) : QueueOutcome α :=
  if memory.pushIndex = combinedIndex then
    ⟨{ memory with pushIndex := nextCombinedIndex capacity combinedIndex }, moved,
      .pushIndexAdvanced⟩
  else
    ⟨memory, read, .readPushIndex⟩

def advancePopIndex (loadedPopIndex : ℕ) (moved read : QueueThread α) : QueueOutcome α :=
  if memory.popIndex = loadedPopIndex then
    ⟨{ memory with popIndex := nextCombinedIndex capacity loadedPopIndex }, moved,
      .popIndexAdvanced⟩
  else
    ⟨memory, read, .readPopIndex⟩

def reservePushIndex (value : α) (loadedPushIndex savedPushIndex : ℕ) : QueueOutcome α :=
  if isDisabledFlagSet loadedPushIndex then
    ⟨memory, .rest (.pushed .queueDisabled), .nothing⟩
  else
    let combinedIndex := discardDisabledFlag loadedPushIndex
    let slot := QueueSlot.ofCombined capacity combinedIndex
    let observed := memory.states slot.index
    if observed = encodeElement slot.generation .empty then
      ⟨memory.setState slot.index (encodeElement slot.generation .writing),
        .pushAdvance value slot combinedIndex, .pushReserved value⟩
    else if isGenerationBehind capacity slot.generation
        (decodeGenerationFromElementState observed) then
      if decodeStateFromElementState observed = .reading then
        ⟨memory, .pushLoad value savedPushIndex, .nothing⟩
      else if savedPushIndex ≠ loadedPushIndex then
        ⟨memory, .pushLoad value loadedPushIndex, .nothing⟩
      else
        ⟨memory, .rest (.pushed .queueFull), .nothing⟩
    else
      ⟨memory, .pushHelp value combinedIndex savedPushIndex, .nothing⟩

def reservePopIndex (loadedPopIndex savedPopIndex : ℕ) : QueueOutcome α :=
  let slot := QueueSlot.ofCombined capacity loadedPopIndex
  let observed := memory.states slot.index
  let elemGen := decodeGenerationFromElementState observed
  let state := decodeStateFromElementState observed
  if observed = encodeElement slot.generation .full then
    ⟨memory.setState slot.index (encodeElement slot.generation .reading),
      .popAdvance slot loadedPopIndex, .popReserved⟩
  else if isGenerationBehind capacity slot.generation elemGen then
    ⟨memory, .rest (.popped none), .nothing⟩
  else if slot.generation = elemGen ∧ state = .empty then
    if savedPopIndex ≠ loadedPopIndex then
      ⟨memory, .popLoad loadedPopIndex, .nothing⟩
    else
      ⟨memory, .rest (.popped none), .nothing⟩
  else if slot.generation ≠ elemGen ∨ state = .writing then
    ⟨memory, .popLoad savedPopIndex, .nothing⟩
  else
    ⟨memory, .popHelp loadedPopIndex savedPopIndex, .nothing⟩

def reservePopForClear (guarded : QueueSlot) (loadedCombinedIndex : ℕ) : QueueOutcome α :=
  let endCombinedIndex := guarded.generation * capacity + guarded.index
  let slot := QueueSlot.ofCombined capacity loadedCombinedIndex
  let observed := memory.states slot.index
  let state := decodeStateFromElementState observed
  if circularDifference endCombinedIndex loadedCombinedIndex (maxCombinedIndex capacity + 1) = 0
  then
    ⟨memory, .abortLoad guarded, .nothing⟩
  else if observed = encodeElement slot.generation .full then
    ⟨memory.setState slot.index (encodeElement slot.generation .reading),
      .clearAdvance guarded slot loadedCombinedIndex, .popReserved⟩
  else if state = .writing ∨ state = .full then
    ⟨memory, .clearLoad guarded, .nothing⟩
  else
    ⟨memory, .clearHelp guarded loadedCombinedIndex, .nothing⟩

def commitPopIndex (slot : QueueSlot) (next : QueueThread α) : QueueOutcome α :=
  ⟨memory.setState slot.index (encodeElement (nextGeneration capacity slot.generation) .empty),
    next, .popCommitted slot.index⟩

def moveElement (throws : Bool) (slot : QueueSlot) : QueueOutcome α :=
  let emptied := memory.setData slot.index none
  if throws then
    ⟨emptied, .popCommit slot .threw, .nothing⟩
  else
    match memory.data slot.index with
    | some value => ⟨emptied, .popCommit slot (.popped (some value)), .popped value⟩
    | none => ⟨emptied, .popCommit slot .threw, .nothing⟩

def QueueThread.step (throws : Bool) : QueueThread α → QueueOutcome α
  | .rest result => ⟨memory, .rest result, .nothing⟩
  | .pushLoad value saved => ⟨memory, .pushReserve value memory.pushIndex saved, .readPushIndex⟩
  | .pushReserve value loaded saved => reservePushIndex capacity memory value loaded saved
  | .pushHelp value combined saved =>
    -- After a success the thread goes round with the old index, which it then finds taken.
    advancePushIndex capacity memory combined (.pushReserve value combined saved)
      (.pushReserve value memory.pushIndex saved)
  | .pushAdvance value slot combined =>
    advancePushIndex capacity memory combined (.pushConstruct value slot)
      (.pushConstruct value slot)
  | .pushConstruct value slot =>
    if throws then ⟨memory, .clearLoad slot, .nothing⟩
    else ⟨memory.setData slot.index (some value), .pushCommit slot, .nothing⟩
  | .pushCommit slot =>
    ⟨memory.setState slot.index (encodeElement slot.generation .full),
      .rest (.pushed .success), .pushCommitted⟩
  | .popLoad saved => ⟨memory, .popReserve memory.popIndex saved, .readPopIndex⟩
  | .popReserve loaded saved => reservePopIndex capacity memory loaded saved
  | .popHelp loaded saved =>
    advancePopIndex capacity memory loaded (.popReserve loaded saved)
      (.popReserve memory.popIndex saved)
  | .popAdvance slot loaded =>
    advancePopIndex capacity memory loaded (.popMove slot) (.popMove slot)
  | .popMove slot => moveElement memory throws slot
  | .popCommit slot result => commitPopIndex capacity memory slot (.rest result)
  | .clearLoad guarded => ⟨memory, .clearReserve guarded memory.popIndex, .readPopIndex⟩
  | .clearReserve guarded loaded => reservePopForClear capacity memory guarded loaded
  | .clearHelp guarded loaded =>
    advancePopIndex capacity memory loaded (.clearReserve guarded loaded)
      (.clearReserve guarded memory.popIndex)
  | .clearAdvance guarded slot loaded =>
    advancePopIndex capacity memory loaded (.clearDestroy guarded slot)
      (.clearDestroy guarded slot)
  | .clearDestroy guarded slot =>
    ⟨memory.setData slot.index none, .clearCommit guarded slot, .nothing⟩
  | .clearCommit guarded slot => commitPopIndex capacity memory slot (.clearLoad guarded)
  | .abortLoad guarded => ⟨memory, .abortTake guarded memory.popIndex, .readPopIndex⟩
  | .abortTake guarded loaded =>
    ⟨memory.setState guarded.index (encodeElement guarded.generation .reading),
      .abortAdvance guarded loaded, .popReserved⟩
  | .abortAdvance guarded loaded =>
    advancePopIndex capacity memory loaded (.abortCommit guarded) (.abortCommit guarded)
  | .abortCommit guarded => commitPopIndex capacity memory guarded (.rest .threw)
  | .disableLoad =>
    if isDisabledFlagSet memory.pushIndex then ⟨memory, .rest .nothing, .nothing⟩
    else ⟨memory, .disableExchange memory.pushIndex, .nothing⟩
  | .disableExchange index =>
    if memory.pushIndex = index then
      ⟨{ memory with pushIndex := index ||| DISABLED_STATE_MASK }, .rest .nothing, .nothing⟩
    else ⟨memory, .disableLoad, .nothing⟩
  | .enableLoad =>
    if isDisabledFlagSet memory.pushIndex then
      ⟨memory, .enableExchange memory.pushIndex, .nothing⟩
    else ⟨memory, .rest .nothing, .nothing⟩
  | .enableExchange index =>
    if memory.pushIndex = index then
      ⟨{ memory with pushIndex := discardDisabledFlag index }, .rest .nothing, .nothing⟩
    else ⟨memory, .enableLoad, .nothing⟩

end Steps

def QueueThread.owned : QueueThread α → List ℕ
  | .pushAdvance _ slot _ | .pushConstruct _ slot | .pushCommit slot => [slot.index]
  | .popAdvance slot _ | .popMove slot | .popCommit slot _ => [slot.index]
  | .clearLoad guarded | .clearReserve guarded _ | .clearHelp guarded _ => [guarded.index]
  | .clearAdvance guarded slot _ | .clearDestroy guarded slot | .clearCommit guarded slot =>
    [guarded.index, slot.index]
  | .abortLoad guarded | .abortTake guarded _ | .abortAdvance guarded _ | .abortCommit guarded =>
    [guarded.index]
  | _ => []

structure QueueSystem (α : Type) where
  memory : QueueMemory α
  threads : ℕ → QueueThread α

inductive QueueAction (α : Type)
  | tryPushBack (thread : ℕ) (value : α)
  | tryPopFront (thread : ℕ)
  | disable (thread : ℕ)
  | enable (thread : ℕ)
  | step (thread : ℕ) (throws : Bool)

namespace QueueSystem

def initial : QueueSystem α where
  memory := .initial
  threads := fun _ => .rest .nothing

def call (system : QueueSystem α) (thread : ℕ) (first : QueueThread α) : QueueSystem α :=
  match system.threads thread with
  | .rest _ => { system with threads := Function.update system.threads thread first }
  | _ => system

def outcome (capacity : ℕ) (system : QueueSystem α) (thread : ℕ) (throws : Bool) :
    QueueOutcome α :=
  (system.threads thread).step capacity system.memory throws

def step (capacity : ℕ) (system : QueueSystem α) : QueueAction α → QueueSystem α
  | .tryPushBack thread value => system.call thread (.pushLoad value (2 ^ 32 - 1))
  | .tryPopFront thread => system.call thread (.popLoad (2 ^ 32 - 1))
  | .disable thread => system.call thread .disableLoad
  | .enable thread => system.call thread .enableLoad
  | .step thread throws =>
    let outcome := system.outcome capacity thread throws
    { memory := outcome.memory
      threads := Function.update system.threads thread outcome.thread }

end QueueSystem
end SessionRouter

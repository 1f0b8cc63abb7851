import KlyroDB.ClockReplacer
import KlyroDB.GuardedRuns
import Mathlib.Data.List.TakeWhile
import Mathlib.Data.Nat.Find
import Mathlib.Data.Nat.ModEq

/-!
# Victims of the clock replacer

A first sweep stops at the first evictable frame with a clear reference bit.
When there is none it has cleared all bits, and a second sweep stops at the
first evictable frame.
-/

namespace KlyroDB

namespace FrameState

def isEvictable (state : FrameState) : Bool :=
  !state.isPinned && !state.isEmpty

def isClear (state : FrameState) : Bool :=
  state.isEvictable && !state.referenceBit

/-- What a frame is like once the hand has passed it. -/
def passed (state : FrameState) : FrameState :=
  if state.isEvictable then { state with referenceBit := false } else state

theorem isEvictable_passed (state : FrameState) : state.passed.isEvictable = state.isEvictable := by
  unfold passed
  split <;> rfl

theorem isClear_passed (state : FrameState) : state.passed.isClear = state.isEvictable := by
  unfold passed
  split
  · simp_all [isClear, isEvictable]
  · simp_all [isClear]

theorem passed_passed (state : FrameState) : state.passed.passed = state.passed := by
  by_cases evictable : state.isEvictable
  · have again := state.isEvictable_passed
    rw [evictable] at again
    rw [passed, if_pos again, passed, if_pos evictable]
  · simp [passed, evictable]

end FrameState

namespace ClockReplacer

inductive Call
  | pin (frame : Nat)
  | unpin (frame : Nat)
  | recordAccess (frame : Nat)
  | victim
  deriving DecidableEq, Repr

def call (replacer : ClockReplacer) : Call → ClockReplacer
  | .pin frame => replacer.pin frame
  | .unpin frame => replacer.unpin frame
  | .recordAccess frame => replacer.recordAccess frame
  | .victim => replacer.victim.2

def after (numFrames : Nat) (calls : List Call) : ClockReplacer :=
  GuardedRuns.run call { numFrames := numFrames } calls

def position (replacer : ClockReplacer) (distance : Nat) : Nat :=
  (replacer.clockHand + distance) % replacer.numFrames

def around (replacer : ClockReplacer) (count : Nat) : List Nat :=
  (List.range count).map replacer.position

def clockOrder (replacer : ClockReplacer) : List Nat :=
  replacer.around replacer.numFrames

/-- The first clear frame in clock order, or else the first evictable one. -/
def choice (replacer : ClockReplacer) : Option Nat :=
  (replacer.clockOrder.find? fun frame => (replacer.frames frame).isClear).or
    (replacer.clockOrder.find? fun frame =>
      (replacer.frames frame).isEvictable)

def passedFrames (replacer : ClockReplacer) : List Nat :=
  replacer.clockOrder.takeWhile fun frame => !(replacer.frames frame).isClear

/-- A frame after a search for a victim. -/
def outcome (replacer : ClockReplacer) (frame : Nat) : FrameState :=
  let state :=
    if frame ∈ replacer.passedFrames then (replacer.frames frame).passed
    else replacer.frames frame
  if replacer.choice = some frame then { state with isEmpty := true }
  else state

def passes (replacer : ClockReplacer) (count : Nat) : ClockReplacer :=
  { replacer with
    clockHand := replacer.position count
    frames := fun frame =>
      if frame ∈ replacer.around count then (replacer.frames frame).passed
      else replacer.frames frame }

section Sweeps

variable {replacer : ClockReplacer}
  (onClock : replacer.clockHand < replacer.numFrames) {count : Nat}

theorem around_succ : replacer.around (count + 1) =
    replacer.around count ++ [replacer.position count] := by
  rw [around, List.range_succ, List.map_append]
  rfl

section

variable (inside : count < replacer.numFrames)

include inside

theorem position_not_mem_around : replacer.position count ∉ replacer.around count := by
  intro mem
  obtain ⟨earlier, before, same⟩ := List.mem_map.mp mem
  rw [List.mem_range] at before
  have equal := Nat.ModEq.add_left_cancel' _ same
  have := equal.eq_of_lt_of_lt (before.trans inside) inside
  omega

theorem clockOrder_split :
    ∃ rest, replacer.clockOrder = replacer.around count ++ replacer.position count :: rest := by
  have front : replacer.clockOrder.take count = replacer.around count := by
    rw [clockOrder, around, around, ← List.map_take, List.take_range, Nat.min_eq_left inside.le]
  have bound : count < replacer.clockOrder.length := by simpa [clockOrder, around] using inside
  have here : replacer.clockOrder[count] = replacer.position count := by simp [clockOrder, around]
  refine ⟨replacer.clockOrder.drop (count + 1), ?_⟩
  rw [← front, ← here, List.getElem_cons_drop, List.take_append_drop]

theorem passes_succ :
    replacer.passes (count + 1) = ((replacer.passes count).update (replacer.position count)
        FrameState.passed).advanceHand := by
  have next : (replacer.position count + 1) % replacer.numFrames =
      replacer.position (count + 1) := by rw [position, position, Nat.mod_add_mod, Nat.add_assoc]
  simp only [passes, update, advanceHand, next, around_succ, mk.injEq, true_and]
  funext frame
  by_cases here : frame = replacer.position count
  · subst here
    simp [position_not_mem_around inside]
  · simp [here]

end

include onClock

/-- Frames without a clear one are passed. -/
theorem sweep_passes (within : count ≤ replacer.numFrames) (rounds : Nat)
    (unclear : ∀ distance < count, (replacer.frames (replacer.position distance)).isClear = false) :
    sweep (count + rounds) replacer = sweep rounds (replacer.passes count) := by
  induction count generalizing rounds with
  | zero =>
    have start : replacer.position 0 = replacer.clockHand := Nat.mod_eq_of_lt onClock
    simp [passes, around, start]
  | succ count induction =>
    have earlier := induction (by omega) (rounds + 1) fun distance before =>
      unclear distance (by omega)
    rw [Nat.add_assoc, Nat.add_comm 1, earlier, sweep]
    have here : (replacer.passes count).frames (replacer.position count) = replacer.frames
        (replacer.position count) := if_neg (position_not_mem_around within)
    have hand : (replacer.passes count).clockHand = replacer.position count := rfl
    have there := unclear count (Nat.lt_succ_self count)
    rw [passes_succ within, hand]
    simp only [here, update]
    generalize replacer.frames (replacer.position count) = state at here there
    by_cases evictable : state.isEvictable
    · have referenced : state.referenceBit = true := by
        simpa [FrameState.isClear, evictable] using there
      simp only [FrameState.isEvictable, Bool.and_eq_true, Bool.not_eq_true'] at evictable
      simp [evictable, referenced, FrameState.passed, FrameState.isEvictable]
    · have skipped : (state.isPinned || state.isEmpty) = true := by
        simpa [FrameState.isEvictable, or_iff_not_imp_left] using evictable
      rw [if_pos skipped, FrameState.passed, if_neg evictable, ← here, Function.update_eq_self]

theorem sweep_clear (inside : count < replacer.numFrames) {rounds : Nat} (enough : count < rounds)
    (unclear : ∀ distance < count, (replacer.frames (replacer.position distance)).isClear = false)
    (clear : (replacer.frames (replacer.position count)).isClear = true) :
    sweep rounds replacer = (some (replacer.position count),
      ((replacer.passes count).update (replacer.position count)
        ({ · with isEmpty := true })).advanceHand) := by
  obtain ⟨more, total⟩ := Nat.exists_eq_add_of_lt enough
  rw [total, Nat.add_assoc, sweep_passes onClock inside.le (more + 1) unclear, sweep]
  have here : (replacer.passes count).frames (replacer.position count) = replacer.frames
      (replacer.position count) := if_neg (position_not_mem_around inside)
  have hand : (replacer.passes count).clockHand = replacer.position count := rfl
  rw [hand]
  simp only [FrameState.isClear, FrameState.isEvictable, Bool.and_eq_true,
    Bool.not_eq_true'] at clear
  simp [here, clear]

omit onClock

theorem find_first (test : Nat → Bool) (inside : count < replacer.numFrames)
    (before : ∀ distance < count, test (replacer.position distance) = false)
    (here : test (replacer.position count) = true) :
    replacer.clockOrder.find? test = some (replacer.position count) ∧
      replacer.clockOrder.takeWhile (fun frame => !test frame) = replacer.around count := by
  obtain ⟨rest, split⟩ := clockOrder_split inside
  have none : ∀ frame ∈ replacer.around count, test frame = false := by
    intro frame mem
    obtain ⟨distance, bound, rfl⟩ := List.mem_map.mp mem
    exact before distance (List.mem_range.mp bound)
  constructor
  · rw [split, List.find?_append, List.find?_eq_none.mpr (by simpa using none)]
    simp [here]
  · rw [split, List.takeWhile_append_of_pos (by simpa using none)]
    simp [here]

theorem find_none (test : Nat → Bool) (none : ∀ distance < replacer.numFrames,
      test (replacer.position distance) = false) :
    replacer.clockOrder.find? test = Option.none ∧
      replacer.clockOrder.takeWhile (fun frame => !test frame) =
        replacer.around replacer.numFrames := by
  have all : ∀ frame ∈ replacer.clockOrder, test frame = false := by
    intro frame mem
    obtain ⟨distance, bound, rfl⟩ := List.mem_map.mp mem
    exact none distance (List.mem_range.mp bound)
  constructor
  · simpa using all
  · apply List.takeWhile_eq_self_iff.mpr
    simpa using all

theorem first_or_none (replacer : ClockReplacer) (test : Nat → Bool) :
    (∀ distance < replacer.numFrames, test (replacer.position distance) = false) ∨
    ∃ count < replacer.numFrames, test (replacer.position count) = true ∧
      ∀ distance < count, test (replacer.position distance) = false := by
  by_cases found : ∃ count < replacer.numFrames, test (replacer.position count) = true
  · right
    obtain ⟨inside, here⟩ := Nat.find_spec found
    refine ⟨Nat.find found, inside, here, fun distance before => ?_⟩
    have := Nat.find_min found before
    simpa [before.trans inside] using this
  · left
    simpa using found

theorem position_passes : (replacer.passes replacer.numFrames).position = replacer.position := by
  funext distance
  show (replacer.position replacer.numFrames + distance) % replacer.numFrames = _
  rw [position, position, Nat.mod_add_mod, Nat.add_right_comm, Nat.add_mod_right]

theorem frames_passes_passes (within : count ≤ replacer.numFrames) :
    ((replacer.passes replacer.numFrames).passes count).frames =
      (replacer.passes replacer.numFrames).frames := by
  funext frame
  have subset : frame ∈ replacer.around count → frame ∈ replacer.around replacer.numFrames := by
    intro mem
    obtain ⟨distance, bound, rfl⟩ := List.mem_map.mp mem
    rw [List.mem_range] at bound
    exact List.mem_map.mpr ⟨distance, List.mem_range.mpr (by omega), rfl⟩
  rw [passes, around, position_passes, ← around]
  by_cases mem : frame ∈ replacer.around count
  · simp [mem, passes, subset mem, FrameState.passed_passed]
  · simp [mem]

include onClock

theorem victim_outcome :
    replacer.victim.1 = replacer.choice ∧ replacer.victim.2.frames = replacer.outcome := by
  have nonempty : replacer.numFrames ≠ 0 := by omega
  rw [victim, if_neg nonempty]
  let clearAt := fun frame => (replacer.frames frame).isClear
  let evictableAt := fun frame => (replacer.frames frame).isEvictable
  rcases first_or_none replacer clearAt with unclear | ⟨count, inside, clear, unclear⟩
  · obtain ⟨noClear, all⟩ := find_none clearAt unclear
    have turns : replacer.numFrames * 2 = replacer.numFrames + replacer.numFrames := by omega
    rw [turns, sweep_passes onClock le_rfl _ unclear]
    have bits : ∀ distance < replacer.numFrames, ((replacer.passes replacer.numFrames).frames
        ((replacer.passes replacer.numFrames).position distance)).isClear = evictableAt
        (replacer.position distance) := by
      intro distance bound
      have mem : replacer.position distance ∈ replacer.around replacer.numFrames :=
          List.mem_map.mpr ⟨distance, List.mem_range.mpr bound, rfl⟩
      rw [position_passes]
      simp [passes, mem, FrameState.isClear_passed, evictableAt]
    have onClockStill : (replacer.passes replacer.numFrames).clockHand <
        replacer.numFrames := Nat.mod_lt _ (by omega)
    rcases first_or_none replacer evictableAt with pinned | ⟨count, inside, evictable, before⟩
    · obtain ⟨noEvictable, -⟩ := find_none evictableAt pinned
      have choice : replacer.choice = none := by
        rw [ClockReplacer.choice, noClear, noEvictable]
        rfl
      have rounds := sweep_passes onClockStill le_rfl 0 fun distance bound =>
        (bits distance bound).trans (pinned distance bound)
      rw [Nat.add_zero] at rounds
      rw [show (replacer.passes replacer.numFrames).numFrames =
        replacer.numFrames from rfl] at rounds
      rw [rounds, sweep]
      refine ⟨choice.symm, ?_⟩
      funext frame
      rw [frames_passes_passes le_rfl, outcome, passedFrames, all, choice]
      simp [passes]
    obtain ⟨first, -⟩ := find_first evictableAt inside before evictable
    have choice : replacer.choice = some (replacer.position count) := by
      rw [ClockReplacer.choice, noClear, first]
      rfl
    rw [sweep_clear onClockStill inside inside (fun distance bound =>
      (bits distance (bound.trans inside)).trans (before distance bound))
      ((bits count inside).trans evictable), position_passes]
    refine ⟨choice.symm, ?_⟩
    funext frame
    rw [outcome, passedFrames, all, choice]
    simp only [advanceHand, update, frames_passes_passes inside.le]
    by_cases here : frame = replacer.position count
    · subst here
      simp [passes]
    · simp [passes, here, Ne.symm here]
  obtain ⟨first, front⟩ := find_first clearAt inside unclear clear
  rw [sweep_clear onClock inside (by omega) unclear clear]
  have choice : replacer.choice = some (replacer.position count) := by
    rw [ClockReplacer.choice, first]
    rfl
  refine ⟨choice.symm, ?_⟩
  funext frame
  rw [outcome, passedFrames, front, choice]
  by_cases here : frame = replacer.position count
  · subst here
    simp [advanceHand, update, passes]
  · simp [advanceHand, update, passes, here, Ne.symm here]

end Sweeps

def OnClock (numFrames : Nat) (replacer : ClockReplacer) : Prop :=
  replacer.numFrames = numFrames ∧ (numFrames = 0 ∨ replacer.clockHand < replacer.numFrames)

theorem OnClock.call {numFrames : Nat} {replacer : ClockReplacer}
    (onClock : OnClock numFrames replacer) (event : Call) :
    OnClock numFrames (replacer.call event) := by
  cases event with
  | pin frame =>
    simp only [ClockReplacer.call, pin]
    split_ifs <;> exact onClock
  | unpin frame =>
    simp only [ClockReplacer.call, unpin]
    split_ifs <;> exact onClock
  | recordAccess frame =>
    simp only [ClockReplacer.call, recordAccess]
    split_ifs <;> exact onClock
  | victim =>
    obtain ⟨same, kept, -⟩ := victim_spec replacer
    exact ⟨same.1.trans onClock.1, onClock.2.imp_right kept⟩

theorem onClock_run (numFrames : Nat) (calls : List Call)
    {replacer : ClockReplacer} (onClock : OnClock numFrames replacer) :
    OnClock numFrames (GuardedRuns.run ClockReplacer.call replacer calls) := by
  induction calls generalizing replacer with
  | nil => exact onClock
  | cons event calls induction => exact induction (onClock.call event)

theorem mem_clockOrder {replacer : ClockReplacer} {frame : Nat}
    (onClock : replacer.clockHand < replacer.numFrames) :
    frame ∈ replacer.clockOrder ↔ frame < replacer.numFrames := by
  constructor
  · intro mem
    obtain ⟨distance, -, rfl⟩ := List.mem_map.mp mem
    exact Nat.mod_lt _ (by omega)
  intro inside
  refine List.mem_map.mpr ⟨(frame + (replacer.numFrames - replacer.clockHand)) %
    replacer.numFrames, List.mem_range.mpr (Nat.mod_lt _ (by omega)), ?_⟩
  have around : replacer.clockHand + (frame + (replacer.numFrames -
      replacer.clockHand)) = frame + replacer.numFrames := by omega
  rw [position, Nat.add_mod_mod, around, Nat.add_mod_right, Nat.mod_eq_of_lt inside]

theorem choice_eq_none_iff {replacer : ClockReplacer}
    (onClock : replacer.clockHand < replacer.numFrames) :
    replacer.choice = none ↔ ∀ frame < replacer.numFrames,
      (replacer.frames frame).isPinned ∨ (replacer.frames frame).isEmpty := by
  rw [choice, Option.or_eq_none_iff, List.find?_eq_none, List.find?_eq_none]
  simp only [mem_clockOrder onClock, FrameState.isClear,
    FrameState.isEvictable, Bool.and_eq_true, Bool.not_eq_true', not_and]
  constructor
  · rintro ⟨-, pinned⟩ frame inside
    have := pinned frame inside
    by_cases isPinned : (replacer.frames frame).isPinned
    · exact .inl isPinned
    · simpa [isPinned] using this
  intro pinned
  constructor
  · intro frame inside
    rcases pinned frame inside with either | either <;> simp [either]
  · intro frame inside
    rcases pinned frame inside with either | either <;> simp [either]

/-- After any calls, the victim is the first clear frame in clock order, or
else the first evictable one, and only frames on the way lose their bits. -/
theorem victim_after (numFrames : Nat) (calls : List Call) :
    let replacer := after numFrames calls
    (replacer.victim.1 = none ↔ ∀ frame < numFrames,
      (replacer.frames frame).isPinned ∨ (replacer.frames frame).isEmpty) ∧
    replacer.victim.1 = replacer.choice ∧
    replacer.victim.2.frames = replacer.outcome ∧
    ∀ frame, replacer.victim.1 = some frame → (replacer.frames frame).isPinned = false := by
  intro replacer
  obtain ⟨size, onClock⟩ : OnClock numFrames replacer := onClock_run numFrames calls ⟨rfl, by
      rcases Nat.eq_zero_or_pos numFrames with empty | some
      · exact .inl empty
      · exact .inr some⟩
  rcases onClock with empty | onClock
  · have nothing : replacer.numFrames = 0 := size.trans empty
    have order : replacer.clockOrder = [] := by simp [clockOrder, around, nothing]
    have choice : replacer.choice = none := by simp [ClockReplacer.choice, order]
    rw [victim, if_pos nothing]
    refine ⟨by simp [empty], choice.symm, ?_, by simp⟩
    funext frame
    simp [outcome, passedFrames, order, choice]
  · obtain ⟨chosen, frames⟩ := victim_outcome onClock
    rw [← size]
    exact ⟨by rw [chosen, choice_eq_none_iff onClock], chosen, frames,
      fun frame found => ((victim_spec replacer).2.2 frame onClock found).2⟩


end ClockReplacer

end KlyroDB

import Mathlib.Logic.Function.Basic
import Mathlib.Order.Basic

/-!
# The clock replacer

`storage/clock_replacer.cpp`: a hand sweeps over the frames at most twice.
-/

namespace KlyroDB

structure FrameState where
  isPinned : Bool := false
  referenceBit : Bool := false
  isEmpty : Bool := true
  deriving DecidableEq, Repr

structure ClockReplacer where
  numFrames : Nat
  clockHand : Nat := 0
  frames : Nat → FrameState := fun _ => {}

namespace ClockReplacer

def update (replacer : ClockReplacer) (frame : Nat)
    (change : FrameState → FrameState) : ClockReplacer :=
  { replacer with
    frames := Function.update replacer.frames frame (change (replacer.frames frame)) }

def advanceHand (replacer : ClockReplacer) : ClockReplacer :=
  { replacer with
    clockHand := (replacer.clockHand + 1) % replacer.numFrames }

def sweep : Nat → ClockReplacer → Option Nat × ClockReplacer
  | 0, replacer => (none, replacer)
  | rounds + 1, replacer =>
      let hand := replacer.clockHand
      let state := replacer.frames hand
      if state.isPinned || state.isEmpty then
        sweep rounds replacer.advanceHand
      else if state.referenceBit then
        sweep rounds
          (replacer.update hand ({ · with referenceBit := false })).advanceHand
      else
        (some hand, (replacer.update hand ({ · with isEmpty := true })).advanceHand)

def victim (replacer : ClockReplacer) : Option Nat × ClockReplacer :=
  if replacer.numFrames = 0 then (none, replacer)
  else sweep (replacer.numFrames * 2) replacer

def pin (replacer : ClockReplacer) (frame : Nat) : ClockReplacer :=
  if replacer.numFrames ≤ frame then replacer
  else replacer.update frame ({ · with isPinned := true, isEmpty := false })

def unpin (replacer : ClockReplacer) (frame : Nat) : ClockReplacer :=
  if replacer.numFrames ≤ frame then replacer
  else replacer.update frame ({ · with isPinned := false, isEmpty := false })

def recordAccess (replacer : ClockReplacer) (frame : Nat) : ClockReplacer :=
  if replacer.numFrames ≤ frame then replacer
  else replacer.update frame ({ · with referenceBit := true })

def SamePins (first second : ClockReplacer) : Prop :=
  first.numFrames = second.numFrames ∧
    ∀ frame, (first.frames frame).isPinned = (second.frames frame).isPinned

theorem samePins_update {replacer : ClockReplacer} {frame : Nat} {change : FrameState → FrameState}
    (keeps : (change (replacer.frames frame)).isPinned = (replacer.frames frame).isPinned) :
    SamePins (replacer.update frame change) replacer := by
  refine ⟨rfl, fun other => ?_⟩
  by_cases same : other = frame
  · subst same
    simp only [update, Function.update_self, keeps]
  · simp only [update, Function.update_of_ne same]

theorem SamePins.trans {first second third : ClockReplacer}
    (left : SamePins first second) (right : SamePins second third) : SamePins first third :=
  ⟨left.1.trans right.1, fun frame => (left.2 frame).trans (right.2 frame)⟩

theorem samePins_advanceHand (replacer : ClockReplacer) : SamePins replacer.advanceHand replacer :=
  ⟨rfl, fun _ => rfl⟩

theorem samePins_sweep (rounds : Nat) (replacer : ClockReplacer) :
    SamePins (sweep rounds replacer).2 replacer := by
  induction rounds generalizing replacer with
  | zero => exact ⟨rfl, fun _ => rfl⟩
  | succ rounds ih =>
    rw [sweep]
    split_ifs with skipped referenced
    · exact (ih _).trans (samePins_advanceHand _)
    · refine ((ih _).trans (samePins_advanceHand _)).trans ?_
      exact samePins_update rfl
    · exact (samePins_advanceHand _).trans (samePins_update rfl)

theorem sweep_some (rounds : Nat) {replacer : ClockReplacer} {frame : Nat}
    (onClock : replacer.clockHand < replacer.numFrames)
    (found : (sweep rounds replacer).1 = some frame) :
    frame < replacer.numFrames ∧ (replacer.frames frame).isPinned = false := by
  induction rounds generalizing replacer with
  | zero => simp [sweep] at found
  | succ rounds ih =>
    have next : (replacer.clockHand + 1) % replacer.numFrames <
        replacer.numFrames := Nat.mod_lt _ (by omega)
    rw [sweep] at found
    split_ifs at found with skipped referenced
    · exact @ih replacer.advanceHand next found
    · have later := @ih (replacer.update replacer.clockHand
        ({ · with referenceBit := false })).advanceHand next found
      have pins := @samePins_update replacer replacer.clockHand
        ({ · with referenceBit := false }) rfl
      exact ⟨later.1, (pins.2 frame).symm.trans later.2⟩
    · cases found
      simp only [Bool.or_eq_true, not_or, Bool.not_eq_true] at skipped
      exact ⟨onClock, skipped.1⟩

theorem clockHand_sweep_lt (rounds : Nat) {replacer : ClockReplacer}
    (onClock : replacer.clockHand < replacer.numFrames) :
    (sweep rounds replacer).2.clockHand < (sweep rounds replacer).2.numFrames := by
  induction rounds generalizing replacer with
  | zero => exact onClock
  | succ rounds ih =>
    have next : (replacer.clockHand + 1) % replacer.numFrames <
        replacer.numFrames := Nat.mod_lt _ (by omega)
    rw [sweep]
    split_ifs with skipped referenced
    · exact @ih replacer.advanceHand next
    · exact @ih (replacer.update replacer.clockHand
        ({ · with referenceBit := false })).advanceHand next
    · exact next

structure PinsAlso (replacer : ClockReplacer) (frame : Nat) (after : ClockReplacer) : Prop where
  numFrames_eq : after.numFrames = replacer.numFrames
  onClock : replacer.clockHand < replacer.numFrames → after.clockHand < after.numFrames
  pinned : frame < replacer.numFrames → (after.frames frame).isPinned = true
  others : ∀ other, other ≠ frame → (after.frames other).isPinned = (replacer.frames other).isPinned

section

variable (replacer : ClockReplacer) (frame : Nat)

include replacer frame

theorem pinsAlso_pin : PinsAlso replacer frame (replacer.pin frame) := by
  unfold pin
  split_ifs with outside
  · exact ⟨rfl, id, fun inside => by omega, fun _ _ => rfl⟩
  · refine ⟨rfl, id, fun _ => ?_, fun other ne => ?_⟩
    · simp only [update, Function.update_self]
    · simp only [update, Function.update_of_ne ne]

theorem recordAccess_spec :
    SamePins (replacer.recordAccess frame) replacer ∧
      (replacer.recordAccess frame).clockHand = replacer.clockHand := by
  unfold recordAccess
  split_ifs with outside
  · exact ⟨⟨rfl, fun _ => rfl⟩, rfl⟩
  · exact ⟨samePins_update rfl, rfl⟩

theorem unpin_spec :
    (replacer.unpin frame).numFrames = replacer.numFrames ∧
      (replacer.unpin frame).clockHand = replacer.clockHand ∧
      ∀ other, other ≠ frame → ((replacer.unpin frame).frames other).isPinned =
        (replacer.frames other).isPinned := by
  unfold unpin
  split_ifs with outside
  · exact ⟨rfl, rfl, fun _ _ => rfl⟩
  · refine ⟨rfl, rfl, fun other ne => ?_⟩
    simp only [update, Function.update_of_ne ne]

end

theorem PinsAlso.of_sweep {replacer swept after : ClockReplacer} {frame : Nat}
    (same : SamePins swept replacer)
    (onClock : replacer.clockHand < replacer.numFrames → swept.clockHand < swept.numFrames)
    (pins : PinsAlso swept frame after) : PinsAlso replacer frame after where
  numFrames_eq := pins.numFrames_eq.trans same.1
  onClock := fun before => pins.onClock (onClock before)
  pinned := fun inside => pins.pinned (by rw [same.1]; exact inside)
  others := fun other ne =>
    (pins.others other ne).trans (same.2 other)

theorem victim_spec (replacer : ClockReplacer) :
    SamePins replacer.victim.2 replacer ∧
      (replacer.clockHand < replacer.numFrames →
        replacer.victim.2.clockHand < replacer.victim.2.numFrames) ∧
      ∀ frame, replacer.clockHand < replacer.numFrames → replacer.victim.1 = some frame →
        frame < replacer.numFrames ∧ (replacer.frames frame).isPinned = false := by
  unfold victim
  split_ifs with none
  · exact ⟨⟨rfl, fun _ => rfl⟩, id, fun frame onClock => by omega⟩
  · exact ⟨samePins_sweep _ _, clockHand_sweep_lt _,
      fun frame onClock found => sweep_some _ onClock found⟩

end ClockReplacer

end KlyroDB

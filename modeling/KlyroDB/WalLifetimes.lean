import KlyroDB.GuardedRuns
import KlyroDB.SegmentContents

/-!
# One log directory, several log managers

Every log manager starts with LSN 1 in segment 1, whatever the directory holds.
-/

namespace KlyroDB

open Function (update_of_ne update_self)
open ByteMemory

namespace WALManager

def destroy (manager : WALManager) : WALDirectory :=
  let flushed := (manager.flush {}).1
  (flushed.segment.close flushed.directory).2

end WALManager

inductive WALLifetimeCall
  | construct (mode : DurabilityMode)
  | append (record : LogRecord)
  | flush
  | destroy
  deriving DecidableEq, Repr

/-- The live manager, if any, the files while there is none, and the records
that were given an LSN in any lifetime. -/
structure WALLifetimes where
  manager : Option WALManager := none
  directory : WALDirectory := ∅
  appended : List LogRecord := []

namespace WALLifetimes

def step (system : WALLifetimes) (call : WALLifetimeCall) : WALLifetimes :=
  match call, system.manager with
  | .construct mode, none =>
      match WALManager.create system.directory mode true with
      | .ok manager => { system with manager := some manager }
      | .error _ => system
  | .append record, some manager =>
      { system with
        manager := some (manager.append record {}).1
        appended := system.appended ++ [{ record with lsn := manager.nextLsn }] }
  | .flush, some manager =>
      { system with manager := some (manager.flush {}).1 }
  | .destroy, some manager =>
      { system with manager := none, directory := manager.destroy }
  | _, _ => system

/-- The record bytes written to the segment with the given identifier. -/
def written (system : WALLifetimes) (id : Nat) : List UInt8 :=
  match system.manager with
  | some manager => manager.recordBytes id
  | none => ((system.directory.lookup id).getD []).drop WALSegment.headerSize

structure IncreasingLsns (records : Nat → List LogRecord) : Prop where
  within : ∀ id, (records id).Pairwise fun first second =>
    first.lsn < second.lsn
  across : ∀ low high, low < high → ∀ early ∈ records low,
    ∀ late ∈ records high, early.lsn < late.lsn

/-- The segments hold appended records with increasing LSNs, and the live
manager is going to assign larger ones. -/
def LsnsIncrease (system : WALLifetimes) : Prop :=
  ∃ records : Nat → List LogRecord, (∀ id, records id ⊆ system.appended) ∧ (∀ id, system.written id
    = (records id).flatMap LogRecord.serialize) ∧ IncreasingLsns records ∧ ∀ manager, system.manager
    = some manager → ∀ id, ∀ record ∈ records id, record.lsn < manager.nextLsn

/-- A manager is constructed only over segments without records. -/
def StartsEmpty (system : WALLifetimes) : WALLifetimeCall → Prop
  | .construct _ => ∀ id, system.written id = []
  | _ => True

/-- A live log: the records of each segment and those in the buffer, all of
them appended ones with LSNs below the bound. -/
structure Filed (manager : WALManager) (records : Nat → List LogRecord)
    (buffered appended : List LogRecord) (bound : Nat) : Prop where
  orderly : manager.Orderly
  writable : manager.segment.Writable
  segments : ∀ id, manager.recordBytes id = (records id).flatMap LogRecord.serialize
  beyond : ∀ id, manager.segmentId < id → records id = []
  flushBuffer : manager.flushBuffer = []
  buffer : manager.buffer = buffered.flatMap LogRecord.serialize
  increasing : IncreasingLsns records
  buffered_increasing : buffered.Pairwise fun first second =>
    first.lsn < second.lsn
  filed_first : ∀ id, ∀ early ∈ records id, ∀ late ∈ buffered, early.lsn < late.lsn
  filed_below : ∀ id, ∀ record ∈ records id, record.lsn < bound
  buffered_below : ∀ record ∈ buffered, record.lsn < bound
  bound_le : bound ≤ manager.nextLsn
  filed_appended : ∀ id, records id ⊆ appended
  buffered_appended : buffered ⊆ appended

variable {records : Nat → List LogRecord} {manager : WALManager}
  {buffered appended : List LogRecord} {bound : Nat}

/-- The records of the buffer join those of the last segment. -/
theorem IncreasingLsns.extend (increasing : IncreasingLsns records) {last : Nat}
    (beyond : ∀ id, last < id → records id = []) {more : List LogRecord}
    (moreIncreasing : more.Pairwise fun first second => first.lsn < second.lsn)
    (filedFirst : ∀ id, ∀ early ∈ records id, ∀ late ∈ more, early.lsn < late.lsn) :
    IncreasingLsns (Function.update records last (records last ++ more)) := by
  constructor
  · intro id
    by_cases same : id = last
    · subst same
      rw [update_self, List.pairwise_append]
      exact ⟨increasing.within id, moreIncreasing, filedFirst id⟩
    · rw [update_of_ne same]
      exact increasing.within id
  intro low high lower early earlyMember late lateMember
  have notLast : low ≠ last := by
    intro same
    subst same
    rw [update_of_ne lower.ne', beyond high lower] at lateMember
    cases lateMember
  rw [update_of_ne notLast] at earlyMember
  by_cases same : high = last
  · subst same
    rw [update_self] at lateMember
    rcases List.mem_append.mp lateMember with old | new
    · exact increasing.across low high lower early earlyMember late old
    · exact filedFirst low early earlyMember late new
  · rw [update_of_ne same] at lateMember
    exact increasing.across low high lower early earlyMember late lateMember

theorem Filed.count (filed : Filed manager records buffered appended bound) (record : LogRecord) :
    Filed { manager with nextLsn := manager.nextLsn + 1 } records buffered
      (appended ++ [record]) manager.nextLsn where
  orderly := ⟨filed.orderly.segment_id, filed.orderly.tidy⟩
  writable := filed.writable
  segments := filed.segments
  beyond := filed.beyond
  flushBuffer := filed.flushBuffer
  buffer := filed.buffer
  increasing := filed.increasing
  buffered_increasing := filed.buffered_increasing
  filed_first := filed.filed_first
  filed_below id record mem := (filed.filed_below id record mem).trans_le filed.bound_le
  buffered_below record mem := (filed.buffered_below record mem).trans_le filed.bound_le
  bound_le := Nat.le_succ _
  filed_appended id := List.Subset.trans (filed.filed_appended id) (List.subset_append_left _ _)
  buffered_appended := List.Subset.trans filed.buffered_appended (List.subset_append_left _ _)

theorem Filed.add {manager : WALManager} {records : Nat → List LogRecord}
    {buffered appended : List LogRecord} {record : LogRecord}
    {buffer : List UInt8}
    (filed : Filed manager records buffered appended record.lsn)
    (counted : record.lsn < manager.nextLsn) (mem : record ∈ appended)
    (fits : LogBuffer.append manager.buffer record = some buffer) :
    Filed { manager with buffer := buffer } records (buffered ++ [record])
      appended (record.lsn + 1) where
  orderly := ⟨filed.orderly.segment_id, filed.orderly.tidy⟩
  writable := filed.writable
  segments := filed.segments
  beyond := filed.beyond
  flushBuffer := filed.flushBuffer
  buffer := by
    rw [LogBuffer.eq_of_append fits, filed.buffer]
    simp
  increasing := filed.increasing
  buffered_increasing := by
    rw [List.pairwise_append]
    refine ⟨filed.buffered_increasing, List.pairwise_singleton _ _, ?_⟩
    intro early mem last isLast
    rw [List.mem_singleton.mp isLast]
    exact filed.buffered_below early mem
  filed_first := by
    intro id early earlyMember late lateMember
    rcases List.mem_append.mp lateMember with old | new
    · exact filed.filed_first id early earlyMember late old
    · rw [List.mem_singleton.mp new]
      exact filed.filed_below id early earlyMember
  filed_below id early mem := (filed.filed_below id early mem).trans (Nat.lt_succ_self _)
  buffered_below := by
    intro early mem
    rcases List.mem_append.mp mem with old | new
    · exact (filed.buffered_below early old).trans (Nat.lt_succ_self _)
    · rw [List.mem_singleton.mp new]
      exact Nat.lt_succ_self _
  bound_le := counted
  filed_appended := filed.filed_appended
  buffered_appended := List.append_subset.mpr ⟨filed.buffered_appended, List.cons_subset.mpr
    ⟨mem, List.nil_subset _⟩⟩

theorem Filed.executeFlush (filed : Filed manager records buffered appended bound) :
    (manager.executeFlush {}).2 = .ok () ∧ (manager.executeFlush {}).1.nextLsn = manager.nextLsn ∧
      ∃ filedRecords, Filed (manager.executeFlush {}).1 filedRecords [] appended bound := by
  unfold WALManager.executeFlush
  by_cases empty : manager.buffer.isEmpty = true
  · rw [if_pos empty]
    have nothing : manager.buffer = [] := List.isEmpty_iff.mp empty
    exact ⟨rfl, rfl, records, { filed with
      buffer := nothing
      buffered_increasing := List.Pairwise.nil
      filed_first := fun _ _ _ late mem => nomatch mem
      buffered_below := fun record mem => nomatch mem
      buffered_appended := List.nil_subset _ }⟩
  rw [if_neg empty]
  have swapped : WALManager.Orderly { manager with
      buffer := manager.flushBuffer, flushBuffer := manager.buffer } :=
    ⟨filed.orderly.segment_id, filed.orderly.tidy⟩
  obtain ⟨rolls, staysWritable⟩ := swapped.rollSegmentIfNeeded true
  obtain ⟨rolled, result, _⟩ := WALManager.rollSegmentIfNeeded_spec
    { manager with buffer := manager.flushBuffer,
                   flushBuffer := manager.buffer }
    filed.orderly.segment_id filed.writable
  rw [result] at rolls staysWritable
  simp only [result]
  have usable := staysWritable rfl filed.writable
  obtain ⟨_, returns, writable, wrote⟩ | ⟨unusable, _⟩ := rolls.orderly.writeFlushBuffer
  · refine ⟨returns, wrote.nextLsn.trans rolls.nextLsn, Function.update records rolled.segmentId
      (records rolled.segmentId ++ buffered), ?_⟩
    have beyond : ∀ id, rolled.segmentId < id → records id = [] :=
      fun id above => filed.beyond id (rolls.later.trans_lt above)
    have segments (id : Nat) : rolled.recordBytes id = (records id).flatMap LogRecord.serialize :=
        (rolls.bytes id).trans (filed.segments id)
    have members : ∀ id, ∀ record ∈ Function.update records rolled.segmentId
        (records rolled.segmentId ++ buffered) id, record ∈ records id ∨ record ∈ buffered := by
      intro id record mem
      by_cases same : id = rolled.segmentId
      · subst same
        rw [update_self] at mem
        exact List.mem_append.mp mem
      · rw [update_of_ne same] at mem
        exact .inl mem
    exact {
      orderly := wrote.orderly
      writable := writable
      segments := by
        intro id
        by_cases same : id = rolled.segmentId
        · subst same
          rw [wrote.here, segments, rolls.flushBuffer, update_self,
            List.flatMap_append, ← filed.buffer]
        · rw [wrote.elsewhere id same, segments, update_of_ne same]
      beyond := by
        intro id above
        rw [wrote.segmentId] at above
        rw [update_of_ne above.ne', beyond id above]
      flushBuffer := wrote.flushBuffer
      buffer := by
        rw [wrote.buffer, rolls.buffer]
        exact filed.flushBuffer
      increasing := filed.increasing.extend beyond filed.buffered_increasing filed.filed_first
      buffered_increasing := List.Pairwise.nil
      filed_first := fun _ _ _ late mem => nomatch mem
      filed_below := by
        intro id record mem
        rcases members id record mem with old | new
        · exact filed.filed_below id record old
        · exact filed.buffered_below record new
      buffered_below := fun record mem => nomatch mem
      bound_le := by
        rw [wrote.nextLsn, rolls.nextLsn]
        exact filed.bound_le
      filed_appended := by
        intro id record mem
        rcases members id record mem with old | new
        · exact filed.filed_appended id old
        · exact filed.buffered_appended new
      buffered_appended := List.nil_subset _ }
  · exact absurd usable unusable

theorem Filed.append (filed : Filed manager records buffered appended bound)
    (record : LogRecord) : ∃ records buffered bound,
      Filed (manager.append record {}).1 records buffered
        (appended ++ [{ record with lsn := manager.nextLsn }]) bound := by
  have counted := filed.count { record with lsn := manager.nextLsn }
  have mem : { record with lsn := manager.nextLsn } ∈
      appended ++ [{ record with lsn := manager.nextLsn }] := by simp
  obtain ⟨returns, sameLsn, filedRecords, flushed⟩ := counted.executeFlush
  unfold WALManager.append
  cases fits : LogBuffer.append manager.buffer { record with lsn := manager.nextLsn } with
  | some buffer =>
    simp only [fits]
    exact ⟨records, _, _, @Filed.add _ _ _ _ { record with lsn := manager.nextLsn } buffer counted
      (Nat.lt_succ_self _) mem fits⟩
  | none =>
    simp only [fits, WALManager.flush]
    split
    · rename_i failed error result
      rw [result] at returns
      cases returns
    rename_i after result
    rw [result] at flushed sameLsn
    split
    · rename_i buffer room
      refine ⟨filedRecords, _, _, @Filed.add _ _ _ _ { record with lsn := manager.nextLsn } buffer
        flushed ?_ mem room⟩
      rw [sameLsn]
      exact Nat.lt_succ_self _
    · exact ⟨filedRecords, [], _, flushed⟩

/-- What holds of the directory between two calls. -/
def Sound (system : WALLifetimes) : Prop :=
  match system.manager with
  | some manager => ∃ records buffered bound, Filed manager records buffered system.appended bound
  | none => WALSegment.AllHeaded system.directory ∧ system.LsnsIncrease

theorem increasingLsns_empty : IncreasingLsns fun _ => [] :=
  ⟨fun _ => List.Pairwise.nil, fun _ _ _ _ mem => nomatch mem⟩

theorem filed_create {directory : WALDirectory} {mode : DurabilityMode}
    (headed : WALSegment.AllHeaded directory) (nothing : ∀ id, ((directory.lookup id).getD []).drop
      WALSegment.headerSize = []) (created : WALManager.create directory mode true = .ok manager)
    (appended : List LogRecord) : Filed manager (fun _ => []) [] appended 1 := by
  obtain ⟨orderly, _, nextLsn, writable, buffer, flushBuffer, bytes⟩ :=
    WALManager.create_orderly headed created
  exact {
    orderly := orderly
    writable := writable
    segments := fun id => (bytes id).trans (nothing id)
    beyond := fun _ _ => rfl
    flushBuffer := flushBuffer
    buffer := buffer
    increasing := increasingLsns_empty
    buffered_increasing := List.Pairwise.nil
    filed_first := fun _ _ mem => nomatch mem
    filed_below := fun _ _ mem => nomatch mem
    buffered_below := fun _ mem => nomatch mem
    bound_le := nextLsn.ge
    filed_appended := fun _ => List.nil_subset _
    buffered_appended := List.nil_subset _ }

theorem Filed.destroy (filed : Filed manager records buffered appended bound) :
    Sound { manager := none, directory := manager.destroy
            appended := appended } := by
  obtain ⟨_, _, filedRecords, flushed⟩ := filed.executeFlush
  have closed := flushed.orderly.tidy.lookup_close
  refine ⟨?_, filedRecords, flushed.filed_appended, ?_, flushed.increasing, ?_⟩
  · intro id
    change ((WALSegment.close _ _).2.lookup id).getD [] = [] ∨
      WALSegment.Headed (((WALSegment.close _ _).2.lookup id).getD [])
    unfold WALManager.flush
    rw [closed]
    exact flushed.orderly.tidy.headed id
  · intro id
    rw [← flushed.segments]
    exact congrArg (List.drop _) (closed id)
  · intro other found
    cases found

theorem Sound.step {system : WALLifetimes} (sound : system.Sound)
    (call : WALLifetimeCall) (startsEmpty : system.StartsEmpty call) :
    (system.step call).Sound := by
  obtain ⟨manager, directory, appended⟩ := system
  cases manager with
  | none =>
    cases call with
    | construct mode =>
      simp only [WALLifetimes.step]
      split
      · rename_i manager created
        exact ⟨_, [], 1, filed_create sound.1 startsEmpty created _⟩
      · exact sound
    | append record | flush | destroy => exact sound
  | some manager =>
    obtain ⟨records, buffered, bound, filed⟩ := sound
    cases call with
    | construct mode => exact ⟨records, buffered, bound, filed⟩
    | append record => exact filed.append record
    | flush =>
      obtain ⟨_, _, filedRecords, flushed⟩ := filed.executeFlush
      exact ⟨filedRecords, [], bound, flushed⟩
    | destroy => exact filed.destroy

theorem Sound.lsnsIncrease {system : WALLifetimes} (sound : system.Sound) :
    system.LsnsIncrease := by
  obtain ⟨manager, directory, appended⟩ := system
  cases manager with
  | none => exact sound.2
  | some manager =>
    obtain ⟨records, buffered, bound, filed⟩ := sound
    refine ⟨records, filed.filed_appended, filed.segments, filed.increasing, ?_⟩
    intro other same id record mem
    cases same
    exact (filed.filed_below id record mem).trans_le filed.bound_le

theorem sound_initial : Sound {} :=
  ⟨fun _ => .inl rfl, fun _ => [], fun _ => List.nil_subset _, fun _ => rfl,
    increasingLsns_empty, fun _ found => nomatch found⟩

/-- In every sequence of lifetimes whose managers are constructed over
segments without records, the LSNs increase over the whole directory. -/
theorem lsns_increase (calls : List WALLifetimeCall)
    (startsEmpty : GuardedRuns.Along step StartsEmpty {} calls) :
    (GuardedRuns.run step {} calls).LsnsIncrease :=
  Sound.lsnsIncrease (startsEmpty.run_invariant
    (fun _ call sound empty => sound.step call empty) sound_initial)

/-- A lifetime without records, then one with two of them. -/
theorem lsns_increase_second_lifetime :
    (GuardedRuns.run step {} [.construct .normal, .destroy,
      .construct .normal, .append {}, .flush, .append {}, .flush, .destroy]).LsnsIncrease := by
  refine lsns_increase _ ⟨fun id => ?_, trivial, fun id => ?_, trivial,
    trivial, trivial, trivial, trivial, trivial⟩
  · rfl
  by_cases one : id = 1
  · subst one
    decide +kernel
  have files : (step (step {} (.construct .normal)) .destroy).directory =
      (AList.insert 1 [] ∅ : WALDirectory).insert 1 (WALSegment.headerBytes 1 1) := rfl
  change ((AList.lookup id (step (step {} (.construct .normal))
    .destroy).directory).getD []).drop _ = []
  rw [files, AList.lookup_insert_ne one, AList.lookup_insert_ne one]
  rfl

theorem length_le_one_of_same_lsn {records : List LogRecord} {lsn : Nat}
    (increasing : records.Pairwise fun first second => first.lsn < second.lsn)
    (same : ∀ record ∈ records, record.lsn = lsn) : records.length ≤ 1 := by
  match records, increasing with
  | [], _ => exact Nat.zero_le 1
  | [_], _ => exact le_refl 1
  | first :: second :: _, increasing =>
    have smaller := List.rel_of_pairwise_cons increasing (List.mem_cons_self (a := second))
    rw [same first (by simp), same second (by simp)] at smaller
    exact absurd smaller (lt_irrefl lsn)

/-- A record in each of two lifetimes: both get the LSN 1. -/
theorem lsns_repeat_after_restart :
    ¬ (GuardedRuns.run step {} [.construct .normal, .append {}, .destroy,
      .construct .normal, .append {}, .flush]).LsnsIncrease := by
  rintro ⟨records, members, segments, increasing, _⟩
  have appended : (GuardedRuns.run step {} [.construct .normal, .append {}, .destroy, .construct
      .normal, .append {}, .flush]).appended = [{ lsn := 1 }, { lsn := 1 }] := by decide +kernel
  have same : ∀ record ∈ records 1, record = ({ lsn := 1 } : LogRecord) := by
    intro record member
    have found := members 1 member
    rw [appended] at found
    simpa using found
  have short := length_le_one_of_same_lsn (increasing.within 1)
    (fun record member => congrArg LogRecord.lsn (same record member))
  have bytes : ((records 1).flatMap LogRecord.serialize).length = 82 := by
    rw [← segments 1]
    decide +kernel
  rw [List.eq_replicate_of_mem same] at bytes
  rcases Nat.le_one_iff_eq_zero_or_eq_one.mp short with none | one
  · rw [none] at bytes
    exact absurd bytes (by decide +kernel)
  · rw [one] at bytes
    exact absurd bytes (by decide +kernel)

end WALLifetimes

end KlyroDB

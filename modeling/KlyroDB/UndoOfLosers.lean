import KlyroDB.RecoveryManager
import Mathlib.Algebra.BigOperators.Group.List.Basic
import Mathlib.Data.List.Induction

/-!
# What undo restores

The transaction table keeps the first LSN of a transaction as the one to undo
next, so `phase_undo` starts at the first record of each loser and stops there.
-/

namespace KlyroDB

open ByteMemory

namespace LogRecord

def isTracked (record : LogRecord) : Bool :=
  match record.type with
  | .txnBegin | .txnCommit | .txnAbort | .txnEnd => true
  | _ => record.isPhysical

/-- The update writes this byte of this page. -/
def Covers (record : LogRecord) (pageId index : Nat) : Prop :=
  record.type = .update ∧ record.pageId = pageId ∧
    record.offset ≤ index ∧ index < record.offset + record.length

instance (record : LogRecord) (pageId index : Nat) : Decidable (record.Covers pageId index) := by
  unfold Covers
  infer_instance

/-- What the before image holds for a byte of the page. -/
def beforeByte (record : LogRecord) (index : Nat) : Option UInt8 :=
  record.firstImage[index - record.offset]?

theorem isTracked_of_covers {record : LogRecord} {pageId index : Nat}
    (covers : record.Covers pageId index) : record.isTracked = true := by
  simp [isTracked, isPhysical, covers.1]

end LogRecord

namespace RecoveryManager

def lastOf (log : List LogRecord) (txnId : Nat) : Option LogRecord :=
  (log.filter fun record => record.txnId == txnId).getLast?

/-- A log as transactions write it: LSNs are valid and increase, the records
of each transaction are chained by `prev_lsn`, records outside transactions
change nothing, and updates carry both images. -/
structure WellFormedLog (log : List LogRecord) : Prop where
  increasing : log.Pairwise fun earlier later => earlier.lsn < later.lsn
  valid : ∀ record ∈ log, record.lsn ≠ LSN.invalid
  chained : ∀ before record after, log = before ++ record :: after → record.txnId ≠
    invalidTransactionID → record.prevLsn = ((lastOf before record.txnId).map LogRecord.lsn).getD
    LSN.invalid
  inTransaction : ∀ record ∈ log, record.isTracked = true → record.txnId ≠ invalidTransactionID
  images : ∀ record ∈ log, record.type = .update → record.payload.length = 8 + 2 * record.length ∧
    record.payload.length < 2 ^ 32

theorem lastOf_append_singleton (log : List LogRecord) (record : LogRecord) (txnId : Nat) :
    lastOf (log ++ [record]) txnId =
      if record.txnId = txnId then some record else lastOf log txnId := by
  unfold lastOf
  by_cases same : record.txnId = txnId
  · simp [List.filter_append, same]
  · simp [List.filter_append, same]

variable {log : List LogRecord} {txnId target pageId index : Nat}
  {record : LogRecord} {queue : List Nat}

theorem mem_of_lastOf (last : lastOf log txnId = some record) :
    record ∈ log ∧ record.txnId = txnId := by
  have mem := List.mem_of_getLast? last
  simpa using List.mem_filter.mp mem

theorem recordAt_eq_some (found : recordAt log target = some record) :
    record ∈ log ∧ record.lsn = target := by
  unfold recordAt at found
  split at found
  · rename_i first rest sought
    split_ifs at found with exactly
    · cases found
      refine ⟨?_, exactly⟩
      unfold seekToLsn at sought
      split at sought
      · cases sought
      · have rest := Option.some.inj sought
        apply (List.dropWhile_sublist _).mem
        rw [rest]
        exact List.mem_cons_self
  · cases found

theorem recordAt_lsn (increasing : log.Pairwise fun earlier later => earlier.lsn < later.lsn)
    (mem : record ∈ log) : recordAt log record.lsn = some record := by
  obtain ⟨before, after, rfl⟩ := List.append_of_mem mem
  have earlier : ∀ other ∈ before, other.lsn < record.lsn := by
    intro other early
    exact (List.pairwise_append.mp increasing).2.2 other early record List.mem_cons_self
  have dropped : (before ++ record :: after).dropWhile
      (fun other => decide (other.lsn < record.lsn)) = record :: after := by
    rw [List.dropWhile_append_of_pos (by simpa using earlier)]
    simp
  unfold recordAt seekToLsn
  rw [dropped]
  simp

def nextToUndo (entry : Option TransactionTableEntry) (lsn : Nat) : Nat :=
  let undoNextLsn :=
    (entry.map TransactionTableEntry.undoNextLsn).getD LSN.invalid
  if LSN.isValid undoNextLsn then undoNextLsn else lsn

theorem nextToUndo_none (lsn : Nat) : nextToUndo none lsn = lsn := by
  simp [nextToUndo, LSN.isValid, LSN.invalid]

theorem nextToUndo_some {entry : TransactionTableEntry}
    (valid : entry.undoNextLsn ≠ LSN.invalid) (lsn : Nat) :
    nextToUndo (some entry) lsn = entry.undoNextLsn := by
  simp [nextToUndo, (LSN.isValid_iff _).mpr valid]

theorem lookup_analyze_of_ne (tables : Tables) (other : txnId ≠ record.txnId) :
    (analyze tables record).txnTable.lookup txnId = tables.txnTable.lookup txnId := by
  unfold analyze
  split
  all_goals first
    | exact AList.lookup_insert_ne other
    | exact AList.lookup_erase_ne other
    | rfl

theorem analyze_of_not_isTracked (tables : Tables) (untracked : record.isTracked = false) :
    analyze tables record = tables := by
  unfold LogRecord.isTracked LogRecord.isPhysical at untracked
  unfold analyze
  cases kind : record.type <;> simp_all

theorem lookup_analyze_txnEnd (tables : Tables) (ends : record.type = .txnEnd) :
    (analyze tables record).txnTable.lookup record.txnId = none := by simp [analyze, ends]

theorem lookup_analyze_tracked (tables : Tables)
    (tracked : record.isTracked = true) (goesOn : record.type ≠ .txnEnd) :
    ∃ entry, (analyze tables record).txnTable.lookup record.txnId = some entry ∧
      entry.undoNextLsn = nextToUndo (tables.txnTable.lookup record.txnId) record.lsn ∧
      (entry.state = .committed ↔ record.type = .txnCommit) ∧ entry.lastLsn = record.lsn := by
  unfold LogRecord.isTracked LogRecord.isPhysical at tracked
  unfold analyze
  cases kind : record.type with
  | txnBegin | txnCommit | txnAbort | insert | update | delete | clr =>
    refine ⟨_, AList.lookup_insert _, rfl, ?_, rfl⟩
    simp
  | txnEnd => exact absurd kind goesOn
  | invalid | checkpointBegin | checkpointEnd | pageAllocate | pageFree | other =>
      simp [kind] at tracked

def StartsUndo (log : List LogRecord) (txnId : Nat) (start : LogRecord) : Prop :=
  ∃ before after, log = before ++ start :: after ∧ start.txnId = txnId ∧ start.isTracked = true ∧ ∀
    last, lastOf before txnId = some last → last.type ≠ .update

def scan (log : List LogRecord) : RecoveryTransactionTable :=
  (log.foldl analyze {}).txnTable

theorem scan_append_singleton (log : List LogRecord) (record : LogRecord) :
    scan (log ++ [record]) = (analyze (log.foldl analyze {}) record).txnTable := by simp [scan]

theorem startsUndo_append {start : LogRecord}
    (starts : StartsUndo log txnId start) (more : List LogRecord) :
    StartsUndo (log ++ more) txnId start := by
  obtain ⟨before, after, rfl, rest⟩ := starts
  exact ⟨before, after ++ more, by simp, rest⟩

/-- Every entry of the table points to where undo of its transaction starts,
and a transaction without an entry does not end in an update. -/
theorem scan_spec (log : List LogRecord)
    (valid : ∀ record ∈ log, record.lsn ≠ LSN.invalid) (txnId : Nat) :
    (∀ entry, (scan log).lookup txnId = some entry →
      ∃ start, StartsUndo log txnId start ∧ entry.undoNextLsn = start.lsn) ∧
    ((scan log).lookup txnId = none →
      ∀ last, lastOf log txnId = some last → last.type ≠ .update) := by
  induction log using List.reverseRecOn with
  | nil => simp [scan, lastOf]
  | append_singleton log record ih =>
    have earlier : ∀ other ∈ log, other.lsn ≠ LSN.invalid :=
      fun other mem => valid other (List.mem_append_left _ mem)
    obtain ⟨entries, absent⟩ := ih earlier
    rw [scan_append_singleton, lastOf_append_singleton]
    by_cases own : record.txnId = txnId
    case neg =>
      rw [lookup_analyze_of_ne _ (Ne.symm own), if_neg own]
      refine ⟨?_, absent⟩
      intro entry found
      obtain ⟨start, starts, same⟩ := entries entry found
      exact ⟨start, startsUndo_append starts [record], same⟩
    case pos =>
      subst own
      rw [if_pos rfl]
      cases tracked : record.isTracked with
      | false =>
        rw [analyze_of_not_isTracked _ tracked]
        constructor
        · intro entry found
          obtain ⟨start, starts, same⟩ := entries entry found
          exact ⟨start, startsUndo_append starts [record], same⟩
        · rintro - last same isUpdate
          cases same
          simp [LogRecord.isTracked, LogRecord.isPhysical, isUpdate] at tracked
      | true =>
        by_cases ends : record.type = .txnEnd
        · rw [lookup_analyze_txnEnd _ ends]
          constructor
          · intro entry found
            cases found
          · rintro - last same isUpdate
            cases same
            simp [ends] at isUpdate
        obtain ⟨entry, found, next, -⟩ := lookup_analyze_tracked (log.foldl analyze {}) tracked ends
        rw [found]
        constructor
        · intro other same
          cases same
          cases previous : (scan log).lookup record.txnId with
          | none =>
            refine ⟨record, ⟨log, [], rfl, rfl, tracked, absent previous⟩, ?_⟩
            rw [next]
            exact (congrArg (nextToUndo · record.lsn) previous).trans (nextToUndo_none record.lsn)
          | some old =>
            obtain ⟨start, starts, undoNext⟩ := entries old previous
            refine ⟨start, startsUndo_append starts [record], ?_⟩
            have oldValid : old.undoNextLsn ≠ LSN.invalid := by
              obtain ⟨before, after, split, _⟩ := starts
              rw [undoNext]
              apply earlier
              simp [split]
            rw [next, ← undoNext]
            exact (congrArg (nextToUndo · record.lsn) previous).trans
              (nextToUndo_some oldValid record.lsn)
        · intro none
          cases none

/-- A transaction without commit and end records that has any record in the
table is a loser, and undo of it starts at its first such record. -/
theorem scan_loser (valid : ∀ record ∈ log, record.lsn ≠ LSN.invalid)
    (unfinished : ∀ record ∈ log, record.txnId = txnId →
      record.type ≠ .txnCommit ∧ record.type ≠ .txnEnd) :
    match log.find? fun record => record.txnId == txnId && record.isTracked with
    | none => (scan log).lookup txnId = none
    | some first => ∃ entry, (scan log).lookup txnId = some entry ∧
        entry.undoNextLsn = first.lsn ∧ entry.state ≠ .committed := by
  induction log using List.reverseRecOn with
  | nil => simp [scan]
  | append_singleton log record ih =>
    have earlier := ih (fun other mem => valid other (List.mem_append_left _ mem)) (fun other
      mem => unfinished other (List.mem_append_left _ mem))
    have last := unfinished record (by simp)
    rw [scan_append_singleton, List.find?_append]
    by_cases own : record.txnId = txnId
    case neg =>
      rw [lookup_analyze_of_ne _ (Ne.symm own)]
      simpa [own, scan] using earlier
    case pos =>
      subst own
      cases tracked : record.isTracked with
      | false =>
        rw [analyze_of_not_isTracked _ tracked]
        simpa [tracked, scan] using earlier
      | true =>
        obtain ⟨entry, found, next, committed, -⟩ := lookup_analyze_tracked (log.foldl analyze {})
          tracked (last rfl).2
        have unsettled : entry.state ≠ .committed := fun same => (last rfl).1 (committed.mp same)
        cases first : log.find? fun other =>
            other.txnId == record.txnId && other.isTracked with
        | none =>
          rw [first] at earlier
          simp only [tracked, List.find?_cons, beq_self_eq_true, Bool.and_self, Option.none_or]
          refine ⟨entry, found, ?_, unsettled⟩
          rw [next]
          exact (congrArg (nextToUndo · record.lsn) earlier).trans (nextToUndo_none record.lsn)
        | some start =>
          rw [first] at earlier
          obtain ⟨old, previous, undoNext, _⟩ := earlier
          simp only [Option.some_or]
          refine ⟨entry, found, ?_, unsettled⟩
          have startValid : old.undoNextLsn ≠ LSN.invalid := by
            rw [undoNext]
            exact valid start (List.mem_append_left _ (List.mem_of_find?_eq_some first))
          rw [next, ← undoNext]
          exact (congrArg (nextToUndo · record.lsn) previous).trans
            (nextToUndo_some startValid record.lsn)

theorem prevLsn_lt (wellFormed : WellFormedLog log) (mem : record ∈ log)
    (tracked : record.isTracked = true) : record.prevLsn < record.lsn := by
  obtain ⟨before, after, split⟩ := List.append_of_mem mem
  have chained := wellFormed.chained before record after split
    (wellFormed.inTransaction record mem tracked)
  rw [chained]
  cases last : lastOf before record.txnId with
  | none => exact Nat.pos_of_ne_zero (wellFormed.valid record mem)
  | some previous =>
    have increasing := wellFormed.increasing
    rw [split] at increasing
    exact (List.pairwise_append.mp increasing).2.2 previous
      (mem_of_lastOf last).1 record List.mem_cons_self

def weight (queue : List Nat) : Nat := (queue.map (· + 1)).sum

theorem weight_erase (mem : target ∈ queue) :
    target + 1 + weight (queue.erase target) = weight queue :=
  List.sum_map_erase (· + 1) mem

section

variable (backward : ∀ record ∈ log, record.type = .update → record.prevLsn < record.lsn)

include backward

/-- A turn adds at most one target, and a smaller one. -/
theorem queue_undoTarget (queue : List Nat) (state : UndoState) :
    (undoTarget log target queue state).1 = queue ∨
      ∃ earlier < target, (undoTarget log target queue state).1 = earlier :: queue := by
  unfold undoTarget
  cases found : recordAt log target with
  | none => exact Or.inl rfl
  | some record =>
    obtain ⟨inLog, lsn⟩ := recordAt_eq_some found
    dsimp only
    split_ifs with isUpdate valid
    · exact Or.inr ⟨_, lsn ▸ backward record inLog isUpdate, rfl⟩
    · exact Or.inl rfl
    · exact Or.inl rfl

theorem weight_undoTarget (mem : target ∈ queue) (state : UndoState) :
    weight (undoTarget log target (queue.erase target) state).1 < weight queue := by
  have popped := weight_erase mem
  rcases queue_undoTarget backward (queue.erase target) state with same | ⟨earlier, below, added⟩
  · rw [same]
    omega
  · rw [added]
    simp only [weight, List.map_cons, List.sum_cons] at popped ⊢
    omega

/-- The rule for the loop of undo: an invariant that one turn keeps holds
when the loop ends, and the loop ends. -/
theorem undoLoop_rule {inv : List Nat → UndoState → Prop}
    (turn : ∀ queue target state, target ∈ queue → inv queue state →
      inv (undoTarget log target (queue.erase target) state).1
        (undoTarget log target (queue.erase target) state).2) (queue : List Nat) (state : UndoState)
    (start : inv queue state) :
    ∃ targets result, (∀ fuel, weight queue ≤ fuel →
        undoLoop log fuel queue state = some (targets, result)) ∧ inv [] result := by
  induction left : weight queue using Nat.strong_induction_on generalizing queue state with
  | _ bound ih =>
    subst left
    cases largest : queue.max? with
    | none =>
      have empty : queue = [] := List.max?_eq_none_iff.mp largest
      subst empty
      refine ⟨[], state, ?_, start⟩
      intro fuel _
      unfold undoLoop
      rfl
    | some target =>
      have mem := List.max?_mem largest
      have lighter := weight_undoTarget backward mem state
      obtain ⟨targets, result, ends, final⟩ :=
        ih _ lighter _ _ (turn queue target state mem start) rfl
      refine ⟨target :: targets, result, ?_, final⟩
      intro fuel enough
      cases fuel with
      | zero => omega
      | succ fuel =>
        unfold undoLoop
        rw [largest]
        simp only [ends fuel (by omega), Option.map_some]

/-- The loop takes the targets in non-increasing order, none above those it
starts with. -/
theorem undoLoop_sorted {fuel : Nat} {queue targets : List Nat} {state result : UndoState}
    (ends : undoLoop log fuel queue state = some (targets, result)) :
    targets.Pairwise (· ≥ ·) ∧
      ∀ bound, (∀ target ∈ queue, target ≤ bound) → ∀ target ∈ targets, target ≤ bound := by
  induction fuel generalizing queue targets state with
  | zero =>
    unfold undoLoop at ends
    cases largest : queue.max? with
    | none =>
      simp only [largest, Option.some.injEq, Prod.mk.injEq] at ends
      simp [← ends.1]
    | some target => simp [largest] at ends
  | succ fuel ih =>
    unfold undoLoop at ends
    cases largest : queue.max? with
    | none =>
      simp only [largest, Option.some.injEq, Prod.mk.injEq] at ends
      simp [← ends.1]
    | some target =>
      simp only [largest, Option.map_eq_some_iff, Prod.mk.injEq] at ends
      obtain ⟨⟨others, last⟩, rest, rfl, rfl⟩ := ends
      obtain ⟨mem, upper⟩ := List.max?_eq_some_iff.mp largest
      obtain ⟨sorted, bounded⟩ := ih rest
      have left (other : Nat) (kept : other ∈ queue.erase target) : other ≤ target :=
        upper other (List.mem_of_mem_erase kept)
      have later := bounded target (by
        rcases queue_undoTarget backward (queue.erase target) state with same | ⟨_, below, added⟩
        · rwa [same]
        · rw [added]
          exact List.forall_mem_cons.mpr ⟨below.le, left⟩)
      refine ⟨List.pairwise_cons.mpr ⟨later, sorted⟩, fun bound all => ?_⟩
      exact List.forall_mem_cons.mpr
        ⟨all target mem, fun other there => (later other there).trans (all target mem)⟩

end

/-- When records link to earlier ones, undo ends for every table of
transactions, and its loop takes the LSNs in non-increasing order. -/
theorem phaseUndo_ends (log : List LogRecord)
    (backward : ∀ record ∈ log, record.prevLsn < record.lsn) (table : RecoveryTransactionTable)
    (state : UndoState) :
    ∃ targets undone fuel, targets.Pairwise (· ≥ ·) ∧
      ∀ more, fuel ≤ more →
        undoLoop log more (undoQueue table) state = some (targets, undone) ∧
        phaseUndo more log table state = some (appendEnds table.getLosers undone) := by
  have updates : ∀ record ∈ log, record.type = .update → record.prevLsn < record.lsn :=
    fun record mem _ => backward record mem
  obtain ⟨targets, undone, ends, -⟩ := @undoLoop_rule _ updates (fun _ _ => True)
    (fun _ _ _ _ _ => trivial) (undoQueue table) state trivial
  have sorted := (undoLoop_sorted updates (ends _ (le_refl _))).1
  refine ⟨targets, undone, weight (undoQueue table), sorted, ?_⟩
  intro more enough
  simp [phaseUndo, ends more enough]

theorem phaseUndo_ends_update :
    ∃ targets undone fuel, targets.Pairwise (· ≥ ·) ∧
      ∀ more, fuel ≤ more →
        undoLoop [⟨2, 1, 1, 0, .update, []⟩] more
          (undoQueue ((∅ : RecoveryTransactionTable).update 1 .active 2))
          ⟨fun _ => none, 3, []⟩ = some (targets, undone) ∧
        phaseUndo more [⟨2, 1, 1, 0, .update, []⟩]
          ((∅ : RecoveryTransactionTable).update 1 .active 2) ⟨fun _ => none, 3, []⟩ =
          some (appendEnds
            ((∅ : RecoveryTransactionTable).update 1 .active 2).getLosers undone) :=
  phaseUndo_ends [⟨2, 1, 1, 0, .update, []⟩] (by decide) _ ⟨fun _ => none, 3, []⟩

/-- One byte of a page, if the page and the byte exist. -/
def readByte (pages : PageStore) (pageId index : Nat) : Option UInt8 :=
  (pages pageId).bind fun page => page.data[index]?

theorem length_firstImage (images : record.payload.length = 8 + 2 * record.length) :
    record.firstImage.length = record.length :=
  length_slice (by omega)

theorem exists_beforeByte (images : record.payload.length = 8 + 2 * record.length)
    (covers : record.Covers pageId index) : ∃ byte, record.beforeByte index = some byte := by
  obtain ⟨_, _, after, before⟩ := covers
  have inside : index - record.offset < record.firstImage.length := by
    rw [length_firstImage images]
    omega
  exact ⟨_, List.getElem?_eq_getElem inside⟩

section

variable {state : UndoState} (isUpdate : record.type = .update)
  (images : record.payload.length = 8 + 2 * record.length ∧ record.payload.length < 2 ^ 32)

include isUpdate images

theorem pages_undoRecord : (undoRecord state record).pages =
      Function.update state.pages record.pageId ((state.pages record.pageId).map fun page =>
          (page.poke record.offset record.firstImage).setLsn state.nextLsn) := by
  have size : record.getPayloadSize = 8 + 2 * record.length := by
    rw [LogRecord.getPayloadSize, Nat.mod_eq_of_lt images.2, images.1]
  unfold undoRecord
  rw [if_neg (by omega)]
  cases found : state.pages record.pageId with
  | none => exact (Function.update_eq_self_iff.mpr found.symm).symm
  | some page =>
    simp only [isUpdate, ne_eq, not_true_eq_false, if_false]
    rw [if_neg (by omega)]
    rfl

variable (outside : index < 12 ∨ 20 ≤ index)

include outside

omit isUpdate images in
theorem getElem?_setLsn (page : PageImage) (lsn : Nat) :
    (page.setLsn lsn).data[index]? = page.data[index]? := by
  rw [PageImage.data_setLsn]
  apply getElem?_poke_outside
  rw [length_leBytes]
  omega

theorem readByte_undoRecord_of_not_covers (apart : ¬ record.Covers pageId index) :
    readByte (undoRecord state record).pages pageId index = readByte state.pages pageId index := by
  rw [pages_undoRecord isUpdate images]
  unfold readByte
  by_cases same : pageId = record.pageId
  · subst same
    rw [Function.update_self]
    cases state.pages record.pageId with
    | none => rfl
    | some page =>
      simp only [Option.map_some, Option.bind_some]
      rw [getElem?_setLsn outside]
      apply getElem?_poke_outside
      rw [length_firstImage images.1]
      have range : ¬ (record.offset ≤ index ∧ index < record.offset + record.length) := fun within
          => apart ⟨isUpdate, rfl, within⟩
      omega
  · rw [Function.update_of_ne same]

theorem readByte_undoRecord_of_covers (covers : record.Covers pageId index)
    (present : (readByte state.pages pageId index).isSome = true) :
    readByte (undoRecord state record).pages pageId index = record.beforeByte index := by
  obtain ⟨-, rfl, after, before⟩ := covers
  rw [pages_undoRecord isUpdate images]
  unfold readByte at present ⊢
  rw [Function.update_self]
  cases found : state.pages record.pageId with
  | none => simp [found] at present
  | some page =>
    have inside : index < page.data.length := by simpa [found] using present
    simp only [Option.map_some, Option.bind_some]
    rw [getElem?_setLsn outside]
    exact getElem?_poke_inside after (by rw [length_firstImage images.1]; exact before) inside

end

def GoodTarget (log : List LogRecord) (target : Nat) : Prop :=
  (∃ txnId entry, (scan log).lookup txnId = some entry ∧ entry.undoNextLsn = target) ∨
  ∀ record, recordAt log target = some record → record.type ≠ .update

/-- An update that undo reaches is where the undo of its transaction starts,
and its predecessor is a good target again. -/
theorem reached_update (wellFormed : WellFormedLog log)
    (good : GoodTarget log target) (found : recordAt log target = some record)
    (isUpdate : record.type = .update) :
    (∃ entry, (scan log).lookup record.txnId = some entry ∧ entry.undoNextLsn = record.lsn) ∧
    (LSN.isValid record.prevLsn = true → GoodTarget log record.prevLsn) := by
  rcases good with ⟨txnId, entry, lookup, undoNext⟩ | noUpdate
  · obtain ⟨start, ⟨before, after, split, own, tracked, fresh⟩, startLsn⟩ :=
      (scan_spec log wellFormed.valid txnId).1 entry lookup
    have startInLog : start ∈ log := by
      rw [split]
      simp
    have same : record = start := by
      have atStart := recordAt_lsn wellFormed.increasing startInLog
      rw [← startLsn, undoNext, found] at atStart
      exact Option.some.inj atStart
    subst same
    subst own
    refine ⟨⟨entry, lookup, startLsn⟩, ?_⟩
    intro valid
    right
    intro previous previousFound
    have chained := wellFormed.chained before record after split
      (wellFormed.inTransaction record startInLog tracked)
    cases last : lastOf before record.txnId with
    | none =>
      rw [last] at chained
      rw [chained, LSN.isValid_iff] at valid
      exact absurd rfl valid
    | some earlier =>
      rw [last] at chained
      have inLog : earlier ∈ log := by
        rw [split]
        exact List.mem_append_left _ (mem_of_lastOf last).1
      have atEarlier := recordAt_lsn wellFormed.increasing inLog
      have lsn : record.prevLsn = earlier.lsn := chained
      rw [← lsn, previousFound] at atEarlier
      rw [Option.some.inj atEarlier]
      exact fresh earlier last
  · exact absurd isUpdate (noUpdate record found)

/-- The first record that enters the transaction in the table. -/
def firstTracked (log : List LogRecord) (txnId : Nat) : Option LogRecord :=
  log.find? fun record => record.txnId == txnId && record.isTracked

def undoneByte (log : List LogRecord) (txnId pageId index : Nat)
    (original : Option UInt8) : Option UInt8 :=
  match firstTracked log txnId with
  | none => original
  | some first => if first.Covers pageId index then first.beforeByte index else original

/-- The byte holds its final value, or its original one while the target that
will change it is still in the queue. -/
structure ByteInvariant (log : List LogRecord) (txnId pageId index : Nat) (original : Option UInt8)
    (queue : List Nat) (state : UndoState) : Prop where
  targets : ∀ target ∈ queue, GoodTarget log target
  present : (readByte state.pages pageId index).isSome = true
  byte : readByte state.pages pageId index = undoneByte log txnId pageId index original ∨ (readByte
      state.pages pageId index = original ∧ ∀ first, firstTracked log txnId = some first → first.lsn
      ∈ queue)

theorem mem_of_firstTracked {first : LogRecord}
    (found : firstTracked log txnId = some first) : first ∈ log :=
  List.mem_of_find?_eq_some found

theorem byte_of_untouched {original : Option UInt8} {rest : List Nat}
    {before after : Option UInt8} (unchanged : after = before)
    (kept : ∀ other ∈ queue, other ≠ target → other ∈ rest)
    (irrelevant : ∀ first, firstTracked log txnId = some first →
      first.lsn = target → ¬ first.Covers pageId index)
    (byte : before = undoneByte log txnId pageId index original ∨
      (before = original ∧ ∀ first, firstTracked log txnId = some first →
        first.lsn ∈ queue)) :
    after = undoneByte log txnId pageId index original ∨
      (after = original ∧ ∀ first, firstTracked log txnId = some first → first.lsn ∈ rest) := by
  subst unchanged
  rcases byte with final | ⟨same, waiting⟩
  · exact Or.inl final
  cases found : firstTracked log txnId with
  | none =>
    left
    simpa [undoneByte, found] using same
  | some first =>
    by_cases popped : first.lsn = target
    · left
      have apart := irrelevant first found popped
      simpa [undoneByte, found, apart] using same
    right
    refine ⟨same, ?_⟩
    intro other otherFirst
    cases otherFirst
    exact kept first.lsn (waiting first found) popped

theorem byteInvariant_turn (wellFormed : WellFormedLog log)
    (unfinished : ∀ record ∈ log, record.txnId = txnId →
      record.type ≠ .txnCommit ∧ record.type ≠ .txnEnd) (outside : index < 12 ∨ 20 ≤ index)
    (only : ∀ record ∈ log, record.Covers pageId index →
      record.txnId = txnId) {original : Option UInt8} (queue : List Nat)
    (target : Nat) (state : UndoState) (mem : target ∈ queue)
    (inv : ByteInvariant log txnId pageId index original queue state) :
    ByteInvariant log txnId pageId index original
      (undoTarget log target (queue.erase target) state).1
      (undoTarget log target (queue.erase target) state).2 := by
  have keptTargets : ∀ other ∈ queue.erase target, GoodTarget log other :=
    fun other inRest => inv.targets other (List.mem_of_mem_erase inRest)
  have keptMembers : ∀ other ∈ queue, other ≠ target → other ∈ queue.erase target := fun other
      inQueue ne =>
      (List.mem_erase_of_ne ne).mpr inQueue
  have atFirst (first : LogRecord) (found : firstTracked log txnId = some first)
      (popped : first.lsn = target) : recordAt log target = some first := by
    rw [← popped]
    exact recordAt_lsn wellFormed.increasing (mem_of_firstTracked found)
  unfold undoTarget
  cases found : recordAt log target with
  | none =>
    refine ⟨keptTargets, inv.present, ?_⟩
    apply byte_of_untouched rfl keptMembers ?_ inv.byte
    intro first firstFound popped
    rw [atFirst first firstFound popped] at found
    cases found
  | some record =>
    obtain ⟨inLog, lsn⟩ := recordAt_eq_some found
    by_cases isUpdate : record.type = .update
    case neg =>
      simp only [if_neg isUpdate]
      refine ⟨keptTargets, inv.present, ?_⟩
      apply byte_of_untouched rfl keptMembers ?_ inv.byte
      intro first firstFound popped covers
      rw [atFirst first firstFound popped] at found
      cases found
      exact isUpdate covers.1
    case pos =>
      obtain ⟨⟨entry, lookup, undoNext⟩, previousGood⟩ := reached_update wellFormed
        (inv.targets target mem) found isUpdate
      have images := wellFormed.images record inLog isUpdate
      simp only [if_pos isUpdate]
      have mem_next (other : Nat) : other ∈ (if LSN.isValid record.prevLsn = true then
          record.prevLsn :: queue.erase target else queue.erase target) ↔
          LSN.isValid record.prevLsn = true ∧ other = record.prevLsn ∨
            other ∈ queue.erase target := by
        split_ifs with valid <;> simp [valid]
      have targets other inNext := ((mem_next other).mp inNext).elim
        (fun previous => previous.2 ▸ previousGood previous.1) (keptTargets other)
      have members other inQueue ne := (mem_next other).mpr (.inr (keptMembers other inQueue ne))
      by_cases covers : record.Covers pageId index
      · have restored := readByte_undoRecord_of_covers isUpdate images outside covers inv.present
        obtain ⟨byte, isByte⟩ := exists_beforeByte images.1 covers
        have own := only record inLog covers
        subst own
        have loser := scan_loser wellFormed.valid unfinished
        have tracked := LogRecord.isTracked_of_covers covers
        cases firstFound : firstTracked log record.txnId with
        | none =>
          have untracked := List.find?_eq_none.mp firstFound record inLog
          simp [tracked] at untracked
        | some first =>
          unfold firstTracked at firstFound
          rw [firstFound] at loser
          obtain ⟨other, otherLookup, otherNext, _⟩ := loser
          rw [lookup, Option.some.injEq] at otherLookup
          subst otherLookup
          have same : first = record := by
            have there := atFirst first firstFound (otherNext.symm.trans (undoNext.trans lsn))
            rw [found] at there
            exact (Option.some.inj there).symm
          subst same
          refine ⟨targets, ?_, Or.inl ?_⟩
          · rw [restored, isByte]
            rfl
          · rw [restored]
            simp [undoneByte, firstTracked, firstFound, covers]
      have unchanged :=
        @readByte_undoRecord_of_not_covers _ _ _ state isUpdate images outside covers
      refine ⟨targets, ?_, ?_⟩
      · rw [unchanged]
        exact inv.present
      apply byte_of_untouched unchanged members ?_ inv.byte
      intro first firstFound popped
      rw [atFirst first firstFound popped] at found
      cases found
      exact covers

theorem find?_eq_some_of_imp {weak strong : LogRecord → Bool}
    (found : log.find? weak = some record) (holds : strong record = true)
    (stronger : ∀ other, strong other = true → weak other = true) :
    log.find? strong = some record := by
  obtain ⟨_, before, after, split, skipped⟩ := List.find?_eq_some_iff_append.mp found
  refine List.find?_eq_some_iff_append.mpr ⟨holds, before, after, split, ?_⟩
  intro other early
  have weakly := skipped other early
  cases strongly : strong other with
  | false => rfl
  | true => simp [stronger other strongly] at weakly

theorem pages_appendEnds (losers : List TransactionTableEntry)
    (state : UndoState) : (appendEnds losers state).pages = state.pages := by
  unfold appendEnds
  induction losers generalizing state with
  | nil => rfl
  | cons loser losers ih =>
    rw [List.foldl_cons, ih]
    rfl

theorem byteInvariant_start (wellFormed : WellFormedLog log)
    (unfinished : ∀ record ∈ log, record.txnId = txnId →
      record.type ≠ .txnCommit ∧ record.type ≠ .txnEnd) (state : UndoState)
    (present : (readByte state.pages pageId index).isSome = true) :
    ByteInvariant log txnId pageId index (readByte state.pages pageId index)
      (undoQueue (scan log)) state := by
  refine ⟨?_, present, Or.inr ⟨rfl, ?_⟩⟩
  · intro target mem
    obtain ⟨inMap, _⟩ := List.mem_filter.mp mem
    obtain ⟨entry, isLoser, rfl⟩ := List.mem_map.mp inMap
    obtain ⟨inTable, _⟩ := List.mem_filter.mp isLoser
    obtain ⟨⟨owner, stored⟩, inEntries, rfl⟩ := List.mem_map.mp inTable
    exact Or.inl ⟨owner, stored, AList.mem_lookup_iff.mpr inEntries, rfl⟩
  intro first found
  have loser := scan_loser wellFormed.valid unfinished
  unfold firstTracked at found
  rw [found] at loser
  obtain ⟨entry, lookup, undoNext, unsettled⟩ := loser
  have inLog := List.mem_of_find?_eq_some found
  rw [← undoNext]
  apply List.mem_filter.mpr
  constructor
  · apply List.mem_map_of_mem
    apply List.mem_filter.mpr
    constructor
    · exact List.mem_map_of_mem (AList.mem_lookup_iff.mp lookup)
    · simpa using unsettled
  · rw [undoNext, LSN.isValid_iff]
    exact wellFormed.valid first inLog

/-- After analysis and undo, a byte outside the page LSN field that only one
unfinished transaction wrote holds the before image of the earliest update of
it exactly when that transaction's first record is an update of the byte, or
when the byte holds the old value already. -/
theorem undo_restores_byte_iff (log : List LogRecord)
    (wellFormed : WellFormedLog log) (state : UndoState)
    (txnId pageId index : Nat) (earliest : LogRecord)
    (unfinished : ∀ record ∈ log, record.txnId = txnId →
      record.type ≠ .txnCommit ∧ record.type ≠ .txnEnd)
    (present : (readByte state.pages pageId index).isSome = true)
    (outside : index < 12 ∨ 20 ≤ index) (only : ∀ record ∈ log, record.Covers pageId index →
      record.txnId = txnId) (isEarliest : log.find? (fun record => record.txnId == txnId &&
      decide (record.Covers pageId index)) = some earliest) :
    ∃ result fuel, (∀ more, fuel ≤ more →
        phaseUndo more log (phaseAnalysis log none).1.txnTable state = some result) ∧
      (readByte result.pages pageId index = earliest.beforeByte index ↔
        (∃ first, firstTracked log txnId = some first ∧
          first.Covers pageId index) ∨
        readByte state.pages pageId index = earliest.beforeByte index) := by
  have backward : ∀ record ∈ log, record.type = .update → record.prevLsn < record.lsn := by
    intro record member isUpdate
    apply prevLsn_lt wellFormed member
    simp [LogRecord.isTracked, LogRecord.isPhysical, isUpdate]
  obtain ⟨_, undone, ends, final⟩ := undoLoop_rule backward
    (byteInvariant_turn wellFormed unfinished outside only) _ state
    (byteInvariant_start wellFormed unfinished state present)
  have value : readByte undone.pages pageId index = undoneByte log txnId
      pageId index (readByte state.pages pageId index) := by
    rcases final.byte with same | ⟨same, waiting⟩
    · exact same
    · cases found : firstTracked log txnId with
      | none => simpa [undoneByte, found] using same
      | some first => cases waiting first found
  have table : (phaseAnalysis log none).1.txnTable = scan log := rfl
  refine ⟨appendEnds (scan log).getLosers undone, weight (undoQueue (scan log)), ?_, ?_⟩
  · intro more enough
    simp only [phaseUndo, table]
    rw [ends more enough]
    rfl
  rw [pages_appendEnds, value]
  unfold undoneByte
  cases found : firstTracked log txnId with
  | none => simp
  | some first =>
    by_cases covers : first.Covers pageId index
    · have same : some first = some earliest := by
        rw [← isEarliest]
        apply (find?_eq_some_of_imp found ?_ ?_).symm
        · have own := List.find?_some found
          simp only [Bool.and_eq_true, beq_iff_eq] at own
          simp [own.1, covers]
        · intro other holds
          simp only [Bool.and_eq_true, beq_iff_eq, decide_eq_true_eq] at holds ⊢
          exact ⟨holds.1, LogRecord.isTracked_of_covers holds.2⟩
      cases same
      simp [covers]
    · simp [covers]

/-- A transaction whose only record is an update of byte 40 of page 1. -/
theorem undo_restores_only_update :
    ∃ record : LogRecord, record = LogRecord.mk 1 1 0 0 .update [1, 0, 0, 0, 40, 0, 1, 0, 7, 9] ∧
      ∃ result fuel, (∀ more, fuel ≤ more →
          phaseUndo more [record] (phaseAnalysis [record] none).1.txnTable
            ⟨fun _ => some ⟨List.replicate 64 9, by decide⟩, 2, []⟩ = some result) ∧
        (readByte result.pages 1 40 = record.beforeByte 40 ↔
          (∃ first, firstTracked [record] 1 = some first ∧
            first.Covers 1 40) ∨ (some 9 : Option UInt8) = record.beforeByte 40) := by
  refine ⟨_, rfl, undo_restores_byte_iff _ ?_ ⟨fun _ => some ⟨List.replicate 64 9, by decide⟩, 2,
    []⟩ 1 1 40 _ (by decide) (by decide) (by decide) (by decide) (by decide)⟩
  refine ⟨by simp, by decide, ?_, by decide, by decide⟩
  intro before record after split _
  rcases before with _ | ⟨first, before⟩
  · simp only [List.nil_append, List.cons.injEq] at split
    rw [← split.1]
    rfl
  · simp at split

/-- A transaction with a begin record and one update: undo leaves the new
value 9 of byte 40 in place of the old value 7. -/
theorem undo_leaves_update :
    ∃ start update : LogRecord, start = LogRecord.mk 1 1 0 0 .txnBegin [] ∧
      update = LogRecord.mk 2 1 1 0 .update [1, 0, 0, 0, 40, 0, 1, 0, 7, 9] ∧
      WellFormedLog [start, update] ∧
      (phaseUndo 100 [start, update] (phaseAnalysis [start, update] none).1.txnTable
        ⟨fun _ => some ⟨List.replicate 64 9, by decide⟩, 3, []⟩).map
          (fun result => readByte result.pages 1 40) = some (some 9) ∧
      update.beforeByte 40 = some 7 := by
  refine ⟨_, _, rfl, rfl, ⟨by decide, by decide, ?_, by decide, by decide⟩, by decide, by decide⟩
  intro before record after split _
  rcases before with _ | ⟨first, _ | ⟨second, before⟩⟩
  · simp only [List.nil_append, List.cons.injEq] at split
    rw [← split.1]
    rfl
  · simp only [List.cons_append, List.nil_append, List.cons.injEq] at split
    rw [← split.1, ← split.2.1]
    rfl
  · simp at split

end RecoveryManager

end KlyroDB

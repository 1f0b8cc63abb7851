import KlyroDB.GuardedRuns
import KlyroDB.RedoIdempotence
import KlyroDB.UndoOfLosers
import KlyroDB.MapUpdates
import Mathlib.Data.List.TakeWhile

/-!
# Recovery from a checkpoint

`perform_checkpoint` logs two records without a payload and points the master
record to the first of them.  It writes no page and notes no transaction.
-/

namespace KlyroDB

open Function (update_of_ne update_self)
open ByteMemory

namespace LogRecord

def changes (record : LogRecord) (pageId : Nat) : Bool :=
  record.isPhysical && decide (4 ≤ record.getPayloadSize) && decide (record.pageId = pageId)

def finishes (record : LogRecord) : Bool :=
  match record.type with
  | .txnCommit | .txnEnd => true
  | _ => false

end LogRecord

namespace RecoveryManager

def lastTracked (log : List LogRecord) (txnId : Nat) : Option LogRecord :=
  (log.filter fun record =>
    record.isTracked && decide (record.txnId = txnId)).getLast?

def loserIds (table : RecoveryTransactionTable) : List Nat :=
  table.getLosers.map TransactionTableEntry.txnId

theorem lastTracked_append_singleton (log : List LogRecord) (record : LogRecord) (txnId : Nat) :
    lastTracked (log ++ [record]) txnId =
      if record.isTracked = true ∧ record.txnId = txnId then some record
      else lastTracked log txnId := by
  unfold lastTracked
  by_cases here : record.isTracked = true ∧ record.txnId = txnId
  · simp [List.filter_append, here]
  rw [if_neg here, List.filter_append]
  have skipped : [record].filter (fun record =>
      record.isTracked && decide (record.txnId = txnId)) = [] := by simpa using here
  rw [skipped, List.append_nil]

theorem lastTracked_append (first second : List LogRecord) (txnId : Nat) :
    lastTracked (first ++ second) txnId =
      (lastTracked second txnId).or (lastTracked first txnId) := by
  unfold lastTracked
  rw [List.filter_append, List.getLast?_append]

def Keyed (table : RecoveryTransactionTable) : Prop :=
  ∀ txnId entry, table.lookup txnId = some entry → entry.txnId = txnId

theorem Keyed.update {table : RecoveryTransactionTable} (keyed : Keyed table)
    (updated : Nat) (state : TransactionState) (lastLsn : Nat) :
    Keyed (table.update updated state lastLsn) := by
  intro txnId entry found
  rcases AList.lookup_insert_cases found with ⟨rfl, rfl⟩ | ⟨-, found⟩
  · rfl
  · exact keyed txnId entry found

theorem Keyed.analyze {tables : Tables} (keyed : Keyed tables.txnTable) (record : LogRecord) :
    Keyed (RecoveryManager.analyze tables record).txnTable := by
  unfold RecoveryManager.analyze
  split
  · exact keyed.update _ _ _
  · exact keyed.update _ _ _
  · exact keyed.update _ _ _
  · intro txnId entry found
    exact keyed txnId entry (AList.lookup_erase_cases found).2
  all_goals first
    | exact keyed.update _ _ _
    | exact keyed

theorem keyed_scan (log : List LogRecord) : Keyed (scan log) := by
  induction log using List.reverseRecOn with
  | nil =>
    intro txnId entry found
    cases found
  | append_singleton log record ih =>
    rw [scan_append_singleton]
    exact Keyed.analyze ih record

theorem open_scan_iff (log : List LogRecord) (txnId lastLsn : Nat) :
    (∃ entry, (scan log).lookup txnId = some entry ∧ entry.state ≠ .committed ∧
        entry.lastLsn = lastLsn) ↔
      ∃ record, lastTracked log txnId = some record ∧ record.finishes = false ∧
        record.lsn = lastLsn := by
  induction log using List.reverseRecOn with
  | nil =>
    constructor
    · rintro ⟨entry, found, _⟩
      cases found
    · rintro ⟨record, found, _⟩
      cases found
  | append_singleton log record ih =>
    rw [scan_append_singleton, lastTracked_append_singleton]
    by_cases tracked : record.isTracked = true
    · by_cases same : record.txnId = txnId
      · subst same
        rw [if_pos ⟨tracked, rfl⟩]
        by_cases ends : record.type = .txnEnd
        · rw [lookup_analyze_txnEnd _ ends]
          simp [LogRecord.finishes, ends]
        obtain ⟨entry, found, _, committed, last⟩ :=
          lookup_analyze_tracked (log.foldl analyze {}) tracked ends
        have finishes : record.finishes = true ↔ record.type = .txnCommit := by
          unfold LogRecord.finishes
          cases kind : record.type <;> simp_all
        rw [found]
        simp only [Option.some.injEq, exists_eq_left', ne_eq, committed,
          ← finishes, Bool.not_eq_true, last]
      · rw [if_neg (fun both => same both.2), lookup_analyze_of_ne _ (Ne.symm same)]
        exact ih
    · rw [Bool.not_eq_true] at tracked
      rw [if_neg (by simp [tracked]), analyze_of_not_isTracked _ tracked]
      exact ih

theorem mem_losers_scan (log : List LogRecord) (txnId lastLsn : Nat) :
    (∃ loser ∈ (scan log).getLosers, loser.txnId = txnId ∧ loser.lastLsn = lastLsn) ↔
      ∃ record, lastTracked log txnId = some record ∧ record.finishes = false ∧
        record.lsn = lastLsn := by
  rw [← open_scan_iff]
  simp only [RecoveryTransactionTable.getLosers, List.mem_filter, List.mem_map, bne_iff_ne]
  constructor
  · rintro ⟨entry, ⟨⟨⟨key, found⟩, mem, rfl⟩, unfinished⟩, rfl, rfl⟩
    have lookup := AList.mem_lookup_iff.mpr mem
    rw [keyed_scan log key found lookup]
    exact ⟨found, lookup, unfinished, rfl⟩
  · rintro ⟨entry, lookup, unfinished, rfl⟩
    exact ⟨entry, ⟨⟨⟨txnId, entry⟩, AList.mem_lookup_iff.mp lookup, rfl⟩, unfinished⟩,
      keyed_scan log txnId entry lookup, rfl⟩

theorem mem_loserIds_scan (log : List LogRecord) (txnId : Nat) :
    txnId ∈ loserIds (scan log) ↔
      ∃ record, lastTracked log txnId = some record ∧ record.finishes = false := by
  have losers := exists_congr (mem_losers_scan log txnId)
  simp only [loserIds, List.mem_map]
  constructor
  · rintro ⟨loser, mem, same⟩
    obtain ⟨_, record, found, unfinished, _⟩ := losers.mp ⟨_, loser, mem, same, rfl⟩
    exact ⟨record, found, unfinished⟩
  · rintro ⟨record, found, unfinished⟩
    obtain ⟨_, loser, mem, same, _⟩ := losers.mpr ⟨_, record, found, unfinished, rfl⟩
    exact ⟨loser, mem, same⟩

theorem nodup_loserIds_scan (log : List LogRecord) : (loserIds (scan log)).Nodup := by
  have ids : ((scan log).entries.map Sigma.snd).map TransactionTableEntry.txnId =
      (scan log).keys := by
    rw [List.map_map]
    apply List.map_congr_left
    rintro ⟨key, entry⟩ mem
    exact keyed_scan log key entry (AList.mem_lookup_iff.mpr mem)
  have distinct := (scan log).keys_nodup
  rw [← ids] at distinct
  exact distinct.sublist (List.filter_sublist.map _)

theorem lookup_update_dirtyPages (table : DirtyPageTable) (changed lsn pageId : Nat) :
    (table.update changed lsn).lookup pageId =
      (table.lookup pageId).or (if changed = pageId then some lsn else none) := by
  unfold DirtyPageTable.update
  split_ifs with known same same
  · subst same
    obtain ⟨recLsn, found⟩ := Option.isSome_iff_exists.mp (AList.lookup_isSome.mpr known)
    rw [found, Option.some_or]
  · rw [Option.or_none]
  · subst same
    rw [AList.lookup_insert, AList.lookup_eq_none.mpr known, Option.none_or]
  · rw [Option.or_none, AList.lookup_insert_ne (Ne.symm same)]

theorem lookup_analyze_dirtyPages (tables : Tables) (record : LogRecord) (pageId : Nat) :
    (analyze tables record).dirtyPageTable.lookup pageId =
      (tables.dirtyPageTable.lookup pageId).or
        (if record.changes pageId then some record.lsn else none) := by
  have table : (analyze tables record).dirtyPageTable =
      if record.isPhysical = true ∧ 4 ≤ record.getPayloadSize then
        tables.dirtyPageTable.update record.pageId record.lsn
      else tables.dirtyPageTable := by
    unfold analyze LogRecord.isPhysical
    cases kind : record.type <;> simp
  rw [table]
  split_ifs with counts changes changes
  · simp_all [LogRecord.changes, lookup_update_dirtyPages]
  · simp_all [LogRecord.changes, lookup_update_dirtyPages]
  · simp only [LogRecord.changes, Bool.and_eq_true, decide_eq_true_eq] at changes
    exact absurd changes.1 counts
  · rw [Option.or_none]

theorem lookup_dirtyPages (records : List LogRecord) (tables : Tables) (pageId : Nat) :
    (records.foldl analyze tables).dirtyPageTable.lookup pageId =
      (tables.dirtyPageTable.lookup pageId).or
        ((records.find? (·.changes pageId)).map LogRecord.lsn) := by
  induction records generalizing tables with
  | nil => simp
  | cons record records ih =>
    rw [List.foldl_cons, ih, lookup_analyze_dirtyPages, Option.or_assoc, List.find?_cons]
    cases record.changes pageId <;> simp

theorem foldl_min_le (entries : List (Σ _ : Nat, Nat)) (least : Nat) :
    entries.foldl (fun least entry => min entry.2 least) least ≤ least ∧
      ∀ entry ∈ entries, entries.foldl (fun least entry => min entry.2 least) least ≤ entry.2 := by
  induction entries generalizing least with
  | nil => exact ⟨le_refl _, fun entry mem => nomatch mem⟩
  | cons first entries ih =>
    obtain ⟨below, all⟩ := ih (min first.2 least)
    refine ⟨below.trans (min_le_right _ _), ?_⟩
    intro entry mem
    rcases List.mem_cons.mp mem with rfl | later
    · exact below.trans (min_le_left _ _)
    · exact all entry later

theorem foldl_min_mem (entries : List (Σ _ : Nat, Nat)) (least : Nat) :
    entries.foldl (fun least entry => min entry.2 least) least = least ∨
      ∃ entry ∈ entries, entries.foldl (fun least entry => min entry.2 least) least = entry.2 := by
  induction entries generalizing least with
  | nil => exact .inl rfl
  | cons first entries ih =>
    rcases ih (min first.2 least) with same | ⟨entry, mem, found⟩
    · rcases min_choice first.2 least with smaller | larger
      · exact .inr ⟨first, List.mem_cons_self, same.trans smaller⟩
      · exact .inl (same.trans larger)
    · exact .inr ⟨entry, List.mem_cons_of_mem _ mem, found⟩

theorem getRedoStartLsn_le {table : DirtyPageTable} {pageId recLsn : Nat}
    (found : table.lookup pageId = some recLsn) : table.getRedoStartLsn ≤ recLsn :=
  (foldl_min_le table.entries _).2 ⟨pageId, recLsn⟩ (AList.mem_lookup_iff.mp found)

theorem getRedoStartLsn_cases (table : DirtyPageTable) :
    table.getRedoStartLsn = 2 ^ 64 - 1 ∨
      ∃ pageId, table.lookup pageId = some table.getRedoStartLsn := by
  rcases foldl_min_mem table.entries (2 ^ 64 - 1) with
    largest | ⟨⟨pageId, recLsn⟩, mem, found⟩
  · exact .inl largest
  · refine .inr ⟨pageId, ?_⟩
    rw [DirtyPageTable.getRedoStartLsn, found]
    exact AList.mem_lookup_iff.mpr mem

/-- No transaction has records behind the one that finishes it. -/
def LastFinishes (log : List LogRecord) : Prop :=
  log.Pairwise fun earlier later => earlier.finishes = true → later.txnId ≠ earlier.txnId

theorem isTracked_of_finishes {record : LogRecord} (finishes : record.finishes = true) :
    record.isTracked = true := by
  unfold LogRecord.finishes at finishes
  unfold LogRecord.isTracked
  cases kind : record.type <;> simp_all

theorem mem_of_lastTracked {log : List LogRecord} {txnId : Nat} {last : LogRecord}
    (found : lastTracked log txnId = some last) : last ∈ log ∧ last.txnId = txnId := by
  have kept := List.mem_filter.mp (List.mem_of_getLast? found)
  exact ⟨kept.1, by simpa using (Bool.and_eq_true_iff.mp kept.2).2⟩

theorem LastFinishes.unfinished {log : List LogRecord} (lasts : LastFinishes log)
    {txnId : Nat} {last : LogRecord} (found : lastTracked log txnId = some last)
    (unfinished : last.finishes = false) :
    ∀ record ∈ log, record.txnId = txnId → record.finishes = false := by
  intro record mem own
  rw [← Bool.not_eq_true]
  intro finishes
  obtain ⟨before, split⟩ := List.getLast?_eq_some_iff.mp found
  have inOwn : record ∈ before ++ [last] := by
    rw [← split, List.mem_filter]
    simp [mem, own, isTracked_of_finishes finishes]
  have ordered := lasts.sublist (split ▸ List.filter_sublist)
  rcases List.mem_append.mp inOwn with early | here
  · exact (List.pairwise_append.mp ordered).2.2 record early last (by simp) finishes
      ((mem_of_lastTracked found).2.trans own.symm)
  · rw [List.mem_singleton.mp here, unfinished] at finishes
    cases finishes

/-- What analysis finds in a whole log: the unfinished transactions, each with
the LSN of its last record, and the changed pages, each with the LSN of the
first record that changes it. -/
theorem analysis_of_whole_log (log : List LogRecord) (lasts : LastFinishes log)
    (typed : ∀ record ∈ log, record.lsn < 2 ^ 64) :
    (loserIds (phaseAnalysis log none).1.txnTable).Nodup ∧
      (∀ txnId lastLsn, (∃ loser ∈ (phaseAnalysis log none).1.txnTable.getLosers,
          loser.txnId = txnId ∧ loser.lastLsn = lastLsn) ↔
        (∀ record ∈ log, record.txnId = txnId → record.finishes = false) ∧
          ∃ last, lastTracked log txnId = some last ∧ last.lsn = lastLsn) ∧
      (∀ pageId, (phaseAnalysis log none).1.dirtyPageTable.lookup pageId =
        (log.find? (·.changes pageId)).map LogRecord.lsn) ∧
      (∀ pageId recLsn, (phaseAnalysis log none).1.dirtyPageTable.lookup pageId = some recLsn →
        (phaseAnalysis log none).1.dirtyPageTable.getRedoStartLsn ≤ recLsn ∧
          ∃ first, (phaseAnalysis log none).1.dirtyPageTable.lookup first =
            some (phaseAnalysis log none).1.dirtyPageTable.getRedoStartLsn) := by
  have dirty (pageId : Nat) : (phaseAnalysis log none).1.dirtyPageTable.lookup pageId =
      (log.find? (·.changes pageId)).map LogRecord.lsn := by
    rw [phaseAnalysis, lookup_dirtyPages]
    rfl
  refine ⟨nodup_loserIds_scan log, ?_, dirty, ?_⟩
  · intro txnId lastLsn
    refine (mem_losers_scan log txnId lastLsn).trans ?_
    constructor
    · rintro ⟨last, found, unfinished, same⟩
      exact ⟨lasts.unfinished found unfinished, last, found, same⟩
    · rintro ⟨unfinished, last, found, same⟩
      obtain ⟨member, own⟩ := mem_of_lastTracked found
      exact ⟨last, found, unfinished last member own, same⟩
  · intro pageId recLsn found
    have below := getRedoStartLsn_le found
    refine ⟨below, ?_⟩
    rcases getRedoStartLsn_cases (phaseAnalysis log none).1.dirtyPageTable with largest | attained
    · have small : recLsn < 2 ^ 64 := by
        rw [dirty, Option.map_eq_some_iff] at found
        obtain ⟨record, changed, rfl⟩ := found
        exact typed record (List.mem_of_find?_eq_some changed)
      exact ⟨pageId, found.trans (congrArg some (by omega))⟩
    · exact attained

/-- The first of two transactions has committed. -/
theorem analysis_of_whole_log_open :
    ∃ loser ∈ (phaseAnalysis [{ lsn := 1, txnId := 1, type := .txnBegin },
        { lsn := 2, txnId := 2, type := .txnBegin }, { lsn := 3, txnId := 1, type := .txnCommit },
        { lsn := 4, txnId := 2, type := .insert, payload := leBytes 4 7 }]
        none).1.txnTable.getLosers,
      loser.txnId = 2 ∧ loser.lastLsn = 4 := by
  refine ((analysis_of_whole_log _ ?_ ?_).2.1 2 4).mpr ⟨?_, _, rfl, rfl⟩
  · unfold LastFinishes
    decide
  · decide
  · decide

theorem foldl_redoOn (dirtyPages : DirtyPageTable) (pageId : Nat)
    (records : List LogRecord) (page : PageImage) :
    records.foldl (redoOn dirtyPages pageId) page =
      (records.filter fun record => decide (record.pageId = pageId ∧
        Considered dirtyPages record)).foldl redoPage page := by
  induction records generalizing page with
  | nil => rfl
  | cons record records ih =>
    rw [List.foldl_cons, ih, List.filter_cons]
    unfold redoOn
    split_ifs with applies decided decided
    · rfl
    · exact absurd (decide_eq_true applies) decided
    · exact absurd (of_decide_eq_true decided) applies
    · rfl

/-- LSNs are valid, and they increase. -/
structure Numbered (log : List LogRecord) : Prop where
  increasing : log.Pairwise fun earlier later => earlier.lsn < later.lsn
  valid : ∀ record ∈ log, record.lsn ≠ LSN.invalid

theorem changes_iff (record : LogRecord) (pageId : Nat) :
    record.changes pageId = true ↔ record.isPhysical = true ∧
      4 ≤ record.getPayloadSize ∧ record.pageId = pageId := by simp [LogRecord.changes, and_assoc]

/-- The redo start is a valid LSN up to that of a scanned record. -/
theorem isValid_getRedoStartLsn {scanned : List LogRecord}
    (valid : ∀ record ∈ scanned, record.lsn ≠ LSN.invalid) :
    LSN.isValid (scanned.foldl analyze {}).dirtyPageTable.getRedoStartLsn = true := by
  rw [LSN.isValid_iff]
  rcases getRedoStartLsn_cases
      (scanned.foldl analyze {}).dirtyPageTable with largest | ⟨other, entry⟩
  · rw [largest]
    decide
  rw [lookup_dirtyPages] at entry
  change (none.or _) = _ at entry
  rw [Option.none_or, Option.map_eq_some_iff] at entry
  obtain ⟨record, isFirst, sameLsn⟩ := entry
  rw [← sameLsn]
  exact valid record (List.mem_of_find?_eq_some isFirst)

theorem redoRecords_of_le {log : List LogRecord} {start : Nat}
    (valid : LSN.isValid start = true) {record : LogRecord}
    (mem : record ∈ log) (reached : start ≤ record.lsn) :
    redoRecords start log = log.dropWhile fun record => decide (record.lsn < start) := by
  unfold redoRecords seekToLsn
  rw [if_pos valid]
  split
  · rename_i nothing
    have all := List.takeWhile_append_dropWhile
      (p := fun record : LogRecord => decide (record.lsn < start)) (l := log)
    rw [nothing, List.append_nil] at all
    rw [← all] at mem
    have early : record.lsn < start := by simpa using List.mem_takeWhile_imp mem
    omega
  · rfl

section

variable {before scanned : List LogRecord} (numbered : Numbered (before ++ scanned))

include numbered

/-- The records that redo considers for a page, of those it reads: the
scanned ones that change the page. -/
theorem filter_considered {pageId : Nat} {first : LogRecord}
    (found : scanned.find? (·.changes pageId) = some first) {dirtyPages : DirtyPageTable}
    (recLsn : dirtyPages.lookup pageId = some first.lsn) {start : Nat} (below : start ≤ first.lsn) :
    (((before ++ scanned).dropWhile fun record => decide (record.lsn < start)).filter fun record =>
      decide (record.pageId = pageId ∧ Considered dirtyPages record)) =
      scanned.filter (·.changes pageId) := by
  have dirty : pageId ∈ dirtyPages := by
    rw [← AList.lookup_isSome, recLsn]
    rfl
  have applied (record : LogRecord) : decide (record.pageId = pageId ∧ Considered dirtyPages record)
      = true ↔ record.changes pageId = true ∧ first.lsn ≤ record.lsn := by
    rw [decide_eq_true_iff, changes_iff]
    unfold Considered DirtyPageTable.getRecLsn
    constructor
    · rintro ⟨rfl, physical, long, _, late⟩
      rw [recLsn] at late
      exact ⟨⟨physical, long, rfl⟩, late⟩
    · rintro ⟨⟨physical, long, rfl⟩, late⟩
      rw [recLsn]
      exact ⟨rfl, physical, long, dirty, late⟩
  have skipped {records : List LogRecord} (early : ∀ record ∈ records, record.lsn < first.lsn) :
      (records.filter fun record => decide (record.pageId = pageId ∧ Considered dirtyPages record))
      = [] := by
    rw [List.filter_eq_nil_iff]
    intro record mem applies
    have late := ((applied record).mp applies).2
    have lower := early record mem
    omega
  have ordered := List.pairwise_append.mp numbered.increasing
  have beforeFirst := skipped fun record mem =>
    ordered.2.2 record mem first (List.mem_of_find?_eq_some found)
  have beforeStart := @skipped ((before ++ scanned).takeWhile fun record =>
      decide (record.lsn < start)) (by
    intro record mem
    have early : record.lsn < start := by simpa using List.mem_takeWhile_imp mem
    omega)
  have whole := congrArg (List.filter fun record =>
    decide (record.pageId = pageId ∧ Considered dirtyPages record))
    (List.takeWhile_append_dropWhile (p := fun record : LogRecord => decide (record.lsn < start))
      (l := before ++ scanned))
  rw [List.filter_append, beforeStart, List.nil_append, List.filter_append,
    beforeFirst, List.nil_append] at whole
  rw [whole]
  apply List.filter_congr
  intro record mem
  rw [Bool.eq_iff_iff, applied]
  refine ⟨fun both => both.1, fun changes => ⟨changes, ?_⟩⟩
  obtain ⟨_, early, late, split, none⟩ := List.find?_eq_some_iff_append.mp found
  rw [split] at mem ordered
  rcases List.mem_append.mp mem with earlier | later
  · have not := none record earlier
    simp [changes] at not
  · rcases List.mem_cons.mp later with rfl | behind
    · exact le_refl _
    · exact (List.rel_of_pairwise_cons (List.pairwise_append.mp ordered.2.1).2.1 behind).le

/-- Recovery from a point of the log applies to each page the records behind
that point that change it. -/
theorem phaseRedo_scanned (pages : PageStore) (pageId : Nat) :
    phaseRedo (scanned.foldl analyze {}).dirtyPageTable
        (scanned.foldl analyze {}).dirtyPageTable.getRedoStartLsn (before ++ scanned) pages pageId =
      (pages pageId).map fun page => (scanned.filter (·.changes pageId)).foldl redoPage page := by
  have lookup : (scanned.foldl analyze {}).dirtyPageTable.lookup pageId =
      (scanned.find? (·.changes pageId)).map LogRecord.lsn := by
    rw [lookup_dirtyPages]
    exact Option.none_or
  unfold phaseRedo
  rw [foldl_redoStep_apply]
  congr 1
  funext page
  rw [foldl_redoOn]
  congr 1
  cases found : scanned.find? (·.changes pageId) with
  | none =>
    rw [found, Option.map_none] at lookup
    have clean := AList.lookup_eq_none.mp lookup
    have nothing : scanned.filter (·.changes pageId) = [] := by
      rw [List.filter_eq_nil_iff]
      exact List.find?_eq_none.mp found
    rw [nothing, List.filter_eq_nil_iff]
    intro record _ applies
    obtain ⟨same, considered⟩ := of_decide_eq_true applies
    exact clean (same ▸ considered.2.2.1)
  | some first =>
    rw [found, Option.map_some] at lookup
    have below := getRedoStartLsn_le lookup
    have mem : first ∈ before ++ scanned :=
      List.mem_append_right _ (List.mem_of_find?_eq_some found)
    rw [redoRecords_of_le (isValid_getRedoStartLsn fun record scan =>
      numbered.valid record (List.mem_append_right _ scan)) mem below]
    exact filter_considered numbered found lookup below

end

theorem foldl_redoPage_of_settled {records : List LogRecord}
    {page : PageImage} (settled : ∀ record ∈ records, Settled record page) :
    records.foldl redoPage page = page := by
  induction records with
  | nil => rfl
  | cons record records ih =>
    rw [List.foldl_cons, redoPage_of_settled (settled record List.mem_cons_self)]
    exact ih fun other mem =>
      settled other (List.mem_cons_of_mem record mem)

end RecoveryManager

/-- The log, the pages as the buffer pool shows them and as they are on disk,
and the checkpoint LSN of the master record. -/
structure CheckpointedLog where
  log : List LogRecord := []
  nextLsn : Nat := 1
  memory : PageStore
  disk : PageStore
  master : Option Nat := none

/-- A record is logged, with the page it has changed; a page is changed
without a record, or written to disk; or a checkpoint is taken. -/
inductive CheckpointEvent
  | log (record : LogRecord) (page : PageImage)
  | edit (pageId : Nat) (page : PageImage)
  | writePage (pageId : Nat)
  | checkpoint

namespace CheckpointedLog

open RecoveryManager

def performCheckpoint (system : CheckpointedLog) : CheckpointedLog :=
  { system with
    log := system.log ++
      [{ lsn := system.nextLsn, type := .checkpointBegin },
        { lsn := system.nextLsn + 1, prevLsn := system.nextLsn
          type := .checkpointEnd }]
    nextLsn := system.nextLsn + 2
    master := some system.nextLsn }

def step (system : CheckpointedLog) : CheckpointEvent → CheckpointedLog
  | .log record page =>
      { system with
        log := system.log ++ [{ record with lsn := system.nextLsn }]
        nextLsn := system.nextLsn + 1
        memory :=
          if record.isPhysical then
            Function.update system.memory record.pageId (some (page.setLsn system.nextLsn))
          else system.memory }
  | .edit pageId page =>
      { system with
        memory := Function.update system.memory pageId
          ((system.memory pageId).map fun old => page.setLsn old.lsn) }
  | .writePage pageId =>
      match system.memory pageId with
      | none => system
      | some page =>
          { system with
            memory := Function.update system.memory pageId (some (page.storedPage pageId))
            disk := Function.update system.disk pageId (some (page.storedPage pageId)) }
  | .checkpoint => system.performCheckpoint

/-- From every part of the log that may have survived a crash, recovery makes
the same pages and finds the same losers with and without the checkpoint. -/
def SameRecovery (system : CheckpointedLog) : Prop :=
  ∀ durable, durable <+: system.log → (∀ lsn, system.master = some lsn → ∃ record ∈ durable,
    record.lsn = lsn) → phaseRedo (phaseAnalysis durable system.master).1.dirtyPageTable
    (phaseAnalysis durable system.master).2 durable system.disk = phaseRedo
    (phaseAnalysis durable none).1.dirtyPageTable (phaseAnalysis durable none).2 durable system.disk
    ∧ ∀ txnId, txnId ∈ loserIds (phaseAnalysis durable system.master).1.txnTable ↔ txnId ∈ loserIds
    (phaseAnalysis durable none).1.txnTable

def AllFinished (log : List LogRecord) : Prop :=
  ∀ txnId record, lastTracked log txnId = some record → record.finishes = true

def AllWritten (log : List LogRecord) (disk : PageStore) : Prop :=
  ∀ record ∈ log, record.changes record.pageId = true →
    ∀ page, disk record.pageId = some page → Settled record page

/-- At a checkpoint every logged transaction is finished and every logged
change is on disk. -/
def Quiet (system : CheckpointedLog) : CheckpointEvent → Prop
  | .checkpoint => AllFinished system.log ∧ AllWritten system.log system.disk
  | _ => True

structure Covered (system : CheckpointedLog) (lsn : Nat) : Prop where
  split : ∃ before record rest, system.log = before ++ record :: rest ∧
    record.lsn = lsn ∧ AllFinished before ∧ AllWritten before system.disk

structure Recorded (system : CheckpointedLog) : Prop where
  numbered : Numbered system.log
  next_pos : 0 < system.nextLsn
  below : ∀ record ∈ system.log, record.lsn < system.nextLsn
  in_memory : ∀ record ∈ system.log, record.isPhysical = true → ∃ page, system.memory record.pageId
    = some page ∧ record.lsn ≤ page.lsn
  covered : ∀ lsn, system.master = some lsn → system.Covered lsn

theorem numbered_append {log : List LogRecord} (numbered : Numbered log)
    {lsn : Nat} (below : ∀ record ∈ log, record.lsn < lsn) (pos : 0 < lsn)
    {record : LogRecord} (lsnEq : record.lsn = lsn) : Numbered (log ++ [record]) := by
  constructor
  · rw [List.pairwise_append]
    refine ⟨numbered.increasing, List.pairwise_singleton _ _, ?_⟩
    intro early mem last isLast
    rw [List.mem_singleton.mp isLast, lsnEq]
    exact below early mem
  intro other mem
  rcases List.mem_append.mp mem with old | new
  · exact numbered.valid other old
  · rw [List.mem_singleton.mp new, lsnEq, LSN.invalid]
    omega

theorem below_append {log : List LogRecord} {lsn : Nat}
    (below : ∀ record ∈ log, record.lsn < lsn) {record : LogRecord} (lsnEq : record.lsn = lsn) :
    ∀ other ∈ log ++ [record], other.lsn < lsn + 1 := by
  intro other mem
  rcases List.mem_append.mp mem with old | new
  · exact (below other old).trans (Nat.lt_succ_self _)
  · rw [List.mem_singleton.mp new, lsnEq]
    exact Nat.lt_succ_self _

theorem lsn_lt (page : PageImage) : page.lsn < 2 ^ 64 :=
  readNat_lt _ 8

/-- More records behind the checkpoint do not matter. -/
theorem Covered.append {system after : CheckpointedLog} {lsn : Nat}
    (covered : system.Covered lsn) {more : List LogRecord} (log : after.log = system.log ++ more)
    (disk : after.disk = system.disk) : after.Covered lsn := by
  obtain ⟨before, record, rest, split, found, finished, written⟩ := covered.split
  refine ⟨before, record, rest ++ more, ?_, found, finished, disk ▸ written⟩
  rw [log, split, List.append_assoc, List.cons_append]

section

variable {system : CheckpointedLog} (recorded : system.Recorded)

include recorded

theorem Recorded.log (record : LogRecord) (page : PageImage) (small : system.nextLsn < 2 ^ 64) :
    (system.step (.log record page)).Recorded where
  numbered := numbered_append recorded.numbered recorded.below recorded.next_pos rfl
  next_pos := Nat.succ_pos _
  below := below_append recorded.below rfl
  in_memory := by
    have lsnEq := PageImage.lsn_setLsn page small
    intro other mem physical
    simp only [step]
    rcases List.mem_append.mp mem with old | new
    · obtain ⟨found, present, reached⟩ := recorded.in_memory other old physical
      have below := recorded.below other old
      split_ifs with changed
      · by_cases same : other.pageId = record.pageId
        · rw [same, update_self]
          exact ⟨_, rfl, by omega⟩
        · rw [update_of_ne same]
          exact ⟨found, present, reached⟩
      · exact ⟨found, present, reached⟩
    · rw [List.mem_singleton.mp new] at physical ⊢
      have changed : record.isPhysical = true := physical
      rw [if_pos changed]
      exact ⟨_, update_self .., lsnEq.ge⟩
  covered lsn found := (recorded.covered lsn found).append rfl rfl

theorem Recorded.edit (pageId : Nat) (page : PageImage) :
    (system.step (.edit pageId page)).Recorded where
  numbered := recorded.numbered
  next_pos := recorded.next_pos
  below := recorded.below
  in_memory := by
    intro record mem physical
    obtain ⟨found, present, reached⟩ := recorded.in_memory record mem physical
    simp only [step]
    by_cases same : record.pageId = pageId
    · rw [same] at present ⊢
      rw [update_self, present]
      refine ⟨_, rfl, ?_⟩
      rw [PageImage.lsn_setLsn page (lsn_lt found)]
      exact reached
    · rw [update_of_ne same]
      exact ⟨found, present, reached⟩
  covered lsn found := by
    have kept := (recorded.covered lsn found).split
    exact ⟨kept⟩

theorem Recorded.writePage (pageId : Nat) : (system.step (.writePage pageId)).Recorded := by
  simp only [step]
  cases shown : system.memory pageId with
  | none => exact recorded
  | some page =>
    have lsnEq : (page.storedPage pageId).lsn = page.lsn :=
      ((PageImage.SameUpToChecksum.refl page).storedPage pageId).lsn_eq
    refine ⟨recorded.numbered, recorded.next_pos, recorded.below, ?_, ?_⟩
    · intro record mem physical
      obtain ⟨found, present, reached⟩ := recorded.in_memory record mem physical
      by_cases same : record.pageId = pageId
      · rw [same, shown] at present
        cases present
        rw [same]
        refine ⟨_, update_self .., ?_⟩
        rw [lsnEq]
        exact reached
      · exact ⟨found, (update_of_ne same ..).trans present, reached⟩
    intro lsn found
    obtain ⟨before, record, rest, split, isFirst, finished, written⟩ :=
      (recorded.covered lsn found).split
    refine ⟨before, record, rest, split, isFirst, finished, ?_⟩
    intro other mem changes stored onDisk
    by_cases same : other.pageId = pageId
    · have inLog : other ∈ system.log := by
        rw [split]
        exact List.mem_append_left _ mem
      obtain ⟨inMemory, present, reached⟩ :=
        recorded.in_memory other inLog ((changes_iff _ _).mp changes).1
      rw [same, shown] at present
      cases present
      have here : Function.update system.disk pageId (some (page.storedPage pageId)) other.pageId
          = some stored := onDisk
      rw [same, update_self] at here
      cases here
      exact .inr (lsnEq.symm ▸ reached)
    · refine written other mem changes stored ?_
      exact (update_of_ne same ..).symm.trans onDisk

theorem Recorded.checkpoint (quiet : system.Quiet .checkpoint) :
    (system.step .checkpoint).Recorded := by
  have first : Numbered (system.log ++ [{ lsn := system.nextLsn, type := .checkpointBegin }]) :=
      numbered_append recorded.numbered recorded.below recorded.next_pos rfl
  have firstBelow : ∀ record ∈ system.log ++ [{ lsn := system.nextLsn, type := .checkpointBegin }],
      record.lsn < system.nextLsn + 1 := below_append recorded.below rfl
  have both : (system.step .checkpoint).log =
      (system.log ++ [{ lsn := system.nextLsn, type := .checkpointBegin }]) ++
        [{ lsn := system.nextLsn + 1, prevLsn := system.nextLsn
           type := .checkpointEnd }] := by
    rw [List.append_assoc]
    rfl
  refine ⟨?_, Nat.succ_pos _, ?_, ?_, ?_⟩
  · rw [both]
    exact numbered_append first firstBelow (Nat.succ_pos _) rfl
  · rw [both]
    exact below_append firstBelow rfl
  · intro record mem physical
    rcases List.mem_append.mp mem with old | new
    · exact recorded.in_memory record old physical
    · rcases List.mem_cons.mp new with rfl | last
      · cases physical
      · rw [List.mem_singleton.mp last] at physical
        cases physical
  · intro lsn found
    cases found
    exact ⟨system.log, _, _, rfl, rfl, quiet.1, quiet.2⟩

theorem Recorded.step (event : CheckpointEvent) (quiet : system.Quiet event)
    (small : (system.step event).nextLsn ≤ 2 ^ 64) : (system.step event).Recorded := by
  cases event with
  | log record page => exact recorded.log record page small
  | edit pageId page => exact recorded.edit pageId page
  | writePage pageId => exact recorded.writePage pageId
  | checkpoint => exact recorded.checkpoint quiet

end

theorem nextLsn_le_step (system : CheckpointedLog) (event : CheckpointEvent) :
    system.nextLsn ≤ (system.step event).nextLsn := by
  cases event with
  | log record page => exact Nat.le_succ _
  | edit pageId page => exact le_refl _
  | writePage pageId =>
    simp only [step]
    cases system.memory pageId <;> exact le_refl _
  | checkpoint => exact Nat.le_add_right _ 2

theorem nextLsn_le_run (system : CheckpointedLog) (events : List CheckpointEvent) :
    system.nextLsn ≤ (GuardedRuns.run step system events).nextLsn := by
  induction events generalizing system with
  | nil => exact le_refl _
  | cons event events ih => exact (nextLsn_le_step system event).trans (ih (system.step event))

theorem Recorded.run {system : CheckpointedLog} (recorded : system.Recorded)
    {events : List CheckpointEvent}
    (quiet : GuardedRuns.Along CheckpointedLog.step Quiet system events)
    (small : (GuardedRuns.run CheckpointedLog.step system events).nextLsn ≤ 2 ^ 64) :
    (GuardedRuns.run CheckpointedLog.step system events).Recorded := by
  induction events generalizing system with
  | nil => exact recorded
  | cons event events ih =>
    have smallStep := (nextLsn_le_run (system.step event) events).trans small
    exact ih (recorded.step event quiet.1 smallStep) quiet.2 small

theorem recorded_initial (pages : PageStore) : Recorded { memory := pages, disk := pages } where
  numbered := ⟨List.Pairwise.nil, fun _ mem => nomatch mem⟩
  next_pos := Nat.zero_lt_one
  below := fun _ mem => nomatch mem
  in_memory := fun _ mem => nomatch mem
  covered := fun _ found => nomatch found

theorem phaseAnalysis_none {log : List LogRecord} (numbered : Numbered log) :
    phaseAnalysis log none = (log.foldl analyze {},
      (log.foldl analyze {}).dirtyPageTable.getRedoStartLsn) := by
  dsimp only [phaseAnalysis]
  rw [if_pos (isValid_getRedoStartLsn numbered.valid)]

theorem phaseAnalysis_checkpoint {before rest : List LogRecord}
    {record : LogRecord} (numbered : Numbered (before ++ record :: rest)) :
    phaseAnalysis (before ++ record :: rest) (some record.lsn) =
      ((record :: rest).foldl analyze {},
        ((record :: rest).foldl analyze {}).dirtyPageTable.getRedoStartLsn) := by
  have earlier : ∀ other ∈ before, other.lsn < record.lsn := fun other early =>
    (List.pairwise_append.mp numbered.increasing).2.2 other early record List.mem_cons_self
  have dropped : (before ++ record :: rest).dropWhile
      (fun other => decide (other.lsn < record.lsn)) = record :: rest := by
    rw [List.dropWhile_append_of_pos (by simpa using earlier)]
    simp
  have found : seekToLsn (before ++ record :: rest) record.lsn = some (record :: rest) := by
    unfold seekToLsn
    rw [dropped]
  have valid := isValid_getRedoStartLsn fun other mem =>
    numbered.valid other (List.mem_append_right before mem)
  unfold phaseAnalysis
  simp only [found, Option.getD_some]
  rw [if_pos valid]

theorem durable_split {durable before rest : List LogRecord} {record found : LogRecord}
    (numbered : Numbered (before ++ record :: rest))
    (survives : durable <+: before ++ record :: rest)
    (mem : found ∈ durable) (sameLsn : found.lsn = record.lsn) :
    ∃ remaining, durable = before ++ record :: remaining := by
  have ordered := List.pairwise_append.mp numbered.increasing
  obtain ⟨lost, whole⟩ := survives
  rcases List.append_eq_append_iff.mp whole with
    ⟨more, early, _⟩ | ⟨more, late, tail⟩
  · have lower := ordered.2.2 found
      (early ▸ List.mem_append_left more mem) record List.mem_cons_self
    omega
  cases more with
  | nil =>
    rw [List.append_nil] at late
    have lower := ordered.2.2 found (late ▸ mem) record List.mem_cons_self
    omega
  | cons first more =>
    rw [List.cons_append, List.cons.injEq] at tail
    exact ⟨more, tail.1.symm ▸ late⟩

theorem Numbered.of_prefix {durable log : List LogRecord}
    (numbered : Numbered log) (survives : durable <+: log) : Numbered durable :=
  ⟨numbered.increasing.sublist survives.sublist,
    fun record mem => numbered.valid record (survives.subset mem)⟩

theorem Recorded.sameRecovery {system : CheckpointedLog}
    (recorded : system.Recorded) : system.SameRecovery := by
  intro durable survives present
  cases checkpoint : system.master with
  | none => exact ⟨rfl, fun _ => Iff.rfl⟩
  | some lsn =>
    obtain ⟨before, record, rest, split, rfl, finished, written⟩ :=
      (recorded.covered lsn checkpoint).split
    obtain ⟨found, mem, sameLsn⟩ := present record.lsn checkpoint
    have numbered := Numbered.of_prefix recorded.numbered survives
    obtain ⟨remaining, rfl⟩ := durable_split (split ▸ recorded.numbered)
      (split ▸ survives) mem sameLsn
    rw [phaseAnalysis_checkpoint numbered, phaseAnalysis_none numbered]
    constructor
    · funext pageId
      have whole := @phaseRedo_scanned [] (before ++ record :: remaining)
        numbered system.disk pageId
      rw [List.nil_append] at whole
      rw [phaseRedo_scanned numbered, whole]
      cases onDisk : system.disk pageId with
      | none => rfl
      | some page =>
        have settled : ∀ other ∈ before.filter (·.changes pageId), Settled other page := by
          intro other kept
          obtain ⟨early, changes⟩ := List.mem_filter.mp kept
          have same := ((changes_iff _ _).mp changes).2.2
          subst same
          exact written other early changes page onDisk
        rw [Option.map_some, Option.map_some, List.filter_append,
          List.foldl_append, foldl_redoPage_of_settled settled]
    intro txnId
    change txnId ∈ loserIds (scan (record :: remaining)) ↔
      txnId ∈ loserIds (scan (before ++ record :: remaining))
    rw [mem_loserIds_scan, mem_loserIds_scan, lastTracked_append]
    cases last : lastTracked (record :: remaining) txnId with
    | some latest => rw [Option.some_or]
    | none =>
      constructor
      · rintro ⟨latest, nothing, _⟩
        cases nothing
      · rintro ⟨latest, early, unfinished⟩
        rw [finished txnId latest early] at unfinished
        cases unfinished

/-- In every history whose checkpoints are taken while all logged
transactions are finished and all logged changes are on disk, recovery from
the checkpoint agrees with recovery from the start of the log. -/
theorem recovery_from_checkpoint (pages : PageStore) (events : List CheckpointEvent)
    (quiet : GuardedRuns.Along step Quiet { memory := pages, disk := pages } events)
    (small : (GuardedRuns.run step { memory := pages, disk := pages } events).nextLsn ≤ 2 ^ 64) :
    (GuardedRuns.run step { memory := pages, disk := pages } events).SameRecovery :=
  ((recorded_initial pages).run quiet small).sameRecovery

def blankPage : PageImage := ⟨List.replicate 64 0, by decide⟩

/-- A checkpoint after the commit of the only transaction. -/
theorem recovery_from_checkpoint_committed :
    (GuardedRuns.run step { memory := fun _ => none, disk := fun _ => none }
      [.log { txnId := 1, type := .txnBegin } blankPage, .log { txnId := 1, type := .txnCommit }
        blankPage, .checkpoint]).SameRecovery := by
  refine recovery_from_checkpoint _ _ ⟨trivial, trivial, ⟨?_, ?_⟩, trivial⟩ (by decide)
  · intro txnId record last
    change lastTracked ([{ lsn := 1, txnId := 1, type := .txnBegin }] ++
      [{ lsn := 2, txnId := 1, type := .txnCommit }]) txnId = some record at last
    rw [lastTracked_append_singleton] at last
    split_ifs at last with same
    · cases last
      rfl
    have other : txnId ≠ 1 := fun one => same ⟨rfl, one.symm⟩
    have nothing : lastTracked [{ lsn := 1, txnId := 1, type := .txnBegin }] txnId = none := by
      simp [lastTracked, other.symm]
    rw [nothing] at last
    cases last
  · intro record _ _ page present
    cases present

/-- A transaction that is open at the checkpoint is no loser for recovery
from there. -/
theorem recovery_misses_open_transaction :
    ¬ (GuardedRuns.run step { memory := fun _ => none, disk := fun _ => none }
      [.log { txnId := 1, type := .txnBegin } blankPage, .checkpoint]).SameRecovery := by
  intro same
  have losers := (same _ (List.prefix_refl _) (by
    intro lsn found
    cases found
    exact ⟨{ lsn := 2, type := .checkpointBegin }, by decide, rfl⟩)).2 1
  exact absurd losers (by decide +kernel)

end CheckpointedLog

end KlyroDB

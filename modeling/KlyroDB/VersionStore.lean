import KlyroDB.MapUpdates
import Mathlib.Logic.Function.Basic
import Mathlib.Logic.Relation

/-!
# Stores of row versions

A version names its creator, its deleter, if any, and the version it replaces.
A mark is never taken over by another transaction.
-/

namespace VersionStore

open Function (update_cases update_of_ne update_self)

structure Version (Id Txn Body : Type*) where
  creator : Txn
  deleter : Option Txn
  previous : Option Id
  body : Body

abbrev Store (Id Txn Body : Type*) := Id → Option (Version Id Txn Body)

variable {Id Txn Body : Type*}

/-- A version is visible if its creation is seen and its deletion is not. -/
def Version.Visible (sees : Txn → Prop) (version : Version Id Txn Body) : Prop :=
  sees version.creator ∧ ∀ deleter, version.deleter = some deleter → ¬ sees deleter

/-- The second identifier names a version that replaces the first one. -/
def Replaces (store : Store Id Txn Body) (old new : Id) : Prop :=
  ∃ version, store new = some version ∧ version.previous = some old

/-- One write of a transaction.  A replacement is added after the version it
replaces was marked. -/
inductive Write [DecidableEq Id] (writer : Txn) (store : Store Id Txn Body) :
    Store Id Txn Body → Prop
  | add (id : Id) (version : Version Id Txn Body) (free : store id = none)
      (creator : version.creator = writer) (live : version.deleter = none) (handed : ∀ old,
      version.previous = some old → ∃ replaced, store old = some replaced ∧ replaced.deleter = some
      writer) : Write writer store (Function.update store id (some version))
  | mark (id : Id) (version : Version Id Txn Body) (stored : store id = some version)
      (unclaimed : version.deleter = none ∨ version.deleter = some writer) :
      Write writer store (Function.update store id (some { version with deleter := some writer }))

/-- What writes do to a stored version: it may get a deleter among the given
transactions. -/
structure Aged (writers : Txn → Prop) (version later : Version Id Txn Body) : Prop where
  creator_eq : later.creator = version.creator
  previous_eq : later.previous = version.previous
  body_eq : later.body = version.body
  deleter_eq : later.deleter = version.deleter ∨ version.deleter = none ∧ ∃ writer, later.deleter =
    some writer ∧ writers writer

/-- Every stored version is still there, up to new deleters. -/
def Extends (writers : Txn → Prop) (store later : Store Id Txn Body) : Prop :=
  ∀ id version, store id = some version → ∃ aged, later id = some aged ∧ Aged writers version aged

theorem Aged.refl (writers : Txn → Prop) (version : Version Id Txn Body) :
    Aged writers version version :=
  ⟨rfl, rfl, rfl, Or.inl rfl⟩

theorem Aged.trans {writers : Txn → Prop} {first second third : Version Id Txn Body}
    (early : Aged writers first second) (late : Aged writers second third) :
    Aged writers first third := by
  refine ⟨late.creator_eq.trans early.creator_eq, late.previous_eq.trans early.previous_eq,
    late.body_eq.trans early.body_eq, ?_⟩
  rcases late.deleter_eq with kept | ⟨unmarked, writer, marked, among⟩
  · rw [kept]
    exact early.deleter_eq
  · rcases early.deleter_eq with same | ⟨_, other, already, _⟩
    · exact Or.inr ⟨same ▸ unmarked, writer, marked, among⟩
    · rw [already] at unmarked
      contradiction

variable {writers : Txn → Prop} {version : Version Id Txn Body} {start : Option Id} {id : Id}

/-- A deleter is never replaced. -/
theorem Aged.deleter_of_marked {later : Version Id Txn Body}
    (aged : Aged writers version later) {deleter : Txn} (marked : version.deleter = some deleter) :
    later.deleter = some deleter := by
  rcases aged.deleter_eq with same | ⟨unmarked, _⟩
  · rw [same, marked]
  · rw [unmarked] at marked
    contradiction

theorem Extends.refl (writers : Txn → Prop) (store : Store Id Txn Body) :
    Extends writers store store :=
  fun _ version stored => ⟨version, stored, Aged.refl writers version⟩

theorem Extends.trans {writers : Txn → Prop} {first second third : Store Id Txn Body}
    (early : Extends writers first second)
    (late : Extends writers second third) : Extends writers first third := by
  intro id version stored
  obtain ⟨middle, here, young⟩ := early id version stored
  obtain ⟨last, there, old⟩ := late id middle here
  exact ⟨last, there, young.trans old⟩

theorem Extends.mono {more : Txn → Prop} {store later : Store Id Txn Body}
    (extended : Extends writers store later) (included : ∀ writer, writers writer → more writer) :
    Extends more store later := by
  intro id version stored
  obtain ⟨aged, there, old⟩ := extended id version stored
  refine ⟨aged, there, old.creator_eq, old.previous_eq, old.body_eq, ?_⟩
  rcases old.deleter_eq with same | ⟨unmarked, writer, marked, among⟩
  · exact Or.inl same
  · exact Or.inr ⟨unmarked, writer, marked, included writer among⟩

/-- The body of the first visible version along the replaced versions. -/
inductive Reads (sees : Txn → Prop) (store : Store Id Txn Body) : Option Id → Option Body → Prop
  | exhausted : Reads sees store none none
  | found {id : Id} {version : Version Id Txn Body} (stored : store id = some version)
      (visible : version.Visible sees) : Reads sees store (some id) (some version.body)
  | skipped {id : Id} {version : Version Id Txn Body} {result : Option Body}
      (stored : store id = some version) (hidden : ¬ version.Visible sees)
      (rest : Reads sees store version.previous result) : Reads sees store (some id) result

section

variable {sees : Txn → Prop}

theorem Reads.unique {store : Store Id Txn Body} {first second : Option Body}
    (reads : Reads sees store start first) (again : Reads sees store start second) :
    first = second := by
  induction reads with
  | exhausted =>
    cases again
    rfl
  | found stored visible =>
    cases again with
    | found storedAgain _ =>
      rw [stored] at storedAgain
      cases storedAgain
      rfl
    | skipped storedAgain hidden _ =>
      rw [stored] at storedAgain
      cases storedAgain
      exact absurd visible hidden
  | skipped stored hidden _ ih =>
    cases again with
    | found storedAgain visible =>
      rw [stored] at storedAgain
      cases storedAgain
      exact absurd visible hidden
    | skipped storedAgain _ rest =>
      rw [stored] at storedAgain
      cases storedAgain
      exact ih rest

/-- Versions that are not below the bound do not matter to a read that starts
below it. -/
theorem Reads.of_agree_below {store other : Store Id Txn Body} {rank : Id → Nat} {bound : Nat}
    (descends : ∀ old new, Replaces store old new → rank old < rank new)
    (agree : ∀ id version, rank id < bound → store id = some version →
      other id = some version) {result : Option Body} (reads : Reads sees store start result)
    (below : ∀ id, start = some id → rank id < bound) : Reads sees other start result := by
  induction reads with
  | exhausted => exact .exhausted
  | found stored visible =>
    exact .found (agree _ _ (below _ rfl) stored) visible
  | @skipped id version result stored hidden rest ih =>
    apply Reads.skipped (agree _ _ (below _ rfl) stored) hidden
    apply ih
    intro old linked
    have lower := descends old id ⟨version, stored, linked⟩
    exact Nat.lt_trans lower (below id rfl)

/-- Deleters that a reader does not see do not change what it sees. -/
theorem Aged.visible_iff {later : Version Id Txn Body} (aged : Aged writers version later)
    (unseen : ∀ writer, writers writer → ¬ sees writer) :
    later.Visible sees ↔ version.Visible sees := by
  rw [Version.Visible, Version.Visible, aged.creator_eq]
  rcases aged.deleter_eq with same | ⟨unmarked, writer, marked, among⟩
  · rw [same]
  refine and_congr_right fun _ => ?_
  rw [unmarked, marked]
  constructor
  · intro _ deleter impossible
    contradiction
  · intro _ deleter same
    cases same
    exact unseen writer among

theorem Reads.extend {store later : Store Id Txn Body} (extended : Extends writers store later)
    (unseen : ∀ writer, writers writer → ¬ sees writer) {result : Option Body}
    (reads : Reads sees store start result) : Reads sees later start result := by
  induction reads with
  | exhausted => exact .exhausted
  | found stored visible =>
    obtain ⟨aged, there, old⟩ := extended _ _ stored
    rw [← old.body_eq]
    exact .found there ((old.visible_iff unseen).mpr visible)
  | skipped stored hidden _ ih =>
    obtain ⟨aged, there, old⟩ := extended _ _ stored
    refine .skipped there (fun visible => hidden ?_) ?_
    · exact (old.visible_iff unseen).mp visible
    · rw [old.previous_eq]
      exact ih

end

/-- Each replaced version is stored and was marked by the creator of its
replacement, and replacement is well founded. -/
structure Chained (store : Store Id Txn Body) : Prop where
  handed : ∀ old new version, store new = some version → version.previous = some old → ∃ replaced,
    store old = some replaced ∧ replaced.deleter = some version.creator
  rank : ∃ rank : Id → Nat, ∀ old new, Replaces store old new → rank old < rank new

theorem chained_empty : Chained (fun _ => none : Store Id Txn Body) where
  handed := by
    intro old new version stored
    contradiction
  rank := by
    refine ⟨fun _ => 0, ?_⟩
    rintro old new ⟨version, stored, _⟩
    contradiction

/-- Each replaced version is stored, and replacement is well founded. -/
structure Grounded (store : Store Id Txn Body) : Prop where
  stored : ∀ old new, Replaces store old new → ∃ version, store old = some version
  rank : ∃ rank : Id → Nat, ∀ old new, Replaces store old new → rank old < rank new

/-- The links from the identifier lead over stored versions to an end. -/
inductive Ends (store : Store Id Txn Body) : Id → Prop
  | first {id : Id} {version : Version Id Txn Body} (stored : store id = some version)
      (unlinked : version.previous = none) : Ends store id
  | replaced {id old : Id} {version : Version Id Txn Body} (stored : store id = some version)
      (linked : version.previous = some old) (rest : Ends store old) : Ends store id

theorem grounded_empty : Grounded (fun _ => none : Store Id Txn Body) where
  stored := by
    rintro old new ⟨version, stored, _⟩
    contradiction
  rank := chained_empty.rank

theorem Chained.grounded {store : Store Id Txn Body}
    (chained : Chained store) : Grounded store where
  stored := by
    rintro old new ⟨version, stored, linked⟩
    obtain ⟨replaced, present, _⟩ := chained.handed old new version stored linked
    exact ⟨replaced, present⟩
  rank := chained.rank

theorem Grounded.ends {store : Store Id Txn Body} (grounded : Grounded store)
    (stored : store id = some version) : Ends store id := by
  obtain ⟨rank, descends⟩ := grounded.rank
  induction size : rank id using Nat.strongRecOn generalizing id version with
  | _ size ih =>
    cases linked : version.previous with
    | none => exact .first stored linked
    | some old =>
      have replaces : Replaces store old id := ⟨version, stored, linked⟩
      obtain ⟨replaced, present⟩ := grounded.stored old id replaces
      have lower := descends old id replaces
      exact .replaced stored linked (ih (rank old) (size ▸ lower) present rfl)

section Changes

variable [DecidableEq Id] {store : Store Id Txn Body}

/-- A version is added that replaces a stored one, or none. -/
theorem Grounded.add (grounded : Grounded store) {id : Id}
    (free : store id = none) {added : Version Id Txn Body}
    (linked : ∀ old, added.previous = some old → ∃ replaced, store old = some replaced) :
    Grounded (Function.update store id (some added)) := by
  have stays {old : Id} (present : ∃ replaced, store old = some replaced) : old ≠ id := by
    rintro rfl
    obtain ⟨replaced, present⟩ := present
    rw [free] at present
    contradiction
  have before : ∀ old new, Replaces (Function.update store id (some added)) old new → (new = id ∧
      added.previous = some old ∧ ∃ replaced, store old = some replaced) ∨
      (new ≠ id ∧ Replaces store old new) := by
    rintro old new ⟨version, stored, link⟩
    rcases update_cases stored with ⟨rfl, rfl⟩ | ⟨same, stored⟩
    · exact .inl ⟨rfl, link, linked old link⟩
    · exact .inr ⟨same, version, stored, link⟩
  constructor
  · intro old new replaces
    have present : ∃ replaced, store old = some replaced := by
      rcases before old new replaces with ⟨_, _, present⟩ | ⟨_, earlier⟩
      · exact present
      · exact grounded.stored old new earlier
    rw [update_of_ne (stays present)]
    exact present
  obtain ⟨rank, descends⟩ := grounded.rank
  refine ⟨Function.update rank id ((added.previous.map rank).getD 0 + 1), ?_⟩
  intro old new replaces
  rcases before old new replaces with ⟨rfl, link, present⟩ | ⟨ne, earlier⟩
  · rw [update_self, update_of_ne (stays present), link]
    exact Nat.lt_succ_self _
  · rw [update_of_ne ne, update_of_ne (stays (grounded.stored old new earlier))]
    exact descends old new earlier

/-- A version is rewritten without a change of its link. -/
theorem Grounded.rewrite (grounded : Grounded store) {id : Id}
    {version later : Version Id Txn Body} (present : store id = some version)
    (same : later.previous = version.previous) :
    Grounded (Function.update store id (some later)) := by
  have before : ∀ old new, Replaces (Function.update store id (some later)) old new → Replaces store
      old new := by
    rintro old new ⟨found, stored, link⟩
    rcases update_cases stored with ⟨rfl, rfl⟩ | ⟨-, stored⟩
    · exact ⟨version, present, same.symm.trans link⟩
    · exact ⟨found, stored, link⟩
  constructor
  · intro old new replaces
    by_cases here : old = id
    · subst here
      exact ⟨later, update_self ..⟩
    · rw [update_of_ne here]
      exact grounded.stored old new (before old new replaces)
  · obtain ⟨rank, descends⟩ := grounded.rank
    exact ⟨rank, fun old new replaces =>
      descends old new (before old new replaces)⟩

end Changes

theorem Ends.exists_reads {store : Store Id Txn Body} (sees : Txn → Prop)
    (ends : Ends store id) : ∃ result, Reads sees store (some id) result := by
  classical
  induction ends with
  | @first id version stored unlinked =>
    by_cases visible : version.Visible sees
    · exact ⟨some version.body, .found stored visible⟩
    · refine ⟨none, .skipped stored visible ?_⟩
      rw [unlinked]
      exact .exhausted
  | @replaced id old version stored linked rest ih =>
    by_cases visible : version.Visible sees
    · exact ⟨some version.body, .found stored visible⟩
    · obtain ⟨result, reads⟩ := ih
      refine ⟨result, .skipped stored visible ?_⟩
      rw [linked]
      exact reads

section

variable {store : Store Id Txn Body} (chained : Chained store) (sees : Txn → Prop)
  (stored : store id = some version)

include chained sees stored

theorem Chained.exists_reads_previous : ∃ result, Reads sees store version.previous result := by
  cases linked : version.previous with
  | none => exact ⟨none, .exhausted⟩
  | some old =>
    obtain ⟨replaced, present, -⟩ := chained.handed old id version stored linked
    exact (chained.grounded.ends present).exists_reads sees

theorem Chained.exists_reads : ∃ result, Reads sees store (some id) result :=
  (chained.grounded.ends stored).exists_reads sees

end

section Writes

variable [DecidableEq Id] {writer : Txn} {store after : Store Id Txn Body}

section

variable (write : Write writer store after)

include write

theorem Write.extends : Extends (· = writer) store after := by
  intro other version stored
  cases write with
  | add id added free creator live handed =>
    refine ⟨version, ?_, Aged.refl _ version⟩
    rw [update_of_ne, stored]
    rintro rfl
    rw [free] at stored
    contradiction
  | mark id marked present unclaimed =>
    by_cases same : other = id
    · subst same
      rw [stored] at present
      cases present
      rw [update_self]
      refine ⟨_, rfl, rfl, rfl, rfl, ?_⟩
      rcases unclaimed with unmarked | own
      · exact Or.inr ⟨unmarked, writer, rfl, rfl⟩
      · exact Or.inl own.symm
    · rw [update_of_ne same]
      exact ⟨version, stored, Aged.refl _ version⟩

theorem Write.handed (chained : Chained store) (old new : Id) (version : Version Id Txn Body)
    (stored : after new = some version) (link : version.previous = some old) :
    ∃ replaced, after old = some replaced ∧ replaced.deleter = some version.creator := by
  have kept (replaced : Version Id Txn Body) (creator : Txn) (present : store old = some replaced)
      (marked : replaced.deleter = some creator) : ∃ later, after old = some later ∧ later.deleter =
      some creator := by
    obtain ⟨later, there, aged⟩ := write.extends old replaced present
    exact ⟨later, there, aged.deleter_of_marked marked⟩
  have known (prior : Version Id Txn Body) (before : store new = some prior)
      (sameLink : version.previous = prior.previous) (sameCreator : version.creator = prior.creator)
      : ∃ replaced, after old = some replaced ∧ replaced.deleter = some version.creator := by
    obtain ⟨replaced, present, marked⟩ := chained.handed old new prior before (sameLink ▸ link)
    rw [sameCreator]
    exact kept replaced prior.creator present marked
  cases write with
  | add id added free creator live handed =>
    rcases update_cases stored with ⟨rfl, rfl⟩ | ⟨-, stored⟩
    · obtain ⟨replaced, present, marked⟩ := handed old link
      rw [creator]
      exact kept replaced writer present marked
    · exact known version stored rfl rfl
  | mark id marked present unclaimed =>
    rcases update_cases stored with ⟨rfl, rfl⟩ | ⟨-, stored⟩
    · exact known marked present rfl rfl
    · exact known version stored rfl rfl

/-- What replaces what after a write: as before, or by the added version. -/
theorem Write.replaces {old new : Id} (replaces : Replaces after old new) :
    Replaces store old new ∨
      store new = none ∧ ∃ version replaced, after new = some version ∧
        version.creator = writer ∧ store old = some replaced := by
  obtain ⟨version, stored, link⟩ := replaces
  cases write with
  | add id added free creator live handed =>
    rcases update_cases stored with ⟨rfl, rfl⟩ | ⟨-, stored⟩
    · obtain ⟨replaced, present, _⟩ := handed old link
      exact Or.inr ⟨free, version, replaced, update_self .., creator, present⟩
    · exact Or.inl ⟨version, stored, link⟩
  | mark id marked present unclaimed =>
    rcases update_cases stored with ⟨rfl, rfl⟩ | ⟨-, stored⟩
    · exact Or.inl ⟨marked, present, link⟩
    · exact Or.inl ⟨version, stored, link⟩

theorem Write.chained (chained : Chained store) : Chained after := by
  refine ⟨write.handed chained, ?_⟩
  cases write with
  | add id added free creator live handed =>
    have linked : ∀ old, added.previous = some old → ∃ replaced, store old = some replaced := by
      intro old link
      obtain ⟨replaced, present, _⟩ := handed old link
      exact ⟨replaced, present⟩
    exact (chained.grounded.add free linked).rank
  | mark id marked present unclaimed =>
    have same : ({ marked with deleter := some writer } :
        Version Id Txn Body).previous = marked.previous := rfl
    exact (chained.grounded.rewrite present same).rank

end

/-- A sequence of writes of one transaction. -/
def Writes (writer : Txn) : Store Id Txn Body → Store Id Txn Body → Prop :=
  Relation.ReflTransGen (Write writer)

theorem Writes.extends (writes : Writes writer store after) : Extends (· = writer) store after := by
  induction writes with
  | refl => exact Extends.refl _ store
  | tail _ write ih => exact ih.trans write.extends

theorem Writes.chained (writes : Writes writer store after)
    (chained : Chained store) : Chained after := by
  induction writes with
  | refl => exact chained
  | tail _ write ih => exact write.chained ih

/-- All creators and deleters are among the given transactions. -/
def Authored (authors : Txn → Prop) (store : Store Id Txn Body) : Prop :=
  ∀ id version, store id = some version → authors version.creator ∧
    ∀ deleter, version.deleter = some deleter → authors deleter

theorem Write.authored {authors : Txn → Prop}
    (write : Write writer store after) (known : authors writer)
    (authored : Authored authors store) : Authored authors after := by
  intro other version stored
  cases write with
  | add id added free creator live handed =>
    rcases update_cases stored with ⟨rfl, rfl⟩ | ⟨-, stored⟩
    · rw [creator, live]
      exact ⟨known, by simp⟩
    · exact authored other version stored
  | mark id marked present unclaimed =>
    rcases update_cases stored with ⟨rfl, rfl⟩ | ⟨-, stored⟩
    · refine ⟨(authored _ marked present).1, ?_⟩
      rintro deleter ⟨⟩
      exact known
    · exact authored other version stored

theorem Writes.authored {authors : Txn → Prop}
    (writes : Writes writer store after) (known : authors writer)
    (authored : Authored authors store) : Authored authors after := by
  induction writes with
  | refl => exact authored
  | tail _ write ih => exact write.authored known ih

end Writes

section Uniqueness

/-- The identifier names a version that descends from the row's first one. -/
def Descends (store : Store Id Txn Body) : Id → Id → Prop :=
  Relation.ReflTransGen (Replaces store)

/-- Each version was replaced at most once, and by a transaction that created
it itself or to which its creation was known. -/
structure Linear (knows : Txn → Txn → Prop) (store : Store Id Txn Body) : Prop where
  once : ∀ old first second, Replaces store old first → Replaces store old second → first = second
  known : ∀ old new replaced version, store old = some replaced → store new = some version →
    version.previous = some old → replaced.creator = version.creator ∨ knows version.creator
    replaced.creator

variable {knows : Txn → Txn → Prop} {sees : Txn → Prop} {store : Store Id Txn Body}

section

variable (linear : Linear knows store) (chained : Chained store)
  (closed : ∀ txn other, sees txn → knows txn other → sees other)

include linear chained closed

/-- A reader that sees a version sees the creation of all that it descends
from. -/
theorem Linear.sees_creator {early late : Id} {last : Version Id Txn Body}
    (descends : Descends store early late) (stored : store late = some last)
    (seen : sees last.creator) : ∃ first, store early = some first ∧ sees first.creator := by
  induction descends generalizing last with
  | refl => exact ⟨last, stored, seen⟩
  | tail _ replaces ih =>
    obtain ⟨version, there, link⟩ := replaces
    rw [stored] at there
    cases there
    obtain ⟨replaced, present, _⟩ := chained.handed _ _ last stored link
    refine ih present ?_
    rcases linear.known _ _ replaced last present stored link with own | known
    · rw [own]
      exact seen
    · exact closed _ _ seen known

/-- A version that was replaced by what a reader sees is not visible. -/
theorem Linear.eq_of_descends {early late : Id} {first last : Version Id Txn Body}
    (descends : Descends store early late) (firstStored : store early = some first)
    (lastStored : store late = some last) (firstVisible : first.Visible sees)
    (lastVisible : last.Visible sees) : early = late := by
  rcases descends.cases_head with same | ⟨next, replaces, rest⟩
  · exact same
  obtain ⟨version, nextStored, link⟩ := replaces
  obtain ⟨replaced, present, marked⟩ := chained.handed early next version nextStored link
  rw [firstStored] at present
  cases present
  obtain ⟨same, there, seen⟩ := linear.sees_creator chained closed rest lastStored lastVisible.1
  rw [nextStored] at there
  cases there
  exact absurd seen (firstVisible.2 version.creator marked)

/-- At most one version of a row is visible. -/
theorem Linear.visible_unique {row first second : Id} {one two : Version Id Txn Body}
    (firstOf : Descends store row first) (secondOf : Descends store row second)
    (firstStored : store first = some one) (secondStored : store second = some two)
    (firstVisible : one.Visible sees) (secondVisible : two.Visible sees) : first = second := by
  have line : Relator.RightUnique (Replaces store) :=
    fun old left right => linear.once old left right
  rcases firstOf.total_of_right_unique line secondOf with later | earlier
  · exact linear.eq_of_descends chained closed later firstStored secondStored
      firstVisible secondVisible
  · exact (linear.eq_of_descends chained closed earlier secondStored
      firstStored secondVisible firstVisible).symm

end

theorem linear_empty (knows : Txn → Txn → Prop) :
    Linear knows (fun _ => none : Store Id Txn Body) where
  once := by
    rintro old first second ⟨version, stored, _⟩
    contradiction
  known := by
    intro old new replaced version stored
    contradiction

theorem Linear.mono {more : Txn → Txn → Prop} (linear : Linear knows store)
    (included : ∀ txn other, knows txn other → more txn other) : Linear more store :=
  ⟨linear.once, fun old new replaced version stored there link =>
    (linear.known old new replaced version stored there link).imp_right (included _ _)⟩

section

variable [DecidableEq Id] {writer : Txn} {after : Store Id Txn Body}
  (write : Write writer store after)

include write

theorem Write.stored_of_later {id : Id} {later : Version Id Txn Body}
    (stored : after id = some later) :
    (∃ version, store id = some version ∧
        later.creator = version.creator ∧ later.previous = version.previous) ∨
      store id = none ∧ later.creator = writer := by
  cases write with
  | add added version free creator live handed =>
    rcases update_cases stored with ⟨rfl, rfl⟩ | ⟨-, stored⟩
    · exact Or.inr ⟨free, creator⟩
    · exact Or.inl ⟨later, stored, rfl, rfl⟩
  | mark marked version present unclaimed =>
    rcases update_cases stored with ⟨rfl, rfl⟩ | ⟨-, stored⟩
    · exact Or.inl ⟨version, present, rfl, rfl⟩
    · exact Or.inl ⟨later, stored, rfl, rfl⟩

theorem Write.fresh_unique {first second : Id} (firstFree : store first = none)
    (secondFree : store second = none) (firstStored : after first ≠ none)
    (secondStored : after second ≠ none) : first = second := by
  cases write with
  | add added version free creator live handed =>
    have only (id : Id) (free : store id = none) (there : Function.update store added (some version)
        id ≠ none) : id = added := by
      by_contra ne
      rw [update_of_ne ne] at there
      exact there free
    rw [only first firstFree firstStored, only second secondFree secondStored]
  | mark marked version present unclaimed =>
    refine absurd ?_ firstStored
    rw [update_of_ne, firstFree]
    rintro rfl
    rw [present] at firstFree
    contradiction

/-- A write keeps the line if what it adds replaces a version that was not
replaced before and whose creation is known to the writer. -/
theorem Write.linear (linear : Linear knows store) (chained : Chained store)
    (allowed : ∀ old new, store new = none → Replaces after old new →
      (∀ other, ¬ Replaces store old other) ∧
        ∀ replaced, store old = some replaced →
          replaced.creator = writer ∨ knows writer replaced.creator) : Linear knows after := by
  have before {old new : Id} (replaces : Replaces after old new) :
      Replaces store old new ∨ store new = none := by
    obtain known | ⟨free, _⟩ := write.replaces replaces
    · exact Or.inl known
    · exact Or.inr free
  constructor
  case once =>
    intro old first second firstOne secondOne
    rcases before firstOne with firstOld | firstFree
    · rcases before secondOne with secondOld | secondFree
      · exact linear.once old first second firstOld secondOld
      · exact absurd firstOld ((allowed old second secondFree secondOne).1 first)
    rcases before secondOne with secondOld | secondFree
    · exact absurd secondOld ((allowed old first firstFree firstOne).1 second)
    obtain ⟨one, firstStored, _⟩ := firstOne
    obtain ⟨two, secondStored, _⟩ := secondOne
    exact write.fresh_unique firstFree secondFree
      (by rw [firstStored]; exact Option.some_ne_none one)
      (by rw [secondStored]; exact Option.some_ne_none two)
  case known =>
    intro old new replaced version oldStored newStored link
    rcases write.stored_of_later newStored with
      ⟨prior, priorStored, sameCreator, sameLink⟩ | ⟨free, created⟩
    · obtain ⟨earlier, earlierStored, _⟩ :=
        chained.handed old new prior priorStored (sameLink ▸ link)
      obtain ⟨aged, there, ages⟩ := write.extends old earlier earlierStored
      rw [oldStored] at there
      cases there
      rw [ages.creator_eq, sameCreator]
      exact linear.known old new earlier prior earlierStored priorStored (sameLink ▸ link)
    have replaces : Replaces after old new := ⟨version, newStored, link⟩
    rcases write.stored_of_later oldStored with
      ⟨earlier, earlierStored, oldCreator, _⟩ | ⟨oldFree, _⟩
    · rw [oldCreator, created]
      exact (allowed old new free replaces).2 earlier earlierStored
    rcases write.replaces replaces with ⟨prior, priorStored, _⟩ |
      ⟨_, _, earlier, _, _, earlierStored⟩
    · rw [free] at priorStored
      contradiction
    · rw [oldFree] at earlierStored
      contradiction

end

end Uniqueness

end VersionStore

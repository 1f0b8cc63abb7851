import KlyroDB.CatalogCalls
import KlyroDB.GuardedRuns
import KlyroDB.MapUpdates

/-!
# The maps of the catalog fit together

Names and identifiers determine each other, indexes refer to tables and columns
that exist, and every identifier is handed out once.
-/

namespace KlyroDB

open AList (lookup_erase_cases lookup_erase_ne lookup_insert
  lookup_insert_cases lookup_insert_ne mem_insert)

namespace Catalog

/-- The maps of the catalog are consistent. -/
structure Consistent (catalog : Catalog) : Prop where
  schema_named : ∀ id schema, catalog.schemas.lookup id = some schema →
    schema.schemaId = id ∧ catalog.schemaNames.lookup schema.name = some id
  schema_exists : ∀ name id, catalog.schemaNames.lookup name = some id →
    ∃ schema, catalog.schemas.lookup id = some schema ∧ schema.name = name
  table_named : ∀ id table, catalog.tables.lookup id = some table →
    table.tableId = id ∧ key id = id ∧
      (catalog.namesOf table.schemaId).lookup table.name = some id ∧
      table.schemaId ∈ catalog.schemas
  table_exists : ∀ schemaId name id, (catalog.namesOf schemaId).lookup name = some id →
    ∃ table, catalog.tables.lookup id = some table ∧
      table.schemaId = schemaId ∧ table.name = name
  index_refers : ∀ id index, catalog.indexes.lookup id = some index →
    index.indexId = id ∧ key id = id ∧
      ∃ table, catalog.tables.lookup (key index.tableId) = some table ∧
        index.schemaId = table.schemaId ∧
        ∀ column ∈ index.indexedColumns, ∃ found, table.schema.columnById column = .ok found
  index_listed : ∀ id index, catalog.indexes.lookup id = some index →
    ((catalog.tableIndexes.lookup (key index.tableId)).getD []).count id = 1
  list_refers : ∀ tableKey id, id ∈ (catalog.tableIndexes.lookup tableKey).getD [] →
    ∃ index, catalog.indexes.lookup id = some index ∧ key index.tableId = tableKey
  index_named : ∀ one two first second, catalog.indexes.lookup one = some first →
    catalog.indexes.lookup two = some second →
    first.schemaId = second.schemaId → first.name = second.name → one = two

theorem consistent_empty (root : Nat) : Consistent { catalogRoot := root } where
  schema_named _ _ found := by simp at found
  schema_exists _ _ found := by simp at found
  table_named _ _ found := by simp at found
  table_exists _ _ _ found := by simp [namesOf] at found
  index_refers _ _ found := by simp at found
  index_listed _ _ found := by simp at found
  list_refers _ _ mem := by simp at mem
  index_named _ _ _ _ found := by simp at found

theorem Consistent.validate {catalog : Catalog}
    (consistent : Consistent catalog) : catalog.validate = .ok () := by
  rw [Catalog.validate, if_pos]
  apply List.all_eq_true.mpr
  rintro ⟨id, index⟩ mem
  obtain ⟨-, -, table, found, -, columns⟩ :=
    consistent.index_refers id index (AList.mem_lookup_iff.mpr mem)
  simp only [indexValid, found]
  apply List.all_eq_true.mpr
  intro column columnMember
  obtain ⟨existing, success⟩ := columns column columnMember
  simp [success]

section Frame

variable {catalog : Catalog} (consistent : Consistent catalog)

include consistent

/-- The counters and the root do not matter, and names of a schema may be
entered again. -/
theorem Consistent.congr {after : Catalog} (schemas : after.schemas = catalog.schemas)
    (schemaNames : after.schemaNames = catalog.schemaNames) (tables : after.tables = catalog.tables)
    (names : ∀ schemaId, after.namesOf schemaId = catalog.namesOf schemaId)
    (indexes : after.indexes = catalog.indexes)
    (tableIndexes : after.tableIndexes = catalog.tableIndexes) : Consistent after := by
  obtain ⟨schema_named, schema_exists, table_named, table_exists,
    index_refers, index_listed, list_refers, index_named⟩ := consistent
  constructor <;> simp only [schemas, schemaNames, tables, names, indexes, tableIndexes] <;>
    assumption

theorem Consistent.addSchema {name : List UInt8} (newName : catalog.schemaNames.lookup name = none)
    (newId : catalog.schemas.lookup (key catalog.nextSchemaId) = none) :
    Consistent (catalog.addSchema name) := by
  obtain ⟨schema_named, schema_exists, table_named, table_exists,
    index_refers, index_listed, list_refers, index_named⟩ := consistent
  refine ⟨?_, ?_, ?_, table_exists, index_refers, index_listed, list_refers, index_named⟩
  · intro id schema found
    rcases lookup_insert_cases found with ⟨rfl, rfl⟩ | ⟨-, found⟩
    · exact ⟨rfl, lookup_insert _⟩
    obtain ⟨sameId, named⟩ := schema_named id schema found
    have other : schema.name ≠ name := by
      intro same
      rw [same, newName] at named
      cases named
    refine ⟨sameId, ?_⟩
    simpa only [Catalog.addSchema, lookup_insert_ne other] using named
  · intro other id found
    rcases lookup_insert_cases found with ⟨rfl, rfl⟩ | ⟨-, found⟩
    · exact ⟨_, lookup_insert _, rfl⟩
    obtain ⟨schema, existing, same⟩ := schema_exists other id found
    have older : id ≠ key catalog.nextSchemaId := by
      rintro rfl
      rw [newId] at existing
      cases existing
    refine ⟨schema, ?_, same⟩
    simpa only [Catalog.addSchema, lookup_insert_ne older] using existing
  · intro id table found
    obtain ⟨sameId, small, named, owned⟩ := table_named id table found
    exact ⟨sameId, small, named, (mem_insert _).mpr (Or.inr owned)⟩

end Frame

theorem namesOf_addTable (catalog : Catalog) (table : TableMetadata) (schemaId : Nat) :
    (catalog.addTable table).namesOf schemaId =
      if schemaId = table.schemaId then
        (catalog.namesOf schemaId).insert table.name table.tableId
      else catalog.namesOf schemaId := by
  by_cases here : schemaId = table.schemaId
  · subst here
    simp [namesOf, addTable]
  · simp [namesOf, addTable, here]

theorem namesOf_removeTable (catalog : Catalog) (tableKey : Nat)
    (table : TableMetadata) (schemaId : Nat) :
    (catalog.removeTable tableKey table).namesOf schemaId =
      if schemaId = table.schemaId then
        (catalog.namesOf schemaId).erase table.name
      else catalog.namesOf schemaId := by
  by_cases here : schemaId = table.schemaId
  · subst here
    simp [namesOf, removeTable]
  · simp [namesOf, removeTable, here]

variable {table : TableMetadata} {first next id count : Nat} {call : CatalogCall}

theorem Consistent.addTable {catalog : Catalog}
    (consistent : Consistent catalog) (owned : table.schemaId ∈ catalog.schemas)
    (small : key table.tableId = table.tableId)
    (newName : (catalog.namesOf table.schemaId).lookup table.name = none)
    (newId : catalog.tables.lookup table.tableId = none) : Consistent (catalog.addTable table) := by
  obtain ⟨schema_named, schema_exists, table_named, table_exists,
    index_refers, index_listed, list_refers, index_named⟩ := consistent
  have tables : (catalog.addTable table).tables = catalog.tables.insert table.tableId table := by
    rw [Catalog.addTable, small]
  have older : ∀ {id : Nat} {other : TableMetadata},
      catalog.tables.lookup id = some other → id ≠ table.tableId := by
    rintro id other found rfl
    rw [newId] at found
    cases found
  refine ⟨schema_named, schema_exists, ?_, ?_, ?_, index_listed, list_refers, index_named⟩
  · intro id other found
    rw [namesOf_addTable]
    rcases lookup_insert_cases found with ⟨rfl, rfl⟩ | ⟨-, found⟩
    · simp [small, owned, Catalog.addTable]
    obtain ⟨sameId, smallId, named, otherOwned⟩ := table_named id other found
    refine ⟨sameId, smallId, ?_, otherOwned⟩
    split
    · rename_i sameSchema
      have otherName : other.name ≠ table.name := by
        intro same
        rw [sameSchema, same, newName] at named
        cases named
      rw [lookup_insert_ne otherName, named]
    · exact named
  · intro schemaId name id found
    rw [namesOf_addTable] at found
    rw [tables]
    by_cases new : schemaId = table.schemaId ∧ name = table.name
    · obtain ⟨rfl, rfl⟩ := new
      rw [if_pos rfl, lookup_insert, Option.some.injEq] at found
      subst found
      exact ⟨table, lookup_insert _, rfl, rfl⟩
    have before : (catalog.namesOf schemaId).lookup name = some id := by
      split at found
      · rename_i sameSchema
        have otherName : name ≠ table.name := fun same =>
          new ⟨sameSchema, same⟩
        rwa [lookup_insert_ne otherName] at found
      · exact found
    obtain ⟨other, existing, rest⟩ := table_exists schemaId name id before
    exact ⟨other, by rwa [lookup_insert_ne (older existing)], rest⟩
  intro id index found
  obtain ⟨sameId, smallId, other, existing, rest⟩ := index_refers id index found
  refine ⟨sameId, smallId, other, ?_, rest⟩
  rw [tables, lookup_insert_ne (older existing)]
  exact existing

theorem lookup_eraseAll (ids : List Nat) (indexes : AList fun _ : Nat => IndexMetadata) (id : Nat) :
    (ids.foldl (fun indexes id => indexes.erase (key id)) indexes).lookup id =
      if id ∈ ids.map key then none else indexes.lookup id := by
  induction ids generalizing indexes with
  | nil => simp
  | cons first ids ih =>
    rw [List.foldl_cons, ih]
    by_cases here : id = key first
    · subst here
      simp
    · simp [here]

theorem Consistent.removeTable {catalog : Catalog}
    (consistent : Consistent catalog) {tableKey : Nat}
    (found : catalog.tables.lookup tableKey = some table) :
    Consistent (catalog.removeTable tableKey table) := by
  obtain ⟨sameKey, -, tableName, -⟩ := consistent.table_named tableKey table found
  have kept : ∀ {id : Nat} {index : IndexMetadata}, (catalog.removeTable tableKey
      table).indexes.lookup id = some index → catalog.indexes.lookup id = some index ∧ key
      index.tableId ≠ tableKey := by
    intro id index stays
    rw [Catalog.removeTable, lookup_eraseAll] at stays
    split at stays
    · cases stays
    rename_i unlisted
    refine ⟨stays, ?_⟩
    rintro rfl
    have once := consistent.index_listed id index stays
    have small := (consistent.index_refers id index stays).2.1
    exact unlisted (List.mem_map.mpr ⟨id, List.count_pos_iff.mp (by omega), small⟩)
  have otherTable : ∀ {other : Nat}, other ≠ tableKey →
      (catalog.removeTable tableKey table).tables.lookup other = catalog.tables.lookup other := fun
      differs =>
    lookup_erase_ne differs
  refine ⟨consistent.schema_named, consistent.schema_exists, ?_, ?_, ?_, ?_, ?_, ?_⟩
  · intro id other stays
    obtain ⟨differs, stays⟩ := lookup_erase_cases stays
    obtain ⟨sameId, small, named, owned⟩ := consistent.table_named id other stays
    refine ⟨sameId, small, ?_, owned⟩
    rw [namesOf_removeTable]
    split
    · rename_i sameSchema
      have otherName : other.name ≠ table.name := by
        intro same
        rw [sameSchema, same, tableName] at named
        exact differs (Option.some.inj named).symm
      rw [lookup_erase_ne otherName, named]
    · exact named
  · intro schemaId name id named
    rw [namesOf_removeTable] at named
    have before : (catalog.namesOf schemaId).lookup name = some id ∧
        ¬ (schemaId = table.schemaId ∧ name = table.name) := by
      split at named
      · rename_i sameSchema
        obtain ⟨otherName, named⟩ := lookup_erase_cases named
        exact ⟨named, fun both => otherName both.2⟩
      · rename_i otherSchema
        exact ⟨named, fun both => otherSchema both.1⟩
    obtain ⟨other, existing, sameSchema, sameName⟩ :=
      consistent.table_exists schemaId name id before.1
    have differs : id ≠ tableKey := by
      rintro rfl
      rw [found] at existing
      cases existing
      exact before.2 ⟨sameSchema.symm, sameName.symm⟩
    exact ⟨other, (otherTable differs).trans existing, sameSchema, sameName⟩
  · intro id index stays
    obtain ⟨before, differs⟩ := kept stays
    obtain ⟨sameId, small, other, existing, rest⟩ := consistent.index_refers id index before
    exact ⟨sameId, small, other, (otherTable differs).trans existing, rest⟩
  · intro id index stays
    obtain ⟨before, differs⟩ := kept stays
    rw [Catalog.removeTable, lookup_erase_ne differs]
    exact consistent.index_listed id index before
  · intro otherKey id mem
    have differs : otherKey ≠ tableKey := by
      rintro rfl
      simp [Catalog.removeTable] at mem
    rw [Catalog.removeTable, lookup_erase_ne differs] at mem
    obtain ⟨index, existing, sameTable⟩ := consistent.list_refers otherKey id mem
    refine ⟨index, ?_, sameTable⟩
    rw [Catalog.removeTable, lookup_eraseAll, if_neg]
    · exact existing
    intro listed
    obtain ⟨dropped, droppedMember, same⟩ := List.mem_map.mp listed
    obtain ⟨droppedIndex, droppedFound, droppedTable⟩ :=
      consistent.list_refers tableKey dropped droppedMember
    have small := (consistent.index_refers _ _ droppedFound).2.1
    rw [small] at same
    subst same
    rw [existing] at droppedFound
    cases droppedFound
    exact differs (sameTable.symm.trans droppedTable)
  · intro one two first second firstStays secondStays
    exact consistent.index_named one two first second (kept firstStays).1 (kept secondStays).1

theorem Consistent.addIndex {catalog : Catalog}
    (consistent : Consistent catalog) {index : IndexMetadata}
    (found : catalog.tables.lookup (key index.tableId) = some table)
    (sameSchema : index.schemaId = table.schemaId) (columns : ∀ column ∈ index.indexedColumns,
      ∃ existing, table.schema.columnById column = .ok existing)
    (small : key index.indexId = index.indexId)
    (newName : ∀ id other, catalog.indexes.lookup id = some other →
      ¬ (other.schemaId = index.schemaId ∧ other.name = index.name))
    (newId : catalog.indexes.lookup index.indexId = none) :
    Consistent (catalog.addIndex index) := by
  have indexes : (catalog.addIndex index).indexes = catalog.indexes.insert index.indexId index := by
    rw [Catalog.addIndex, small]
  have found_cases : ∀ {id : Nat} {other : IndexMetadata}, (catalog.addIndex index).indexes.lookup
      id = some other → id = index.indexId ∧ other = index ∨ id ≠ index.indexId ∧
      catalog.indexes.lookup id = some other := by
    intro id other stays
    rw [indexes] at stays
    exact lookup_insert_cases stays
  have list_eq : ∀ tableKey : Nat, ((catalog.addIndex index).tableIndexes.lookup tableKey).getD [] =
      (catalog.tableIndexes.lookup tableKey).getD [] ++ if tableKey = key index.tableId then
      [index.indexId] else [] := by
    intro tableKey
    by_cases here : tableKey = key index.tableId
    · subst here
      simp [Catalog.addIndex]
    · simp [Catalog.addIndex, here]
  have unlisted : ∀ tableKey : Nat,
      index.indexId ∉ (catalog.tableIndexes.lookup tableKey).getD [] := by
    intro tableKey mem
    obtain ⟨other, existing, -⟩ := consistent.list_refers tableKey _ mem
    rw [newId] at existing
    cases existing
  refine ⟨consistent.schema_named, consistent.schema_exists,
    consistent.table_named, consistent.table_exists, ?_, ?_, ?_, ?_⟩
  · intro id other stays
    rcases found_cases stays with ⟨rfl, rfl⟩ | ⟨-, before⟩
    · exact ⟨rfl, small, table, found, sameSchema, columns⟩
    · exact consistent.index_refers id other before
  · intro id other stays
    rw [list_eq, List.count_append]
    rcases found_cases stays with ⟨rfl, rfl⟩ | ⟨older, before⟩
    · simp [List.count_eq_zero.mpr (unlisted _)]
    · rw [consistent.index_listed id other before]
      split
      · simp [Ne.symm older]
      · rfl
  · intro tableKey id mem
    rw [list_eq, List.mem_append] at mem
    rw [indexes]
    rcases mem with older | newer
    · obtain ⟨other, existing, sameTable⟩ := consistent.list_refers tableKey id older
      have differs : id ≠ index.indexId := by
        rintro rfl
        exact unlisted tableKey older
      exact ⟨other, by rwa [lookup_insert_ne differs], sameTable⟩
    split at newer
    · rename_i here
      rw [List.mem_singleton.mp newer]
      exact ⟨index, lookup_insert _, here.symm⟩
    · simp at newer
  intro one two first second firstStays secondStays schemas names
  rcases found_cases firstStays with ⟨rfl, rfl⟩ | ⟨-, firstBefore⟩
  · rcases found_cases secondStays with ⟨rfl, rfl⟩ | ⟨-, secondBefore⟩
    · rfl
    · exact absurd ⟨schemas.symm, names.symm⟩ (newName two second secondBefore)
  · rcases found_cases secondStays with ⟨rfl, rfl⟩ | ⟨-, secondBefore⟩
    · exact absurd ⟨schemas, names⟩ (newName one first firstBefore)
    · exact consistent.index_named one two first second firstBefore secondBefore schemas names

/-- The identifiers that a counter hands out between two of its values. -/
def issued (first next : Nat) : List Nat :=
  (List.range' first (next - first)).map key

theorem mem_issued : id ∈ issued first next ↔
      ∃ number, first ≤ number ∧ number < next ∧ id = key number := by
  simp only [issued, List.mem_map, List.mem_range'_1]
  constructor
  · rintro ⟨number, ⟨low, high⟩, rfl⟩
    exact ⟨number, low, by omega, rfl⟩
  · rintro ⟨number, low, high, rfl⟩
    exact ⟨number, ⟨low, by omega⟩, rfl⟩

theorem nodup_issued (few : next ≤ 2 ^ 32 + 1) : (issued 1 next).Nodup := by
  apply List.Nodup.map_on
  · intro one oneMember two twoMember same
    rw [List.mem_range'_1] at oneMember twoMember
    rw [key, key] at same
    omega
  · exact List.nodup_range'

/-- Every identifier in use comes from its counter. -/
structure Numbered (catalog : Catalog) : Prop where
  schemas : ∀ id ∈ catalog.schemas, id ∈ issued 1 catalog.nextSchemaId
  tables : ∀ id ∈ catalog.tables, id ∈ issued 1 catalog.nextTableId
  indexes : ∀ id ∈ catalog.indexes, id ∈ issued 1 catalog.nextIndexId
  started : 1 ≤ catalog.nextSchemaId ∧ 1 ≤ catalog.nextTableId ∧
    1 ≤ catalog.nextColumnId ∧ 1 ≤ catalog.nextIndexId

/-- A counter below the limit hands out an identifier that is not in use. -/
theorem lookup_next_eq_none {Item : Nat → Type*} {items : AList Item}
    (inUse : ∀ id ∈ items, id ∈ issued 1 next) (started : 1 ≤ next)
    (few : next ≤ 2 ^ 32) : items.lookup (key next) = none := by
  rw [AList.lookup_eq_none]
  intro mem
  obtain ⟨number, low, high, same⟩ := mem_issued.mp (inUse _ mem)
  rw [key, key] at same
  omega

theorem key_mem_issued (le : first ≤ next) : key next ∈ issued first (next + 1) :=
  mem_issued.mpr ⟨next, le, Nat.lt_succ_self next, rfl⟩

theorem key_key (id : Nat) : key (key id) = key id :=
  Nat.mod_mod _ _

def creates : CatalogCall → Nat
  | .dropTable _ _ => 0
  | _ => 1

def createsColumns : CatalogCall → Nat
  | .createTable _ _ schema _ _ => schema.columns.length
  | _ => 0

theorem assignColumns_next_le (columns : List Column) (next : Nat) (built : TableSchema) :
    next ≤ (assignColumns columns next built).1 ∧
      (assignColumns columns next built).1 ≤ next + columns.length := by
  induction columns generalizing next built with
  | nil => exact ⟨le_refl next, le_refl next⟩
  | cons column columns ih =>
    rw [assignColumns, List.length_cons]
    split
    · exact ⟨Nat.le_succ next, by dsimp only; omega⟩
    · rename_i larger _
      obtain ⟨low, high⟩ := ih (next + 1) larger
      exact ⟨by omega, by omega⟩

structure Counted (catalog : Catalog) (call : CatalogCall) (after : Catalog) : Prop where
  schemas : catalog.nextSchemaId ≤ after.nextSchemaId ∧
    after.nextSchemaId ≤ catalog.nextSchemaId + creates call
  tables : catalog.nextTableId ≤ after.nextTableId ∧
    after.nextTableId ≤ catalog.nextTableId + creates call
  columns : catalog.nextColumnId ≤ after.nextColumnId ∧
    after.nextColumnId ≤ catalog.nextColumnId + createsColumns call
  indexes : catalog.nextIndexId ≤ after.nextIndexId ∧
    after.nextIndexId ≤ catalog.nextIndexId + creates call

theorem counted_createTable (catalog : Catalog) (schemaId : Nat)
    (tableName : List UInt8) (schema : TableSchema)
    (heap : Except Status Nat) (persist : Option Status) :
    Counted catalog (.createTable schemaId tableName schema heap persist)
      (catalog.createTable schemaId tableName schema heap persist).1 := by
  have assigned := assignColumns_next_le schema.columns catalog.nextColumnId {}
  rw [createTable]
  split
  · constructor <;> simp [creates, createsColumns]
  split
  · constructor <;> simp [creates, createsColumns]
  split
  · rename_i nextColumnId failure result
    rw [result] at assigned
    constructor <;> simp [creates, createsColumns]
    exact assigned
  rename_i nextColumnId finalSchema result
  rw [result] at assigned
  split
  · constructor <;> simp [creates, createsColumns]
    exact assigned
  · constructor <;> simp [creates, createsColumns, addTable]
    exact assigned

theorem counted (catalog : Catalog) (call : CatalogCall) :
    Counted catalog call (catalog.step call) := by
  cases call with
  | createSchema name persist =>
    simp only [step, perform, createSchema]
    split <;> constructor <;> simp [creates, addSchema]
  | createTable schemaId tableName schema heap persist =>
    exact counted_createTable ..
  | dropTable tableId persist =>
    simp only [step, perform, dropTable]
    split <;> constructor <;> simp [removeTable]
  | createIndex tableId indexName columns unique persist =>
    simp only [step, perform, createIndex]
    split
    · constructor <;> simp
    · split
      · constructor <;> simp
      · split <;> constructor <;> simp [creates, addIndex]

/-- Whatever a call adds has an identifier that the counter hands out during
the call. -/
structure Issuing (catalog after : Catalog) : Prop where
  schemas : ∀ id ∈ after.schemas, id ∉ catalog.schemas →
    id ∈ issued catalog.nextSchemaId after.nextSchemaId
  tables : ∀ id ∈ after.tables, id ∉ catalog.tables →
    id ∈ issued catalog.nextTableId after.nextTableId
  columns : ∀ id table, after.tables.lookup id = some table → id ∉ catalog.tables → ∀ column ∈
    table.schema.columns, column.id ∈ issued catalog.nextColumnId after.nextColumnId
  indexes : ∀ id ∈ after.indexes, id ∉ catalog.indexes →
    id ∈ issued catalog.nextIndexId after.nextIndexId

theorem mem_addColumn {schema larger : TableSchema} {column : Column}
    (success : schema.addColumn column = .ok larger) {other : Column}
    (mem : other ∈ larger.columns) : other ∈ schema.columns ∨ other = column := by
  rw [TableSchema.addColumn] at success
  split at success
  · cases success
  · split at success
    · cases success
    · cases success
      simpa using mem

theorem mem_assignColumns {columns : List Column} {last : Nat} {built final : TableSchema}
    (success : assignColumns columns next built = (last, .ok final))
    {column : Column} (mem : column ∈ final.columns) :
    column ∈ built.columns ∨ column.id ∈ issued next last := by
  induction columns generalizing next built with
  | nil =>
    cases success
    exact Or.inl mem
  | cons first columns ih =>
    rw [assignColumns] at success
    split at success
    · cases success
    rename_i larger added
    rcases ih success with older | newer
    · rcases mem_addColumn added older with inside | rfl
      · exact Or.inl inside
      · have bound := assignColumns_next_le columns (next + 1) larger
        rw [success] at bound
        exact Or.inr (mem_issued.mpr ⟨next, le_refl next, bound.1, rfl⟩)
    · obtain ⟨number, low, high, same⟩ := mem_issued.mp newer
      exact Or.inr (mem_issued.mpr ⟨number, by omega, high, same⟩)

theorem mem_of_lookup {Key : Type*} [DecidableEq Key] {Item : Key → Type*}
    {items : AList Item} {place : Key} {item : Item place}
    (found : items.lookup place = some item) : place ∈ items :=
  AList.lookup_isSome.mp (found ▸ rfl)

theorem mem_of_mem_eraseAll {ids : List Nat} {indexes : AList fun _ : Nat => IndexMetadata}
    (mem : id ∈ ids.foldl (fun indexes id => indexes.erase (key id)) indexes) : id ∈ indexes := by
  rw [← AList.lookup_isSome, lookup_eraseAll] at mem
  split at mem
  · cases mem
  · rwa [AList.lookup_isSome] at mem

theorem issuing_of_fewer {catalog after : Catalog}
    (schemas : ∀ id ∈ after.schemas, id ∈ catalog.schemas)
    (tables : ∀ id ∈ after.tables, id ∈ catalog.tables)
    (indexes : ∀ id ∈ after.indexes, id ∈ catalog.indexes) : Issuing catalog after where
  schemas id mem absent := absurd (schemas id mem) absent
  tables id mem absent := absurd (tables id mem) absent
  columns id _ found absent := absurd (tables id (mem_of_lookup found)) absent
  indexes id mem absent := absurd (indexes id mem) absent

theorem Performed.issuing {catalog after : Catalog} {failure : Option CatalogError}
    (performed : Performed catalog call after failure) : Issuing catalog after := by
  have unchanged := @issuing_of_fewer catalog catalog (by simp) (by simp) (by simp)
  cases performed with
  | rejected error refused failed same =>
    apply issuing_of_fewer <;> simp [same.schemas, same.tables, same.indexes]
  | schema name persist call_eq newName result reply =>
    subst result
    refine { unchanged with schemas := fun id mem absent => ?_ }
    rcases (mem_insert _).mp mem with rfl | older
    · exact key_mem_issued (le_refl _)
    · exact absurd older absent
  | table schemaId tableName schema page persist nextColumnId finalSchema
      call_eq owned newName assigned result reply =>
      subst result
      refine { unchanged with
        tables := fun id mem absent => ?_
        columns := fun id table found absent column columnMember => ?_ }
      · rcases (mem_insert _).mp mem with rfl | older
        · rw [key_key]
          exact key_mem_issued (le_refl _)
        · exact absurd older absent
      · have new : id = key (key catalog.nextTableId) := by
          by_contra older
          apply absent
          simp only [addTable, enterNames, lookup_insert_ne older] at found
          exact mem_of_lookup found
        subst new
        simp only [addTable, lookup_insert, Option.some.injEq] at found
        subst found
        rcases mem_assignColumns assigned columnMember with inside | newer
        · simp at inside
        · exact newer
  | dropped tableId persist table call_eq found result reply =>
    subst result
    exact issuing_of_fewer (fun id mem => mem) (fun id mem => (AList.mem_erase.mp mem).2)
      fun id mem => mem_of_mem_eraseAll mem
  | index tableId indexName columns unique persist table call_eq found newName known result reply =>
      subst result
      refine { unchanged with indexes := fun id mem absent => ?_ }
      rcases (mem_insert _).mp mem with rfl | older
      · rw [key_key]
        exact key_mem_issued (le_refl _)
      · exact absurd older absent

/-- What was there has an old number, what is new has one of the call. -/
theorem mem_issued_step {Item : Nat → Type*} {items after : AList Item}
    (old : ∀ id ∈ items, id ∈ issued 1 first) (started : 1 ≤ first) (grows : first ≤ next)
    (new : ∀ id ∈ after, id ∉ items → id ∈ issued first next) (id : Nat) (mem : id ∈ after) :
    id ∈ issued 1 next := by
  rw [mem_issued]
  by_cases older : id ∈ items
  · obtain ⟨number, low, high, same⟩ := mem_issued.mp (old id older)
    exact ⟨number, low, by omega, same⟩
  · obtain ⟨number, low, high, same⟩ := mem_issued.mp (new id mem older)
    exact ⟨number, by omega, high, same⟩

theorem Numbered.step {catalog : Catalog} (numbered : Numbered catalog)
    (call : CatalogCall) : Numbered (catalog.step call) := by
  have issuing := (performed catalog call).issuing
  have counted := counted catalog call
  obtain ⟨schemas, tables, indexes, started⟩ := numbered
  refine ⟨mem_issued_step schemas started.1 counted.schemas.1 issuing.schemas,
    mem_issued_step tables started.2.1 counted.tables.1 issuing.tables,
    mem_issued_step indexes started.2.2.2 counted.indexes.1 issuing.indexes, ?_⟩
  have first := counted.schemas.1
  have second := counted.tables.1
  have third := counted.columns.1
  have fourth := counted.indexes.1
  omega

def RoomFor (catalog : Catalog) (count : Nat) : Prop :=
  catalog.nextSchemaId + count ≤ 2 ^ 32 + 1 ∧ catalog.nextTableId + count ≤ 2 ^ 32 + 1 ∧
    catalog.nextIndexId + count ≤ 2 ^ 32 + 1

theorem RoomFor.step {catalog : Catalog} (room : RoomFor catalog (creates call + count)) :
    RoomFor (catalog.step call) count := by
  have counted := counted catalog call
  obtain ⟨schemas, tables, indexes⟩ := room
  have first := counted.schemas.2
  have second := counted.tables.2
  have third := counted.indexes.2
  exact ⟨by omega, by omega, by omega⟩

theorem Consistent.step {catalog : Catalog} (consistent : Consistent catalog)
    (numbered : Numbered catalog) (room : RoomFor catalog (creates call)) :
    Consistent (catalog.step call) := by
  obtain ⟨schemaRoom, tableRoom, indexRoom⟩ := room
  have newSchema : 1 ≤ creates call →
      catalog.schemas.lookup (key catalog.nextSchemaId) = none := fun one =>
    lookup_next_eq_none numbered.schemas numbered.started.1 (by omega)
  have newTable : 1 ≤ creates call →
      catalog.tables.lookup (key catalog.nextTableId) = none := fun one =>
    lookup_next_eq_none numbered.tables numbered.started.2.1 (by omega)
  have newIndex : 1 ≤ creates call →
      catalog.indexes.lookup (key catalog.nextIndexId) = none := fun one =>
    lookup_next_eq_none numbered.indexes numbered.started.2.2.2 (by omega)
  have done := performed catalog call
  rw [← Catalog.step] at done
  cases done with
  | rejected error refused failed same =>
    exact consistent.congr same.schemas same.schemaNames same.tables
      same.names same.indexes same.tableIndexes
  | schema name persist call_eq newName result reply =>
    subst call_eq
    rw [result]
    exact consistent.addSchema newName (newSchema (le_refl 1))
  | table schemaId tableName schema page persist nextColumnId finalSchema
      call_eq owned newName assigned result reply =>
      subst call_eq
      rw [result]
      have entered : Consistent (catalog.enterNames schemaId nextColumnId (catalog.nextTableId + 1))
          := consistent.congr rfl rfl rfl (namesOf_enterNames catalog _ _ _) rfl rfl
      apply entered.addTable owned (key_key _)
      · rw [namesOf_enterNames]
        exact newName
      · exact newTable (le_refl 1)
  | dropped tableId persist table call_eq found result reply =>
    rw [result]
    exact consistent.removeTable found
  | index tableId indexName columns unique persist table call_eq found newName known result reply =>
      subst call_eq
      rw [result]
      have advanced : Consistent { catalog with nextIndexId := catalog.nextIndexId + 1 } :=
          consistent.congr rfl rfl rfl (fun _ => rfl) rfl rfl
      exact advanced.addIndex found rfl known (key_key _) newName (newIndex (le_refl 1))

def after (root : Except Status Nat) (persist : Option Status)
    (calls : List CatalogCall) : Catalog :=
  GuardedRuns.run step (initNew root persist).1 calls

def creations (calls : List CatalogCall) : Nat :=
  (calls.map creates).sum

def columnCreations (calls : List CatalogCall) : Nat :=
  (calls.map createsColumns).sum

section

variable (root : Except Status Nat) (persist : Option Status)

include root persist

theorem initNew_cases :
    (initNew root persist).1 = {} ∨
      ∃ page, (initNew root persist).1 = addSchema { catalogRoot := page } (ascii "main") := by
  cases root with
  | error status => exact Or.inl rfl
  | ok page => exact Or.inr ⟨page, rfl⟩

theorem consistent_initNew : Consistent (initNew root persist).1 := by
  rcases initNew_cases root persist with empty | ⟨page, main⟩
  · rw [empty]
    exact consistent_empty PageID.invalid
  · rw [main]
    exact (consistent_empty page).addSchema (AList.lookup_empty _) (AList.lookup_empty _)

theorem numbered_initNew : Numbered (initNew root persist).1 := by
  rcases initNew_cases root persist with empty | ⟨page, main⟩
  · rw [empty]
    constructor <;> simp [AList.mem_keys]
  rw [main]
  constructor
  · intro id mem
    rcases (mem_insert _).mp mem with rfl | older
    · exact key_mem_issued (le_refl 1)
    · exact absurd older (AList.notMem_empty _)
  · simp [addSchema]
  · simp [addSchema]
  · simp [addSchema]

theorem roomFor_initNew (few : count < 2 ^ 32) : RoomFor (initNew root persist).1 count ∧
      (initNew root persist).1.nextColumnId = 1 := by
  rcases initNew_cases root persist with empty | ⟨page, main⟩
  · rw [empty]
    refine ⟨⟨?_, ?_, ?_⟩, rfl⟩ <;> dsimp only <;> omega
  · rw [main]
    refine ⟨⟨?_, ?_, ?_⟩, rfl⟩ <;> dsimp only [addSchema] <;> omega

end

theorem Consistent.run {catalog : Catalog} {calls : List CatalogCall}
    (consistent : Consistent catalog) (numbered : Numbered catalog)
    (room : RoomFor catalog (creations calls + count)) :
    Consistent (GuardedRuns.run Catalog.step catalog calls) ∧
      Numbered (GuardedRuns.run Catalog.step catalog calls) ∧
      RoomFor (GuardedRuns.run Catalog.step catalog calls) count := by
  induction calls generalizing catalog with
  | nil =>
    refine ⟨consistent, numbered, ?_⟩
    simpa [creations, GuardedRuns.run] using room
  | cons call calls ih =>
    have total : creations (call :: calls) + count = creates call + (creations calls + count) := by
      simp [creations, Nat.add_assoc]
    rw [total] at room
    have first : RoomFor catalog (creates call) := by
      obtain ⟨schemas, tables, indexes⟩ := room
      exact ⟨by omega, by omega, by omega⟩
    exact ih (consistent.step numbered first) (numbered.step call) room.step

theorem nextColumnId_run (catalog : Catalog) (calls : List CatalogCall) :
    (GuardedRuns.run step catalog calls).nextColumnId ≤
      catalog.nextColumnId + columnCreations calls := by
  induction calls generalizing catalog with
  | nil => exact le_refl _
  | cons call calls ih =>
    have rest := ih (catalog.step call)
    have one := (counted catalog call).columns.2
    rw [columnCreations, List.map_cons, List.sum_cons]
    exact rest.trans (by rw [columnCreations]; omega)

/-- After fewer than `2 ^ 32` creations the maps are consistent and pass the
check of the catalog.  No identifier has been handed out twice, the ones in
use have been handed out, and what a further call adds has identifiers that
the counters hand out during that call. -/
theorem catalog_stays_consistent (root : Except Status Nat)
    (persist : Option Status) (calls : List CatalogCall) (few : creations calls < 2 ^ 32) :
    Consistent (after root persist calls) ∧ (after root persist calls).validate = .ok () ∧
      (issued 1 (after root persist calls).nextSchemaId).Nodup ∧
      (issued 1 (after root persist calls).nextTableId).Nodup ∧
      (issued 1 (after root persist calls).nextIndexId).Nodup ∧
      (columnCreations calls < 2 ^ 32 → (issued 1 (after root persist calls).nextColumnId).Nodup) ∧
      Numbered (after root persist calls) ∧
      ∀ call, Issuing (after root persist calls) ((after root persist calls).step call) := by
  obtain ⟨room, firstColumn⟩ := roomFor_initNew root persist few
  rw [← Nat.add_zero (creations calls)] at room
  obtain ⟨consistent, numbered, schemas, tables, indexes⟩ :=
    (consistent_initNew root persist).run (numbered_initNew root persist) room
  refine ⟨consistent, consistent.validate, nodup_issued schemas, nodup_issued tables, nodup_issued
    indexes, fun fewColumns => ?_, numbered, fun call => (performed _ call).issuing⟩
  have bound := nextColumnId_run (initNew root persist).1 calls
  exact nodup_issued (by rw [after]; omega)

/-- A table with an index is created, and dropped while the disk fails. -/
def droppedTable : List CatalogCall :=
  [.createTable 1 [116] ⟨[⟨0, [97], .integer, 0, false, {}, none⟩], ∅, ∅⟩ (.ok 5) none,
    .createIndex 1 [105] [1] false none, .dropTable 1 (some .ioError)]

theorem catalog_stays_consistent_dropped :
    Consistent (after (.ok 0) none droppedTable) ∧
      (after (.ok 0) none droppedTable).validate = .ok () ∧
      (issued 1 (after (.ok 0) none droppedTable).nextColumnId).Nodup := by
  obtain ⟨consistent, valid, -, -, -, columns, -⟩ :=
    catalog_stays_consistent (.ok 0) none droppedTable (by decide)
  exact ⟨consistent, valid, columns (by decide)⟩

end Catalog

end KlyroDB

import KlyroDB.Catalog

/-!
# What a catalog call does

Each call is rejected without a change of the maps, or makes one change and
then returns what `persist_to_disk` returned.
-/

namespace KlyroDB

namespace Catalog

theorem keyTypes_eq_ok_iff {schema : TableSchema} {columns : List Nat} :
    (∃ types, keyTypes schema columns = .ok types) ↔
      ∀ column ∈ columns, ∃ found, schema.columnById column = .ok found := by
  induction columns with
  | nil => simp [keyTypes]
  | cons first columns ih =>
    rw [keyTypes]
    cases found : schema.columnById first with
    | error failure => simp [found]
    | ok column =>
      cases rest : keyTypes schema columns with
      | error failure | ok others => simpa [found, rest] using ih

structure SameMaps (catalog after : Catalog) : Prop where
  schemas : after.schemas = catalog.schemas
  schemaNames : after.schemaNames = catalog.schemaNames
  tables : after.tables = catalog.tables
  names : ∀ schemaId, after.namesOf schemaId = catalog.namesOf schemaId
  indexes : after.indexes = catalog.indexes
  tableIndexes : after.tableIndexes = catalog.tableIndexes

theorem SameMaps.refl (catalog : Catalog) : SameMaps catalog catalog :=
  ⟨rfl, rfl, rfl, fun _ => rfl, rfl, rfl⟩

/-- The catalog in which `create_table` has looked up the names of the schema
and has advanced the counters. -/
def enterNames (catalog : Catalog) (schemaId nextColumnId nextTableId : Nat) : Catalog :=
  { catalog with
    tableNames :=
      catalog.tableNames.insert schemaId (catalog.namesOf schemaId)
    nextColumnId := nextColumnId
    nextTableId := nextTableId }

theorem namesOf_enterNames (catalog : Catalog) (schemaId nextColumnId nextTableId other : Nat) :
    (catalog.enterNames schemaId nextColumnId nextTableId).namesOf other =
      catalog.namesOf other := by
  by_cases here : other = schemaId
  · subst here
    simp [namesOf, enterNames]
  · simp [namesOf, enterNames, here]

theorem sameMaps_enterNames (catalog : Catalog) (schemaId nextColumnId nextTableId : Nat) :
    SameMaps catalog (catalog.enterNames schemaId nextColumnId nextTableId) :=
  ⟨rfl, rfl, rfl, namesOf_enterNames catalog _ _ _, rfl, rfl⟩

/-- The call passes all its checks, so that it reaches `persist_to_disk`. -/
def Accepted (catalog : Catalog) : CatalogCall → Prop
  | .createSchema name _ => catalog.schemaNames.lookup name = none
  | .createTable schemaId tableName schema heap _ => schemaId ∈ catalog.schemas ∧
      (catalog.namesOf schemaId).lookup tableName = none ∧ (∃ final, (assignColumns schema.columns
      catalog.nextColumnId {}).2 = .ok final) ∧ ∃ page, heap = .ok page
  | .dropTable tableId _ => key tableId ∈ catalog.tables
  | .createIndex tableId indexName columns _ _ => ∃ table, catalog.tables.lookup (key tableId) =
      some table ∧ (∀ id other, catalog.indexes.lookup id = some other → ¬ (other.schemaId =
      table.schemaId ∧ other.name = indexName)) ∧ ∀ column ∈ columns, ∃ existing,
      table.schema.columnById column = .ok existing

/-- What a call can do: it is rejected and changes no map, or it makes its
change and returns what `persist_to_disk` returned. -/
inductive Performed (catalog : Catalog) (call : CatalogCall)
    (after : Catalog) (failure : Option CatalogError) : Prop
  | rejected (error : CatalogError) (refused : ¬ Accepted catalog call)
      (failed : failure = some error) (same : SameMaps catalog after)
  | schema (name : List UInt8) (persist : Option Status)
      (call_eq : call = .createSchema name persist)
      (newName : catalog.schemaNames.lookup name = none) (result : after = catalog.addSchema name)
      (reply : failure = persist.map .status)
  | table (schemaId : Nat) (tableName : List UInt8) (schema : TableSchema)
      (page : Nat) (persist : Option Status) (nextColumnId : Nat)
      (finalSchema : TableSchema)
      (call_eq : call = .createTable schemaId tableName schema (.ok page) persist)
      (owned : schemaId ∈ catalog.schemas)
      (newName : (catalog.namesOf schemaId).lookup tableName = none)
      (assigned : assignColumns schema.columns catalog.nextColumnId {} =
        (nextColumnId, .ok finalSchema))
      (result : after = (catalog.enterNames schemaId nextColumnId
        (catalog.nextTableId + 1)).addTable
          { tableId := key catalog.nextTableId
            schemaId := schemaId
            name := tableName
            schema := finalSchema
            firstPageId := page })
      (reply : failure = persist.map .status)
  | dropped (tableId : Nat) (persist : Option Status) (table : TableMetadata)
      (call_eq : call = .dropTable tableId persist) (found : catalog.tables.lookup (key tableId) =
      some table) (result : after = catalog.removeTable (key tableId) table)
      (reply : failure = persist.map .status)
  | index (tableId : Nat) (indexName : List UInt8) (columns : List Nat)
      (unique : Bool) (persist : Option Status) (table : TableMetadata)
      (call_eq : call = .createIndex tableId indexName columns unique persist)
      (found : catalog.tables.lookup (key tableId) = some table)
      (newName : ∀ id other, catalog.indexes.lookup id = some other →
        ¬ (other.schemaId = table.schemaId ∧ other.name = indexName))
      (known : ∀ column ∈ columns, ∃ existing, table.schema.columnById column = .ok existing)
      (result : after =
        { catalog with nextIndexId := catalog.nextIndexId + 1 }.addIndex
          { indexId := key catalog.nextIndexId
            schemaId := table.schemaId
            tableId := tableId
            name := indexName
            indexedColumns := columns
            isUnique := unique })
      (reply : failure = persist.map .status)

theorem failureOf_persisted {Reply : Type} (persist : Option Status) (reply : Reply) :
    perform.failureOf (persisted persist reply) = persist.map .status := by
  cases persist <;> rfl

section

variable (catalog : Catalog)

include catalog

theorem performed_createSchema (name : List UInt8) (persist : Option Status) :
    Performed catalog (.createSchema name persist) (catalog.createSchema name persist).1
      (perform.failureOf (catalog.createSchema name persist).2) := by
  rw [createSchema]
  split
  · rename_i inUse
    refine .rejected _ ?_ rfl (.refl catalog)
    intro newName
    simp [show catalog.schemaNames.lookup name = none from newName] at inUse
  · rename_i newName
    exact .schema name persist rfl (by simpa using newName) rfl (failureOf_persisted ..)

theorem performed_createTable (schemaId : Nat) (tableName : List UInt8) (schema : TableSchema)
    (heap : Except Status Nat) (persist : Option Status) :
    Performed catalog (.createTable schemaId tableName schema heap persist)
      (catalog.createTable schemaId tableName schema heap persist).1 (perform.failureOf
        (catalog.createTable schemaId tableName schema heap persist).2) := by
  rw [createTable]
  split
  · rename_i missing
    refine .rejected _ ?_ rfl (.refl catalog)
    rintro ⟨owned, -⟩
    rw [← AList.lookup_isSome] at owned
    simp [Option.isNone_iff_eq_none.mp missing] at owned
  rename_i exists_schema
  have owned : schemaId ∈ catalog.schemas := by
    rw [← AList.lookup_isSome, Option.isSome_iff_ne_none]
    simpa using exists_schema
  split
  · rename_i inUse
    refine .rejected _ ?_ rfl (sameMaps_enterNames catalog schemaId _ _)
    rintro ⟨-, newName, -⟩
    simp [newName] at inUse
  rename_i newName
  split
  · rename_i nextColumnId failure assigned
    refine .rejected _ ?_ rfl (sameMaps_enterNames catalog schemaId _ _)
    rintro ⟨-, -, ⟨final, success⟩, -⟩
    rw [assigned] at success
    cases success
  rename_i nextColumnId finalSchema assigned
  split
  · refine .rejected _ ?_ rfl (sameMaps_enterNames catalog schemaId _ _)
    rintro ⟨-, -, -, page, success⟩
    cases success
  · rename_i page
    exact .table schemaId tableName schema page persist nextColumnId finalSchema rfl owned
      (by simpa using newName) assigned rfl (failureOf_persisted ..)

theorem performed_dropTable (tableId : Nat) (persist : Option Status) :
    Performed catalog (.dropTable tableId persist) (catalog.dropTable tableId persist).1
      (perform.failureOf (catalog.dropTable tableId persist).2) := by
  rw [dropTable]
  split
  · rename_i missing
    refine .rejected _ ?_ rfl (.refl catalog)
    exact AList.lookup_eq_none.mp missing
  · rename_i table found
    exact .dropped tableId persist table rfl found rfl (failureOf_persisted ..)

theorem performed_createIndex (tableId : Nat) (indexName : List UInt8) (columns : List Nat)
    (unique : Bool) (persist : Option Status) :
    Performed catalog (.createIndex tableId indexName columns unique persist)
      (catalog.createIndex tableId indexName columns unique persist).1 (perform.failureOf
        (catalog.createIndex tableId indexName columns unique persist).2) := by
  rw [createIndex]
  split
  · rename_i missing
    refine .rejected _ ?_ rfl (.refl catalog)
    rintro ⟨table, found, -⟩
    rw [missing] at found
    cases found
  rename_i table found
  split
  · rename_i inUse
    refine .rejected _ ?_ rfl (.refl catalog)
    rintro ⟨other, otherFound, newName, -⟩
    rw [found] at otherFound
    cases otherFound
    obtain ⟨⟨id, index⟩, mem, same⟩ := List.any_eq_true.mp inUse
    apply newName id index (AList.mem_lookup_iff.mpr mem)
    simpa using same
  rename_i newName
  split
  · rename_i failure unknown
    refine .rejected _ ?_ rfl ⟨rfl, rfl, rfl, fun _ => rfl, rfl, rfl⟩
    rintro ⟨other, otherFound, -, known⟩
    rw [found] at otherFound
    cases otherFound
    obtain ⟨types, success⟩ := keyTypes_eq_ok_iff.mpr known
    rw [unknown] at success
    cases success
  rename_i types known
  refine .index tableId indexName columns unique persist table rfl found ?_
    (keyTypes_eq_ok_iff.mp ⟨types, known⟩) rfl (failureOf_persisted ..)
  rintro id other existing ⟨sameSchema, sameName⟩
  apply newName
  apply List.any_eq_true.mpr
  exact ⟨⟨id, other⟩, AList.mem_lookup_iff.mp existing, by simp [sameSchema, sameName]⟩

theorem performed (call : CatalogCall) :
    Performed catalog call (catalog.perform call).1 (catalog.perform call).2 := by
  cases call with
  | createSchema name persist => exact performed_createSchema ..
  | createTable schemaId tableName schema heap persist =>
    exact performed_createTable ..
  | dropTable tableId persist => exact performed_dropTable ..
  | createIndex tableId indexName columns unique persist =>
    exact performed_createIndex ..

end

end Catalog

end KlyroDB

import KlyroDB.CatalogCalls

/-!
# Catalog calls that fail

A rejected call changes nothing that can be seen.  But the maps are changed
before `persist_to_disk`, and if that fails they stay changed.
-/

namespace KlyroDB

namespace Catalog

/-- The schemas, tables and indexes that can be seen are the same: those that
`find_schema` and both forms of `find_table` return, those that `validate`
checks, and its answer. -/
structure SameVisible (catalog after : Catalog) : Prop where
  schemas : ∀ name, after.findSchema name = catalog.findSchema name
  tables : ∀ tableId, after.findTable tableId = catalog.findTable tableId
  tablesByName : ∀ schemaId name, after.findTableByName schemaId name = catalog.findTableByName
    schemaId name
  indexes : ∀ id, after.indexes.lookup id = catalog.indexes.lookup id
  validate : after.validate = catalog.validate

theorem findTableByName_eq (catalog : Catalog) (schemaId : Nat) (name : List UInt8) :
    catalog.findTableByName schemaId name =
      match (catalog.namesOf schemaId).lookup name with
      | none => .error (.status .notFound)
      | some id =>
        match catalog.tables.lookup (key id) with
        | none => .error .outOfRange
        | some table => .ok table := by
  rw [findTableByName, namesOf]
  cases catalog.tableNames.lookup schemaId with
  | none => simp
  | some names => rfl

theorem SameMaps.sameVisible {catalog after : Catalog}
    (same : SameMaps catalog after) : SameVisible catalog after where
  schemas name := by
    rw [findSchema, findSchema, same.schemaNames, same.schemas]
  tables tableId := by
    rw [findTable, findTable, same.tables]
  tablesByName schemaId name := by
    rw [findTableByName_eq, findTableByName_eq, same.names, same.tables]
  indexes id := by
    rw [same.indexes]
  validate := by
    have valid : after.indexValid = catalog.indexValid := by
      funext index
      rw [indexValid, indexValid, same.tables]
    rw [Catalog.validate, Catalog.validate, same.indexes, valid]

/-- What `persist_to_disk` returns if it is reached. -/
def persistOf : CatalogCall → Option Status
  | .createSchema _ persist => persist
  | .createTable _ _ _ _ persist => persist
  | .dropTable _ persist => persist
  | .createIndex _ _ _ _ persist => persist

section Changes

variable {catalog : Catalog}

theorem addSchema_visible {name : List UInt8} (newName : catalog.schemaNames.lookup name = none) :
    ¬ SameVisible catalog (catalog.addSchema name) := by
  intro same
  have seen := same.schemas name
  simp [findSchema, newName, addSchema] at seen

theorem addTable_visible {table : TableMetadata}
    (newName : (catalog.namesOf table.schemaId).lookup table.name = none) (entered : Catalog) :
    ¬ SameVisible catalog (entered.addTable table) := by
  intro same
  have seen := same.tablesByName table.schemaId table.name
  have inserted : ((entered.addTable table).namesOf table.schemaId).lookup
      table.name = some table.tableId := by simp [namesOf, addTable]
  have stored : (entered.addTable table).tables.lookup (key table.tableId) = some table :=
      AList.lookup_insert _
  rw [findTableByName_eq, findTableByName_eq, inserted, newName] at seen
  simp [stored] at seen

theorem removeTable_visible {tableId : Nat} {table : TableMetadata}
    (found : catalog.tables.lookup (key tableId) = some table) :
    ¬ SameVisible catalog (catalog.removeTable (key tableId) table) := by
  intro same
  have seen := same.tables tableId
  simp [findTable, found, removeTable] at seen

theorem addIndex_visible {index : IndexMetadata} {counted : Catalog}
    (newName : ∀ id other, catalog.indexes.lookup id = some other →
      ¬ (other.schemaId = index.schemaId ∧ other.name = index.name)) :
    ¬ SameVisible catalog (counted.addIndex index) := by
  intro same
  have seen := same.indexes (key index.indexId)
  have stored : (counted.addIndex index).indexes.lookup (key index.indexId) = some index :=
      AList.lookup_insert _
  rw [stored] at seen
  exact newName _ index seen.symm ⟨rfl, rfl⟩

end Changes

section

variable {catalog after : Catalog} {call : CatalogCall} {failure : Option CatalogError}
  (performed : Performed catalog call after failure)

include performed

/-- A call that is accepted makes its change visible and returns what
`persist_to_disk` returned; any other call changes nothing that can be seen. -/
theorem Performed.outcome :
    Accepted catalog call ∧ failure = (persistOf call).map .status ∧ ¬ SameVisible catalog after ∨
      ¬ Accepted catalog call ∧ SameVisible catalog after := by
  cases performed with
  | rejected error refused failed same => exact Or.inr ⟨refused, same.sameVisible⟩
  | schema name persist call_eq newName result reply =>
    subst call_eq result
    exact Or.inl ⟨newName, reply, addSchema_visible newName⟩
  | table schemaId tableName schema page persist nextColumnId finalSchema
      call_eq owned newName assigned result reply =>
      subst call_eq result
      refine Or.inl ⟨⟨owned, newName, ⟨finalSchema, by rw [assigned]⟩, page, rfl⟩, reply, ?_⟩
      apply addTable_visible
      exact newName
  | dropped tableId persist table call_eq found result reply =>
    subst call_eq result
    have mem : key tableId ∈ catalog.tables := AList.lookup_isSome.mp (found ▸ rfl)
    exact Or.inl ⟨mem, reply, removeTable_visible found⟩
  | index tableId indexName columns unique persist table call_eq found newName known result reply =>
      subst call_eq result
      refine Or.inl ⟨⟨table, found, newName, known⟩, reply, ?_⟩
      apply addIndex_visible
      exact newName

end

/-- A failed call leaves what can be seen as it was exactly if it is not an
accepted call whose `persist_to_disk` fails. -/
theorem failed_call_changes_nothing (catalog : Catalog) (call : CatalogCall) :
    (∀ error, (catalog.perform call).2 = some error →
        SameVisible catalog (catalog.perform call).1) ↔
      ¬ (Accepted catalog call ∧ ∃ status, persistOf call = some status) := by
  rcases (performed catalog call).outcome with ⟨accepted, reply, changed⟩ | ⟨refused, same⟩
  · rw [reply]
    cases persist : persistOf call with
    | none => simp
    | some status => simp [accepted, changed]
  · simp [refused, same]

/-- The disk fails at the end of `create_schema`, and the schema is there. -/
theorem failed_create_schema_visible :
    (createSchema {} [115] (some .ioError)).2 = .error (.status .ioError) ∧
      ¬ SameVisible {} (createSchema {} [115] (some .ioError)).1 := by
  refine ⟨rfl, ?_⟩
  apply addSchema_visible
  exact AList.lookup_empty _

end Catalog

end KlyroDB

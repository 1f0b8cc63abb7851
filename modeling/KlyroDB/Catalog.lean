import KlyroDB.CoreTypes
import KlyroDB.Values

/-!
# The catalog of schemas, tables and indexes

`catalog/`: the in-memory maps of `Catalog` and the operations that change
them.  Identifiers are 64 bits wide where callers pass them and 32 bits wide as
keys of the maps; their counters are kept without wrap-around.  The outcome of
a heap allocation and of `persist_to_disk` is an argument.
-/

namespace KlyroDB

inductive CatalogError
  | status (status : Status)
  | duplicateColumnName (name : List UInt8)
  | duplicateColumnId
  | columnIdNotFound
  | outOfRange
  deriving DecidableEq, Repr

namespace Catalog

structure TypeParameters where
  length : Option Nat := none
  precision : Option Nat := none
  scale : Option Nat := none

structure Column where
  id : Nat
  name : List UInt8
  type : TypeID
  ordinal : Nat
  isNullable : Bool
  parameters : TypeParameters := {}
  defaultValue : Option Value := none

structure TableSchema where
  columns : List Column := []
  idToIndex : AList (fun _ : Nat => Nat) := ∅
  nameToIndex : AList (fun _ : List UInt8 => Nat) := ∅

namespace TableSchema

def addColumn (schema : TableSchema) (column : Column) : Except CatalogError TableSchema :=
  if (schema.nameToIndex.lookup column.name).isSome then
    .error (.duplicateColumnName column.name)
  else if (schema.idToIndex.lookup column.id).isSome then
    .error .duplicateColumnId
  else
    .ok
      { columns := schema.columns ++ [column]
        idToIndex := schema.idToIndex.insert column.id schema.columns.length
        nameToIndex :=
          schema.nameToIndex.insert column.name schema.columns.length }

def columnById (schema : TableSchema) (id : Nat) : Except CatalogError Column :=
  match schema.idToIndex.lookup id with
  | none => .error .columnIdNotFound
  | some index =>
      match schema.columns[index]? with
      | none => .error .outOfRange
      | some column => .ok column

end TableSchema

structure SchemaMetadata where
  schemaId : Nat
  name : List UInt8

structure TableMetadata where
  tableId : Nat
  schemaId : Nat
  name : List UInt8
  schema : TableSchema
  firstPageId : Nat

structure IndexMetadata where
  indexId : Nat
  schemaId : Nat
  tableId : Nat
  name : List UInt8
  indexedColumns : List Nat
  rootPageId : Nat := PageID.invalid
  treeHeight : Nat := 0
  isUnique : Bool := false

/-- The key that a map of 32-bit keys uses for a 64-bit identifier. -/
def key (id : Nat) : Nat := id % 2 ^ 32

end Catalog

open Catalog in
structure Catalog where
  catalogRoot : Nat := PageID.invalid
  nextSchemaId : Nat := 1
  nextTableId : Nat := 1
  nextColumnId : Nat := 1
  nextIndexId : Nat := 1
  schemas : AList (fun _ : Nat => SchemaMetadata) := ∅
  schemaNames : AList (fun _ : List UInt8 => Nat) := ∅
  tables : AList (fun _ : Nat => TableMetadata) := ∅
  tableNames : AList (fun _ : Nat => AList fun _ : List UInt8 => Nat) := ∅
  indexes : AList (fun _ : Nat => IndexMetadata) := ∅
  tableIndexes : AList (fun _ : Nat => List Nat) := ∅

namespace Catalog

def persisted {Reply : Type} (persist : Option Status) (reply : Reply) :
    Except CatalogError Reply :=
  match persist with
  | some status => .error (.status status)
  | none => .ok reply

def addSchema (catalog : Catalog) (name : List UInt8) : Catalog :=
  let id := key catalog.nextSchemaId
  { catalog with
    nextSchemaId := catalog.nextSchemaId + 1
    schemas := catalog.schemas.insert id { schemaId := id, name := name }
    schemaNames := catalog.schemaNames.insert name id }

def initNew (root : Except Status Nat) (persist : Option Status) :
    Catalog × Except CatalogError Unit :=
  match root with
  | .error status => ({}, .error (.status status))
  | .ok page => (addSchema { catalogRoot := page } (ascii "main"), persisted persist ())

def createSchema (catalog : Catalog) (name : List UInt8)
    (persist : Option Status) : Catalog × Except CatalogError Nat :=
  if (catalog.schemaNames.lookup name).isSome then
    (catalog, .error (.status .alreadyExists))
  else
    (catalog.addSchema name, persisted persist (key catalog.nextSchemaId))

def findSchema (catalog : Catalog) (name : List UInt8) : Except CatalogError SchemaMetadata :=
  match catalog.schemaNames.lookup name with
  | none => .error (.status .notFound)
  | some id =>
      match catalog.schemas.lookup id with
      | none => .error .outOfRange
      | some schema => .ok schema

/-- The loop of `create_table` that gives the columns their identifiers, with
the counter after it. -/
def assignColumns : List Column → Nat → TableSchema → Nat × Except CatalogError TableSchema
  | [], next, built => (next, .ok built)
  | column :: rest, next, built =>
      match built.addColumn { column with id := key next } with
      | .error failure => (next + 1, .error failure)
      | .ok larger => assignColumns rest (next + 1) larger

def namesOf (catalog : Catalog) (schemaId : Nat) :
    AList fun _ : List UInt8 => Nat :=
  (catalog.tableNames.lookup schemaId).getD ∅

def addTable (catalog : Catalog) (table : TableMetadata) : Catalog :=
  { catalog with
    tables := catalog.tables.insert (key table.tableId) table
    tableNames := catalog.tableNames.insert table.schemaId
      ((catalog.namesOf table.schemaId).insert table.name table.tableId) }

def createTable (catalog : Catalog) (schemaId : Nat) (tableName : List UInt8) (schema : TableSchema)
    (heap : Except Status Nat) (persist : Option Status) : Catalog × Except CatalogError Nat :=
  if (catalog.schemas.lookup schemaId).isNone then
    (catalog, .error (.status .notFound))
  else
    let entered :=
      { catalog with
        tableNames :=
          catalog.tableNames.insert schemaId (catalog.namesOf schemaId) }
    if ((catalog.namesOf schemaId).lookup tableName).isSome then
      (entered, .error (.status .alreadyExists))
    else
      match assignColumns schema.columns catalog.nextColumnId {} with
      | (nextColumnId, .error failure) =>
          ({ entered with nextColumnId := nextColumnId }, .error failure)
      | (nextColumnId, .ok finalSchema) =>
          let tableId := key catalog.nextTableId
          let counted :=
            { entered with
              nextColumnId := nextColumnId
              nextTableId := catalog.nextTableId + 1 }
          match heap with
          | .error status => (counted, .error (.status status))
          | .ok firstPageId =>
              (counted.addTable
                { tableId := tableId
                  schemaId := schemaId
                  name := tableName
                  schema := finalSchema
                  firstPageId := firstPageId },
                persisted persist tableId)

def removeTable (catalog : Catalog) (tableKey : Nat) (table : TableMetadata) : Catalog :=
  { catalog with
    indexes := ((catalog.tableIndexes.lookup tableKey).getD []).foldl
      (fun indexes id => indexes.erase (key id)) catalog.indexes
    tableIndexes := catalog.tableIndexes.erase tableKey
    tableNames := catalog.tableNames.insert table.schemaId
      ((catalog.namesOf table.schemaId).erase table.name)
    tables := catalog.tables.erase tableKey }

def dropTable (catalog : Catalog) (tableId : Nat)
    (persist : Option Status) : Catalog × Except CatalogError Unit :=
  match catalog.tables.lookup (key tableId) with
  | none => (catalog, .error (.status .notFound))
  | some table => (catalog.removeTable (key tableId) table, persisted persist ())

def findTable (catalog : Catalog) (tableId : Nat) : Except CatalogError TableMetadata :=
  match catalog.tables.lookup (key tableId) with
  | none => .error (.status .notFound)
  | some table => .ok table

def findTableByName (catalog : Catalog) (schemaId : Nat)
    (tableName : List UInt8) : Except CatalogError TableMetadata :=
  match catalog.tableNames.lookup schemaId with
  | none => .error (.status .notFound)
  | some names =>
      match names.lookup tableName with
      | none => .error (.status .notFound)
      | some id =>
          match catalog.tables.lookup (key id) with
          | none => .error .outOfRange
          | some table => .ok table

def keyTypes (schema : TableSchema) : List Nat → Except CatalogError (List TypeID)
  | [] => .ok []
  | column :: rest =>
      match schema.columnById column with
      | .error failure => .error failure
      | .ok found =>
          match keyTypes schema rest with
          | .error failure => .error failure
          | .ok types => .ok (found.type :: types)

def addIndex (catalog : Catalog) (index : IndexMetadata) : Catalog :=
  { catalog with
    indexes := catalog.indexes.insert (key index.indexId) index
    tableIndexes := catalog.tableIndexes.insert (key index.tableId)
      ((catalog.tableIndexes.lookup (key index.tableId)).getD [] ++ [index.indexId]) }

/-- `Catalog::create_index`; a new tree has no root page and height 0. -/
def createIndex (catalog : Catalog) (tableId : Nat) (indexName : List UInt8) (columns : List Nat)
    (unique : Bool) (persist : Option Status) : Catalog × Except CatalogError Nat :=
  match catalog.tables.lookup (key tableId) with
  | none => (catalog, .error (.status .notFound))
  | some table =>
      if catalog.indexes.entries.any fun entry =>
          entry.2.schemaId = table.schemaId && entry.2.name = indexName then
        (catalog, .error (.status .alreadyExists))
      else
        let indexId := key catalog.nextIndexId
        let counted := { catalog with nextIndexId := catalog.nextIndexId + 1 }
        match keyTypes table.schema columns with
        | .error failure => (counted, .error failure)
        | .ok _ =>
            (counted.addIndex
              { indexId := indexId
                schemaId := table.schemaId
                tableId := tableId
                name := indexName
                indexedColumns := columns
                isUnique := unique },
              persisted persist indexId)

def indexValid (catalog : Catalog) (index : IndexMetadata) : Bool :=
  match catalog.tables.lookup (key index.tableId) with
  | none => false
  | some table => index.indexedColumns.all fun column =>
      match table.schema.columnById column with
      | .ok _ => true
      | .error _ => false

def validate (catalog : Catalog) : Except CatalogError Unit :=
  if catalog.indexes.entries.all fun entry => catalog.indexValid entry.2 then
    .ok ()
  else .error (.status .corruption)

end Catalog

inductive CatalogCall
  | createSchema (name : List UInt8) (persist : Option Status)
  | createTable (schemaId : Nat) (tableName : List UInt8) (schema : Catalog.TableSchema)
      (heap : Except Status Nat) (persist : Option Status)
  | dropTable (tableId : Nat) (persist : Option Status)
  | createIndex (tableId : Nat) (indexName : List UInt8)
      (columns : List Nat) (unique : Bool) (persist : Option Status)

namespace Catalog

def perform (catalog : Catalog) : CatalogCall → Catalog × Option CatalogError
  | .createSchema name persist =>
      let result := catalog.createSchema name persist
      (result.1, failureOf result.2)
  | .createTable schemaId tableName schema heap persist =>
      let result := catalog.createTable schemaId tableName schema heap persist
      (result.1, failureOf result.2)
  | .dropTable tableId persist =>
      let result := catalog.dropTable tableId persist
      (result.1, failureOf result.2)
  | .createIndex tableId indexName columns unique persist =>
      let result :=
        catalog.createIndex tableId indexName columns unique persist
      (result.1, failureOf result.2)
where
  failureOf {Reply : Type} : Except CatalogError Reply → Option CatalogError
    | .error failure => some failure
    | .ok _ => none

def step (catalog : Catalog) (call : CatalogCall) : Catalog :=
  (catalog.perform call).1

end Catalog

end KlyroDB

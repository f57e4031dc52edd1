-- Catalog records as documents.
import QueryReview.Catalog
import QueryReview.Wire.Record

namespace QueryReview.Wire

open QueryReview.Catalog

def columnKeyName : ColumnKey → String
  | .none => "none"
  | .primary => "primary"
  | .unique => "unique"
  | .multiple => "multiple"

def ofColumn (c : Column) : Json :=
  .object [
    ("name", .string c.name),
    ("data_type", .string c.dataType),
    ("nullable", .bool c.nullable),
    ("key", .string (columnKeyName c.key)),
    ("default_value", .ofOption .string c.defaultValue),
    ("extra", .string c.extra)]

def ofIndexPart (p : IndexPart) : Json :=
  .object [
    ("index_name", .string p.indexName),
    ("index_type", .string p.indexType),
    ("is_unique", .bool p.isUnique),
    ("column_name", .ofOption .string p.column),
    ("seq_in_index", .ofNat p.place)]

def ofColumns (columns : List Column) : Json := .array (columns.map ofColumn)

def ofIndexes (indexes : List IndexPart) : Json := .array (indexes.map ofIndexPart)

def ofSchema (s : TableSchema) : Json :=
  .object [
    ("table", .string s.table), ("columns", ofColumns s.columns), ("indexes", ofIndexes s.indexes)]

def readColumnKey : Json → Option ColumnKey :=
  readName [
    ("none", .none), ("primary", .primary), ("unique", .unique), ("multiple", .multiple)]

/-- A column. Further attributes may be missing. -/
def readColumn (j : Json) : Option Column := do
  let r ← Record.of? 6 j
  let name ← r.required 0 "name" readString
  let dataType ← r.required 1 "data_type" readString
  let nullable ← r.required 2 "nullable" readBool
  let key ← r.required 3 "key" readColumnKey
  let defaultValue ← r.optional 4 "default_value" readString
  let extra ← r.orElse 5 "extra" readString ""
  pure { name, dataType, nullable, key, defaultValue, extra }

def readIndexPart (j : Json) : Option IndexPart := do
  let r ← Record.of? 5 j
  let indexName ← r.required 0 "index_name" readString
  let indexType ← r.required 1 "index_type" readString
  let isUnique ← r.required 2 "is_unique" readBool
  let column ← r.optional 3 "column_name" readString
  let place ← r.required 4 "seq_in_index" (readNat max32)
  pure { indexName, indexType, isUnique, column, place }

def readSchema (j : Json) : Option TableSchema := do
  let r ← Record.of? 3 j
  let table ← r.required 0 "table" readString
  let columns ← r.required 1 "columns" (readList readColumn)
  let indexes ← r.required 2 "indexes" (readList readIndexPart)
  pure { table, columns, indexes }

end QueryReview.Wire

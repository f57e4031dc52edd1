-- What the database's catalog says about a table: its columns and its indexes.
import QueryReview.Text.Blank
import QueryReview.Text.Fold

namespace QueryReview.Catalog

open Text

/-- The part that a column has in the keys of its table. -/
inductive ColumnKey
  | none
  | primary
  | unique
  /-- First column of an index that is not unique. -/
  | multiple
deriving DecidableEq, Repr

namespace ColumnKey

/-- The short flag of the key. -/
def flag : ColumnKey → String
  | none => ""
  | primary => "PRI"
  | unique => "UNI"
  | multiple => "MUL"

/-- The key that a flag names, in any case and with white space around it. Other text names no
key. -/
def ofFlag (text : String) : ColumnKey :=
  let cs := trim text.toList
  let isFlag (key : ColumnKey) : Bool := capitalsAre key.flag.toList cs
  if isFlag primary then primary
  else if isFlag unique then unique
  else if isFlag multiple then multiple
  else none

end ColumnKey

structure Column where
  name : String
  dataType : String
  nullable : Bool
  key : ColumnKey
  defaultValue : Option String
  /-- Further attributes. -/
  extra : String
deriving DecidableEq, Repr

/-- One column of one index. -/
structure IndexPart where
  indexName : String
  indexType : String
  isUnique : Bool
  /-- The column, unless the part is an expression. -/
  column : Option String
  /-- The place of the part in its index, from 1. -/
  place : Nat
deriving DecidableEq, Repr

/-- The part belongs to the primary key. -/
def IndexPart.isPrimary (p : IndexPart) : Bool := p.indexName == "PRIMARY"

structure TableSchema where
  table : String
  columns : List Column
  indexes : List IndexPart
deriving DecidableEq, Repr

/-- The names of the indexes in order of first mention, each once. -/
def TableSchema.indexNames (s : TableSchema) : List String :=
  s.indexes.foldl (fun names p => if names.contains p.indexName then names else names ++ [p.indexName])
    []

end QueryReview.Catalog

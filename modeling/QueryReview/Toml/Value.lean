-- Values of a TOML document, and how its tables grow: by entries, by dotted keys and by headers.

namespace QueryReview.Toml

/-- How a table came about, which decides who may still add to it. -/
inductive Origin
  /-- By a header of its own, or as the whole document. -/
  | header
  /-- On the way to the table of another header. -/
  | passage
  /-- By a dotted key. -/
  | dotted
  /-- Between braces, where nothing is added later. -/
  | closed
deriving DecidableEq, Repr

inductive Value
  | string (s : String)
  | integer (n : Int)
  | float (x : Float)
  | bool (b : Bool)
  /-- A date, a time or both, as it stands. -/
  | moment (text : String)
  | array (items : List Value)
  | table (origin : Origin) (members : List (String × Value))
  /-- Tables under one name, each with a header of its own. -/
  | tables (rows : List (List (String × Value)))
deriving Repr, Inhabited

/-- The members of one table. No name comes twice. -/
abbrev Members := List (String × Value)

namespace Members

def get? (ms : Members) (name : String) : Option Value := ms.lookup name

/-- The members with the value under the name, in the place of an older one if there is one. -/
def put (ms : Members) (name : String) (value : Value) : Members :=
  if (ms.get? name).isSome then ms.map fun (key, old) => (key, if key = name then value else old)
  else ms ++ [(name, value)]

end Members

/-- The name of a value: those of the tables it lies in, and its own. -/
structure Path where
  tables : List String
  name : String
deriving DecidableEq, Repr

/-- The path made of these names. -/
def Path.ofNames? (names : List String) : Option Path :=
  names.getLast?.map fun name => { tables := names.dropLast, name }

/-- The table reached through the given names is changed. Tables on the way that are missing are
made. A dotted key passes only through tables that have no header of their own. -/
def within (dotted : Bool) (change : Origin → Members → Option Members) :
    List String → Origin → Members → Option Members
  | [], origin, ms => change origin ms
  | name :: path, _, ms =>
    match ms.get? name with
    | none =>
      let origin := if dotted then Origin.dotted else .passage
      (within dotted change path origin []).map fun inner => ms.put name (.table origin inner)
    | some (.table origin inner) =>
      if origin = .closed ∨ (dotted ∧ origin = .header) then none
      else (within dotted change path origin inner).map fun inner => ms.put name (.table origin inner)
    | some (.tables rows) =>
      match rows.getLast? with
      | none => none
      | some inner =>
        (within dotted change path .header inner).map fun inner =>
          ms.put name (.tables (rows.dropLast ++ [inner]))
    | some _ => none

/-- The members with one more entry. Its name must be new, and a dotted key ends in a table that
dotted keys have made. -/
def addEntry (origin : Origin) (ms : Members) (path : Path) (value : Value) : Option Members :=
  within true
    (fun reached inner =>
      if (reached = .dotted) = path.tables.isEmpty ∨ (inner.get? path.name).isSome then none
      else some (inner.put path.name value))
    path.tables origin ms

/-- The members with all the entries, one after the other. -/
def addEntries (origin : Origin) (ms : Members) (entries : List (Path × Value)) :
    Option Members :=
  entries.foldlM (fun ms (path, value) => addEntry origin ms path value) ms

/-- The members with the table of a header, which must be new or only have been passed through. -/
def addTable (ms : Members) (path : Path) (entries : List (Path × Value)) : Option Members :=
  within false
    (fun _ outer => do
      let before ← match outer.get? path.name with
        | none => some []
        | some (.table .passage inner) => some inner
        | some _ => none
      let inner ← addEntries .header before entries
      pure (outer.put path.name (.table .header inner)))
    path.tables .header ms

/-- The members with one more of the tables that share a name. -/
def addRow (ms : Members) (path : Path) (entries : List (Path × Value)) : Option Members :=
  within false
    (fun _ outer => do
      let rows ← match outer.get? path.name with
        | none => some []
        | some (.tables rows) => some rows
        | some _ => none
      let inner ← addEntries .header [] entries
      pure (outer.put path.name (.tables (rows ++ [inner]))))
    path.tables .header ms

end QueryReview.Toml

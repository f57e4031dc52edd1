-- Arguments of a command: a file with settings, and settings that go before those of the file.
import QueryReview.Config.Settings

namespace QueryReview.Config

structure Arguments where
  /-- The file with the settings. -/
  file : Option String := none
  overrides : Overrides := {}
deriving DecidableEq, Repr

namespace Arguments

/-- The arguments with one more that has a value, if there is one of the name. -/
def addValue (a : Arguments) (name value : String) : Option Arguments :=
  match name with
  | "--config" => some { a with file := some value }
  | "--bind" => some { a with overrides := { a.overrides with bind := some value } }
  | "--database-url" => some { a with overrides := { a.overrides with url := some value } }
  | _ => none

/-- The value of an argument stands behind an equals sign or in the next word. -/
def read? (a : Arguments) : List String → Option Arguments
  | [] => some a
  | "--json-logs" :: rest =>
    read? { a with overrides := { a.overrides with jsonLogs := true } } rest
  | word :: rest =>
    match Text.cut? ['='] word.toList with
    | some (name, value) =>
      (a.addValue (String.ofList name) (String.ofList value)).bind fun a => read? a rest
    | none =>
      match rest with
      | [] => none
      | value :: rest => (a.addValue word value).bind fun a => read? a rest

end Arguments

end QueryReview.Config

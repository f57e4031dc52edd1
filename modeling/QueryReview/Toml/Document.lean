-- Whole TOML documents: keys, values, lines, and the tables they make up.
import QueryReview.Toml.Quotation
import QueryReview.Toml.Scalar

namespace QueryReview.Toml

open QueryReview.Text
open QueryReview.Text.Reader

/-- Neither arrays and tables in one another nor the names in a key go as deep as this. -/
def maxDepth : Nat := 80

/-! ## Blanks and comments -/

def comment : Reader Unit := char (· == '#') *> discard (stretch isPlain)

/-- The rest of a line on which nothing more stands. -/
def lineEnd : Reader Unit := gap *> maybe comment *> (newline <|> ended)

/-- Blanks, comments and line ends. -/
def space : Reader Unit :=
  discard (many (newline <|> comment *> newline <|> discard (char isGap)))

/-! ## Keys -/

def isBare (c : Char) : Bool := c.isAlphanum || c == '-' || c == '_'

def bareName : Reader String := do
  let first ← char isBare
  let more ← stretch isBare
  pure (String.ofList (first :: more))

/-- One name or several with points between them. -/
def path : Reader Path := do
  let names ← separated (exactly ['.']) (gap *> (lineText <|> bareName) <* gap)
  guard (names.length < maxDepth)
  lift (Path.ofNames? names)

/-! ## Values -/

/-- A key and its value. -/
def entry (value : Reader Value) : Reader (Path × Value) := do
  let key ← path
  exactly ['=']
  gap
  let v ← value
  pure (key, v)

/-- Values in brackets, on any number of lines. A comma may follow the last. -/
def array (value : Reader Value) : Reader Value := do
  exactly ['[']
  let items ← maybe (separated (exactly [',']) (space *> value <* space))
  if items.isSome then
    discard (maybe (exactly [',']))
  space
  exactly [']']
  pure (.array (items.getD []))

/-- Entries in braces. -/
def inlineTable (value : Reader Value) : Reader Value := do
  exactly ['\x7b']
  let entries ← maybe (separated (exactly [',']) (entry value <* gap))
  gap
  exactly ['\x7d']
  let members ← lift (addEntries .closed [] (entries.getD []))
  pure (.table .closed members)

/-- A value with at most so many arrays and tables in one another. -/
def value : (depth : Nat) → Reader Value
  | 0 => Value.string <$> quotedText <|> scalar
  | depth + 1 =>
    Value.string <$> quotedText <|> array (value depth) <|> inlineTable (value depth) <|> scalar

/-! ## Lines -/

/-- The entries on the next lines, with blank lines among them. -/
def entries : Reader (List (Path × Value)) := do
  let line := some <$> (gap *> entry (value (maxDepth - 1)) <* lineEnd)
    <|> (fun _ => none) <$> lineEnd
  pure ((← many line).filterMap id)

/-- A table or one of several tables, by its header, and the entries below. -/
structure Section where
  repeated : Bool
  path : Path
  entries : List (Path × Value)

def header : Reader (Bool × Path) :=
  (do
    exactly ['[', '[']
    let p ← path
    exactly [']', ']']
    pure (true, p))
  <|> (do
    exactly ['[']
    let p ← path
    exactly [']']
    pure (false, p))

def tableSection : Reader Section := do
  gap
  let (repeated, path) ← header
  lineEnd
  let entries ← entries
  pure { repeated, path, entries }

def addSection (ms : Members) (s : Section) : Option Members :=
  if s.repeated then addRow ms s.path s.entries else addTable ms s.path s.entries

/-- A document: the entries of its own, and those of its tables. A byte order mark in front is
left out. -/
def document : Reader Members := do
  discard (maybe (exactly ['\ufeff']))
  let own ← entries
  let sections ← many tableSection
  gap
  let ms ← lift (addEntries .header [] own)
  lift (sections.foldlM addSection ms)

/-- The members of the document that a text is. -/
def read? (text : String) : Option Members := whole? document text.toList

end QueryReview.Toml

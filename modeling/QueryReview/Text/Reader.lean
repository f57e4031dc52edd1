-- Readers: each takes something off the start of a text and leaves the rest, or takes nothing.
import QueryReview.Text.Find

namespace QueryReview.Text

/-- A reader of a text. Of two readers joined by `<|>`, the second starts where the first did. -/
abbrev Reader := StateT (List Char) Option

namespace Reader

variable {α : Type}

/-- One character that passes. -/
def char (test : Char → Bool) : Reader Char
  | [] => none
  | c :: cs => if test c then some (c, cs) else none

/-- Exactly this text. -/
def exactly (piece : List Char) : Reader Unit := fun cs => (after? piece cs).map ((), ·)

/-- The longest run of characters that pass, which may be empty. -/
def stretch (test : Char → Bool) : Reader (List Char) :=
  fun cs => some (cs.takeWhile test, cs.dropWhile test)

/-- The end of the text. -/
def ended : Reader Unit := fun cs => if cs.isEmpty then some ((), cs) else none

/-- What the reader takes, if it takes anything. -/
def maybe (read : Reader α) : Reader (Option α) := (some <$> read) <|> pure none

/-- The reader over and over, up to where it fails or takes nothing. -/
def collect (read : Reader α) (cs : List Char) : List α × List Char :=
  match read cs with
  | none => ([], cs)
  | some (a, rest) =>
    if rest.length < cs.length then
      let (more, last) := collect read rest
      (a :: more, last)
    else ([], cs)
termination_by cs.length

/-- As many as there are. -/
def many (read : Reader α) : Reader (List α) := fun cs => some (collect read cs)

/-- One or more, with the gap between each two. -/
def separated (gap : Reader Unit) (read : Reader α) : Reader (List α) := do
  let first ← read
  let more ← many (gap *> read)
  pure (first :: more)

/-- A value that may be missing, where nothing is taken. -/
def lift (value? : Option α) : Reader α := fun cs => value?.map (·, cs)

/-- What the reader makes of the whole text. -/
def whole? (read : Reader α) (cs : List Char) : Option α := (StateT.run (read <* ended) cs).map (·.1)

end Reader

end QueryReview.Text

-- Quoted text in TOML: between double quotes, where a backslash opens an escape, or between
-- single quotes, where every character stands for itself. Three quotes enclose several lines.
import QueryReview.Text.Digit
import QueryReview.Text.Reader

namespace QueryReview.Toml

open QueryReview.Text
open QueryReview.Text.Reader

/-- A blank within a line. -/
def isGap (c : Char) : Bool := c == ' ' || c == '\t'

def gap : Reader Unit := discard (stretch isGap)

/-- A character that may stand in a line of text. -/
def isPlain (c : Char) : Bool := c == '\t' || (' ' ≤ c && c != '\x7f')

/-- The end of a line, with or without a carriage return. -/
def newline : Reader Unit := exactly ['\n'] <|> exactly ['\r', '\n']

/-! ## Escapes -/

/-- A character by its number in hexadecimal digits. -/
def coded (size : Nat) : Reader Char := do
  let digits ← (List.range size).mapM fun _ => char fun c => (hexValue? c).isSome
  let n := digits.foldl (fun n c => 16 * n + (hexValue? c).getD 0) 0
  guard n.isValidChar
  pure (Char.ofNat n)

def escaped : Reader Char := do
  exactly ['\\']
  let mark ← char fun _ => true
  match mark with
  | 'b' => pure '\x08'
  | 't' => pure '\t'
  | 'n' => pure '\n'
  | 'f' => pure '\x0c'
  | 'r' => pure '\r'
  | '\x22' => pure '\x22'
  | '\\' => pure '\\'
  | 'u' => coded 4
  | 'U' => coded 8
  | _ => failure

/-! ## One line -/

def basicText : Reader String := do
  exactly ['\x22']
  let cs ← many (char (fun c => isPlain c && c != '\x22' && c != '\\') <|> escaped)
  exactly ['\x22']
  pure (String.ofList cs)

def literalText : Reader String := do
  exactly ['\x27']
  let cs ← stretch fun c => isPlain c && c != '\x27'
  exactly ['\x27']
  pure (String.ofList cs)

/-! ## Several lines -/

/-- A backslash at the end of a line, and all white space from there on. -/
def joint : Reader Unit := do
  exactly ['\\']
  gap
  newline
  discard (many (newline <|> discard (char isGap)))

/-- One or two quotes that do not end the text, because something else follows. -/
def looseQuotes (quote : Char) : Reader (List Char) := fun cs =>
  let quotes := cs.takeWhile (· == quote)
  if 0 < quotes.length ∧ quotes.length < 3 then some (quotes, cs.drop quotes.length) else none

/-- The three quotes at the end. One or two quotes in front of them belong to the text. -/
def closingQuotes (quote : Char) : Reader (List Char) := fun cs =>
  let quotes := cs.takeWhile (· == quote)
  if quotes.length < 3 then none
  else
    let kept := min 2 (quotes.length - 3)
    some (quotes.take kept, cs.drop (kept + 3))

/-- Text between three quotes and three quotes. A line end right at the start is left out, and
every other line end is read as a line feed. -/
def blockText (quote : Char) (piece : Reader (List Char)) : Reader String := do
  exactly [quote, quote, quote]
  discard (maybe newline)
  let pieces ← many (piece <|> looseQuotes quote <|> (fun _ => ['\n']) <$> newline)
  let last ← closingQuotes quote
  pure (String.ofList (pieces.flatten ++ last))

def basicBlock : Reader String :=
  blockText '\x22'
    ((fun _ => []) <$> joint
      <|> (fun c => [c]) <$> (char (fun c => isPlain c && c != '\x22' && c != '\\') <|> escaped))

def literalBlock : Reader String :=
  blockText '\x27' ((fun c => [c]) <$> char fun c => isPlain c && c != '\x27')

/-- Quoted text on one line. -/
def lineText : Reader String := basicText <|> literalText

/-- Quoted text, where three quotes always open several lines. -/
def quotedText : Reader String := fun cs =>
  if startsWith ['\x22', '\x22', '\x22'] cs then basicBlock cs
  else if startsWith ['\x27', '\x27', '\x27'] cs then literalBlock cs
  else lineText cs

end QueryReview.Toml

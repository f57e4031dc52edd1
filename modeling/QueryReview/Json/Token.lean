-- The tokens of a JSON text. The text comes as bytes and is read one byte at a time; the first
-- byte that fits nowhere ends the tokens with a fault.
import QueryReview.Text.Digit

namespace QueryReview.Json

/-- One unit of the inside of a string: a byte as it stands, or a number given by an escape. -/
inductive StringUnit
  | byte (b : UInt8)
  | escaped (code : Nat)
deriving DecidableEq, Repr

inductive Token
  | openArray
  | closeArray
  | openObject
  | closeObject
  | comma
  | colon
  | null
  | bool (b : Bool)
  | number (text : List Char)
  /-- The text of a string, or nothing when what it holds is not Unicode text. -/
  | string (text : Option String)
  | fault
deriving DecidableEq, Repr

/-! ## The inside of a string -/

def isHighSurrogate (n : Nat) : Bool := 0xd800 ≤ n && n < 0xdc00

def isLowSurrogate (n : Nat) : Bool := 0xdc00 ≤ n && n < 0xe000

/-- The bytes of a string. Two escapes that make up a pair of surrogates give one character, and
half a pair has no bytes. -/
def unitBytes : List StringUnit → Option (List UInt8)
  | [] => some []
  | .byte b :: rest => (unitBytes rest).map (b :: ·)
  | .escaped n :: rest =>
    if isHighSurrogate n then
      match rest with
      | .escaped m :: more =>
        if isLowSurrogate m then
          let c := Char.ofNat (0x10000 + (n - 0xd800) * 0x400 + (m - 0xdc00))
          (unitBytes more).map (String.utf8EncodeChar c ++ ·)
        else none
      | _ => none
    else if isLowSurrogate n then none
    else (unitBytes rest).map (String.utf8EncodeChar (Char.ofNat n) ++ ·)

/-- The text of a string, if it is Unicode text. -/
def unitText (units : List StringUnit) : Option String :=
  (unitBytes units).bind fun bytes => String.fromUTF8? ⟨bytes.toArray⟩

/-! ## Numbers -/

/-- How far a number has been read. -/
inductive NumberPart
  | minus
  | zero
  | whole
  | point
  | fraction
  | mark
  | markSign
  | exponent
deriving DecidableEq, Repr

/-- The number may end here. -/
def NumberPart.mayEnd : NumberPart → Bool
  | .zero | .whole | .fraction | .exponent => true
  | _ => false

/-- The number may end in front of the character. No digit follows a zero at the start. -/
def NumberPart.mayEndAt (part : NumberPart) (c : Char) : Bool :=
  part.mayEnd && !(part == .zero && c.isDigit)

/-- The part that the next character belongs to, if the number goes on with it. -/
def NumberPart.next? (part : NumberPart) (c : Char) : Option NumberPart :=
  let isMark := c == 'e' || c == 'E'
  match part with
  | .minus => if c = '0' then some .zero else if c.isDigit then some .whole else none
  | .zero => if c = '.' then some .point else if isMark then some .mark else none
  | .whole =>
    if c.isDigit then some .whole
    else if c = '.' then some .point
    else if isMark then some .mark
    else none
  | .point => if c.isDigit then some .fraction else none
  | .fraction => if c.isDigit then some .fraction else if isMark then some .mark else none
  | .mark =>
    if c.isDigit then some .exponent else if c = '+' ∨ c = '-' then some .markSign else none
  | .markSign => if c.isDigit then some .exponent else none
  | .exponent => if c.isDigit then some .exponent else none

/-! ## The lexer -/

/-- Where the lexer stands. Texts are kept in reverse. -/
inductive Mode
  | between
  | word (left : List Char) (token : Token)
  | number (part : NumberPart) (text : List Char)
  | string (units : List StringUnit)
  | escape (units : List StringUnit)
  | code (left value : Nat) (units : List StringUnit)
  | stopped

def Mode.fail : Mode × List Token := (.stopped, [.fault])

/-- The first byte of a token, or a blank between tokens. -/
def Mode.start (b : UInt8) : Mode × List Token :=
  match Char.ofNat b.toNat with
  | ' ' | '\n' | '\r' | '\t' => (.between, [])
  | '[' => (.between, [.openArray])
  | ']' => (.between, [.closeArray])
  | '\x7b' => (.between, [.openObject])
  | '\x7d' => (.between, [.closeObject])
  | ',' => (.between, [.comma])
  | ':' => (.between, [.colon])
  | 'n' => (.word ['u', 'l', 'l'] .null, [])
  | 't' => (.word ['r', 'u', 'e'] (.bool true), [])
  | 'f' => (.word ['a', 'l', 's', 'e'] (.bool false), [])
  | '\x22' => (.string [], [])
  | '-' => (.number .minus ['-'], [])
  | '0' => (.number .zero ['0'], [])
  | c => if c.isDigit then (.number .whole [c], []) else fail

/-- The character that a letter after a backslash stands for. -/
def simpleEscape? (c : Char) : Option Nat :=
  match c with
  | '\x22' | '\\' | '/' => some c.toNat
  | 'b' => some 0x08
  | 'f' => some 0x0c
  | 'n' => some 0x0a
  | 'r' => some 0x0d
  | 't' => some 0x09
  | _ => none

/-- One byte: where the lexer stands after it, and the tokens that end with it. A number ends only
at the byte behind it. -/
def Mode.step (mode : Mode) (b : UInt8) : Mode × List Token :=
  let c := Char.ofNat b.toNat
  match mode with
  | .stopped => (.stopped, [])
  | .between => start b
  | .word left token =>
    match left with
    | [] => fail
    | [l] => if c = l then (.between, [token]) else fail
    | l :: more => if c = l then (.word more token, []) else fail
  | .number part text =>
    match part.next? c with
    | some next => (.number next (c :: text), [])
    | none =>
      if part.mayEndAt c then
        let (next, tokens) := start b
        (next, .number text.reverse :: tokens)
      else fail
  | .string units =>
    if c = '\x22' then (.between, [.string (unitText units.reverse)])
    else if c = '\\' then (.escape units, [])
    else if b < 0x20 then fail
    else (.string (.byte b :: units), [])
  | .escape units =>
    if c = 'u' then (.code 4 0 units, [])
    else
      match simpleEscape? c with
      | some n => (.string (.escaped n :: units), [])
      | none => fail
  | .code left value units =>
    match Text.hexValue? c with
    | none => fail
    | some d =>
      let value := 16 * value + d
      if left ≤ 1 then (.string (.escaped value :: units), [])
      else (.code (left - 1) value units, [])

/-- The tokens that the end of the text brings. -/
def Mode.finish : Mode → List Token
  | .between | .stopped => []
  | .number part text => if part.mayEnd then [.number text.reverse] else [.fault]
  | _ => [.fault]

/-- Where the lexer stands, and the tokens so far in reverse. -/
structure Lexed where
  mode : Mode
  done : List Token

def Lexed.push (l : Lexed) (b : UInt8) : Lexed :=
  let (mode, tokens) := l.mode.step b
  { mode, done := tokens.reverse ++ l.done }

/-- The tokens of a text, up to its first fault. -/
def tokens (bytes : List UInt8) : List Token :=
  let l := bytes.foldl Lexed.push { mode := .between, done := [] }
  l.done.reverse ++ l.mode.finish

end QueryReview.Json

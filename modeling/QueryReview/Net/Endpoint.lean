-- Addresses to listen on: a host by number, and a port. How one is read, and how it is written.
import QueryReview.Text.Digit
import QueryReview.Text.Reader

namespace QueryReview.Net

open QueryReview.Text
open QueryReview.Text.Reader

/-- A host of four bytes. -/
structure Ipv4 where
  a : UInt8
  b : UInt8
  c : UInt8
  d : UInt8
deriving DecidableEq, Repr

/-- A host of eight groups of sixteen bits. -/
structure Ipv6 where
  groups : Vector UInt16 8
deriving DecidableEq, Repr

/-- A host and a port. A host of groups also has a scope, which is 0 when there is none. -/
inductive Endpoint
  | v4 (host : Ipv4) (port : UInt16)
  | v6 (host : Ipv6) (scope : UInt32) (port : UInt16)
deriving DecidableEq, Repr

/-! ## Reading -/

/-- A number in decimal digits, up to `most`. -/
def decimal (most : Nat) : Reader Nat := do
  let n ← lift (natural? (← stretch Char.isDigit))
  guard (n ≤ most)
  pure n

/-- One byte of a host, with no zero in front of it. -/
def octet : Reader UInt8 := do
  let digits ← stretch Char.isDigit
  guard (digits.length ≤ 3 ∧ (digits.head? ≠ some '0' ∨ digits.length = 1))
  let n ← lift (natural? digits)
  guard (n < 256)
  pure (UInt8.ofNat n)

def ipv4 : Reader Ipv4 := do
  let a ← octet
  let b ← exactly ['.'] *> octet
  let c ← exactly ['.'] *> octet
  let d ← exactly ['.'] *> octet
  pure { a, b, c, d }

/-- A group of one to four hexadecimal digits. -/
def group : Reader UInt16 := do
  let digits ← stretch fun c => (hexValue? c).isSome
  guard (1 ≤ digits.length ∧ digits.length ≤ 4)
  pure (UInt16.ofNat (digits.foldl (fun n c => 16 * n + (hexValue? c).getD 0) 0))

/-- The host as the last two groups of a longer one. -/
def Ipv4.pairs (host : Ipv4) : List UInt16 :=
  let pair (high low : UInt8) := UInt16.ofNat (256 * high.toNat + low.toNat)
  [pair host.a host.b, pair host.c host.d]

/-- As many groups as there are and as fit into `room`, with a colon in front of each but the
first. The last two may be written as four bytes, and the flag tells that they are. -/
def groups (gap : Reader Unit) : (room : Nat) → Reader (List UInt16 × Bool)
  | 0 => pure ([], false)
  | room + 1 => do
    let quad ← if room = 0 then pure none else maybe (gap *> ipv4)
    if let some host := quad then
      return (host.pairs, true)
    match ← maybe (gap *> group) with
    | none => pure ([], false)
    | some g =>
      let (more, quad) ← groups (exactly [':']) room
      pure (g :: more, quad)

/-- Eight groups. Two colons stand for one or more groups that are zero. -/
def ipv6 : Reader Ipv6 := do
  let (head, quad) ← groups (pure ()) 8
  let all ← if head.length = 8 then pure head else do
    guard (quad = false)
    exactly [':', ':']
    let (tail, _) ← groups (pure ()) (7 - head.length)
    pure (head ++ List.replicate (8 - head.length - tail.length) 0 ++ tail)
  if h : all.length = 8 then pure ⟨⟨all.toArray, by simpa using h⟩⟩ else failure

def port : Reader UInt16 := exactly [':'] *> UInt16.ofNat <$> decimal 65535

def scope : Reader UInt32 := exactly ['%'] *> UInt32.ofNat <$> decimal (Nat.pow 2 32 - 1)

def endpoint : Reader Endpoint :=
  (do
    let host ← ipv4
    let p ← port
    pure (.v4 host p))
  <|> (do
    exactly ['[']
    let host ← ipv6
    let s ← scope <|> pure 0
    exactly [']']
    let p ← port
    pure (.v6 host s p))

/-- The endpoint that a text names, if it names one and nothing else. -/
def Endpoint.read? (text : String) : Option Endpoint := whole? endpoint text.toList

/-! ## Writing -/

def Ipv4.text (host : Ipv4) : String :=
  ".".intercalate ([host.a, host.b, host.c, host.d].map fun n => toString n.toNat)

/-- The number of zeros from a place on. -/
def zerosFrom (gs : List UInt16) (place : Nat) : Nat := ((gs.drop place).takeWhile (· == 0)).length

/-- The first place from which the most zeros follow. -/
def longestZeros (gs : List UInt16) : Nat :=
  (List.range gs.length).foldl
    (fun best place => if zerosFrom gs best < zerosFrom gs place then place else best) 0

def groupsText (gs : List UInt16) : String :=
  ":".intercalate (gs.map fun g => String.ofList (Nat.toDigits 16 g.toNat))

/-- The host of four bytes that a longer host stands for. -/
def Ipv6.mapped? (host : Ipv6) : Option Ipv4 :=
  match host.groups.toList with
  | [0, 0, 0, 0, 0, 0xffff, x, y] =>
    let high (g : UInt16) := UInt8.ofNat (g.toNat / 256)
    let low (g : UInt16) := UInt8.ofNat (g.toNat % 256)
    some ⟨high x, low x, high y, low y⟩
  | _ => none

/-- The groups in hexadecimal, where the first of the longest runs of two or more zeros is left
out. A host that stands for one of four bytes ends in those. -/
def Ipv6.text (host : Ipv6) : String :=
  match host.mapped? with
  | some inner => "::ffff:" ++ inner.text
  | none =>
    let gs := host.groups.toList
    let start := longestZeros gs
    let size := zerosFrom gs start
    if 1 < size then groupsText (gs.take start) ++ "::" ++ groupsText (gs.drop (start + size))
    else groupsText gs

namespace Endpoint

def host : Endpoint → String
  | v4 host _ => host.text
  | v6 host _ _ => host.text

def port : Endpoint → Nat
  | v4 _ port => port.toNat
  | v6 _ _ port => port.toNat

def text : Endpoint → String
  | v4 host port => host.text ++ ":" ++ toString port.toNat
  | v6 host scope port =>
    let zone := if scope = 0 then "" else "%" ++ toString scope.toNat
    "[" ++ host.text ++ zone ++ "]:" ++ toString port.toNat

end Endpoint

end QueryReview.Net

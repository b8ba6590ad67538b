import LogConsumer.Json.Value
import LogConsumer.Text.Decimal

/-! Reading JSON text. Each reader takes the characters from its piece on and gives back those
after it; the bound on nesting is the length of the text, which no text exceeds. -/
namespace LogConsumer.Json

open Decimal (isDigit)

def isSpace (c : Char) : Bool := c == ' ' || c == '\t' || c == '\n' || c == '\r'

def skipSpace : List Char → List Char := List.dropWhile isSpace

def hexValue (c : Char) : Option Nat :=
  if isDigit c then some (c.toNat - '0'.toNat)
  else if 'a' ≤ c && c ≤ 'f' then some (c.toNat - 'a'.toNat + 10)
  else if 'A' ≤ c && c ≤ 'F' then some (c.toNat - 'A'.toNat + 10)
  else none

def unit (a b c d : Char) : Option Nat := do
  return (((← hexValue a) * 16 + (← hexValue b)) * 16 + (← hexValue c)) * 16 + (← hexValue d)

def isHighSurrogate (n : Nat) : Bool := 0xd800 ≤ n && n < 0xdc00

def isLowSurrogate (n : Nat) : Bool := 0xdc00 ≤ n && n < 0xe000

def escaped : Char → Option Char
  | '"' => some '"'
  | '\\' => some '\\'
  | '/' => some '/'
  | 'b' => some '\x08'
  | 'f' => some '\x0c'
  | 'n' => some '\n'
  | 'r' => some '\r'
  | 't' => some '\t'
  | _ => none

/-- A text's characters before surrogates are joined: one that stands for itself or was escaped
by a letter, or a 16-bit unit escaped by its number. -/
inductive Piece
  | char (c : Char)
  | unit (n : Nat)

def readPieces : List Char → Option (List Piece × List Char)
  | [] => none
  | '"' :: rest => some ([], rest)
  | '\\' :: 'u' :: a :: b :: c :: d :: rest => do
    let n ← unit a b c d
    let (pieces, after) ← readPieces rest
    return (.unit n :: pieces, after)
  | '\\' :: e :: rest => do
    let c ← escaped e
    let (pieces, after) ← readPieces rest
    return (.char c :: pieces, after)
  | c :: rest => do
    guard (0x20 ≤ c.toNat && c != '\\')
    let (pieces, after) ← readPieces rest
    return (.char c :: pieces, after)

/-- The characters of the pieces, unless a surrogate is unpaired. -/
def join : List Piece → Option (List Char)
  | [] => some []
  | .char c :: rest => (c :: ·) <$> join rest
  | .unit high :: .unit low :: rest =>
    if isHighSurrogate high then
      if isLowSurrogate low then
        (Char.ofNat (0x10000 + (high - 0xd800) * 0x400 + (low - 0xdc00)) :: ·) <$> join rest
      else none
    else if isLowSurrogate high then none
    else (Char.ofNat high :: ·) <$> join (.unit low :: rest)
  | .unit n :: rest =>
    if isHighSurrogate n || isLowSurrogate n then none else (Char.ofNat n :: ·) <$> join rest

def readText : List Char → Option (Option String × List Char)
  | '"' :: rest => do
    let (pieces, after) ← readPieces rest
    return ((join pieces).map String.ofList, after)
  | _ => none

def takeDigits (cs : List Char) : Option (List Char × List Char) :=
  match cs.takeWhile isDigit with
  | [] => none
  | digits => some (digits, cs.dropWhile isDigit)

/-- A whole part: a lone zero or digits that do not start with one. -/
def readWhole : List Char → Option (Nat × List Char)
  | '0' :: rest => some (0, rest)
  | cs => do
    let (digits, rest) ← takeDigits cs
    return (Nat.ofDigitChars 10 digits 0, rest)

def readFraction : List Char → Option (Bool × List Char)
  | '.' :: rest => do
    let (_, rest) ← takeDigits rest
    return (true, rest)
  | cs => some (false, cs)

def readExponent : List Char → Option (Bool × List Char)
  | e :: rest =>
    if e == 'e' || e == 'E' then do
      let (_, rest) ← takeDigits (match rest with
        | '+' :: rest => rest
        | '-' :: rest => rest
        | rest => rest)
      return (true, rest)
    else some (false, e :: rest)
  | [] => some (false, [])

def readNumber (cs : List Char) : Option (Json × List Char) := do
  let (negative, cs) := match cs with
    | '-' :: rest => (true, rest)
    | cs => (false, cs)
  let (n, cs) ← readWhole cs
  let (hasFraction, cs) ← readFraction cs
  let (hasExponent, cs) ← readExponent cs
  if hasFraction || hasExponent || (negative && n == 0) then return (.fraction, cs)
  else return (.integer (if negative then -n else n), cs)

mutual

def readValue : Nat → List Char → Option (Json × List Char)
  | 0, _ => none
  | depth + 1, cs =>
    match cs with
    | 'n' :: 'u' :: 'l' :: 'l' :: rest => some (.null, rest)
    | 't' :: 'r' :: 'u' :: 'e' :: rest => some (.bool true, rest)
    | 'f' :: 'a' :: 'l' :: 's' :: 'e' :: rest => some (.bool false, rest)
    | '"' :: rest => do
      let (s, after) ← readText ('"' :: rest)
      return (.string s, after)
    | '[' :: rest =>
      match skipSpace rest with
      | ']' :: after => some (.array [], after)
      | inner => do
        let (items, after) ← readItems depth inner
        return (.array items, after)
    | '\x7b' :: rest =>
      match skipSpace rest with
      | '\x7d' :: after => some (.object [], after)
      | inner => do
        let (fields, after) ← readFields depth inner
        return (.object fields, after)
    | cs => readNumber cs

def readItems : Nat → List Char → Option (List Json × List Char)
  | 0, _ => none
  | depth + 1, cs => do
    let (v, after) ← readValue depth cs
    match skipSpace after with
    | ']' :: rest => return ([v], rest)
    | ',' :: rest =>
      let (items, rest) ← readItems depth (skipSpace rest)
      return (v :: items, rest)
    | _ => none

def readFields : Nat → List Char → Option (List (Option String × Json) × List Char)
  | 0, _ => none
  | depth + 1, cs => do
    let (k, after) ← readText cs
    match skipSpace after with
    | ':' :: rest =>
      let (v, after) ← readValue depth (skipSpace rest)
      match skipSpace after with
      | '\x7d' :: rest => return ([(k, v)], rest)
      | ',' :: rest =>
        let (fields, rest) ← readFields depth (skipSpace rest)
        return ((k, v) :: fields, rest)
      | _ => none
    | _ => none

end

def read? (s : String) : Option Json := do
  let cs := skipSpace s.toList
  let (v, after) ← readValue (cs.length + 1) cs
  guard (skipSpace after).isEmpty
  return v

end LogConsumer.Json

import LogConsumer.Pattern.Syntax
import LogConsumer.Text.Decimal

/-! Reading patterns: literals, sets, escapes, groups, alternatives, repetitions, both anchors and
the flag that ignores case. Each reader gives back the characters after its piece. -/
namespace LogConsumer.Pattern

/-- What holds at a place in a pattern: whether case is ignored, and the names groups have. -/
structure Context where
  ignoreCase : Bool
  names : List (List Char)

/-- An escape names a single character, a set of them or, outside sets, an anchor. -/
inductive Escape
  | char (c : Char)
  | item (i : SetItem)
  | anchor (p : Pattern)

/-- Whether a backslash before `c` just gives `c`: ASCII but letters, digits and angle brackets. -/
def standsForItself (c : Char) : Bool :=
  c.toNat < 0x80 && !c.isAlphanum && c != '<' && c != '>'

def escape? (c : Char) : Option Escape :=
  match c with
  | 'd' => some (.item (.named .digit))
  | 'D' => some (.item (.outside .digit))
  | 'w' => some (.item (.named .word))
  | 'W' => some (.item (.outside .word))
  | 's' => some (.item (.named .blank))
  | 'S' => some (.item (.outside .blank))
  | 'a' => some (.char '\x07')
  | 'f' => some (.char '\x0c')
  | 't' => some (.char '\t')
  | 'n' => some (.char '\n')
  | 'r' => some (.char '\r')
  | 'v' => some (.char '\x0b')
  | 'A' => some (.anchor .start)
  | 'z' => some (.anchor .finish)
  | c => if standsForItself c then some (.char c) else none

def readSetItem : List Char → Option (SetItem × List Char)
  | '\\' :: c :: rest =>
    match escape? c with
    | some (.char c) => some (.range c c, rest)
    | some (.item i) => some (i, rest)
    | _ => none
  | '\\' :: [] => none
  | c :: rest => some (.range c c, rest)
  | [] => none

def joinRange : SetItem → SetItem → Option SetItem
  | .range first _, .range _ last => if first ≤ last then some (.range first last) else none
  | _, _ => none

/-- The items up to the closing bracket. Sets within sets and set operators are not read. -/
def readSetItems : Nat → List Char → Option (List SetItem × List Char)
  | 0, _ => none
  | bound + 1, cs =>
    match cs with
    | ']' :: rest => some ([], rest)
    | '[' :: _ | '&' :: '&' :: _ | '-' :: '-' :: _ | '~' :: '~' :: _ => none
    | cs => do
      let (i, rest) ← readSetItem cs
      match rest with
      | '-' :: ']' :: _ | '-' :: '-' :: _ =>
        let (items, rest) ← readSetItems bound rest
        return (i :: items, rest)
      | '-' :: rest =>
        let (j, rest) ← readSetItem rest
        let (items, rest) ← readSetItems bound rest
        return ((← joinRange i j) :: items, rest)
      | rest =>
        let (items, rest) ← readSetItems bound rest
        return (i :: items, rest)

/-- Hyphens, and then a bracket if no hyphen was there, stand for themselves at the front. -/
def readSetFront (cs : List Char) : List SetItem × List Char :=
  let hyphens := (cs.takeWhile (· == '-')).map fun c => SetItem.range c c
  match hyphens, cs.dropWhile (· == '-') with
  | [], ']' :: rest => ([.range ']' ']'], rest)
  | _, rest => (hyphens, rest)

def readSet (ignoreCase : Bool) (cs : List Char) : Option (CharSet × List Char) := do
  let (negated, cs) := match cs with
    | '^' :: rest => (true, rest)
    | cs => (false, cs)
  let (front, cs) := readSetFront cs
  let (items, rest) ← readSetItems (cs.length + 1) cs
  return (⟨front ++ items, negated, ignoreCase⟩, rest)

/-- A count of 32 bits, with blanks around it. -/
def readCount (cs : List Char) : Option (Nat × List Char) :=
  let cs := cs.dropWhile Text.isBlank
  match cs.takeWhile Decimal.isDigit with
  | [] => none
  | digits =>
    let n := Nat.ofDigitChars 10 digits 0
    if n < UInt32.size then some (n, (cs.dropWhile Decimal.isDigit).dropWhile Text.isBlank)
    else none

def readCounts (cs : List Char) : Option (Nat × Option Nat × List Char) := do
  let (least, rest) ← readCount cs
  match rest with
  | '\x7d' :: rest => return (least, some least, rest)
  | ',' :: '\x7d' :: rest => return (least, none, rest)
  | ',' :: rest =>
    let (most, rest) ← readCount rest
    guard (least ≤ most)
    match rest with
    | '\x7d' :: rest => return (least, some most, rest)
    | _ => none
  | _ => none

def readBounds : List Char → Option (Option (Nat × Option Nat) × List Char)
  | '*' :: rest => some (some (0, none), rest)
  | '+' :: rest => some (some (1, none), rest)
  | '?' :: rest => some (some (0, some 1), rest)
  | '\x7b' :: rest => do
    let (least, most, rest) ← readCounts rest
    return (some (least, most), rest)
  | cs => some (none, cs)

def readGreed : List Char → Bool × List Char
  | '?' :: rest => (false, rest)
  | rest => (true, rest)

def readRepetitions : Nat → Pattern → List Char → Option (Pattern × List Char)
  | 0, _, _ => none
  | bound + 1, p, cs => do
    let (bounds, rest) ← readBounds cs
    match bounds with
    | none => return (p, rest)
    | some (least, most) =>
      let (greedy, rest) := readGreed rest
      readRepetitions bound (.repeated p least most greedy) rest

/-- What the characters after an opening parenthesis begin: a group, or flags up to a closing one. -/
inductive GroupHead
  | group (context : Context)
  | flags (context : Context)

def isNameChar (first : Bool) (c : Char) : Bool :=
  c == '_' || Text.isWord c && (c.isAlpha || 0x80 ≤ c.toNat) ||
    !first && (Decimal.isDigit c || c == '.' || c == '[' || c == ']')

/-- A group's name up to the closing angle bracket; it must be new. -/
def readName (context : Context) (cs : List Char) : Option (GroupHead × List Char) :=
  match cs.takeWhile (· != '>'), cs.dropWhile (· != '>') with
  | c :: name, _ :: rest =>
    if isNameChar true c && name.all (isNameChar false) && !context.names.contains (c :: name) then
      some (.group { context with names := (c :: name) :: context.names }, rest)
    else none
  | _, _ => none

def readGroupHead (context : Context) (cs : List Char) : Option (GroupHead × List Char) :=
  match cs with
  | '?' :: ':' :: rest => some (.group context, rest)
  | '?' :: 'i' :: ':' :: rest => some (.group { context with ignoreCase := true }, rest)
  | '?' :: '-' :: 'i' :: ':' :: rest => some (.group { context with ignoreCase := false }, rest)
  | '?' :: 'i' :: ')' :: rest => some (.flags { context with ignoreCase := true }, rest)
  | '?' :: '-' :: 'i' :: ')' :: rest => some (.flags { context with ignoreCase := false }, rest)
  | '?' :: 'P' :: '<' :: rest => readName context rest
  | '?' :: '<' :: rest => readName context rest
  | '?' :: _ => none
  | rest => some (.group context, rest)

mutual

def readAlternatives : Nat → Context → List Char → Option (Pattern × Context × List Char)
  | 0, _, _ => none
  | bound + 1, context, cs => do
    let (p, context, rest) ← readSequence bound context cs
    match rest with
    | '|' :: rest =>
      let (q, context, rest) ← readAlternatives bound context rest
      return (.alt p q, context, rest)
    | rest => return (p, context, rest)

def readSequence : Nat → Context → List Char → Option (Pattern × Context × List Char)
  | 0, _, _ => none
  | bound + 1, context, cs =>
    match cs with
    | [] => some (.empty, context, [])
    | '|' :: rest => some (.empty, context, '|' :: rest)
    | ')' :: rest => some (.empty, context, ')' :: rest)
    | cs => do
      let (piece, context, rest) ← readPiece bound context cs
      match piece with
      | none => readSequence bound context rest
      | some p =>
        let (p, rest) ← readRepetitions (rest.length + 1) p rest
        let (q, context, rest) ← readSequence bound context rest
        return (.seq p q, context, rest)

def readPiece : Nat → Context → List Char → Option (Option Pattern × Context × List Char)
  | 0, _, _ => none
  | bound + 1, context, cs =>
    match cs with
    | '(' :: rest => do
      let (head, rest) ← readGroupHead context rest
      match head with
      | .flags context => return (none, context, rest)
      | .group inner =>
        let (p, inner, rest) ← readAlternatives bound inner rest
        match rest with
        | ')' :: rest => return (some p, { inner with ignoreCase := context.ignoreCase }, rest)
        | _ => none
    | '[' :: rest => do
      let (set, rest) ← readSet context.ignoreCase rest
      return (some (.chars set), context, rest)
    | '\\' :: c :: rest =>
      match escape? c with
      | some (.char c) => some (some (.chars (.single c context.ignoreCase)), context, rest)
      | some (.item i) => some (some (.chars ⟨[i], false, context.ignoreCase⟩), context, rest)
      | some (.anchor p) => some (some p, context, rest)
      | none => none
    | '^' :: rest => some (some .start, context, rest)
    | '$' :: rest => some (some .finish, context, rest)
    | '.' :: rest => some (some (.chars .dot), context, rest)
    | c :: rest =>
      if c == '*' || c == '+' || c == '?' || c == '\x7b' || c == '\\' then none
      else some (some (.chars (.single c context.ignoreCase)), context, rest)
    | [] => none

end

def read? (s : String) : Option Pattern := do
  let cs := s.toList
  let (p, _, rest) ← readAlternatives (3 * cs.length + 3) ⟨false, []⟩ cs
  guard rest.isEmpty
  return p

end LogConsumer.Pattern

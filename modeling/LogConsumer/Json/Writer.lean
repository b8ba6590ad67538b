import LogConsumer.Json.Value
import LogConsumer.Text.Decimal

/-! The compact text of a JSON value: no blanks, and in texts only quotes, backslashes and the
characters below the space are escaped. -/
namespace LogConsumer.Json

def hexDigit (n : Nat) : Char := Nat.digitChar (n % 16)

def writeChar (c : Char) : List Char :=
  match c with
  | '"' => ['\\', '"']
  | '\\' => ['\\', '\\']
  | '\x08' => ['\\', 'b']
  | '\t' => ['\\', 't']
  | '\n' => ['\\', 'n']
  | '\x0c' => ['\\', 'f']
  | '\r' => ['\\', 'r']
  | c =>
    if c.toNat < 0x20 then ['\\', 'u', '0', '0', hexDigit (c.toNat / 16), hexDigit c.toNat]
    else [c]

/-- A text that no string names is written as a lone surrogate escape. -/
def writeText : Option String → List Char
  | some s => '"' :: (s.toList.flatMap writeChar ++ ['"'])
  | none => ['"', '\\', 'u', 'd', '8', '0', '0', '"']

def writeInt : Int → List Char
  | .ofNat n => Nat.toDigits 10 n
  | .negSucc n => '-' :: Nat.toDigits 10 (n + 1)

mutual

def writeValue : Json → List Char
  | .null => ['n', 'u', 'l', 'l']
  | .bool true => ['t', 'r', 'u', 'e']
  | .bool false => ['f', 'a', 'l', 's', 'e']
  | .integer n => writeInt n
  | .fraction => ['-', '0']
  | .string s => writeText s
  | .array [] => ['[', ']']
  | .array (v :: rest) => '[' :: (writeValue v ++ writeItems rest)
  | .object [] => ['\x7b', '\x7d']
  | .object ((k, v) :: rest) =>
    '\x7b' :: (writeText k ++ ':' :: (writeValue v ++ writeFields rest))

def writeItems : List Json → List Char
  | [] => [']']
  | v :: rest => ',' :: (writeValue v ++ writeItems rest)

def writeFields : List (Option String × Json) → List Char
  | [] => ['\x7d']
  | (k, v) :: rest => ',' :: (writeText k ++ ':' :: (writeValue v ++ writeFields rest))

end

def write (j : Json) : String := String.ofList j.writeValue

end LogConsumer.Json

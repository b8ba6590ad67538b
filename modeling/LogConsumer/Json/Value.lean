/-! JSON values, as far as they matter to a reader that asks for texts, truth values and whole
numbers. -/
namespace LogConsumer

inductive Json
  | null
  | bool (b : Bool)
  | integer (n : Int)
  /-- A number with a fraction or an exponent, or a negative zero. -/
  | fraction
  /-- Carries `none` if an escape in it is an unpaired surrogate, so that it names no text. -/
  | string (text : Option String)
  | array (items : List Json)
  | object (fields : List (Option String × Json))
deriving Inhabited

namespace Json

def text (s : String) : Json := .string (some s)

def nat (n : Nat) : Json := .integer n

def record (fields : List (String × Json)) : Json :=
  .object (fields.map fun f => (some f.1, f.2))

def text? : Json → Option String
  | .string s => s
  | _ => none

def bool? : Json → Option Bool
  | .bool b => some b
  | _ => none

def int? : Json → Option Int
  | .integer n => some n
  | _ => none

def items? : Json → Option (List Json)
  | .array items => some items
  | _ => none

/-- A whole number below `2 ^ 64`. -/
def count64? : Json → Option UInt64
  | .integer (.ofNat n) => if n < UInt64.size then some (.ofNat n) else none
  | _ => none

theorem count64?_nat (n : UInt64) : (nat n.toNat).count64? = some n := by
  have h : (nat n.toNat).count64? =
      if n.toNat < UInt64.size then some (.ofNat n.toNat) else none := rfl
  rw [h, if_pos n.toNat_lt_size, UInt64.ofNat_toNat]

def int32? : Json → Option Int
  | .integer n => if -2_147_483_648 ≤ n ∧ n < 2_147_483_648 then some n else none
  | _ => none

def field? (name : String) : Json → Option Json
  | .object fields => fields.lookup (some name)
  | _ => none

/-- The values of the fields called `names`: by name in an object, where further fields are
ignored and a repeated one is refused, by position in an array, where trailing ones may lack. -/
def fields? (names : List String) : Json → Option (List (Option Json))
  | .object fields =>
    let keys := fields.map (·.1)
    if keys.all Option.isSome && names.all (fun n => keys.count (some n) ≤ 1) then
      some (names.map fun n => fields.lookup (some n))
    else none
  | .array items =>
    if items.length ≤ names.length then
      some (items.map some ++ List.replicate (names.length - items.length) none)
    else none
  | _ => none

/-- Reads an object of texts; of a repeated key the last field counts. -/
def textFields? : Json → Option (List (String × String))
  | .object fields => fields.mapM fun (k, v) => return (← k, ← v.text?)
  | _ => none

theorem textFields?_record (entries : List (String × String)) :
    (record (entries.map fun e => (e.1, .text e.2))).textFields? = some entries := by
  unfold record textFields?
  induction entries with
  | nil => rfl
  | cons e entries ih =>
    dsimp only at ih ⊢
    simp only [List.map_cons, List.mapM_cons, ih]
    rfl

end Json

end LogConsumer

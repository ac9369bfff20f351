import StreamCatalog.Number.Shortest

/-!
# JSON values

Whole numbers that fit a 64-bit word are kept apart from all other numbers,
which are doubles, kept as their shortest decimals. Members of an object keep
their order; of two members with one name the later one counts.
-/

namespace StreamCatalog

/-- A JSON value. -/
inductive Json where
  /-- `null` -/
  | null
  /-- `true` or `false` -/
  | bool (b : Bool)
  /-- A whole number. -/
  | int (i : Int)
  /-- Any other number: the shortest decimal of a double. -/
  | decimal (d : Decimal)
  /-- A string. -/
  | text (s : String)
  /-- An array. -/
  | array (items : List Json)
  /-- An object. -/
  | object (members : List (String × Json))
deriving Inhabited

namespace Json

/-- The least whole number kept as one. -/
def leastInt : Int := -(1 <<< 63 : Nat)

/-- The greatest whole number kept as one. -/
def greatestInt : Int := (1 <<< 64 : Nat) - 1

/-- A double is positional from `1e-5` to below `1e16`, and of two equally near decimals the
even one. -/
def numberStyle : Decimal.Style := ⟨.toEven, -5, 15⟩

/-- A double; what is not finite is `null`. -/
def ofFloat (x : Float) : Json :=
  match Decimal.ofFloat? numberStyle.tie x with
  | some d => .decimal d
  | none => .null

/-- A text, or `null`. -/
def ofText? (s : Option String) : Json :=
  s.elim .null .text

/-- The number as a double. -/
def float? : Json → Option Float
  | .int i => some (Float.ofInt i)
  | .decimal d => some d.toFloat
  | _ => none

/-- The string. -/
def text? : Json → Option String
  | .text s => some s
  | _ => none

/-- The whole number. -/
def int? : Json → Option Int
  | .int i => some i
  | _ => none

/-- The truth value. -/
def bool? : Json → Option Bool
  | .bool b => some b
  | _ => none

/-- The items of an array. -/
def array? : Json → Option (List Json)
  | .array items => some items
  | _ => none

/-- The members of an object. -/
def object? : Json → Option (List (String × Json))
  | .object members => some members
  | _ => none

/-- The last member with a name. -/
def get? (name : String) : Json → Option Json
  | .object members => (members.reverse.find? (·.1 = name)).map (·.2)
  | _ => none

end Json

end StreamCatalog

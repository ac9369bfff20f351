import StreamCatalog.Json.Basic
import StreamCatalog.Number.Literal
import StreamCatalog.Text.Blank
import StreamCatalog.Text.Quoted
import Std.Data.ExtTreeMap

/-!
# Properties of a stream

A stream is described by properties, which are named truth values, numbers and
texts. A property may be given as a text that writes a value of the type that is
asked for.
-/

namespace StreamCatalog

/-- The value of a property. -/
inductive PropertyValue where
  /-- A truth value. -/
  | bool (b : Bool)
  /-- A whole number. -/
  | integer (i : Int)
  /-- Any other number. -/
  | float (x : Float)
  /-- A text. -/
  | text (s : String)
deriving Inhabited

/-- Properties by name, in the order of names. -/
abbrev Properties := Std.ExtTreeMap String PropertyValue

namespace PropertyValue

/-- The greatest whole number of a property. -/
def greatestInteger : Int := (1 <<< 63 : Nat) - 1

/-- A value with the name of its type. -/
def shown : PropertyValue → String
  | bool b => "Bool(" ++ (if b then "true" else "false") ++ ")"
  | integer i => "Integer(" ++ toString i ++ ")"
  | float x => "Float(" ++ floatText x ++ ")"
  | text s => "Text(" ++ Text.quoted s ++ ")"

/-- The value that a JSON value gives. Whole numbers that are too great are read as doubles. -/
def ofJson? : Json → Option PropertyValue
  | .bool b => some (.bool b)
  | .int i => some (if i ≤ greatestInteger then .integer i else .float (Float.ofInt i))
  | .decimal d => some (.float d.toFloat)
  | .text s => some (.text s)
  | _ => none

/-- A value as JSON. -/
def toJson : PropertyValue → Json
  | bool b => .bool b
  | integer i => .int i
  | float x => .ofFloat x
  | text s => .text s

end PropertyValue

namespace Properties

/-- The properties that an object gives; of two with one name the later one counts. -/
def ofJson? (j : Json) : Option Properties := do
  (← j.object?).foldlM (fun (all : Properties) (name, value) => do
    return all.insert name (← PropertyValue.ofJson? value)) ∅

/-- Properties as an object. -/
def toJson (ps : Properties) : Json :=
  .object (ps.toList.map fun (name, value) => (name, value.toJson))

/-- The properties of `a`, with those of `b` in their place or besides them. -/
def overlay (a b : Properties) : Properties := a ∪ b

theorem getElem?_overlay (a b : Properties) (name : String) :
    (a.overlay b)[name]? = b[name]?.or a[name]? :=
  Std.ExtTreeMap.getElem?_union

end Properties

/-! ## Names of properties -/

namespace PropertyName

/-- The title of the stream. -/
def title : String := "title"

/-- The address on which the stream is received. -/
def monitoredAddress : String := "monitoredAddress"

/-- How many bytes close a chunk. -/
def byteCount : String := "byteCountRolloverCondition"

/-- After how many milliseconds a chunk is closed. -/
def elapsedTime : String := "elapsedTimeRolloverCondition"

/-- After how many milliseconds without data a chunk is closed. -/
def idleTimeout : String := "idleTimeoutRolloverCondition"

/-- How many seconds the parent waits for its update. -/
def initialDelay : String := "metacardUpdateInitialDelay"

/-- Whether the stream is received from the start. -/
def startImmediately : String := "startImmediately"

/-- The simplification tolerance of locations. -/
def distanceTolerance : String := "distanceTolerance"

/-- The title of the parent record. -/
def parentTitle : String := "parentTitle"

end PropertyName

/-! ## Reading properties -/

/-- A value that is not what a property needs. -/
inductive Unexpected where
  /-- A value of the wrong type. -/
  | value (v : PropertyValue)
  /-- A text that writes no value of the type. -/
  | text (s : String)
  /-- A whole number out of range. -/
  | integer (i : Int)
  /-- A number out of range. -/
  | float (x : Float)
  /-- Zero where a positive number is needed. -/
  | zero

/-- What is said about an unexpected value. -/
def Unexpected.reason : Unexpected → String
  | value v => "unexpected value " ++ v.shown
  | text s => "unexpected value " ++ Text.quoted s
  | integer i => "unexpected value " ++ toString i
  | float x => "unexpected value " ++ floatText x
  | zero => "must be greater than zero"

namespace PropertyValue

/-- A text. -/
def readText : PropertyValue → Except Unexpected String
  | text s => .ok s
  | v => .error (.value v)

/-- A truth value, or a text that writes one. -/
def readBool : PropertyValue → Except Unexpected Bool
  | bool b => .ok b
  | text s =>
    let t := Text.trim s
    if t = "true" then .ok true
    else if t = "false" then .ok false
    else .error (.text s)
  | v => .error (.value v)

/-- The whole number that a text writes, if it is not too far from zero. -/
def integerOfText? (s : String) : Option Int :=
  (intOfText? (Text.trim s)).filter fun i => -greatestInteger - 1 ≤ i ∧ i ≤ greatestInteger

/-- A whole number that is not negative, or a text that writes one. -/
def readNat (v : PropertyValue) : Except Unexpected Nat := do
  let i ← match v with
    | integer i => pure i
    | text s => ((integerOfText? s).map Except.ok).getD (.error (.text s))
    | v => .error (.value v)
  if i < 0 then .error (.integer i) else return i.toNat

/-- A positive whole number, or a text that writes one. -/
def readPositive (v : PropertyValue) : Except Unexpected Nat := do
  let n ← v.readNat
  if n = 0 then .error .zero else return n

/-- A finite number that is not negative, or a text that writes one. -/
def readDistance (v : PropertyValue) : Except Unexpected Float := do
  let x ← match v with
    | float x => pure x
    | integer i => pure (Float.ofInt i)
    | text s => ((floatOfText? (Text.trim s)).map Except.ok).getD (.error (.text s))
    | v => .error (.value v)
  if x.isFinite && !(x < 0.0) then return x else .error (.float x)

end PropertyValue

end StreamCatalog

import StreamCatalog.Json.Parser
import StreamCatalog.Stream.Property

/-!
# Properties in the body of a request

The properties of a stream are sent as one object. They are read from left to
right and the first fault decides: a text that is no JSON is malformed, and a
value that is no property, or anything but an object, has the wrong shape. What
follows the object is not looked at.
-/

namespace StreamCatalog.Web

/-- Why a body gives no properties. -/
inductive BodyFault where
  /-- The text is no JSON. -/
  | malformed
  /-- A value is no property, or the text no object. -/
  | wrongShape
deriving DecidableEq, Repr

variable [Json.NumberReader]

/-- The members of an object up to its end, besides the properties found so far. -/
def readMembers : Nat → Properties → List Char → Except BodyFault Properties
  | 0, _, _ => .error .malformed
  | fuel + 1, found, cs =>
    match Json.skipBlanks cs with
    | '"' :: rest =>
      match Json.readText [] rest with
      | none => .error .malformed
      | some (name, rest) =>
        match Json.skipBlanks rest with
        | ':' :: rest =>
          match Json.readValue (2 * rest.length + 2) (Json.maxDepth - 1) rest with
          | none => .error .malformed
          | some (value, rest) =>
            match PropertyValue.ofJson? value with
            | none => .error .wrongShape
            | some value =>
              match Json.skipBlanks rest with
              | ',' :: rest => readMembers fuel (found.insert name value) rest
              | '\x7d' :: _ => .ok (found.insert name value)
              | _ => .error .malformed
        | _ => .error .malformed
    | _ => .error .malformed

/-- The properties that the text of a body gives. -/
def readProperties (body : String) : Except BodyFault Properties :=
  match Json.skipBlanks body.toList with
  | '\x7b' :: rest =>
    match Json.skipBlanks rest with
    | '\x7d' :: _ => .ok ∅
    | rest => readMembers (rest.length + 1) ∅ rest
  | '[' :: _ => .error .wrongShape
  | cs =>
    match Json.readValue (cs.length + 1) Json.maxDepth cs with
    | none => .error .malformed
    | some _ => .error .wrongShape

end StreamCatalog.Web

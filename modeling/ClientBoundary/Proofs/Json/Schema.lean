import ClientBoundary.Json.Value

/-!
# Schemas

A schema is a JSON value itself: an object whose members are keywords, each of which asks something
of a value, and of values of one kind only.

- `Value.conforms`: whether a schema describes a value that is read as a map, by the keywords
  `type`, `items`, `anyOf`, `properties` and `additionalProperties`;
- `Value.conformsInPlace`: whether a list of schemas describes a list of values, place by place.
-/

namespace ClientBoundary
namespace Json
namespace Value

/-- The kind of a value, as schemas name it. -/
def kind : Value → String
  | .null => "null"
  | .bool _ => "boolean"
  | .number _ => "number"
  | .string _ => "string"
  | .array _ => "array"
  | .object _ => "object"

/-- The names that the keyword `properties` lists. -/
def propertyNames (keywords : List (String × Value)) : List String :=
  match keywords.lookup "properties" with
  | some (.object properties) => properties.map (·.1)
  | _ => []

mutual

/-- Whether a schema describes a value. -/
def conforms : Value → Value → Bool
  | .bool b, _ => b
  | .object keywords, v => conformsAll (propertyNames keywords) keywords v
  | _, _ => false

/-- Whether a value is what all keywords ask for; `names` are those that may be in an object. -/
def conformsAll (names : List String) : List (String × Value) → Value → Bool
  | [], _ => true
  | (key, argument) :: more, v =>
      (match key, v with
        | "type", v => decide (argument.asString? = some v.kind)
        | "items", .array items => items.all (conforms argument)
        | "anyOf", v => conformsAny argument v
        | "properties", .object members => conformsEach argument members
        | "additionalProperties", .object members =>
            members.all fun m => names.contains m.1 || conforms argument m.2
        | _, _ => true) && conformsAll names more v

/-- Whether one of several schemas describes a value. -/
def conformsAny : Value → Value → Bool
  | .array schemas, v => conformsSome schemas v
  | _, _ => false

def conformsSome : List Value → Value → Bool
  | [], _ => false
  | schema :: more, v => conforms schema v || conformsSome more v

/-- Whether the members of an object are what the schemas under their names describe. -/
def conformsEach : Value → List (String × Value) → Bool
  | .object properties, members => conformsNamed properties members
  | _, _ => false

def conformsNamed : List (String × Value) → List (String × Value) → Bool
  | [], _ => true
  | (name, schema) :: more, members =>
      (members.lookup name).all (conforms schema) && conformsNamed more members

end

/-- Whether each value is described by the schema in its place. There may be fewer values than
schemas, and no more. -/
def conformsInPlace : List Value → List Value → Bool
  | _, [] => true
  | [], _ :: _ => false
  | schema :: schemas, v :: values => conforms schema v && conformsInPlace schemas values

end Value
end Json
end ClientBoundary

import WaitLocalAgent.Foundation.JsonParts
import WaitLocalAgent.Model.SkillTests

/-! # Conformance to a schema

The meaning of the keywords of JSON Schema that skills use, without the validator, and what of it
`_validate_schema` decides. -/

namespace WaitLocalAgent.AgentSkills

open Foundation JsonValue AgentPlatform Baselines

variable {lib : Library} {number : String → ℚ} {schema fields : Fields} {value : JsonValue}
  {path : String}

section Equality

variable (number : String → ℚ)

mutual

/-- Equality of JSON values, in which numbers are compared by value and a boolean is no number. -/
def jsonEq : JsonValue → JsonValue → Bool
  | .null, other => match other with
      | .null => true
      | _ => false
  | .bool value, other => match other with
      | .bool other => value == other
      | _ => false
  | .int value, other => match other with
      | .bool _ => false
      | other => number? number other == some ↑value
  | .float repr, other => match other with
      | .bool _ => false
      | other => number? number other == some (number repr)
  | .text value, other => match other with
      | .text other => value == other
      | _ => false
  | .array items, other => match other with
      | .array others => jsonEqItems items others
      | _ => false
  | .object fields, other => match other with
      | .object others =>
          jsonEqFields fields others && others.all fun entry => (get? fields entry.1).isSome
      | _ => false

def jsonEqItems : List JsonValue → List JsonValue → Bool
  | [], others => others.isEmpty
  | item :: items, others => match others with
      | [] => false
      | other :: others => jsonEq item other && jsonEqItems items others

def jsonEqFields : List (String × JsonValue) → List (String × JsonValue) → Bool
  | [], _ => true
  | (key, value) :: fields, others =>
      (match get? others key with
        | some other => jsonEq value other
        | none => false) && jsonEqFields fields others

end

end Equality

/-- What is left open by the keywords: which numbers are integers, how values are compared with
those of an `enum`, which bounds count, and the schema of the properties that are not declared. -/
structure Dialect where
  isInteger : JsonValue → Bool
  same : JsonValue → JsonValue → Bool
  bound? : Option JsonValue → Option ℤ
  extra? : Option JsonValue → Option Fields

namespace Dialect

variable (d : Dialect)

def hasType (type : String) : JsonValue → Prop
  | .object _ => type = "object"
  | .array _ => type = "array"
  | .text _ => type = "string"
  | .int n => type = "number" ∨ type = "integer" ∧ d.isInteger (.int n) = true
  | .float repr => type = "number" ∨ type = "integer" ∧ d.isInteger (.float repr) = true
  | .bool _ => type = "boolean"
  | .null => False

def Listed (schema : Fields) (value : JsonValue) : Prop :=
  ∀ values, get? schema "enum" = some (.array values) → ∃ v ∈ values, d.same v value = true

/-- `minItems` and `maxItems`, or `minLength` and `maxLength`. -/
def WithinBounds (schema : Fields) (low high : String) (length : ℕ) : Prop :=
  (∀ bound, d.bound? (get? schema low) = some bound → bound ≤ length) ∧
    ∀ bound, d.bound? (get? schema high) = some bound → length ≤ bound

/-- The type and the `enum` of a schema, for values of every kind. -/
def Typed (schema : Fields) (value : JsonValue) : Prop :=
  (∃ type, schemaTypeOf schema = .text type ∧ d.hasType type value) ∧ d.Listed schema value

/-- A value conforms to a schema. The rules do not invoke the validator. -/
inductive Conforms (lib : Library) : Fields → JsonValue → Prop where
  | object {schema fields : Fields} (typed : d.Typed schema (.object fields))
      (required : ∀ name ∈ requiredOf lib schema, (get? fields name).isSome = true)
      (declared : ∀ properties, propertiesOf schema = some properties →
        ∀ name child value, (name, .object child) ∈ properties → get? fields name = some value →
          Conforms lib child value)
      (closed : ∀ properties, propertiesOf schema = some properties → closed schema = true →
        ∀ entry ∈ fields, (get? properties entry.1).isSome = true)
      (further : ∀ properties child, propertiesOf schema = some properties →
        d.extra? (get? schema "additionalProperties") = some child →
          ∀ name value, (name, value) ∈ fields → get? properties name = none →
            Conforms lib child value) :
      Conforms lib schema (.object fields)
  | array {schema : Fields} {items : List JsonValue} (typed : d.Typed schema (.array items))
      (bounds : d.WithinBounds schema "minItems" "maxItems" items.length)
      (each : ∀ child, get? schema "items" = some (.object child) → ∀ item ∈ items,
        Conforms lib child item) :
      Conforms lib schema (.array items)
  | text {schema : Fields} {s : String} (typed : d.Typed schema (.text s))
      (bounds : d.WithinBounds schema "minLength" "maxLength" s.length) :
      Conforms lib schema (.text s)
  | int {schema : Fields} {n : ℤ} (typed : d.Typed schema (.int n)) : Conforms lib schema (.int n)
  | float {schema : Fields} {repr : String} (typed : d.Typed schema (.float repr)) :
      Conforms lib schema (.float repr)
  | bool {schema : Fields} {b : Bool} (typed : d.Typed schema (.bool b)) :
      Conforms lib schema (.bool b)

end Dialect

def enumOf : JsonValue → List JsonValue
  | .object schema => match get? schema "enum" with
      | some (.array values) => values
      | _ => []
  | _ => []

def enumValues (schema : JsonValue) : List JsonValue := (parts schema).flatMap enumOf

/-- Python's equality of the value's parts with those of an enum is that of JSON: it does not find
`true` equal to one, or `false` to zero. -/
def Unclashed (number : String → ℚ) (schema value : JsonValue) : Prop :=
  ∀ v ∈ enumValues schema, ∀ u ∈ parts value, pyEq number v u = jsonEq number v u

theorem Unclashed.mono {schema' value' : JsonValue} {schema : JsonValue}
    (h : Unclashed number schema value) (hschema : parts schema' ⊆ parts schema)
    (hvalue : parts value' ⊆ parts value) : Unclashed number schema' value' := by
  intro v hv u hu
  obtain ⟨part, hpart, hv⟩ := List.mem_flatMap.mp hv
  exact h v (List.mem_flatMap.mpr ⟨part, hschema hpart, hv⟩) u (hvalue hu)

end WaitLocalAgent.AgentSkills

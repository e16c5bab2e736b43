import WaitLocalAgent.Foundation.JsonText

/-! # Reading JSON values -/

namespace WaitLocalAgent.Foundation

abbrev JsonFields := List (String × JsonValue)

namespace JsonValue

def truthy : JsonValue → Bool
  | null => false
  | bool value => value
  | int value => value ≠ 0
  | float repr => repr ≠ "0.0" ∧ repr ≠ "-0.0"
  | text value => value ≠ ""
  | array items => !items.isEmpty
  | object fields => !fields.isEmpty

theorem sizeOf_get? {fields : JsonFields} {key : String} {value : JsonValue}
    (h : get? fields key = some value) : sizeOf value < sizeOf fields := by
  obtain ⟨entry, hfind, rfl⟩ := Option.map_eq_some_iff.mp h
  have hmem := List.sizeOf_lt_of_mem (List.mem_of_find?_eq_some hfind)
  have hentry : sizeOf entry = 1 + sizeOf entry.1 + sizeOf entry.2 := by
    obtain ⟨key, value⟩ := entry
    rfl
  omega

/-- `value if isinstance(value, dict)`. -/
def fields? : JsonValue → Option JsonFields
  | object fields => some fields
  | _ => none

def text? : JsonValue → Option String
  | text value => some value
  | _ => none

/-- `value.strip()`, of a text that is not blank. -/
def nonBlank? : JsonValue → Option String
  | text value => if Text.strip value = "" then none else some (Text.strip value)
  | _ => none

/-- The first of the keys whose value is a text that is not blank. -/
def firstText (fields : JsonFields) (keys : List String) : Option String :=
  keys.findSome? fun key => (get? fields key).bind nonBlank?

def getOr (fields : JsonFields) (key other : String) : Option JsonValue :=
  (get? fields key).filter truthy <|> get? fields other

end JsonValue

end WaitLocalAgent.Foundation

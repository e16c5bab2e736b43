import WaitLocalAgent.Foundation.JsonText

/-! # Parts of JSON values -/

namespace WaitLocalAgent.Foundation.JsonValue

variable {fields : List (String × JsonValue)} {items : List JsonValue} {key : String}
  {value : JsonValue}

theorem mem_of_get? (h : get? fields key = some value) : (key, value) ∈ fields := by
  obtain ⟨entry, hfind, rfl⟩ := Option.map_eq_some_iff.mp h
  have hkey : entry.1 = key := by simpa using List.find?_some hfind
  exact hkey ▸ List.mem_of_find?_eq_some hfind

mutual

def parts : JsonValue → List JsonValue
  | .array items => .array items :: itemParts items
  | .object fields => .object fields :: fieldParts fields
  | v => [v]

def itemParts : List JsonValue → List JsonValue
  | [] => []
  | v :: vs => parts v ++ itemParts vs

def fieldParts : List (String × JsonValue) → List JsonValue
  | [] => []
  | (_, v) :: fs => parts v ++ fieldParts fs

end

end WaitLocalAgent.Foundation.JsonValue

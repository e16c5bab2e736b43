import WaitLocalAgent.Foundation.Text

/-! # Client ids and client scopes

Ids in the store are normalized text: a value of `ClientId` cannot be blank or carry outer
whitespace. -/

namespace WaitLocalAgent

open Foundation

abbrev NormalizedText := { s : String // Text.strip s = s ∧ s ≠ "" }

abbrev ClientId := NormalizedText

/-- `_normalize_client_id`, which the store applies to every kind of id. -/
def normalizeClientId (clientId : Option String) : Option NormalizedText :=
  clientId.bind fun s =>
    if h : Text.strip s = "" then none else some ⟨Text.strip s, Text.strip_strip s, h⟩

def quarantineClientId : ClientId := ⟨"__quarantine__", by decide, by decide⟩

/-- The client of the runs on fixed inputs. -/
def acme : ClientId := ⟨"acme", by decide, by decide⟩

/-- The predicate of `client_id if client_id is not None else AllClients()` on a stored id. -/
def withinScope (scope clientId : Option ClientId) : Bool :=
  match scope with
  | none => true
  | some c => clientId == some c

/-- The argument `client_id` of a read: every client, those of a scope, or one of them. -/
inductive ScopeArgument where
  | allClients
  | boundClients (clientIds : List String)
  | text (clientId : String)

/-- `_client_scope_predicate`, or the message of its `ValueError`. -/
def ScopeArgument.admits : ScopeArgument → Except String (Option ClientId → Bool)
  | .allClients => .ok fun _ => true
  | .boundClients clientIds => .ok fun c => c.any fun c => clientIds.contains c.val
  | .text clientId =>
      match normalizeClientId (some clientId) with
      | none => .error "client_id must be non-empty"
      | some c => .ok fun stored => stored == some c

def ScopeArgument.ofText (clientId : Option String) : ScopeArgument :=
  clientId.elim .allClients .text

/-- `client_id if client_id is not None else _ALL_CLIENTS`, of a stored id. -/
def ScopeArgument.ofClient (clientId : Option ClientId) : ScopeArgument :=
  clientId.elim .allClients fun c => .text c.val

theorem normalizeClientId_val (c : ClientId) : normalizeClientId (some c.val) = some c := by
  obtain ⟨s, hstrip, hne⟩ := c
  simp [normalizeClientId, hstrip, hne]

theorem normalizeClientId_map_val (text : Option NormalizedText) :
    normalizeClientId (text.map Subtype.val) = text := by
  cases text with
  | none => rfl
  | some text => exact normalizeClientId_val text

@[simp] theorem withinScope_self (clientId : Option ClientId) :
    withinScope clientId clientId = true := by
  cases clientId <;> simp [withinScope]

@[simp] theorem withinScope_none (clientId : Option ClientId) :
    withinScope none clientId = true := rfl

end WaitLocalAgent

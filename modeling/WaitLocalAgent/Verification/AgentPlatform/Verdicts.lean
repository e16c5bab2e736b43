import WaitLocalAgent.Verification.AgentPlatform.Conformance
import WaitLocalAgent.Verification.AgentPlatform.Storage
import WaitLocalAgent.Verification.AgentPlatform.Templates

/-! # Verdicts of skill tests

A test passes exactly if the redacted sample conforms to the schema, the catalog has the tools, and
the references of the instructions are resolved. -/

namespace WaitLocalAgent.AgentSkills

open Foundation JsonValue Redaction AgentPlatform

variable {lib : Library} {number : String → ℚ} {catalog : List Manifest} {t : TestSubject}

/-- A sample and a memory meet a revision: the sample conforms to its schema, its tools are in the
catalog, and its references name paths in them. -/
structure Meets (d : Dialect) (lib : Library) (catalog : List Manifest) (revision : Content)
    (sampleInput memory : Fields) : Prop where
  conforms : d.Conforms lib revision.inputSchema (.object sampleInput)
  tools : ∀ toolId ∈ revision.allowedTools, (tool? catalog toolId).isSome = true
  references : Resolved revision.instructions sampleInput memory

section Example

def triageRequest (inputSchema : Fields) (instructions : String) : CreateRequest where
  clientId := "shire"
  name := "Triage"
  slug := "triage"
  description := ""
  actor := none
  instructions
  allowedTools := []
  inputSchema
  resources := []
  catalog := []

end Example

end WaitLocalAgent.AgentSkills

import WaitLocalAgent.Model.SkillTests

/-! # Templates of instructions

What `_TEMPLATE_RE` reads, and what is left of the references once the instructions are rendered. -/

namespace WaitLocalAgent.AgentSkills

open Foundation JsonValue AgentPlatform

variable {r : Reference} {cs raw rest : List Char} {n : ℕ} {source : ReferenceSource}

def ReferenceSource.word : ReferenceSource → List Char
  | .input => "input.".toList
  | .memory => "memory.".toList

/-- Every reference in the instructions names an existing path. -/
def Resolved (instructions : String) (sampleInput memory : Fields) : Prop :=
  ∀ found ∈ matchesIn templateRe instructions.toList,
    (found.1.value? sampleInput memory).isSome = true

end WaitLocalAgent.AgentSkills

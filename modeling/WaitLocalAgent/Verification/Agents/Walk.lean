import WaitLocalAgent.Model.AgentSessions

/-! # Walks

What a definition does without approvals, and in time: the tools that it executes, and how it ends,
as a function of the outcomes. A walk skips attempted tools, so only the others of its queue
matter. -/

namespace WaitLocalAgent.AgentRuns

open Foundation Approvals Agents
open SmartActions (ActionResult)

variable (definition : AgentDefinition) (outcome : List String → String → Option ActionResult)

abbrev toolAt (index : Fin definition.steps.length) : String := (definition.steps.get index).toolId

abbrev policyAt (index : Fin definition.steps.length) : FailurePolicy :=
  stepFailurePolicy (definition.steps.get index)

def callStatus (executed : List String) (toolId : String) : ActionStatus :=
  ((outcome executed toolId).map ActionResult.status).getD .failed

/-- The tools executed after the attempts of a step, and whether the last one succeeded. -/
def attemptTool (policy : FailurePolicy) (toolId : String) (attempt : ℕ) (executed : List String) :
    List String × Bool :=
  if callStatus outcome executed toolId = .success then (executed ++ [toolId], true)
  else if _hretry : policy.mode = "retry" ∧ (attempt : ℤ) < policy.maxRetries then
    attemptTool policy toolId (attempt + 1) (executed ++ [toolId])
  else (executed ++ [toolId], false)
termination_by (policy.maxRetries - attempt).toNat

/-- The tools that a definition executes, and the status that it ends with. -/
def walk (queued : List (Fin definition.steps.length)) (attempted executed : List String) :
    List String × RunStatus :=
  match queued with
  | [] => (executed, .completed)
  | index :: queued =>
      if (definition.steps.get index).toolId ∉ definition.enabledTools then (executed, .failed)
      else if _hattempted : (definition.steps.get index).toolId ∈ attempted then
        walk queued attempted executed
      else
        match attemptTool outcome (policyAt definition index) (toolAt definition index) 0
          executed with
        | (executed, true) =>
            walk queued ((definition.steps.get index).toolId :: attempted) executed
        | (executed, false) =>
            match fallbackStep definition (toolAt definition index :: attempted)
              (directiveOf (policyAt definition index)) with
            | none => (executed, .failed)
            | some fallback =>
                walk (fallback :: queued)
                  ((definition.steps.get index).toolId :: attempted) executed
termination_by (unattempted definition attempted).length + queued.length
decreasing_by
  · simp
  · have := length_unattempted_lt _hattempted
    simp only [List.length_cons]
    omega
  · have := length_unattempted_lt _hattempted
    simp only [List.length_cons]
    omega

def afterStep (index : Fin definition.steps.length) (queued : List (Fin definition.steps.length))
    (attempted : List String) (attempts : List String × Bool) : List String × RunStatus :=
  if attempts.2 then
    walk definition outcome queued (toolAt definition index :: attempted) attempts.1
  else
    match fallbackStep definition (toolAt definition index :: attempted)
      (directiveOf (policyAt definition index)) with
    | none => (attempts.1, .failed)
    | some fallback =>
        walk definition outcome (fallback :: queued) (toolAt definition index :: attempted)
          attempts.1

variable {definition outcome} {index : Fin definition.steps.length}
  {queued : List (Fin definition.steps.length)} {attempted executed : List String}

theorem walk_nil : walk definition outcome [] attempted executed = (executed, .completed) := by
  rw [walk]

theorem walk_not_enabled (h : toolAt definition index ∉ definition.enabledTools) :
    walk definition outcome (index :: queued) attempted executed = (executed, .failed) := by
  rw [walk, if_pos h]

theorem walk_skip (henabled : toolAt definition index ∈ definition.enabledTools)
    (h : toolAt definition index ∈ attempted) :
    walk definition outcome (index :: queued) attempted executed =
      walk definition outcome queued attempted executed := by
  rw [walk, if_neg (not_not.mpr henabled), dif_pos h]

theorem walk_step (henabled : toolAt definition index ∈ definition.enabledTools)
    (h : toolAt definition index ∉ attempted) :
    walk definition outcome (index :: queued) attempted executed =
      afterStep definition outcome index queued attempted
        (attemptTool outcome (policyAt definition index) (toolAt definition index) 0 executed) := by
  rw [walk, if_neg (not_not.mpr henabled), dif_neg h, afterStep]
  rcases attemptTool outcome (policyAt definition index) (toolAt definition index) 0
    executed with ⟨executed', succeeded⟩
  cases succeeded with
  | true => rfl
  | false => rfl

variable {policy : FailurePolicy} {toolId : String} {attempt : ℕ}

theorem attemptTool_of_success
    (h : callStatus outcome executed toolId = .success) :
    attemptTool outcome policy toolId attempt executed = (executed ++ [toolId], true) := by
  rw [attemptTool, if_pos h]

theorem attemptTool_of_failure
    (h : callStatus outcome executed toolId ≠ .success)
    (hretry : ¬ (policy.mode = "retry" ∧ (attempt : ℤ) < policy.maxRetries)) :
    attemptTool outcome policy toolId attempt executed = (executed ++ [toolId], false) := by
  rw [attemptTool, if_neg h, dif_neg hretry]

theorem attemptTool_of_retry
    (h : callStatus outcome executed toolId ≠ .success)
    (hretry : policy.mode = "retry" ∧ (attempt : ℤ) < policy.maxRetries) :
    attemptTool outcome policy toolId attempt executed =
      attemptTool outcome policy toolId (attempt + 1) (executed ++ [toolId]) := by
  rw [attemptTool, if_neg h, dif_pos hretry]

theorem length_attemptTool :
    executed.length < (attemptTool outcome policy toolId attempt executed).1.length := by
  fun_induction attemptTool outcome policy toolId attempt executed with
  | case1 => simp
  | case2 attempt executed hstatus hretry ih =>
      rw [List.length_append, List.length_singleton] at ih
      omega
  | case3 => simp

theorem length_of_attemptTool
    {executed' : List String} {succeeded : Bool}
    (h : attemptTool outcome policy toolId attempt executed = (executed', succeeded)) :
    executed.length < executed'.length := by
  have hlength : executed.length < (attemptTool outcome policy toolId attempt executed).1.length :=
    length_attemptTool
  rwa [h] at hlength

theorem length_le_walk :
    executed.length ≤ (walk definition outcome queued attempted executed).1.length := by
  fun_induction walk definition outcome queued attempted executed with
  | case1 => exact le_rfl
  | case2 => exact le_rfl
  | case3 attempted executed index queued henabled hattempted ih => exact ih
  | case4 attempted executed index queued henabled hattempted executed' hattempts ih =>
      exact (length_of_attemptTool hattempts).le.trans ih
  | case5 attempted executed index queued henabled hattempted executed' hattempts =>
      exact (length_of_attemptTool hattempts).le
  | case6 attempted executed index queued henabled hattempted executed' hattempts fallback
      hfallback ih =>
      exact (length_of_attemptTool hattempts).le.trans ih

theorem length_le_afterStep {attempts : List String × Bool} :
    attempts.1.length ≤
      (afterStep definition outcome index queued attempted attempts).1.length := by
  rw [afterStep]
  split
  · exact length_le_walk
  · split
    · exact le_rfl
    · exact length_le_walk

/-- The queued steps whose tools have not been attempted. -/
def pendingSteps (queued : List (Fin definition.steps.length)) (attempted : List String) :
    List (Fin definition.steps.length) :=
  queued.filter fun index => toolAt definition index ∉ attempted

@[simp] theorem pendingSteps_nil :
    pendingSteps ([] : List (Fin definition.steps.length)) attempted = [] := rfl

theorem pendingSteps_cons_of_mem (h : toolAt definition index ∈ attempted) :
    pendingSteps (index :: queued) attempted = pendingSteps queued attempted := by
  simp [pendingSteps, h]

theorem pendingSteps_cons_of_not (h : toolAt definition index ∉ attempted) :
    pendingSteps (index :: queued) attempted = index :: pendingSteps queued attempted := by
  simp [pendingSteps, h]

theorem pendingSteps_append {queued' : List (Fin definition.steps.length)} :
    pendingSteps (queued ++ queued') attempted =
      pendingSteps queued attempted ++ pendingSteps queued' attempted :=
  List.filter_append _ _

theorem length_pendingSteps_le : (pendingSteps queued attempted).length ≤ queued.length :=
  List.length_filter_le _ _

theorem pendingSteps_pendingSteps {attempted' : List String} (h : attempted ⊆ attempted') :
    pendingSteps (pendingSteps queued attempted) attempted' = pendingSteps queued attempted' := by
  rw [pendingSteps, pendingSteps, List.filter_filter]
  refine List.filter_congr fun index _ => ?_
  by_cases hindex : toolAt definition index ∈ attempted'
  · simp [hindex]
  · have hbefore : toolAt definition index ∉ attempted := fun hmem => hindex (h hmem)
    simp [hindex, hbefore]

theorem pendingSteps_mono {queued' : List (Fin definition.steps.length)}
    {attempted' : List String} (hpending : pendingSteps queued attempted =
      pendingSteps queued' attempted) (h : attempted ⊆ attempted') :
    pendingSteps queued attempted' = pendingSteps queued' attempted' := by
  rw [← pendingSteps_pendingSteps h, hpending, pendingSteps_pendingSteps h]

/-- A walk depends on the pending steps of its queue alone. -/
theorem walk_pendingSteps (henabled : attempted ⊆ definition.enabledTools) :
    walk definition outcome queued attempted executed =
      walk definition outcome (pendingSteps queued attempted) attempted executed := by
  induction hmeasure : (unattempted definition attempted).length + queued.length
    using Nat.strong_induction_on generalizing queued attempted executed with
  | _ n ih =>
      cases queued with
      | nil => rfl
      | cons index queued =>
          by_cases hattempted : toolAt definition index ∈ attempted
          · rw [walk_skip (henabled hattempted) hattempted, pendingSteps_cons_of_mem hattempted]
            exact ih _ (by rw [← hmeasure]; simp) henabled rfl
          · rw [pendingSteps_cons_of_not hattempted]
            by_cases hon : toolAt definition index ∈ definition.enabledTools
            · rw [walk_step hon hattempted, walk_step hon hattempted]
              have hless : (unattempted definition (toolAt definition index :: attempted)).length <
                  (unattempted definition attempted).length := length_unattempted_lt hattempted
              have hshorter : (pendingSteps queued attempted).length ≤ queued.length :=
                length_pendingSteps_le
              have hcons : attempted ⊆ toolAt definition index :: attempted :=
                List.subset_cons_self _ _
              have hon' : toolAt definition index :: attempted ⊆ definition.enabledTools :=
                List.cons_subset.mpr ⟨hon, henabled⟩
              rw [List.length_cons] at hmeasure
              have hrest : ∀ (rest : List (Fin definition.steps.length)) (executed : List String),
                  rest.length ≤ queued.length + 1 →
                  walk definition outcome rest (toolAt definition index :: attempted) executed =
                    walk definition outcome
                      (pendingSteps rest (toolAt definition index :: attempted))
                      (toolAt definition index :: attempted) executed :=
                fun rest executed hlength => ih _ (by omega) hon' rfl
              -- both queues have the same pending steps once the tool has been attempted
              have hsame : ∀ (head : List (Fin definition.steps.length)) (executed : List String),
                  head.length ≤ 1 →
                  walk definition outcome (head ++ queued)
                      (toolAt definition index :: attempted) executed =
                    walk definition outcome (head ++ pendingSteps queued attempted)
                      (toolAt definition index :: attempted) executed := by
                intro head executed hhead
                rw [hrest _ _ (by rw [List.length_append]; omega),
                  hrest (head ++ pendingSteps queued attempted) _
                    (by rw [List.length_append]; omega),
                  pendingSteps_append, pendingSteps_append, pendingSteps_pendingSteps hcons]
              rw [afterStep, afterStep]
              split
              · exact hsame [] _ (by simp)
              · split
                · rfl
                · rename_i fallback hfallback
                  exact hsame [fallback] _ (by simp)
            · rw [walk_not_enabled hon, walk_not_enabled hon]

theorem walk_congr {queued' : List (Fin definition.steps.length)}
    (henabled : attempted ⊆ definition.enabledTools)
    (hpending : pendingSteps queued attempted = pendingSteps queued' attempted) :
    walk definition outcome queued attempted executed =
      walk definition outcome queued' attempted executed := by
  rw [walk_pendingSteps henabled, hpending, ← walk_pendingSteps henabled]

end WaitLocalAgent.AgentRuns

import WaitLocalAgent.Model.ActionPayloads
import WaitLocalAgent.Verification.Redaction.Value

/-! # The payload that an approved action runs with

What is stored of a payload is redacted, and the approved run is handed what was stored: it is the
payload that the draft run checked exactly when redaction leaves that one as it is. -/

namespace WaitLocalAgent.ActionPayloads

open Foundation JsonValue Redaction

variable {lib : Library}

/-! ### What the calls on approvals see -/

theorem lookup_fieldsView {α : Type} (view : JsonValue → α) (fields : Fields) (key : String) :
    (fieldsView view fields).lookup key = (get? fields key).map view := by
  rw [fieldsView, AList.lookup_to_alist]
  induction fields with
  | nil => rfl
  | cons field fields ih =>
      rw [List.map_cons, get?_cons]
      by_cases hkey : field.1 = key
      · subst hkey
        rw [List.dlookup_cons_eq, if_pos rfl, Option.map_some]
      · rw [List.dlookup_cons_ne _ _ (Ne.symm hkey), if_neg hkey, ih]

theorem ticketIdOf_nestedView (fields : Fields) :
    (match (fieldsView nestedView fields).lookup "ticket_id" with
      | some (.text ticketId) => Approvals.nonBlank? ticketId
      | _ => none) = ticketIdOf fields := by
  rw [lookup_fieldsView, ticketIdOf]
  rcases get? fields "ticket_id" with - | value
  · rfl
  · cases value <;> rfl

/-- The calls on approvals find the ticket that the payload names. -/
theorem ticketIdFromPayload_valueView (payload : Fields) :
    Approvals.ticketIdFromPayload (fieldsView valueView payload) = approvalTicketId payload := by
  rw [Approvals.ticketIdFromPayload, approvalTicketId, lookup_fieldsView, lookup_fieldsView]
  refine congrArg₂ Option.or ?_ ?_
  · rw [ticketIdOf]
    rcases get? payload "ticket_id" with - | value
    · rfl
    · cases value <;> rfl
  · rcases get? payload "payload" with - | value
    · rfl
    · cases value with
      | object fields => exact ticketIdOf_nestedView fields
      | _ => rfl

/-! ### What is handed to an approved run -/

/-- The mark of a completed approval, taken out of a payload. -/
def withoutMark (payload : Fields) : Fields :=
  payload.filter fun f => f.1 ≠ "_approval_completed"

theorem byKey_approvalPayload (actionId : String) (payload : Fields) (runId : ℕ) :
    byKey (sortFields (approvalPayload actionId payload runId)) =
      [("action_id", .text actionId), ("payload", .object (byKey (sortFields payload))),
        ("run_id", .int runId)] := by
  have hpayload : ("action_id" : String) ≤ "payload" := by decide
  have hrun : ("payload" : String) ≤ "run_id" := by decide
  simp [approvalPayload, sortFields, sortKeys, byKey, List.insertionSort, hpayload, hrun]

theorem exact_approvalPayload (actionId : String) (payload : Payload lib) (runId : ℕ) :
    (JsonValue.object (approvalPayload actionId payload.fields runId)).exact lib.floats = true := by
  have hexact := payload.exact
  simp only [JsonValue.exact, floatsMeet] at hexact
  simp only [approvalPayload, JsonValue.exact, floatsMeet, floatsMeetFields, hexact, Bool.and_true]

theorem payload_of_stored {row : RequestRow} {actionId : String} {payload : Payload lib}
    {runId : ℕ} (hrow : row.payloadJson = jsonDumpsValue lib.words
      (.object (approvalPayload actionId payload.fields runId))) :
    row.payload lib = [("action_id", .text (redactText lib.words actionId)),
      ("payload", .object (storedFields lib.words payload.fields)), ("run_id", .int runId)] := by
  have hexact := exact_approvalPayload actionId payload runId
  have hkeys : isSensitiveKey "action_id" = false ∧ isSensitiveKey "payload" = false ∧
      isSensitiveKey "run_id" = false := by decide
  rw [RequestRow.payload, hrow, redactJsonText_jsonDumpsValue lib.floats hexact, jsonObject,
    loads?_jsonDumpsValue lib.floats hexact, sortKeys_object, byKey_approvalPayload]
  simp [redactValue, redactMapping, hkeys, storedFields]

theorem withoutMark_set {payload : Fields}
    (hmark : JsonValue.get? payload "_approval_completed" = none) (v : JsonValue) :
    withoutMark (JsonValue.set payload "_approval_completed" v) = payload := by
  have hkeys : ∀ f ∈ payload, f.1 ≠ "_approval_completed" := by
    simpa [JsonValue.get?] using hmark
  have hany : (payload.any fun f => f.1 = "_approval_completed") = false := by
    simpa using hkeys
  rw [JsonValue.set, hany, if_neg (by decide), withoutMark, List.filter_append,
    List.filter_eq_self.mpr (by simpa using hkeys)]
  simp

theorem get?_storedFields_of_none {payload : Fields} {key : String}
    (h : JsonValue.get? payload key = none) :
    JsonValue.get? (storedFields lib.words payload) key = none := by
  simp only [JsonValue.get?, Option.map_eq_none_iff, List.find?_eq_none] at h ⊢
  intro f hf
  rw [storedFields, redactMapping_eq_map, List.mem_map] at hf
  obtain ⟨g, hg, rfl⟩ := hf
  rw [(byKey_perm _).mem_iff, sortFields_eq_map, List.mem_map] at hg
  obtain ⟨e, he, rfl⟩ := hg
  exact h e he

/-! ### Histories -/

/-- The store keeps its smart-action approvals, and the links and digests of its runs. -/
structure Keeps (s s' : Store) : Prop where
  requests : ∀ k row, s.requests.find? k = some row → row.hasType "smart_action:" = true →
    ∃ row', s'.requests.find? k = some row' ∧ row'.payloadJson = row.payloadJson ∧
      row'.actionType = row.actionType
  runs : ∀ run ∈ s'.runs, run.approvalId = none ∨
    ∃ r ∈ s.runs, r.approvalId = run.approvalId ∧ r.payloadDigest = run.payloadDigest
  lastKey : s.requests.lastKey ≤ s'.requests.lastKey

theorem Keeps.refl (s : Store) : Keeps s s where
  requests _ row hrow _ := ⟨row, hrow, rfl, rfl⟩
  runs run hrun := .inr ⟨run, hrun, rfl, rfl⟩
  lastKey := le_rfl

theorem keeps_createRun (s : Store) (actionId actor : String) (status : Approvals.ActionStatus)
    (digest : String) : Keeps s (s.createRun actionId actor status digest) where
  requests := (Keeps.refl s).requests
  runs run hrun := by
    rcases AutoTable.mem_insert.mp hrun with hold | rfl
    · exact .inr ⟨run, hold, rfl, rfl⟩
    · exact .inl rfl
  lastKey := le_rfl

theorem find?_insert_of_some {row : RequestRow} {t : AutoTable RequestRow.id} {k : ℕ}
    (hrow : t.find? k = some row) (mk : ℕ → RequestRow) (h : ∀ n, (mk n).id = n) :
    (t.insert mk h).find? k = some row := by
  rw [AutoTable.find?_insert, if_neg, hrow]
  rintro rfl
  rw [AutoTable.find?_next] at hrow
  cases hrow

theorem keeps_createRequest (lib : Library) (s : Store) (actionType : String) (payload : Fields) :
    Keeps s (s.createRequest lib actionType payload) where
  requests _ row hrow _ := ⟨row, find?_insert_of_some hrow _ _, rfl, rfl⟩
  runs := (Keeps.refl s).runs
  lastKey := Nat.le_succ _

theorem keeps_editPayload (lib : Library) (s : Store) (requestId : ℕ) (payload : Fields) :
    Keeps s (s.editPayload lib requestId payload) where
  requests _ row hrow htype := by
    have hother : row.hasType "halopsa." = false ∧ row.hasType "connectwise." = false := by
      rw [RequestRow.hasType, List.isPrefixOf_iff_prefix] at htype
      obtain ⟨rest, hrest⟩ := htype
      rw [RequestRow.hasType, RequestRow.hasType, ← hrest]
      exact ⟨rfl, rfl⟩
    refine ⟨row, ?_, rfl, rfl⟩
    rw [Store.editPayload, AutoTable.find?_update, hrow]
    simp [hother]
  runs := (Keeps.refl s).runs
  lastKey := le_rfl

theorem keeps_expire (s : Store) (requestId : ℕ) : Keeps s (s.expire requestId) where
  requests k row hrow _ := by
    rw [Store.expire, AutoTable.find?_update, hrow]
    refine ⟨_, rfl, ?_⟩
    dsimp only
    split <;> exact ⟨rfl, rfl⟩
  runs run hrun := by
    obtain ⟨r, hr, rfl⟩ := AutoTable.mem_update.mp hrun
    refine .inr ⟨r, hr, ?_⟩
    split <;> exact ⟨rfl, rfl⟩
  lastKey := le_rfl

theorem keeps_decide (s : Store) (requestId : ℕ) (status : Approvals.ApprovalStatus)
    (approver : Option String) : Keeps s (s.decide requestId status approver) where
  requests k row hrow _ := by
    rw [Store.decide, AutoTable.find?_update, hrow]
    refine ⟨_, rfl, ?_⟩
    dsimp only
    split <;> exact ⟨rfl, rfl⟩
  runs := (Keeps.refl s).runs
  lastKey := le_rfl

theorem keeps_completeRun (s : Store) (run : RunRow) (approval : RequestRow) (approver : String)
    (status : Approvals.ActionStatus) : Keeps s (s.completeRun run approval approver status) := by
  rw [Store.completeRun]
  split
  · refine ⟨(Keeps.refl s).requests, fun run' hrun => ?_, le_rfl⟩
    obtain ⟨r, hr, rfl⟩ := AutoTable.mem_update.mp hrun
    refine .inr ⟨r, hr, ?_⟩
    split <;> exact ⟨rfl, rfl⟩
  · exact Keeps.refl s

/-- What holds of a service in all its histories. -/
structure Bound (s : Service lib) : Prop where
  drafts : ∀ d ∈ s.drafts, JsonValue.get? d.payload.fields "_approval_completed" = none ∧
    ∃ row actionId runId, s.store.requests.find? d.approvalId = some row ∧
      row.hasType "smart_action:" = true ∧ row.payloadJson = jsonDumpsValue lib.words
        (.object (approvalPayload actionId d.payload.fields runId))
  runs : ∀ d ∈ s.drafts, ∀ run ∈ s.store.runs, run.approvalId = some d.approvalId →
    run.payloadDigest = payloadDigest lib d.payload.fields
  linked : ∀ run ∈ s.store.runs, ∀ a, run.approvalId = some a → a ≤ s.store.requests.lastKey
  approved : ∀ h ∈ s.approvedRuns, h.approvalId ≤ s.store.requests.lastKey ∧
    ∀ d ∈ s.drafts, h.approvalId = d.approvalId →
      withoutMark h.payload = storedFields lib.words d.payload.fields ∧
        h.payloadDigest = payloadDigest lib d.payload.fields

variable {s : Service lib}

theorem Bound.keeps (h : Bound s) {store : Store} (hkeeps : Keeps s.store store) :
    Bound { s with store } where
  drafts d hd := by
    obtain ⟨hmark, row, actionId, runId, hrow, htype, hpayload⟩ := h.drafts d hd
    obtain ⟨row', hrow', hpayload', htype'⟩ := hkeeps.requests _ _ hrow htype
    refine ⟨hmark, row', actionId, runId, hrow', ?_, hpayload'.trans hpayload⟩
    rwa [RequestRow.hasType, htype']
  runs d hd run hrun happroval := by
    rcases hkeeps.runs run hrun with hnone | ⟨r, hr, hid, hdigest⟩
    · rw [hnone] at happroval
      cases happroval
    · rw [← hdigest]
      exact h.runs d hd r hr (hid.trans happroval)
  linked run hrun a happroval := by
    rcases hkeeps.runs run hrun with hnone | ⟨r, hr, hid, -⟩
    · rw [hnone] at happroval
      cases happroval
    · exact (h.linked r hr a (hid.trans happroval)).trans hkeeps.lastKey
  approved a ha := ⟨(h.approved a ha).1.trans hkeeps.lastKey, (h.approved a ha).2⟩

theorem checkInvocation_eq_ok {registry : Registry} {call : Invocation lib} {manifest : Manifest}
    (h : checkInvocation registry call = .ok manifest) :
    JsonValue.get? call.payload.fields "_approval_completed" = none := by
  rw [checkInvocation] at h
  obtain ⟨_, hmark, -⟩ := bind_eq_ok.mp h
  simpa using hmark

/-- What a call of `invoke` that does not raise has done. -/
theorem invoke_eq_ok {registry : Registry} {s s' : Service lib} {call : Invocation lib}
    (h : s.invoke registry call = .ok s') :
    (∃ store, Keeps s.store store ∧ s' = { s with store }) ∨
      ∃ actionId actor, JsonValue.get? call.payload.fields "_approval_completed" = none ∧
        s' = { s with
          store := s.store.createPending lib actionId actor
            (payloadDigest lib call.payload.fields) call.payload.fields
          drafts := s.drafts ++ [⟨s.store.requests.lastKey + 1, call.payload⟩] } := by
  rw [Service.invoke] at h
  obtain ⟨manifest, hcheck, h⟩ := bind_eq_ok.mp h
  dsimp only at h
  split at h
  · cases h
    exact .inl ⟨_, keeps_createRun _ _ _ _ _, rfl⟩
  · next actor _ =>
      split at h
      · obtain ⟨-, -, h⟩ := bind_eq_ok.mp h
        cases h
        exact .inr ⟨manifest.actionId, actor, checkInvocation_eq_ok hcheck, rfl⟩
      · cases h
        exact .inl ⟨_, keeps_createRun _ _ _ _ _, rfl⟩

/-- A draft joins the histories with its own approval. -/
theorem Bound.createPending (h : Bound s) (actionId actor : String)
    {payload : Payload lib}
    (hmark : JsonValue.get? payload.fields "_approval_completed" = none) :
    Bound { s with
      store := s.store.createPending lib actionId actor (payloadDigest lib payload.fields)
        payload.fields
      drafts := s.drafts ++ [⟨s.store.requests.lastKey + 1, payload⟩] } where
  drafts d hd := by
    rcases List.mem_append.mp hd with hd | hd
    · obtain ⟨hmark, row, actionId, runId, hrow, hrest⟩ := h.drafts d hd
      exact ⟨hmark, row, actionId, runId, find?_insert_of_some hrow _ _, hrest⟩
    · rw [List.mem_singleton] at hd
      subst hd
      refine ⟨hmark, _, actionId, s.store.runs.lastKey + 1,
        by rw [Store.createPending, AutoTable.find?_insert, if_pos rfl], ?_, rfl⟩
      rw [RequestRow.hasType, List.isPrefixOf_iff_prefix, String.toList_append]
      exact List.prefix_append _ _
  runs d hd run hrun happroval := by
    rcases List.mem_append.mp hd with hd | hd
    · rcases AutoTable.mem_insert.mp hrun with hrun | rfl
      · exact h.runs d hd run hrun happroval
      · obtain ⟨-, row, -, -, hrow, -⟩ := h.drafts d hd
        rw [Option.some.injEq] at happroval
        rw [← happroval, AutoTable.find?_next] at hrow
        cases hrow
    · rw [List.mem_singleton] at hd
      subst hd
      rcases AutoTable.mem_insert.mp hrun with hrun | rfl
      · have hle := h.linked run hrun _ happroval
        exact absurd hle (Nat.not_succ_le_self _)
      · rfl
  linked run hrun a happroval := by
    rcases AutoTable.mem_insert.mp hrun with hrun | rfl
    · exact (h.linked run hrun a happroval).trans (Nat.le_succ _)
    · rw [Option.some.injEq] at happroval
      exact happroval.symm.le
  approved a ha := by
    obtain ⟨hle, hdrafts⟩ := h.approved a ha
    refine ⟨hle.trans (Nat.le_succ _), fun d hd hid => ?_⟩
    rcases List.mem_append.mp hd with hd | hd
    · exact hdrafts d hd hid
    · rw [List.mem_singleton] at hd
      subst hd
      rw [hid] at hle
      exact absurd hle (Nat.not_succ_le_self _)

/-- What a completion that does not raise has done. -/
theorem completeApproval_eq_ok {registry : Registry} {s s' : Service lib} {call : Completion}
    (h : s.completeApproval registry call = .ok s') :
    (∃ store, Keeps s.store store ∧ s' = { s with store }) ∨
      ∃ store approval run payload, Keeps s.store store ∧
        s.store.requests.find? call.approvalId = some approval ∧ run ∈ s.store.runs ∧
        run.approvalId = some call.approvalId ∧
        approvedPayload (approval.payload lib) = some payload ∧
        s' = { s with
          store
          approvedRuns := s.approvedRuns ++
            [⟨call.approvalId, approval.actionId, payload, run.payloadDigest⟩] } := by
  rw [Service.completeApproval] at h
  split at h
  · cases h
    exact .inl ⟨_, Keeps.refl _, rfl⟩
  · next approval happroval =>
      have hfound := (Option.filter_eq_some_iff.mp happroval).1
      split at h
      · cases h
      · next run hrun =>
          have hmem : run ∈ s.store.runs := List.mem_reverse.mp (List.mem_of_find?_eq_some hrun)
          have hlink : run.approvalId = some call.approvalId := by
            simpa using List.find?_some hrun
          split at h
          · cases h
            exact .inl ⟨_, Keeps.refl _, rfl⟩
          · obtain ⟨approver, -, h⟩ := bind_eq_ok.mp h
            split at h
            · cases h
              exact .inl ⟨_, keeps_completeRun _ _ _ _ _, rfl⟩
            · split at h
              · cases h
                exact .inl ⟨_, Keeps.refl _, rfl⟩
              · rw [Service.runApproved] at h
                obtain ⟨-, -, h⟩ := bind_eq_ok.mp h
                split at h
                · next payload _ hpayload _ =>
                    cases h
                    exact .inr ⟨_, approval, run, payload, keeps_completeRun _ _ _ _ _, hfound,
                      hmem, hlink, hpayload, rfl⟩
                · cases h
                  exact .inl ⟨_, keeps_completeRun _ _ _ _ _, rfl⟩
            · cases h
              exact .inl ⟨_, Keeps.refl _, rfl⟩

theorem drafts_complete (registry : Registry) (s : Service lib) (call : Completion) :
    (s.step registry (.complete call)).drafts = s.drafts := by
  rw [Service.step]
  cases hcomplete : s.completeApproval registry call with
  | error e => rfl
  | ok s' =>
      rcases completeApproval_eq_ok hcomplete with
          ⟨store, -, rfl⟩ | ⟨_, _, _, _, -, -, -, -, -, rfl⟩
      · rfl
      · rfl

/-- An approved run is handed the stored payload of its draft. -/
theorem Bound.runApproved (h : Bound s) {approvalId : ℕ} {approval : RequestRow}
    {run : RunRow} {payload : Fields} (hfound : s.store.requests.find? approvalId = some approval)
    (hrun : run ∈ s.store.runs) (hlink : run.approvalId = some approvalId)
    (hpayload : approvedPayload (approval.payload lib) = some payload) (actionId : String) :
    Bound { s with
      approvedRuns := s.approvedRuns ++ [⟨approvalId, actionId, payload, run.payloadDigest⟩] } where
  drafts := h.drafts
  runs := h.runs
  linked := h.linked
  approved a ha := by
    rcases List.mem_append.mp ha with ha | ha
    · exact h.approved a ha
    · rw [List.mem_singleton] at ha
      subst ha
      refine ⟨h.linked run hrun _ hlink, fun d hd hid => ?_⟩
      dsimp only at hid
      subst hid
      obtain ⟨hmark, row, id, runId, hrow, -, hstored⟩ := h.drafts d hd
      rw [hrow, Option.some.injEq] at hfound
      subst hfound
      rw [payload_of_stored hstored] at hpayload
      cases hpayload
      exact ⟨withoutMark_set (get?_storedFields_of_none hmark) _, h.runs d hd run hrun hlink⟩

theorem bound_step (registry : Registry) (call : Call lib) (h : Bound s) :
    Bound (s.step registry call) := by
  cases call with
  | invoke call =>
      rw [Service.step]
      cases hinvoke : s.invoke registry call with
      | error e => exact h
      | ok s' =>
          rcases invoke_eq_ok hinvoke with ⟨store, hkeeps, rfl⟩ | ⟨actionId, actor, hmark, rfl⟩
          · exact h.keeps hkeeps
          · exact h.createPending actionId actor hmark
  | createRequest actionType payload => exact h.keeps (keeps_createRequest lib _ _ _)
  | editPayload requestId payload => exact h.keeps (keeps_editPayload lib _ _ _)
  | expire requestId => exact h.keeps (keeps_expire _ _)
  | decide requestId status approver => exact h.keeps (keeps_decide _ _ _ _)
  | complete call =>
      rw [Service.step]
      cases hcomplete : s.completeApproval registry call with
      | error e => exact h
      | ok s' =>
          rcases completeApproval_eq_ok hcomplete with ⟨store, hkeeps, rfl⟩ |
            ⟨store, approval, run, payload, hkeeps, hfound, hrun, hlink, hpayload, rfl⟩
          · exact h.keeps hkeeps
          · exact (h.runApproved hfound hrun hlink hpayload _).keeps hkeeps

theorem bound_run (lib : Library) (registry : Registry) (calls : List (Call lib)) :
    Bound ((service lib registry).run calls) := by
  refine (service lib registry).run_invariant ?_
    (fun s call hs => bound_step registry call hs) calls
  constructor
  · intro d hd
    cases hd
  · intro d hd
    cases hd
  · intro run hrun
    exact absurd hrun (AutoTable.not_mem_empty run)
  · intro a ha
    cases ha

/-! ### The payload that was checked -/

/-- The approved run is handed the payload that the draft run checked, up to the order of its keys,
and its digest is the stored one. -/
def SamePayload (lib : Library) (d : Draft lib) (a : ApprovedRun) : Prop :=
  (JsonValue.object (withoutMark a.payload)).sortKeys =
      (JsonValue.object d.payload.fields).sortKeys ∧
    payloadDigest lib (withoutMark a.payload) = a.payloadDigest

theorem Bound.samePayload_iff (h : Bound s) {d : Draft lib} {a : ApprovedRun}
    (hd : d ∈ s.drafts) (ha : a ∈ s.approvedRuns) (hid : a.approvalId = d.approvalId) :
    SamePayload lib d a ↔ unaffected lib.words (.object d.payload.fields) = true := by
  obtain ⟨hpayload, hdigest⟩ := (h.approved a ha).2 d hd hid
  have hsorted : (JsonValue.object (withoutMark a.payload)).sortKeys =
      (redactValue lib.words (.object d.payload.fields)).sortKeys := by
    rw [hpayload, ← redactValue_sortKeys_object, sortKeys_redactValue, sortKeys_sortKeys,
      ← sortKeys_redactValue]
  rw [SamePayload, hsorted, sortKeys_redactValue_eq_iff, hdigest]
  refine ⟨And.left, fun hunaffected => ⟨hunaffected, ?_⟩⟩
  rw [payloadDigest, hsorted, sortKeys_redactValue_eq_iff.mpr hunaffected, payloadDigest]

/-- In every history the approved run is handed the payload that its draft run checked exactly when
redaction leaves that payload as it is. -/
theorem samePayload_iff_unaffected (lib : Library) (registry : Registry) (calls : List (Call lib))
    {d : Draft lib} (hd : d ∈ ((service lib registry).run calls).drafts) {a : ApprovedRun}
    (ha : a ∈ ((service lib registry).run calls).approvedRuns)
    (hid : a.approvalId = d.approvalId) :
    SamePayload lib d a ↔ unaffected lib.words (.object d.payload.fields) = true :=
  (bound_run lib registry calls).samePayload_iff hd ha hid

/-! ### An approved e-mail -/

def exampleLibrary : Library where
  words := .known
  floats := .verbatim
  sha256 bytes :=
    if bytes = ("\x7b\"body\":\"The printer is back\",\"channel\":\"email\"," ++
        "\"recipient\":\"frodo@shire.example\",\"subject\":\"Printer\"\x7d").toUTF8 then
      "affb25b323bc54e985b1c725455fdebe79c707aa03eb8238fa0dbe16e90a09c8"
    else "d2fe506f903e40d84ee773c0e038583b15dfe766a65bf667d5cc1da9d07e32c1"

def exampleRegistry : Registry := fun actionId =>
  if actionId = "communication-send" then some { actionId, requiresApproval := true } else none

def emailPayload (body : String) : Payload exampleLibrary where
  fields := [("channel", .text "email"), ("recipient", .text "frodo@shire.example"),
    ("subject", .text "Printer"), ("body", .text body)]
  exact := rfl

/-- An e-mail is drafted, approved and sent. -/
def emailCalls (body : String) : List (Call exampleLibrary) :=
  [.invoke
      { actionId := "communication-send", payload := emailPayload body, actor := some "frodo"
        tenancy := .fresh, result := .success },
    .decide 1 .approved (some "gandalf"),
    .complete
      { approvalId := 1, approver := some "gandalf", role := some .technician
        tenancy := .fresh, result := .success }]

def emailService (body : String) : Service exampleLibrary :=
  (service exampleLibrary exampleRegistry).run (emailCalls body)

/-- The service once the e-mail is approved. -/
def approvedEmail (body : String) : Service exampleLibrary :=
  (service exampleLibrary exampleRegistry).run ((emailCalls body).take 2)

theorem isQuarantined_fresh (ticketId : Option String) : isQuarantined .fresh ticketId = false := by
  cases ticketId <;> rfl

theorem exists_approvedRun (body : String) :
    ∃ a ∈ (emailService body).approvedRuns, a.approvalId = 1 := by
  obtain ⟨row, hrow, hstored, haction, hstatus⟩ : ∃ row,
      (approvedEmail body).store.requests.find? 1 = some row ∧
        row.payloadJson = jsonDumpsValue exampleLibrary.words
          (.object (approvalPayload "communication-send" (emailPayload body).fields 1)) ∧
        row.actionType = "smart_action:communication-send" ∧ row.status = .approved :=
    ⟨_, rfl, rfl, rfl, rfl⟩
  obtain ⟨run, hrun, hactor, hpending⟩ : ∃ run, (approvedEmail body).store.newestRun 1 = some run ∧
      run.actor = "frodo" ∧ run.status = .pendingApproval := ⟨_, rfl, rfl, rfl⟩
  have htype : (some row).filter (RequestRow.hasType · "smart_action:") = some row := by
    rw [Option.filter_some, RequestRow.hasType, haction]
    rfl
  have hid : row.actionId = "communication-send" := by
    rw [RequestRow.actionId, haction]
    decide
  have hmanifest : exampleRegistry row.actionId =
      some { actionId := "communication-send", requiresApproval := true } := by
    rw [hid, exampleRegistry, if_pos rfl]
  have happrover : checkApprover run (some "gandalf") (some .technician) = .ok "gandalf" := by
    rw [checkApprover, hactor]
    decide
  have hpayload := payload_of_stored hstored
  have hstep : emailService body = (approvedEmail body).step exampleRegistry (.complete
      { approvalId := 1, approver := some "gandalf", role := some .technician
        tenancy := .fresh, result := .success }) := rfl
  rw [hstep, Service.step, Service.completeApproval, hrow, htype]
  dsimp only
  rw [hrun]
  dsimp only
  rw [isQuarantined_fresh, if_neg Bool.false_ne_true, happrover, ok_bind, hstatus]
  dsimp only
  rw [hpending, if_neg (not_not.mpr rfl), Service.runApproved, hmanifest, hpayload]
  exact ⟨_, List.mem_append_right _ (List.mem_singleton_self _), rfl⟩

theorem mem_drafts_emailService (body : String) :
    (⟨1, emailPayload body⟩ : Draft exampleLibrary) ∈ (emailService body).drafts := by
  have hdrafts : (emailService body).drafts = [⟨1, emailPayload body⟩] :=
    (drafts_complete exampleRegistry _ _).trans rfl
  rw [hdrafts]
  exact List.mem_singleton_self _

theorem samePayload_iff_unaffected_email :
    ∃ d ∈ (emailService "The printer is back").drafts,
      ∃ a ∈ (emailService "The printer is back").approvedRuns, SamePayload exampleLibrary d a := by
  obtain ⟨a, ha, hid⟩ := exists_approvedRun "The printer is back"
  have hd := mem_drafts_emailService "The printer is back"
  exact ⟨_, hd, a, ha, (samePayload_iff_unaffected exampleLibrary exampleRegistry
    (emailCalls "The printer is back") hd ha hid).mpr (by decide)⟩

/-- An approved password is sent as `[redacted]`. -/
theorem not_samePayload : ¬ ∀ (lib : Library) (registry : Registry) (calls : List (Call lib)),
    ∀ d ∈ ((service lib registry).run calls).drafts,
      ∀ a ∈ ((service lib registry).run calls).approvedRuns, a.approvalId = d.approvalId →
        SamePayload lib d a := by
  intro h
  obtain ⟨a, ha, hid⟩ := exists_approvedRun "Your new password: hunter2"
  have hd := mem_drafts_emailService "Your new password: hunter2"
  have hsame := h exampleLibrary exampleRegistry (emailCalls "Your new password: hunter2") _ hd a
    ha hid
  have hunaffected := ((bound_run exampleLibrary exampleRegistry
    (emailCalls "Your new password: hunter2")).samePayload_iff hd ha hid).mp hsame
  revert hunaffected
  decide

end WaitLocalAgent.ActionPayloads

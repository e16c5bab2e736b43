import WaitLocalAgent.Model.ClientScope

/-! # Workflow templates and playbooks

The catalogs that come with the program: what a template asks of its payload, and the built-in
playbooks. Triggers and descriptions of templates, which nothing reads, are left out. -/

namespace WaitLocalAgent.Playbooks

open Foundation

inductive RiskLevel where
  | low
  | medium
  | high
  deriving DecidableEq, Repr

def RiskLevel.value : RiskLevel → String
  | low => "low"
  | medium => "medium"
  | high => "high"

inductive ReportType where
  | ticketIntelligence
  | approvalExecution
  | connectorHealth
  | auditExport
  | qbr
  | automationOpportunity
  | recurringServiceReview
  | founderPreflight
  | developerHandoff
  | collectorBundle
  | investorEvidence
  | licenseEntitlement
  | applianceHardening
  | restoreEvidence
  deriving DecidableEq, Repr

def ReportType.value : ReportType → String
  | ticketIntelligence => "ticket_intelligence"
  | approvalExecution => "approval_execution"
  | connectorHealth => "connector_health"
  | auditExport => "audit_export"
  | qbr => "qbr"
  | automationOpportunity => "automation_opportunity"
  | recurringServiceReview => "recurring_service_review"
  | founderPreflight => "founder_preflight"
  | developerHandoff => "developer_handoff"
  | collectorBundle => "collector_bundle"
  | investorEvidence => "investor_evidence"
  | licenseEntitlement => "license_entitlement"
  | applianceHardening => "appliance_hardening"
  | restoreEvidence => "restore_evidence"

def ReportType.all : List ReportType := [
  ticketIntelligence, approvalExecution, connectorHealth, auditExport, qbr, automationOpportunity,
  recurringServiceReview, founderPreflight, developerHandoff, collectorBundle, investorEvidence,
  licenseEntitlement, applianceHardening, restoreEvidence]

/-- `required` is that of the payload schema. -/
structure WorkflowTemplate where
  id : String
  name : String
  actionType : String
  approvalRequired : Bool
  riskLevel : RiskLevel
  toolId : Option String := none
  required : List String := []
  deriving DecidableEq

/-- What a step runs: a workflow template or a report. -/
inductive StepKind where
  | workflow (templateId : String)
  | report (reportType : ReportType)
  deriving DecidableEq

def StepKind.isWorkflow : StepKind → Bool
  | workflow _ => true
  | report _ => false

def StepKind.value : StepKind → String
  | workflow _ => "workflow"
  | report _ => "report"

def StepKind.templateId? : StepKind → Option String
  | workflow templateId => some templateId
  | report _ => none

def StepKind.reportType? : StepKind → Option ReportType
  | workflow _ => none
  | report reportType => some reportType

structure MspPlaybookStep where
  id : String
  name : String
  kind : StepKind
  description : String
  requiredInputs : List String := []
  deriving DecidableEq

structure MspPlaybookDefinition where
  id : String
  name : String
  version : ℕ
  trigger : String
  description : String
  riskLevel : RiskLevel
  steps : List MspPlaybookStep
  outputEvidence : List String
  localFixture : Bool := true
  deriving DecidableEq

def workflowStep (id name templateId description : String) (requiredInputs : List String) :
    MspPlaybookStep :=
  { id, name, kind := .workflow templateId, description, requiredInputs }

def reportStep (id name : String) (reportType : ReportType) (description : String) :
    MspPlaybookStep :=
  { id, name, kind := .report reportType, description
    requiredInputs := ["period_start", "period_end"] }

def workflowTemplates : List WorkflowTemplate := [
  { id := "ticket-triage", name := "Ticket Triage", actionType := "ticket.triage"
    approvalRequired := false, riskLevel := .low },
  { id := "assign-technician", name := "Assign Technician", actionType := "ticket.assign"
    approvalRequired := true, riskLevel := .medium },
  { id := "inactive-ticket-follow-up", name := "Inactive Ticket Follow-up"
    actionType := "ticket.follow_up"
    approvalRequired := true, riskLevel := .medium
    toolId := some "communication-send" },
  { id := "p1-alert", name := "P1 Alert", actionType := "ticket.alert"
    approvalRequired := true, riskLevel := .high
    toolId := some "communication-send" },
  { id := "documentation-assisted-response", name := "Documentation-assisted Response"
    actionType := "ticket.draft_response"
    approvalRequired := true, riskLevel := .medium
    toolId := some "documentation-assisted-response" },
  { id := "l1-resolution-review", name := "L1 Resolution Review"
    actionType := "ticket.l1_resolution"
    approvalRequired := false, riskLevel := .low
    toolId := some "suggest-resolution" },
  { id := "ticket-quality-review", name := "Ticket Quality Review", actionType := "ticket.quality"
    approvalRequired := false, riskLevel := .low
    toolId := some "ticket-quality" },
  { id := "ticket-sentiment-review", name := "Ticket Sentiment Review"
    actionType := "ticket.sentiment"
    approvalRequired := false, riskLevel := .low
    toolId := some "ticket-sentiment" },
  { id := "ticket-escalation-review", name := "Ticket Escalation Review"
    actionType := "ticket.escalation"
    approvalRequired := false, riskLevel := .low
    toolId := some "ticket-escalation" },
  { id := "security-alert-review", name := "Security Alert Review"
    actionType := "ticket.security_alert"
    approvalRequired := false, riskLevel := .low
    toolId := some "security-alert-assessment" },
  { id := "similar-ticket-review", name := "Similar Ticket Review", actionType := "ticket.similar"
    approvalRequired := false, riskLevel := .low
    toolId := some "find-similar-tickets" },
  { id := "duplicate-ticket-review", name := "Duplicate Ticket Review"
    actionType := "ticket.duplicate_review"
    approvalRequired := false, riskLevel := .low
    toolId := some "find-similar-tickets" },
  { id := "technician-dispatch-review", name := "Technician Dispatch Review"
    actionType := "ticket.assign"
    approvalRequired := true, riskLevel := .medium
    toolId := some "dispatch-suggestion" },
  { id := "ticket-sla-risk-review", name := "Ticket SLA Risk Review"
    actionType := "ticket.sla_assessment"
    approvalRequired := false, riskLevel := .low
    toolId := some "ticket-sla-assessment"
    required := ["thresholds_minutes"] },
  { id := "stale-ticket-sweep-review", name := "Stale Ticket Sweep Review"
    actionType := "ticket.stale_sweep"
    approvalRequired := false, riskLevel := .low
    toolId := some "stale-ticket-sweep"
    required := ["stale_after_minutes"] },
  { id := "recurring-service-review", name := "Recurring Service Review"
    actionType := "client.recurring_service_review"
    approvalRequired := false, riskLevel := .low
    toolId := some "recurring-service-review"
    required := ["period_start", "period_end"] },
  { id := "m365-user-onboarding-review", name := "Microsoft 365 User Onboarding Review"
    actionType := "m365.user_onboarding"
    approvalRequired := true, riskLevel := .high
    toolId := some "m365-user-onboarding"
    required := ["user_principal_name", "display_name", "mail_nickname", "temporary_vault_name"] },
  { id := "m365-user-offboarding-review", name := "Microsoft 365 User Offboarding Review"
    actionType := "m365.user_offboarding"
    approvalRequired := true, riskLevel := .high
    toolId := some "m365-user-offboarding"
    required := ["user_identity", "user_id"] },
  { id := "m365-password-reset-review", name := "Microsoft 365 Password Reset Review"
    actionType := "m365.password_reset"
    approvalRequired := true, riskLevel := .high
    toolId := some "m365-password-reset"
    required := ["user_identity", "temporary_vault_name"] },
  { id := "m365-authentication-method-removal-review"
    name := "Microsoft 365 Authentication Method Removal Review"
    actionType := "m365.authentication_method_removal"
    approvalRequired := true, riskLevel := .high
    toolId := some "m365-authentication-method-remove"
    required := ["user_identity", "method_type", "method_id"] },
  { id := "m365-license-request-review", name := "Microsoft 365 License Request Review"
    actionType := "m365.license_request"
    approvalRequired := true, riskLevel := .high
    toolId := some "m365-license-change"
    required := ["user_id", "sku_ids", "operation"] },
  { id := "m365-compliance-review", name := "Microsoft 365 Compliance Review"
    actionType := "m365.compliance_review"
    approvalRequired := false, riskLevel := .low
    toolId := some "m365-compliance-review" },
  { id := "m365-inactive-license-review", name := "Microsoft 365 Inactive-License Review"
    actionType := "m365.inactive_license_review"
    approvalRequired := false, riskLevel := .low
    toolId := some "m365-inactive-license-review" },
  { id := "software-inventory-review", name := "Software Inventory Review"
    actionType := "rmm.software_inventory_review"
    approvalRequired := false, riskLevel := .low
    toolId := some "nsight-software-inventory"
    required := ["device_id"] }]

def getWorkflowTemplate (templateId : String) : Option WorkflowTemplate :=
  workflowTemplates.find? fun template => template.id = templateId

def inactiveTicketFollowUpReview : MspPlaybookDefinition where
  id := "inactive-ticket-follow-up-review"
  name := "Inactive Ticket Follow-up Review"
  version := 1
  trigger := "schedule.daily"
  description := "Identify a stale local ticket using an explicit age threshold, then " ++
    "prepare an approval-gated follow-up without sending it automatically."
  riskLevel := .medium
  steps := [
    workflowStep "stale" "Stale ticket check" "stale-ticket-sweep-review"
      "Check the ticket against the operator-supplied stale threshold." ["stale_after_minutes"],
    workflowStep "follow-up" "Inactive ticket follow-up" "inactive-ticket-follow-up"
      "Prepare a local note or explicitly selected communication for approval." ["channel"]]
  outputEvidence := ["workflow_run_ids", "stale_threshold", "approval_request_id"]

def mspPlaybooks : List MspPlaybookDefinition := [
  { id := "ticket-intake-review", name := "Ticket Intake Review", version := 1
    trigger := "ticket.created"
    description := "Run bounded triage, quality, sentiment, duplicate, security, and " ++
      "escalation reviews."
    riskLevel := .low
    steps := [
      workflowStep "triage" "Triage" "ticket-triage" "Classify and summarize the ticket." [],
      workflowStep "quality" "Quality" "ticket-quality-review" "Check required ticket fields." [],
      workflowStep "sentiment" "Sentiment" "ticket-sentiment-review"
        "Assess customer-facing language." [],
      workflowStep "duplicates" "Duplicate candidates" "duplicate-ticket-review"
        "Find local duplicate candidates." [],
      workflowStep "security" "Security alert" "security-alert-review"
        "Assess bounded security indicators." [],
      workflowStep "escalation" "Escalation" "ticket-escalation-review"
        "Recommend bounded urgency." []]
    outputEvidence := ["workflow_run_ids", "local_ticket_records", "review_outputs"] },
  { id := "resolution-review", name := "Resolution Review", version := 1
    trigger := "ticket.created"
    description := "Prepare an L1 resolution and, when requested, a cited response for approval."
    riskLevel := .medium
    steps := [
      workflowStep "triage" "Triage" "ticket-triage"
        "Classify the ticket before resolution review." [],
      workflowStep "l1" "L1 resolution" "l1-resolution-review"
        "Draft a technician-facing resolution." [],
      workflowStep "response" "Documentation response" "documentation-assisted-response"
        "Prepare a cited response and stop for approval before delivery." []]
    outputEvidence := ["workflow_run_ids", "citations", "approval_request_id"] },
  { id := "dispatch-review", name := "Dispatch Review", version := 1
    trigger := "ticket.unassigned"
    description := "Prepare a workload-aware technician recommendation for human approval."
    riskLevel := .medium
    steps := [
      workflowStep "dispatch" "Dispatch recommendation" "technician-dispatch-review"
        "Draft a bounded assignment recommendation." []]
    outputEvidence := ["workflow_run_ids", "approval_request_id", "recommendation"] },
  { id := "stale-sla-review", name := "Stale and SLA Review", version := 1
    trigger := "schedule.daily"
    description := "Run stale-ticket and explicit-threshold SLA-risk reviews without " ++
      "inferring vendor contracts."
    riskLevel := .low
    steps := [
      workflowStep "stale" "Stale ticket sweep" "stale-ticket-sweep-review"
        "Find open tickets past an explicit age." ["stale_after_minutes"],
      workflowStep "sla" "SLA risk" "ticket-sla-risk-review"
        "Compare age with operator-supplied thresholds." ["thresholds_minutes"]]
    outputEvidence := ["workflow_run_ids", "explicit_thresholds", "excluded_missing_timestamps"] },
  { id := "security-response-review", name := "Security Response Review", version := 1
    trigger := "ticket.created"
    description := "Assess security indicators, then prepare an approval-gated internal alert " ++
      "if needed."
    riskLevel := .high
    steps := [
      workflowStep "assessment" "Security assessment" "security-alert-review"
        "Assess indicators without side effects." [],
      workflowStep "alert" "Internal alert" "p1-alert"
        "Prepare an approval-gated internal alert." []]
    outputEvidence := ["workflow_run_ids", "security_indicators", "approval_request_id"] },
  { id := "m365-onboarding-review", name := "Microsoft 365 Onboarding Review", version := 1
    trigger := "ticket.created"
    description := "Prepare tenant-scoped user onboarding and stop before any approval-gated " ++
      "license change."
    riskLevel := .high
    steps := [
      workflowStep "user" "User creation" "m365-user-onboarding-review"
        "Prepare the tenant-scoped user request."
        ["user_principal_name", "display_name", "mail_nickname", "temporary_vault_name"],
      workflowStep "license" "License request" "m365-license-request-review"
        "Prepare an immutable-SKU license request after approval."
        ["user_id", "sku_ids", "operation"]]
    outputEvidence := ["workflow_run_ids", "approval_request_id", "tenant_scope"] },
  { id := "m365-offboarding-review", name := "Microsoft 365 Offboarding Review", version := 1
    trigger := "ticket.updated"
    description := "Prepare a tenant-scoped disable-and-revoke request; no broad MFA reset is " ++
      "inferred."
    riskLevel := .high
    steps := [
      workflowStep "offboarding" "User offboarding" "m365-user-offboarding-review"
        "Prepare a bounded disable-and-revoke request." ["user_identity", "user_id"]]
    outputEvidence := ["workflow_run_ids", "approval_request_id", "partial_failure_state"] },
  inactiveTicketFollowUpReview,
  { id := "m365-password-reset-review", name := "Microsoft 365 Password Reset Review",
    version := 1
    trigger := "ticket.updated"
    description := "Prepare a tenant-scoped Microsoft 365 password reset using a local vault " ++
      "reference; execution remains approval-gated."
    riskLevel := .high
    steps := [
      workflowStep "password-reset" "Password reset" "m365-password-reset-review"
        "Prepare the bounded password reset request without exposing the temporary credential."
        ["user_identity", "temporary_vault_name"]]
    outputEvidence := ["workflow_run_ids", "approval_request_id", "tenant_scope"] },
  { id := "m365-authentication-method-review",
    name := "Microsoft 365 Authentication Method Review", version := 1
    trigger := "ticket.updated"
    description := "Prepare removal of one explicitly identified Microsoft 365 authentication " ++
      "method; broad MFA reset is not inferred."
    riskLevel := .high
    steps := [
      workflowStep "method-removal" "Authentication method removal"
        "m365-authentication-method-removal-review"
        "Prepare an immutable-method-ID removal request for approval."
        ["user_identity", "method_type", "method_id"]]
    outputEvidence := ["workflow_run_ids", "approval_request_id", "explicit_method_id"] },
  { id := "m365-license-review", name := "Microsoft 365 License Review", version := 1
    trigger := "ticket.created"
    description := "Prepare a tenant-scoped Microsoft 365 license add or removal request from " ++
      "immutable user and SKU identifiers."
    riskLevel := .high
    steps := [
      workflowStep "license-request" "License request" "m365-license-request-review"
        "Prepare the explicit license operation for approval."
        ["user_id", "sku_ids", "operation"]]
    outputEvidence := ["workflow_run_ids", "approval_request_id", "immutable_sku_ids"] },
  { id := "m365-compliance-review", name := "Microsoft 365 Compliance Review", version := 1
    trigger := "schedule.daily"
    description := "Review bounded tenant-scoped Microsoft Graph device and license evidence; " ++
      "observed attention items are reported without claiming regulatory compliance."
    riskLevel := .low
    steps := [
      workflowStep "compliance" "M365 compliance evidence" "m365-compliance-review"
        "Read managed-device and tenant-license evidence through the existing Graph boundary." []]
    outputEvidence := ["workflow_run_ids", "connector_read_evidence", "observed_findings"] },
  { id := "software-inventory-review", name := "Software Inventory Review", version := 1
    trigger := "schedule.daily"
    description := "Read an explicitly mapped N-sight software inventory through the existing " ++
      "tenant-scoped RMM adapter; no remediation or vulnerability claim is inferred."
    riskLevel := .low
    steps := [
      workflowStep "inventory" "Software inventory" "software-inventory-review"
        "Read the bounded software inventory for one mapped device." ["device_id"]]
    outputEvidence := ["workflow_run_ids", "rmm_software_inventory", "mapped_device_scope"] },
  { id := "m365-inactive-license-review", name := "Microsoft 365 Inactive-License Review",
    version := 1
    trigger := "schedule.daily"
    description := "Review observed license assignments for disabled Microsoft 365 users; " ++
      "reclamation is never inferred or executed."
    riskLevel := .low
    steps := [
      workflowStep "inactive-licenses" "Inactive license assignments"
        "m365-inactive-license-review"
        "Read disabled-user license assignments through the existing Graph boundary." []]
    outputEvidence := ["workflow_run_ids", "connector_read_evidence", "observed_findings"] },
  { id := "qbr-review", name := "Quarterly Business Review", version := 1
    trigger := "schedule.monthly"
    description := "Build a client-scoped QBR from stored ticket and execution evidence; " ++
      "estimates stay labeled."
    riskLevel := .low
    steps := [
      reportStep "qbr" "QBR report" .qbr "Persist a local evidence-backed QBR."]
    outputEvidence := ["report_id", "ticket_records", "execution_records", "estimate_labels"] },
  { id := "automation-opportunity-review", name := "Automation Opportunity Review", version := 1
    trigger := "schedule.monthly"
    description := "Rank repeated successful local actions as review candidates without " ++
      "enabling automation."
    riskLevel := .low
    steps := [
      reportStep "automation" "Automation opportunities" .automationOpportunity
        "Persist a local candidate report."]
    outputEvidence := ["report_id", "successful_action_records", "estimate_labels"] },
  { id := "recurring-service-review", name := "Recurring Service Review", version := 1
    trigger := "schedule.monthly"
    description := "Build a client-scoped recurring service review with explicit follow-up " ++
      "thresholds."
    riskLevel := .low
    steps := [
      reportStep "service" "Service review" .recurringServiceReview
        "Persist a local service posture report."]
    outputEvidence :=
      ["report_id", "ticket_records", "lifecycle_evidence", "follow_up_threshold"] }]

def getMspPlaybook (playbookId : String) : Option MspPlaybookDefinition :=
  mspPlaybooks.find? fun playbook => playbook.id = playbookId

end WaitLocalAgent.Playbooks

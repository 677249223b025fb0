/-
  How a settlement that won the arbiter is classified
  (`provider-client/provider-response.ts`, `provider-response-guard.ts`).

  The bytes are turned into a JSON document by the runtime (`parseJsonDocument`), which is a
  parameter here.
-/
import RefundStudy.Record.Text
import RefundStudy.Runtime.World

set_option autoImplicit false

namespace RefundStudy.Attempt

open Foundation Record RefundStudy.Runtime

/-! ## The response guard -/

def responseProperties : List String :=
  ["schema_version", "record_type", "outcome", "provider_call_id", "attempt_id",
    "provider_request_id", "provider_transaction_id", "rejection_reason"]

def optionalUuidProperties : List String :=
  ["attempt_id", "provider_request_id", "provider_transaction_id"]

def rejectionReasonOf : String → Option ProviderRejectionReason
  | "AUTHORIZATION_FAILED" => some .authorizationFailed
  | "SCHEMA_INVALID" => some .schemaInvalid
  | "EXECUTION_IDENTITY_MISMATCH" => some .executionIdentityMismatch
  | "IDENTITY_STRUCTURE_INVALID" => some .identityStructureInvalid
  | "PAYMENT_NOT_FOUND" => some .paymentNotFound
  | "AMOUNT_INVALID" => some .amountInvalid
  | "CURRENCY_MISMATCH" => some .currencyMismatch
  | _ => none

/-- The outcome part of a `provider_refund_response`. -/
inductive ResponseOutcome where
  | succeeded (providerTransactionId : Uuid4)
  | rejected (rejectionReason : ProviderRejectionReason)

/-- `ProviderRefundResponse` as the client reads it. -/
structure ProviderRefundResponse where
  providerCallId : Uuid4
  attemptId : Option Uuid4
  providerRequestId : Option Uuid4
  outcome : ResponseOutcome

variable (members : List (String × JsonValue))

def isOptionalUuid (name : String) : Bool :=
  (ownField members name).isNone || (uuidField members name).isSome

def textField (name : String) : Option String :=
  match ownField members name with
  | some (.string text) => some text
  | _ => none

/-- `envelopeProblem` finds nothing; the provider call id of the envelope. -/
def readEnvelope : Option Uuid4 :=
  let known := members.all fun member => responseProperties.contains member.1
  let version := match ownField members "schema_version" with
    | some (.number value) => value == 1
    | _ => false
  let recordType := textField members "record_type" == some "provider_refund_response"
  if known && version && recordType then
    match uuidField members "provider_call_id" with
    | some providerCallId =>
      if optionalUuidProperties.all (isOptionalUuid members) then some providerCallId else none
    | none => none
  else none

/-- `outcomeProblem` finds nothing; the outcome.  A success names all three optional
ids and no reason, a rejection names a known reason and no transaction. -/
def readOutcome : Option ResponseOutcome :=
  match textField members "outcome" with
  | some "SUCCEEDED" =>
    if optionalUuidProperties.all (fun name => (ownField members name).isSome) &&
        (ownField members "rejection_reason").isNone then
      (uuidField members "provider_transaction_id").map .succeeded
    else none
  | some "REJECTED" =>
    if (ownField members "provider_transaction_id").isNone then
      ((textField members "rejection_reason").bind rejectionReasonOf).map .rejected
    else none
  | _ => none

def readProviderRefundResponse : JsonValue → Option ProviderRefundResponse
  | .object members => do
    let providerCallId ← readEnvelope members
    let outcome ← readOutcome members
    some ⟨providerCallId, uuidField members "attempt_id",
      uuidField members "provider_request_id", outcome⟩
  | _ => none

/-! ## Classification -/

def requestResponseStatus : Nat := 200

def abortErrorName : String := "AbortError"

structure ExpectedProviderResponse where
  qualifier : String
  attemptId : Uuid4
  providerRequestId : Uuid4

inductive ParsedProviderResponse where
  | succeeded (providerCallId providerTransactionId : Uuid4) (diagnostics : ResponseDiagnostics)
  | rejected (providerCallId : Uuid4) (rejectionReason : ProviderRejectionReason)
      (diagnostics : ResponseDiagnostics)
  | failed (failure : AttemptFailureCode) (diagnostics : ResponseDiagnostics)

/-- A diagnostic header as the outcome record keeps it; an empty one is left out. -/
def diagnosticOf (value : Option String) : Option String :=
  match value with
  | none => none
  | some text => if text = "" then none else some (boundedDiagnostic text)

def diagnosticsOf (executedVersion functionError : Option String) : ResponseDiagnostics where
  executedVersion := diagnosticOf executedVersion
  functionError := diagnosticOf functionError

/-- `echoMismatch` finds nothing: the response names both ids of the attempt. -/
def echoes (response : ProviderRefundResponse) (expected : ExpectedProviderResponse) : Bool :=
  decide (response.attemptId = some expected.attemptId ∧
    response.providerRequestId = some expected.providerRequestId)

variable (parseJsonDocument : List UInt8 → Option JsonValue)

def classifyPayload (statusCode : Nat) (payload : List UInt8)
    (expected : ExpectedProviderResponse) (diagnostics : ResponseDiagnostics) :
    ParsedProviderResponse :=
  if statusCode ≠ requestResponseStatus then .failed .malformedResponse diagnostics
  else
    match (parseJsonDocument payload).bind readProviderRefundResponse with
    | none => .failed .malformedResponse diagnostics
    | some response =>
      if echoes response expected then
        match response.outcome with
        | .succeeded providerTransactionId =>
          .succeeded response.providerCallId providerTransactionId diagnostics
        | .rejected rejectionReason =>
          .rejected response.providerCallId rejectionReason diagnostics
      else .failed .malformedResponse diagnostics

def parseProviderResponse (result : ProviderTransportResult)
    (expected : ExpectedProviderResponse) : ParsedProviderResponse :=
  match result with
  | .transportError errorName _ _ =>
    if errorName = abortErrorName then .failed .abortedWithoutDeadline {}
    else .failed .transportError {}
  | .response statusCode executedVersion functionError payload =>
    let diagnostics := diagnosticsOf executedVersion functionError
    if functionError ≠ none ∧ functionError ≠ some "" then .failed .functionError diagnostics
    else if executedVersion ≠ some expected.qualifier then .failed .versionMismatch diagnostics
    else classifyPayload parseJsonDocument statusCode payload expected diagnostics

/-- The settlement is a response whose payload echoes both ids of the attempt. -/
def EchoesAttempt (attemptId providerRequestId : Uuid4) (result : ProviderTransportResult) : Prop :=
  ∃ statusCode executedVersion functionError payload response,
    result = .response statusCode executedVersion functionError payload ∧
    (parseJsonDocument payload).bind readProviderRefundResponse = some response ∧
    response.attemptId = some attemptId ∧ response.providerRequestId = some providerRequestId

variable {parseJsonDocument}

theorem classifyPayload_echoes {statusCode : Nat} {payload : List UInt8}
    {expected : ExpectedProviderResponse} {diagnostics : ResponseDiagnostics}
    (h : ∀ failure, classifyPayload parseJsonDocument statusCode payload expected diagnostics ≠
      .failed failure diagnostics) :
    ∃ response, (parseJsonDocument payload).bind readProviderRefundResponse = some response ∧
      response.attemptId = some expected.attemptId ∧
      response.providerRequestId = some expected.providerRequestId := by
  unfold classifyPayload at h
  split at h
  · exact absurd rfl (h _)
  · split at h
    · exact absurd rfl (h _)
    · rename_i response hresponse
      split at h
      · rename_i hechoes
        exact ⟨response, hresponse, of_decide_eq_true hechoes⟩
      · exact absurd rfl (h _)

theorem parseProviderResponse_echoes {result : ProviderTransportResult}
    {expected : ExpectedProviderResponse}
    (h : ∀ failure diagnostics, parseProviderResponse parseJsonDocument result expected ≠
      .failed failure diagnostics) :
    EchoesAttempt parseJsonDocument expected.attemptId expected.providerRequestId result := by
  cases result with
  | transportError errorName message httpStatus =>
    simp only [parseProviderResponse] at h
    split at h
    · exact absurd rfl (h _ _)
    · exact absurd rfl (h _ _)
  | response statusCode executedVersion functionError payload =>
    simp only [parseProviderResponse] at h
    split at h
    · exact absurd rfl (h _ _)
    · split at h
      · exact absurd rfl (h _ _)
      · obtain ⟨response, hresponse, hattempt, hrequest⟩ :=
          classifyPayload_echoes fun failure => h failure _
        exact ⟨statusCode, executedVersion, functionError, payload, response, rfl, hresponse,
          hattempt, hrequest⟩

end RefundStudy.Attempt

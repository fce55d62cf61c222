import ExceptionFlow.Body
import ExceptionFlow.Text.Hex
/-!
What an analysis hands to its reader: findings in one batch per method, and notices about what could
not be analysed. A ledger collects both.
-/
namespace ExceptionFlow

inductive FindingKind where
  | undeclaredException
  deriving DecidableEq

namespace FindingKind

def all : List FindingKind := [undeclaredException]

def text : FindingKind → String
  | undeclaredException => "undeclared-checked-exception-thrown"

instance : ToString FindingKind := ⟨text⟩

def ofText? (text : String) : Option FindingKind :=
  all.find? fun kind => kind.text = text

end FindingKind

inductive Severity where
  | normal
  deriving DecidableEq

namespace Severity

def all : List Severity := [normal]

def text : Severity → String
  | normal => "normal"

instance : ToString Severity := ⟨text⟩

def ofText? (text : String) : Option Severity :=
  all.find? fun severity => severity.text = text

end Severity

/-- A checked exception that leaves a method undeclared. -/
structure Finding where
  kind : FindingKind := .undeclaredException
  severity : Severity := .normal
  className : ClassName
  method : String
  descriptor : String
  offset : Nat
  line : Option Nat
  exception : ClassName
  deriving DecidableEq

namespace Finding

def ofBody (body : MethodBody) (offset : Nat) (exception : ClassName) : Finding :=
  { className := body.className
    method := body.method.name
    descriptor := body.method.descriptor
    offset
    line := body.lineAt? offset
    exception }

def text (finding : Finding) : String :=
  let place :=
    s!"{finding.className}.{finding.method}{finding.descriptor} @ {Text.paddedHex finding.offset}"
  let line :=
    match finding.line with
    | some line => s!" (line {line})"
    | none => ""
  s!"{finding.kind} [{finding.severity}] {place}{line}: {finding.exception}"

end Finding

/-- All findings of one method. -/
structure Batch where
  className : ClassName
  method : String
  descriptor : String
  findings : List Finding
  deriving DecidableEq

namespace Batch

def ofBody (body : MethodBody) (findings : List Finding) : Batch :=
  { className := body.className
    method := body.method.name
    descriptor := body.method.descriptor
    findings }

def size (batch : Batch) : Nat :=
  batch.findings.length

def isEmpty (batch : Batch) : Bool :=
  batch.findings.isEmpty

end Batch

inductive NoticeKind where
  | missingType
  | skippedAnalysis
  | error
  deriving DecidableEq

namespace NoticeKind

def all : List NoticeKind := [missingType, skippedAnalysis, error]

def text : NoticeKind → String
  | missingType => "MissingType"
  | skippedAnalysis => "SkippedAnalysis"
  | error => "Error"

instance : ToString NoticeKind := ⟨text⟩

def ofText? (text : String) : Option NoticeKind :=
  all.find? fun kind => kind.text = text

end NoticeKind

structure Notice where
  kind : NoticeKind
  subject : String
  message : String
  deriving DecidableEq

namespace Notice

def text (notice : Notice) : String :=
  s!"[{notice.kind}] {notice.subject}: {notice.message}"

def missingType (name : ClassName) : Notice :=
  ⟨.missingType, name.text, "class not found on the analyzed classpath"⟩

def skippedAnalysis (className : ClassName) (method : String) : Notice :=
  ⟨.skippedAnalysis, s!"{className}.{method}", "analysis skipped as unprofitable"⟩

/-- An error that the analysis went past. -/
def recovered (message : String) : Notice :=
  ⟨.error, "analysis", message⟩

end Notice

/-- What the analysis was doing when it met a failure that it went past. -/
inductive Mishap where
  | resolving (exception : ClassName) (cause : Failure)
  | lookingUp (owner : ClassName) (cause : Failure)
  | checkingDeadStore (label : String) (cause : Failure)
  deriving DecidableEq

def Mishap.message : Mishap → String
  | resolving exception cause => s!"Error resolving {exception}: {cause}"
  | lookingUp owner cause => s!"Error looking up {owner}: {cause}"
  | checkingDeadStore label cause =>
    s!"Error checking for dead exception store in {label}: {cause}"

/-- What the analysis has to say besides its findings. -/
inductive Remark where
  | missingType (name : ClassName)
  | skippedAnalysis (className : ClassName) (method : String)
  | mishap (event : Mishap)
  deriving DecidableEq

namespace Remark

/-- A class that is not there is remarked on as missing, every other cause as the mishap it led
to. -/
def ofFailure (mishap : Mishap) : Failure → Remark
  | .typeNotFound name => .missingType ⟨name⟩
  | _ => .mishap mishap

def notice : Remark → Notice
  | missingType name => .missingType name
  | skippedAnalysis className method => .skippedAnalysis className method
  | mishap event => .recovered event.message

end Remark

/-- Batches of findings and notices, each in order of arrival. -/
structure Ledger where
  batches : List Batch := []
  notices : List Notice := []
  deriving DecidableEq

namespace Ledger

/-- Keeps a batch. A method without findings leaves none. -/
def addBatch (ledger : Ledger) (batch : Batch) : Ledger :=
  if batch.isEmpty then ledger else { ledger with batches := ledger.batches ++ [batch] }

def addNotice (ledger : Ledger) (notice : Notice) : Ledger :=
  { ledger with notices := ledger.notices ++ [notice] }

def findings (ledger : Ledger) : List Finding :=
  ledger.batches.flatMap Batch.findings

def noticesOfKind (ledger : Ledger) (kind : NoticeKind) : List Notice :=
  ledger.notices.filter fun notice => notice.kind = kind

end Ledger

end ExceptionFlow

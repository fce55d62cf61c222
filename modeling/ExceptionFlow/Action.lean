import ExceptionFlow.Log
import ExceptionFlow.Report
/-!
Actions of the analysis. An action consults and extends the memo of lineages, and it emits log
records, remarks and finished batches in order.
-/
namespace ExceptionFlow

/-- Something that leaves the analysis while it runs. -/
inductive Emission where
  | log (record : LogRecord)
  | remark (remark : Remark)
  /-- A batch was handed over, and whether it was taken. -/
  | flush (batch : Batch) (verdict : Except Failure Unit)

/-- The value of an action, the memo after it and what it emitted. -/
structure Outcome (α : Type) where
  value : α
  memo : Memo
  emitted : List Emission

def Action (α : Type) : Type :=
  Memo → Outcome α

namespace Action

variable {α β : Type}

def run (action : Action α) (memo : Memo) : Outcome α :=
  action memo

instance : Monad Action where
  pure value := fun memo => { value, memo, emitted := [] }
  bind action next := fun memo =>
    let first := action memo
    let second := next first.value first.memo
    { second with emitted := first.emitted ++ second.emitted }

instance : LawfulMonad Action := LawfulMonad.mk' Action
  (by
    intro α action
    funext memo
    change ({ action memo with emitted := (action memo).emitted ++ [] } : Outcome α) = action memo
    rw [List.append_nil])
  (by
    intro α β value next
    rfl)
  (by
    intro α β γ action next last
    funext memo
    simp only [bind, List.append_assoc])

def emit (emission : Emission) : Action Unit := fun memo =>
  { value := (), memo, emitted := [emission] }

def log (record : LogRecord) : Action Unit :=
  emit (.log record)

def remark (remark : Remark) : Action Unit :=
  emit (.remark remark)

/-- The memo as it stands. -/
def getMemo : Action Memo := fun memo =>
  { value := memo, memo, emitted := [] }

def remember (lineage : Lineage) : Action Unit := fun memo =>
  { value := (), memo := memo.insert lineage, emitted := [] }

@[simp]
theorem run_pure (value : α) (memo : Memo) :
    (pure value : Action α).run memo = { value, memo, emitted := [] } :=
  rfl

@[simp]
theorem run_bind (action : Action α) (next : α → Action β) (memo : Memo) :
    (action >>= next).run memo =
      { value := ((next (action.run memo).value).run (action.run memo).memo).value
        memo := ((next (action.run memo).value).run (action.run memo).memo).memo
        emitted := (action.run memo).emitted ++
          ((next (action.run memo).value).run (action.run memo).memo).emitted } :=
  rfl

@[simp]
theorem run_map (f : α → β) (action : Action α) (memo : Memo) :
    (f <$> action).run memo =
      { value := f (action.run memo).value
        memo := (action.run memo).memo
        emitted := (action.run memo).emitted } := by
  rw [← bind_pure_comp, run_bind]
  simp only [run_pure, List.append_nil]

@[simp]
theorem run_emit (emission : Emission) (memo : Memo) :
    (emit emission).run memo = { value := (), memo, emitted := [emission] } :=
  rfl

@[simp]
theorem run_log (record : LogRecord) (memo : Memo) :
    (log record).run memo = { value := (), memo, emitted := [.log record] } :=
  rfl

@[simp]
theorem run_remark (said : Remark) (memo : Memo) :
    (remark said).run memo = { value := (), memo, emitted := [.remark said] } :=
  rfl

@[simp]
theorem run_getMemo (memo : Memo) :
    getMemo.run memo = { value := memo, memo, emitted := [] } :=
  rfl

@[simp]
theorem run_remember (lineage : Lineage) (memo : Memo) :
    (remember lineage).run memo = { value := (), memo := memo.insert lineage, emitted := [] } :=
  rfl

end Action

namespace Emission

def logRecord? : Emission → Option LogRecord
  | log record => some record
  | _ => none

end Emission

namespace Ledger

/-- A ledger takes remarks as notices and accepted batches as they are. -/
def record (ledger : Ledger) : Emission → Ledger
  | .log _ => ledger
  | .remark remark => ledger.addNotice remark.notice
  | .flush batch (.ok ()) => ledger.addBatch batch
  | .flush _ (.error _) => ledger

def recordAll (ledger : Ledger) (emitted : List Emission) : Ledger :=
  emitted.foldl record ledger

end Ledger

end ExceptionFlow

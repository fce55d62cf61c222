import ExceptionFlow.Proofs.MethodRun
/-!
What a method hands over, whatever the memo. A method that is run by a new detector hands over one
batch, with the answer of its taker, unless an instruction lies outside it. The batch and its
findings name the method, and the findings come in the order in which the instructions were visited.
-/
namespace ExceptionFlow

namespace Ledger

/-- A ledger keeps a batch that was taken, unless it is empty. -/
def keeps (flush : Flush) : Bool :=
  flush.2.isOk && !flush.1.isEmpty

/-- The batches that a ledger keeps of what was emitted. -/
def kept (emitted : List Emission) : List Batch :=
  ((emitted.filterMap Emission.flush?).filter keeps).map Prod.fst

theorem kept_append (first second : List Emission) :
    kept (first ++ second) = kept first ++ kept second := by
  unfold kept
  rw [List.filterMap_append, List.filter_append, List.map_append]

theorem batches_record (ledger : Ledger) (emission : Emission) :
    (ledger.record emission).batches = ledger.batches ++ kept [emission] := by
  cases emission with
  | log record => exact (List.append_nil _).symm
  | remark said => exact (List.append_nil _).symm
  | flush batch verdict =>
      cases verdict with
      | error failure => exact (List.append_nil _).symm
      | ok _ =>
          cases hempty : batch.isEmpty <;>
            simp [record, addBatch, kept, keeps, Emission.flush?, Except.isOk, Except.toBool,
              hempty]

theorem batches_recordAll (ledger : Ledger) (emitted : List Emission) :
    (ledger.recordAll emitted).batches = ledger.batches ++ kept emitted := by
  induction emitted generalizing ledger with
  | nil => exact (List.append_nil _).symm
  | cons emission emitted ih =>
      have hrest : (ledger.recordAll (emission :: emitted)).batches =
          ((ledger.record emission).recordAll emitted).batches := rfl
      have hcons : kept (emission :: emitted) = kept [emission] ++ kept emitted :=
        kept_append [emission] emitted
      rw [hrest, ih, batches_record, hcons, List.append_assoc]

end Ledger

/-- Only throws and calls raise exceptions. -/
def InstructionKind.raises : InstructionKind → Bool
  | .athrow _ | .invoke _ _ => true
  | _ => false

/-- The items come from the instructions, one after another: each has the offset of its instruction,
which is a throw or a call. -/
inductive InOrder {α : Type} (offset : α → Nat) : List Instruction → List α → Prop where
  | nil : InOrder offset [] []
  | cons {instruction : Instruction} {visited : List Instruction} {items rest : List α}
      (hitems : ∀ item ∈ items,
        offset item = instruction.offset ∧ instruction.kind.raises = true)
      (hrest : InOrder offset visited rest) :
      InOrder offset (instruction :: visited) (items ++ rest)

namespace InOrder

variable {α β : Type} {offset : α → Nat} {visited : List Instruction} {items : List α}

theorem singleton {instruction : Instruction}
    (h : ∀ item ∈ items, offset item = instruction.offset ∧ instruction.kind.raises = true) :
    InOrder offset [instruction] items := by
  have hcons := InOrder.cons h .nil
  rwa [List.append_nil] at hcons

theorem append (h : InOrder offset visited items) {later : List Instruction} {more : List α}
    (hmore : InOrder offset later more) : InOrder offset (visited ++ later) (items ++ more) := by
  induction h with
  | nil => exact hmore
  | cons hitems _ ih =>
      rw [List.append_assoc]
      exact .cons hitems ih

theorem filter (h : InOrder offset visited items) (keep : α → Bool) :
    InOrder offset visited (items.filter keep) := by
  induction h with
  | nil => exact .nil
  | cons hitems _ ih =>
      rw [List.filter_append]
      exact .cons (fun item hitem => hitems item ((List.mem_filter.mp hitem).1)) ih

theorem map (h : InOrder offset visited items) (f : α → β) {place : β → Nat}
    (hplace : ∀ item, place (f item) = offset item) : InOrder place visited (items.map f) := by
  induction h with
  | nil => exact .nil
  | cons hitems _ ih =>
      rw [List.map_append]
      refine .cons ?_ ih
      intro mapped hmapped
      obtain ⟨item, hitem, rfl⟩ := List.mem_map.mp hmapped
      rw [hplace]
      exact hitems item hitem

theorem exists_instruction (h : InOrder offset visited items) :
    ∀ item ∈ items, ∃ instruction ∈ visited, offset item = instruction.offset := by
  induction h with
  | nil => simp
  | @cons instruction visited items rest hitems _ ih =>
      intro item hitem
      rcases List.mem_append.mp hitem with hfirst | hlater
      · exact ⟨instruction, List.mem_cons_self, (hitems item hfirst).1⟩
      · obtain ⟨other, hother, hoffset⟩ := ih item hlater
        exact ⟨other, List.mem_cons_of_mem _ hother, hoffset⟩

end InOrder

namespace Context

variable {context : Context} {answers : ClassName → Option Lineage → Prop}
  {call : Option (ClassName × String)}

theorem Raised.inOrder {instruction : Instruction} {events : List ThrowEvent}
    (h : context.Raised answers call instruction events) :
    ∀ event ∈ events, event.offset = instruction.offset ∧ instruction.kind.raises = true := by
  cases h with
  | nothing => simp
  | thrown | called =>
      intro event hevent
      obtain ⟨exception, -, rfl⟩ := List.mem_map.mp hevent
      exact ⟨rfl, rfl⟩

theorem Records.inOrder {code : List Instruction} {events : List ThrowEvent}
    (h : context.Records (context.Raised answers) call code events) :
    InOrder ThrowEvent.offset code events := by
  induction h with
  | nil => exact .nil
  | cons hraised _ ih => exact .cons hraised.inOrder ih

end Context

/-- The batch is one about the method. It and its findings name the method, the findings lie within
its code, on the lines of their offsets, and they come in the order of the instructions. -/
structure Batch.ReportsOn (batch : Batch) (body : MethodBody) (visited : List Instruction) :
    Prop where
  className : batch.className = body.className
  method : batch.method = body.method.name
  descriptor : batch.descriptor = body.method.descriptor
  findings : ∀ finding ∈ batch.findings,
    finding.className = body.className ∧ finding.method = body.method.name ∧
      finding.descriptor = body.method.descriptor ∧ body.spans finding.offset = true ∧
      finding.line = body.lineAt? finding.offset
  order : InOrder Finding.offset visited batch.findings

theorem FlowLog.batch_reportsOn {flow : FlowLog} {body : MethodBody} {visited : List Instruction}
    (hspans : ∀ instruction ∈ visited, body.spans instruction.offset = true)
    (hevents : InOrder ThrowEvent.offset visited flow.events) :
    (flow.batch body).ReportsOn body visited where
  className := rfl
  method := rfl
  descriptor := rfl
  findings := by
    intro finding hfinding
    obtain ⟨event, hevent, rfl⟩ := List.mem_map.mp hfinding
    obtain ⟨instruction, hinstruction, hoffset⟩ :=
      hevents.exists_instruction event (List.mem_filter.mp hevent).1
    refine ⟨rfl, rfl, rfl, ?_, rfl⟩
    change body.spans event.offset = true
    rw [hoffset]
    exact hspans instruction hinstruction
  order := (hevents.filter _).map _ fun _ => rfl

namespace Detector

variable {context : Context}

/-- The result of a method with code that a new detector runs, and what it hands over. -/
inductive Reported (context : Context) (body : MethodBody) :
    Except Failure Nat → List Flush → Prop where
  | stray {instruction : Instruction} (hstray : body.stray? = some instruction) :
      Reported context body (.error (body.outside instruction)) []
  | done {batch : Batch} (hstray : body.stray? = none)
      (hbatch : batch.ReportsOn body body.code) :
      Reported context body ((context.accept batch).map fun _ => batch.size)
        [(batch, context.accept batch)]

theorem Ran.reported {answers : ClassName → Option Lineage → Prop} {body : MethodBody}
    {reply : Reply Nat} {flushes : List Flush}
    (h : Ran context (context.Raised answers) body reply flushes) :
    Reported context body reply.result flushes := by
  cases h with
  | stray hstray hreply hflushes =>
      subst hreply hflushes
      exact .stray hstray
  | done hstray _ hrecords hreply hflushes =>
      subst hreply hflushes
      exact .done hstray
        (FlowLog.batch_reportsOn (MethodBody.spans_of_stray? hstray) hrecords.inOrder)

theorem runMethod_reported (context : Context) {body : MethodBody}
    (hcode : body.method.hasCode = true) :
    (({} : Detector).runMethod context body).Always fun reply flushes =>
      reply.detector = {} ∧ Reported context body reply.result flushes :=
  (runMethod_ran context.resolves_named hcode).mono fun _ _ hran =>
    ⟨hran.detector_eq, hran.reported⟩

end Detector

end ExceptionFlow

import ExceptionFlow.Proofs.Handover
import ExceptionFlow.Proofs.Misuse
/-!
Who gets what, and when. Whatever is asked of a detector, one batch is handed over for each method
that comes to its end, and none for a method that is given up. The batch is about the method that
was started, whatever happened in between, and a ledger keeps no batch without findings.
-/
namespace ExceptionFlow

/-- A method in progress and the instructions visited since its start. -/
structure Progress where
  body : MethodBody
  visited : List Instruction := []

/-- A batch handed over at the end of a method, and whether it was taken. -/
structure Delivery extends Progress where
  batch : Batch
  verdict : Except Failure Unit

namespace Delivery

def flush (delivery : Delivery) : Flush :=
  (delivery.batch, delivery.verdict)

def isKept (delivery : Delivery) : Bool :=
  Ledger.keeps delivery.flush

end Delivery

/-- The delivery at the end of this method. -/
def Progress.deliver (progress : Progress) (context : Context) (batch : Batch) : Delivery :=
  { progress with batch, verdict := context.accept batch }

/-- What comes of a whole method with code that a detector is handed, given the method in progress:
the deliveries and whether the method passed. After it no method is in progress. -/
inductive RunsWhole (context : Context) (body : MethodBody) :
    Option Progress → List Delivery → Bool → Prop where
  | done {batch : Batch} (hstray : body.stray? = none) :
      RunsWhole context body none [Progress.deliver ⟨body, body.code⟩ context batch]
        (context.accept batch).isOk
  | stray {instruction : Instruction} (hstray : body.stray? = some instruction) :
      RunsWhole context body none [] false
  | busy {progress : Progress} : RunsWhole context body (some progress) [] false

/-- The same for the methods of a class, up to the first one that does not pass. -/
inductive RunsMethods (context : Context) :
    List MethodBody → Option Progress → List Delivery → Option Progress → Prop where
  | nil {current : Option Progress} : RunsMethods context [] current [] current
  | skip {body : MethodBody} {bodies : List MethodBody} {current last : Option Progress}
      {deliveries : List Delivery} (hcode : body.method.hasCode = false)
      (hrest : RunsMethods context bodies current deliveries last) :
      RunsMethods context (body :: bodies) current deliveries last
  | failed {body : MethodBody} {bodies : List MethodBody} {current : Option Progress}
      {deliveries : List Delivery} (hcode : body.method.hasCode = true)
      (hbody : RunsWhole context body current deliveries false) :
      RunsMethods context (body :: bodies) current deliveries none
  | passed {body : MethodBody} {bodies : List MethodBody} {current last : Option Progress}
      {deliveries more : List Delivery} (hcode : body.method.hasCode = true)
      (hbody : RunsWhole context body current deliveries true)
      (hrest : RunsMethods context bodies none more last) :
      RunsMethods context (body :: bodies) current (deliveries ++ more) last

/-- What an operation makes of the method in progress, and the deliveries it leads to. Only the end
of a method in progress leads to one. -/
inductive Operation.Leads (context : Context) :
    Operation → Option Progress → List Delivery → Option Progress → Prop where
  | start (body : MethodBody) : Leads context (.start body) none [] (some { body })
  | startBusy (body : MethodBody) (progress : Progress) :
      Leads context (.start body) (some progress) [] (some progress)
  | addEntry (entry : TableEntry) (current : Option Progress) :
      Leads context (.addEntry entry) current [] current
  | step {instruction : Instruction} {progress : Progress}
      (hspans : progress.body.spans instruction.offset = true) :
      Leads context (.step instruction) (some progress) []
        (some { progress with visited := progress.visited ++ [instruction] })
  | stepStray {instruction : Instruction} {progress : Progress}
      (hspans : progress.body.spans instruction.offset = false) :
      Leads context (.step instruction) (some progress) [] (some progress)
  | stepIdle (instruction : Instruction) : Leads context (.step instruction) none [] none
  | finish (progress : Progress) (batch : Batch) :
      Leads context .finish (some progress) [progress.deliver context batch] none
  | finishIdle : Leads context .finish none [] none
  | reset (current : Option Progress) : Leads context .reset current [] none
  | noCode {body : MethodBody} (hcode : body.method.hasCode = false) (current : Option Progress) :
      Leads context (.runMethod body) current [] current
  | runMethod {body : MethodBody} {current : Option Progress} {deliveries : List Delivery}
      {passed : Bool} (hcode : body.method.hasCode = true)
      (h : RunsWhole context body current deliveries passed) :
      Leads context (.runMethod body) current deliveries none
  | runClass {cls : ClassBody} {current last : Option Progress} {deliveries : List Delivery}
      (h : RunsMethods context cls.methods current deliveries last) :
      Leads context (.runClass cls) current deliveries last

/-- An operation, the context it sees and the memo it finds. Others may have changed both. -/
structure Turn where
  operation : Operation
  context : Context
  memo : Memo

/-- The same for operations one after another. -/
inductive Turn.Lead : List Turn → Option Progress → List Delivery → Option Progress → Prop where
  | nil {current : Option Progress} : Lead [] current [] current
  | cons {turn : Turn} {turns : List Turn} {current next last : Option Progress}
      {deliveries more : List Delivery}
      (hturn : turn.operation.Leads turn.context current deliveries next)
      (hrest : Lead turns next more last) : Lead (turn :: turns) current (deliveries ++ more) last

/-- All that was handed over are these deliveries, and each is about its method. -/
def Accounted (deliveries : List Delivery) (flushes : List Flush) : Prop :=
  flushes = deliveries.map Delivery.flush ∧
    ∀ delivery ∈ deliveries, delivery.batch.ReportsOn delivery.body delivery.visited

namespace Accounted

theorem nil : Accounted [] [] :=
  ⟨rfl, by simp⟩

theorem append {first second : List Delivery} {flushes more : List Flush}
    (hfirst : Accounted first flushes) (hsecond : Accounted second more) :
    Accounted (first ++ second) (flushes ++ more) := by
  refine ⟨?_, List.forall_mem_append.mpr ⟨hfirst.2, hsecond.2⟩⟩
  rw [hfirst.1, hsecond.1, List.map_append]

theorem deliver (context : Context) {progress : Progress} {batch : Batch}
    (h : batch.ReportsOn progress.body progress.visited) :
    Accounted [progress.deliver context batch] [(batch, context.accept batch)] :=
  ⟨rfl, List.forall_mem_singleton.mpr h⟩

end Accounted

namespace Detector

variable {context : Context} {detector : Detector} {current : Option Progress}

/-- The detector is new, or the events in its log come from the instructions visited so far. -/
inductive Carries : Option Progress → Detector → Prop where
  | idle : Carries none {}
  | scanning {body : MethodBody} {visited : List Instruction} {flow : FlowLog}
      (hspans : ∀ instruction ∈ visited, body.spans instruction.offset = true)
      (hevents : InOrder ThrowEvent.offset visited flow.events) :
      Carries (some { body, visited }) (scanning body flow)

theorem Carries.current_eq (h : Carries current detector) :
    detector.current = current.map Progress.body := by
  cases h <;> rfl

theorem Carries.settled (h : Carries current detector) : detector.Settled := by
  cases h with
  | idle => exact .idle
  | scanning => exact .scanning _ _

variable {answers : ClassName → Option Lineage → Prop} {flushes : List Flush}

theorem Reported.runsWhole {body : MethodBody} {result : Except Failure Nat}
    (h : Reported context body result flushes) :
    ∃ deliveries, RunsWhole context body none deliveries result.isOk ∧
      Accounted deliveries flushes := by
  cases h with
  | stray hstray => exact ⟨[], .stray hstray, .nil⟩
  | @done batch hstray hbatch =>
      have hpassed : ((context.accept batch).map fun _ => batch.size).isOk =
          (context.accept batch).isOk := by
        cases context.accept batch <;> rfl
      rw [hpassed]
      exact ⟨_, .done hstray, .deliver context hbatch⟩

theorem Handed.runsWhole (h : Carries current detector) {body : MethodBody} {reply : Reply Nat}
    (hbody : Handed context (context.Raised answers) detector body reply flushes) :
    ∃ deliveries, RunsWhole context body current deliveries reply.result.isOk ∧
      Accounted deliveries flushes := by
  cases hbody with
  | ran hdetector hran =>
      subst hdetector
      cases h
      exact hran.reported.runsWhole
  | busy hdetector hreply hflushes =>
      subst hdetector hreply hflushes
      cases h
      exact ⟨[], .busy, .nil⟩

theorem HandedAll.runsMethods (h : Carries current detector) {tally : Tally}
    {bodies : List MethodBody} {reply : Reply Tally}
    (hmethods : HandedAll context (context.Raised answers) detector tally bodies reply flushes) :
    ∃ deliveries last, RunsMethods context bodies current deliveries last ∧
      Carries last reply.detector ∧ Accounted deliveries flushes := by
  induction hmethods generalizing current with
  | nil => exact ⟨[], current, .nil, h, .nil⟩
  | skip hcode _ ih =>
      obtain ⟨deliveries, last, hrest, hcarries, haccounted⟩ := ih h
      exact ⟨deliveries, last, .skip hcode hrest, hcarries, haccounted⟩
  | failed hcode hbody hresult =>
      obtain ⟨deliveries, hwhole, haccounted⟩ := hbody.runsWhole h
      rw [hresult] at hwhole
      exact ⟨deliveries, none, .failed hcode hwhole, .idle, haccounted⟩
  | passed hcode hbody hresult _ ih =>
      obtain ⟨deliveries, hwhole, haccounted⟩ := hbody.runsWhole h
      obtain ⟨more, last, hrest, hcarries, hmore⟩ := ih .idle
      rw [hresult] at hwhole
      exact ⟨deliveries ++ more, last, .passed hcode hwhole hrest, hcarries,
        haccounted.append hmore⟩

/-- An operation leads to the deliveries it should lead to, whichever way it ends. -/
theorem Performs.leads (h : Carries current detector) {operation : Operation}
    {reply : Reply Answer}
    (hperforms : Performs context (context.Raised answers) detector operation reply flushes) :
    ∃ deliveries last, operation.Leads context current deliveries last ∧
      Carries last reply.detector ∧ Accounted deliveries flushes := by
  cases hperforms with
  | @started body hdetector =>
      subst hdetector
      cases h
      exact ⟨[], _, .start body, .scanning (by simp) .nil, .nil⟩
  | @startedTwice body _ _ _ hdetector =>
      subst hdetector
      cases h with
      | scanning hspans hevents =>
          exact ⟨[], _, .startBusy body _, .scanning hspans hevents, .nil⟩
  | outOfPlace hdetector hneeds =>
      subst hdetector
      cases h
      cases operation with
      | addEntry entry => exact ⟨[], none, .addEntry entry none, .idle, .nil⟩
      | step instruction => exact ⟨[], none, .stepIdle instruction, .idle, .nil⟩
      | finish => exact ⟨[], none, .finishIdle, .idle, .nil⟩
      | _ => cases hneeds
  | @entered entry _ _ _ hdetector _ =>
      subst hdetector
      cases h with
      | scanning hspans hevents =>
          exact ⟨[], _, .addEntry entry _, .scanning hspans hevents, .nil⟩
  | stepped hdetector hinside hraised =>
      subst hdetector
      cases h with
      | scanning hspans hevents =>
          refine ⟨[], _, .step hinside, .scanning ?_ ?_, .nil⟩
          · exact List.forall_mem_append.mpr ⟨hspans, List.forall_mem_singleton.mpr hinside⟩
          · exact hevents.append (.singleton hraised.inOrder)
  | strayed hdetector hinside =>
      subst hdetector
      cases h with
      | scanning hspans hevents =>
          exact ⟨[], _, .stepStray hinside, .scanning hspans hevents, .nil⟩
  | finished hdetector =>
      subst hdetector
      cases h with
      | scanning hspans hevents =>
          have hreports := FlowLog.batch_reportsOn hspans hevents
          exact ⟨_, none, .finish _ _, .idle, .deliver context hreports⟩
  | reset => exact ⟨[], none, .reset current, .idle, .nil⟩
  | noCode hcode => exact ⟨[], current, .noCode hcode current, h, .nil⟩
  | ranMethod hcode hbody =>
      obtain ⟨deliveries, hwhole, haccounted⟩ := hbody.runsWhole h
      refine ⟨deliveries, none, .runMethod hcode hwhole, ?_, haccounted⟩
      rw [Reply.map, hbody.detector_eq]
      exact .idle
  | ranClass hmethods =>
      obtain ⟨deliveries, last, hleads, hcarries, haccounted⟩ := hmethods.runsMethods h
      exact ⟨deliveries, last, .runClass hleads, hcarries, haccounted⟩

theorem apply_leads (context : Context) (h : Carries current detector) (operation : Operation) :
    (detector.apply context operation).Always fun reply flushes =>
      ∃ deliveries last, operation.Leads context current deliveries last ∧
        Carries last reply.detector ∧ Accounted deliveries flushes :=
  (apply_performs context.resolves_named h.settled operation).mono fun _ _ hperforms =>
    hperforms.leads h

/-- The detector after some turns, and what was emitted in them. -/
def session (detector : Detector) : List Turn → Detector × List Emission
  | [] => (detector, [])
  | turn :: turns =>
    let outcome := (detector.apply turn.context turn.operation).run turn.memo
    let rest := outcome.value.detector.session turns
    (rest.1, outcome.emitted ++ rest.2)

/-- A whole run leads to the deliveries that its operations lead to, one after another. -/
theorem session_leads (h : Carries current detector) (turns : List Turn) :
    ∃ deliveries last, Turn.Lead turns current deliveries last ∧
      Carries last (detector.session turns).1 ∧
      Accounted deliveries ((detector.session turns).2.filterMap Emission.flush?) := by
  induction turns generalizing current detector with
  | nil => exact ⟨[], current, .nil, h, .nil⟩
  | cons turn turns ih =>
      obtain ⟨deliveries, next, hturn, hcarries, haccounted⟩ :=
        (apply_leads turn.context h turn.operation turn.memo trivial).2
      obtain ⟨more, last, hrest, hlast, hmore⟩ := ih hcarries
      refine ⟨deliveries ++ more, last, .cons hturn hrest, hlast, ?_⟩
      unfold session
      rw [List.filterMap_append]
      exact haccounted.append hmore

end Detector

open Detector

/-- Whatever is asked of a detector, and whatever others do in between, what it hands over are the
deliveries that the operations lead to, and no others. Each is about the method that was started,
its findings are in the order of the instructions, and a ledger keeps those that were taken and are
not empty. -/
theorem session_deliveries (turns : List Turn) :
    ∃ deliveries last, Turn.Lead turns none deliveries last ∧
      (session {} turns).2.filterMap Emission.flush? = deliveries.map Delivery.flush ∧
      (∀ delivery ∈ deliveries, delivery.batch.ReportsOn delivery.body delivery.visited) ∧
      (session {} turns).1.current = last.map Progress.body ∧
      (({} : Ledger).recordAll (session {} turns).2).batches =
        (deliveries.filter Delivery.isKept).map Delivery.batch ∧
      ∀ batch ∈ (({} : Ledger).recordAll (session {} turns).2).batches,
        batch.findings ≠ [] := by
  obtain ⟨deliveries, last, hleads, hcarries, hflushes, hreports⟩ := session_leads .idle turns
  have hbatches : (({} : Ledger).recordAll (session {} turns).2).batches =
      (deliveries.filter Delivery.isKept).map Delivery.batch := by
    rw [Ledger.batches_recordAll, Ledger.kept, hflushes, List.filter_map, List.map_map]
    rfl
  refine ⟨deliveries, last, hleads, hflushes, hreports, hcarries.current_eq, hbatches, ?_⟩
  intro batch hbatch
  rw [hbatches] at hbatch
  obtain ⟨delivery, hdelivery, rfl⟩ := List.mem_map.mp hbatch
  have hkept := (List.mem_filter.mp hdelivery).2
  simp only [Delivery.isKept, Ledger.keeps, Bool.and_eq_true, Bool.not_eq_true',
    Delivery.flush, Batch.isEmpty, List.isEmpty_eq_false_iff] at hkept
  exact hkept.2

end ExceptionFlow

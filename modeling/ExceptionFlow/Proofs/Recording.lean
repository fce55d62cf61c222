import ExceptionFlow.Proofs.Resolution
import ExceptionFlow.Proofs.Settlement
/-!
What one instruction adds to the log of a method. Recording comes down to resolving classes one
after another, so what it does is told once, for all invariants of the memo and all that is known of
the answers. From every memo that resolving leads to, the events lie between two lists: the classes
that count and resolve afresh are all there, in order, and nothing is there but classes the
instruction mentions.
-/
namespace ExceptionFlow

namespace Context

variable {context : Context}

/-- The class resolves afresh, and its lineage passes the test. -/
def surely (context : Context) (test : Lineage → Bool) (name : ClassName) : Bool :=
  (context.freshLineage? name).any test

theorem surely_eq_true_iff {test : Lineage → Bool} {name : ClassName} :
    context.surely test name = true ↔
      ∃ lineage, context.freshLineage? name = some lineage ∧ test lineage = true := by
  simp [surely, Option.any_eq_true]

theorem surely_eq_of_fresh {test : Lineage → Bool} {name : ClassName} {lineage : Lineage}
    (hfresh : context.freshLineage? name = some lineage) :
    context.surely test name = test lineage := by
  simp [surely, hfresh]

/-- The call is made on a class that is there. -/
def HasOwner (context : Context) (target : CallTarget) : Prop :=
  target.hasArrayOwner = false ∧ ∃ cls, context.source target.owner = .ok cls

/-- The declaration that a call means. Calls on arrays mean none. -/
def callee? (context : Context) (target : CallTarget) (dispatch : Dispatch) : Option Callee :=
  if target.hasArrayOwner then none
  else (Callee.resolve context.source target dispatch).toOption.join

theorem callee?_eq_some_iff {target : CallTarget} {dispatch : Dispatch} {callee : Callee} :
    context.callee? target dispatch = some callee ↔
      target.hasArrayOwner = false ∧
        Callee.resolve context.source target dispatch = .ok (some callee) := by
  unfold callee?
  cases target.hasArrayOwner with
  | true => simp
  | false => cases Callee.resolve context.source target dispatch <;> simp [Except.toOption]

/-- Lineages that become events. Along superclasses unchecked exceptions do not, nor do throws of
classes that are no exceptions. -/
def counts (context : Context) : InstructionKind → Lineage → Bool
  | .athrow _, lineage => !context.usesHierarchy || (lineage.canBeThrown && !lineage.isUnchecked)
  | _, lineage => !context.usesHierarchy || !lineage.isUnchecked

def handsOn (context : Context) (call : Option (ClassName × String)) : Bool :=
  call.any fun call => context.usesHierarchy && context.config.isIdiom call.1 call.2

theorem handsOn_textual (hmode : context.usesHierarchy = false)
    (call : Option (ClassName × String)) : context.handsOn call = false := by
  simp [handsOn, hmode]

/-- The classes that an instruction may cause events of, in order, after the given call. -/
def mentioned (context : Context) (call : Option (ClassName × String)) :
    InstructionKind → List ClassName
  | .athrow stackTop =>
    if context.handsOn call then [] else (stackTop.bind ClassName.ofSignature?).toList
  | .invoke target dispatch =>
    match context.callee? target dispatch with
    | some callee => callee.method.throwsClause.entries
    | none => []
  | _ => []

/-- The call that is kept in mind after an instruction. -/
def callAfter (context : Context) (call : Option (ClassName × String)) :
    InstructionKind → Option (ClassName × String)
  | .checkCast _ => call
  | .invoke target dispatch =>
    (context.callee? target dispatch).map fun callee => (callee.owner, callee.method.name)
  | _ => none

/-- What can be left of a list of names when the unchecked ones are taken out. -/
structure Retains (context : Context) (names kept : List ClassName) : Prop where
  sublist : kept.Sublist names
  checked : ∀ name ∈ kept, ∀ lineage, context.freshLineage? name = some lineage →
    (!context.usesHierarchy || !lineage.isUnchecked) = true
  complete : (names.filter (context.surely fun lineage =>
    !context.usesHierarchy || !lineage.isUnchecked)).Sublist kept

/-- The lineages that names can resolve to, one after another. -/
structure Resolved (context : Context) (names : List ClassName) (lineages : List Lineage) :
    Prop where
  admitted : ∀ lineage ∈ lineages, context.Admits lineage
  sublist : (lineages.map Lineage.name).Sublist names
  complete : (names.filter (context.surely fun _ => true)).Sublist (lineages.map Lineage.name)

/-- The events that an instruction can add after the given call. -/
structure Raises (context : Context) (call : Option (ClassName × String))
    (instruction : Instruction) (events : List ThrowEvent) : Prop where
  offset : ∀ event ∈ events, event.offset = instruction.offset
  admitted : ∀ event ∈ events, context.Admits event.exception
  thrown : ∀ stackTop, instruction.kind = .athrow stackTop →
    ∀ event ∈ events, context.counts instruction.kind event.exception = true
  fresh : ∀ event ∈ events, ∀ lineage,
    context.freshLineage? event.exception.name = some lineage →
      context.counts instruction.kind lineage = true
  sublist : (events.map fun event => event.exception.name).Sublist
    (context.mentioned call instruction.kind)
  complete : ((context.mentioned call instruction.kind).filter
    (context.surely (context.counts instruction.kind))).Sublist
      (events.map fun event => event.exception.name)

theorem Raises.nil {call : Option (ClassName × String)} {instruction : Instruction}
    (h : ∀ name ∈ context.mentioned call instruction.kind,
      context.surely (context.counts instruction.kind) name = false) :
    context.Raises call instruction [] where
  offset := by simp
  admitted := by simp
  thrown := by simp
  fresh := by simp
  sublist := List.nil_sublist _
  complete := by
    have hnil : (context.mentioned call instruction.kind).filter
        (context.surely (context.counts instruction.kind)) = [] := by
      apply List.filter_eq_nil_iff.mpr
      intro name hname
      simp [h name hname]
    rw [hnil]
    exact List.nil_sublist _

/-- What is left of names when those are taken out that resolve to unchecked exceptions. -/
inductive Sifted (answers : ClassName → Option Lineage → Prop) :
    List ClassName → List ClassName → Prop where
  | nil : Sifted answers [] []
  | keep {name : ClassName} {result : Option Lineage} {names kept : List ClassName}
      (hanswers : answers name result)
      (hchecked : ∀ lineage, result = some lineage → lineage.isUnchecked = false)
      (hrest : Sifted answers names kept) : Sifted answers (name :: names) (name :: kept)
  | drop {name : ClassName} {lineage : Lineage} {names kept : List ClassName}
      (hanswers : answers name (some lineage)) (hunchecked : lineage.isUnchecked = true)
      (hrest : Sifted answers names kept) : Sifted answers (name :: names) kept

/-- What is left of a throws clause without its unchecked exceptions. -/
inductive Sifts (context : Context) (answers : ClassName → Option Lineage → Prop)
    (names : List ClassName) : List ClassName → Prop where
  | textual (hmode : context.usesHierarchy = false) : Sifts context answers names names
  | hierarchy (hmode : context.usesHierarchy = true) {kept : List ClassName}
      (hkept : Sifted answers names kept) : Sifts context answers names kept

/-- The lineages that names resolve to, one after another. -/
inductive Traced (answers : ClassName → Option Lineage → Prop) :
    List ClassName → List Lineage → Prop where
  | nil : Traced answers [] []
  | skip {name : ClassName} {names : List ClassName} {lineages : List Lineage}
      (hanswers : answers name none) (hrest : Traced answers names lineages) :
      Traced answers (name :: names) lineages
  | take {name : ClassName} {lineage : Lineage} {names : List ClassName} {lineages : List Lineage}
      (hanswers : answers name (some lineage)) (hrest : Traced answers names lineages) :
      Traced answers (name :: names) (lineage :: lineages)

/-- The events that an instruction adds after the given call when classes resolve like this. -/
inductive Raised (context : Context) (answers : ClassName → Option Lineage → Prop)
    (call : Option (ClassName × String)) : Instruction → List ThrowEvent → Prop where
  | nothing {instruction : Instruction}
      (hmentioned : context.mentioned call instruction.kind = []) :
      Raised context answers call instruction []
  | thrown {offset : Nat} {stackTop : Option String} {name : ClassName} {result : Option Lineage}
      (hmentioned : context.mentioned call (.athrow stackTop) = [name])
      (hanswers : answers name result) :
      Raised context answers call ⟨offset, .athrow stackTop⟩
        ((result.filter (context.counts (.athrow stackTop))).toList.map fun exception =>
          { exception, offset })
  | called {offset : Nat} {target : CallTarget} {dispatch : Dispatch} {callee : Callee}
      {kept : List ClassName} {lineages : List Lineage}
      (hcallee : context.callee? target dispatch = some callee)
      (hkept : context.Sifts answers callee.method.throwsClause.entries kept)
      (hlineages : Traced answers kept lineages) :
      Raised context answers call ⟨offset, .invoke target dispatch⟩
        (lineages.map fun exception => { exception, offset })

section Resolving

variable {inv : Memo → Prop} {answers : ClassName → Option Lineage → Prop}

theorem Sifted.sublist {names kept : List ClassName} (h : Sifted answers names kept) :
    kept.Sublist names := by
  induction h with
  | nil => exact List.Sublist.slnil
  | keep _ _ _ ih => exact ih.cons_cons _
  | drop _ _ _ ih => exact ih.cons _

theorem resolve_plainly (h : context.Resolves inv answers) (name : ClassName) :
    (context.resolve name).Plainly inv fun result => answers name result.toOption :=
  fun memo hmemo =>
    ⟨h.keeps name memo hmemo, context.resolve_plain name memo, h.replies name memo hmemo⟩

theorem resolveOrRemark_plainly (h : context.Resolves inv answers) (name : ClassName) :
    (context.resolveOrRemark name).Plainly inv (answers name) := by
  unfold resolveOrRemark
  refine Action.Plainly.bind (resolve_plainly h name) ?_
  intro result hanswers
  cases result with
  | ok lineage => exact Action.Plainly.pure hanswers
  | error cause =>
      refine Action.Plainly.emit rfl (Action.Plainly.emit ?_ (Action.Plainly.pure hanswers))
      cases cause <;> rfl

theorem checkedNames_plainly (h : context.Resolves inv answers) (names : List ClassName) :
    (context.checkedNames names).Plainly inv (Sifted answers names) := by
  induction names with
  | nil => exact Action.Plainly.pure .nil
  | cons name names ih =>
      unfold checkedNames
      refine Action.Plainly.bind (resolve_plainly h name) ?_
      intro result hanswers
      refine Action.Plainly.bind ih ?_
      intro others hothers
      cases result with
      | error cause => exact Action.Plainly.pure (.keep hanswers (by rintro _ ⟨⟩) hothers)
      | ok answer =>
          refine Action.Plainly.pure ?_
          cases hunchecked : answer.isUnchecked with
          | true => exact .drop hanswers hunchecked hothers
          | false =>
              refine .keep hanswers ?_ hothers
              rintro _ ⟨⟩
              exact hunchecked

theorem withoutUnchecked_plainly (h : context.Resolves inv answers) (clause : ThrowsClause) :
    (context.withoutUnchecked clause).Plainly inv fun kept =>
      context.Sifts answers clause.entries kept.entries := by
  unfold withoutUnchecked
  cases hmode : context.usesHierarchy with
  | true =>
      simp only [if_true]
      refine Action.Plainly.bind (checkedNames_plainly h clause.entries) ?_
      intro checked hchecked
      refine Action.Plainly.pure ?_
      rw [clause.entries_filter_mem hchecked.sublist]
      exact .hierarchy hmode hchecked
  | false => exact Action.Plainly.pure (.textual hmode)

/-- Along superclasses, the names that are checked are what is left of a throws clause. -/
theorem run_withoutUnchecked (hmode : context.usesHierarchy = true) (clause : ThrowsClause)
    (memo : Memo) :
    ((context.withoutUnchecked clause).run memo).value.entries =
        ((context.checkedNames clause.entries).run memo).value ∧
      ((context.withoutUnchecked clause).run memo).memo =
        ((context.checkedNames clause.entries).run memo).memo := by
  obtain ⟨-, -, hchecked⟩ := checkedNames_plainly context.resolves_named clause.entries memo trivial
  unfold withoutUnchecked
  rw [if_pos hmode]
  exact ⟨clause.entries_filter_mem hchecked.sublist, rfl⟩

end Resolving

end Context

section Recorder

variable {context : Context} {inv : Memo → Prop} {answers : ClassName → Option Lineage → Prop}

theorem MethodDecl.readThrowsClause_plainly (method : MethodDecl) :
    method.readThrowsClause.Plainly inv (· = method.throwsClause) := by
  unfold readThrowsClause
  cases method.signatureFault? with
  | none => exact Action.Plainly.pure rfl
  | some fault => exact Action.Plainly.emit rfl (Action.Plainly.pure rfl)

theorem MethodDecl.readThrowsClause_yields (method : MethodDecl) :
    method.readThrowsClause.Yields method.throwsClause [] :=
  .of_plainly fun _ => method.readThrowsClause_plainly

namespace FlowLog

def addAll (flow : FlowLog) (events : List ThrowEvent) : FlowLog :=
  { flow with events := flow.events ++ events }

@[simp]
theorem addAll_nil (flow : FlowLog) : flow.addAll [] = flow := by
  simp [addAll]

@[simp]
theorem addAll_addAll (flow : FlowLog) (first second : List ThrowEvent) :
    (flow.addAll first).addAll second = flow.addAll (first ++ second) := by
  simp [addAll]

def afterInstruction (flow : FlowLog) (context : Context) (kind : InstructionKind)
    (events : List ThrowEvent) : FlowLog :=
  { flow.addAll events with lastCall := context.callAfter flow.lastCall kind }

theorem forgetCall_eq_afterInstruction (flow : FlowLog) {kind : InstructionKind}
    (hcall : context.callAfter flow.lastCall kind = none) :
    flow.forgetCall = flow.afterInstruction context kind [] := by
  simp [afterInstruction, forgetCall, hcall]

theorem idiomCall?_isSome (flow : FlowLog) (context : Context) :
    (flow.idiomCall? context).isSome = context.handsOn flow.lastCall := by
  unfold idiomCall? Context.handsOn
  cases flow.lastCall with
  | none => rfl
  | some call => cases hidiom : context.usesHierarchy && context.config.isIdiom call.1 call.2 <;>
      simp [hidiom]

theorem addEvent_plainly (flow : FlowLog) (event : ThrowEvent) :
    (flow.addEvent event).Plainly inv (· = flow.addAll [event]) :=
  Action.Plainly.emit rfl (Action.Plainly.pure rfl)

theorem addEvents_plainly (h : context.Resolves inv answers) (flow : FlowLog) (offset : Nat)
    (names : List ClassName) :
    (flow.addEvents context offset names).Plainly inv fun next =>
      ∃ lineages, Context.Traced answers names lineages ∧
        next = flow.addAll (lineages.map fun exception => { exception, offset }) := by
  induction names generalizing flow with
  | nil => exact Action.Plainly.pure ⟨[], .nil, by simp⟩
  | cons name names ih =>
      unfold addEvents
      refine Action.Plainly.bind (Context.resolveOrRemark_plainly h name) ?_
      intro result hanswers
      cases result with
      | none =>
          refine (ih flow).mono ?_
          rintro next ⟨lineages, hlineages, rfl⟩
          exact ⟨lineages, .skip hanswers hlineages, rfl⟩
      | some exception =>
          refine Action.Plainly.bind (flow.addEvent_plainly { exception, offset }) ?_
          rintro _ rfl
          refine (ih _).mono ?_
          rintro next ⟨lineages, hlineages, rfl⟩
          exact ⟨exception :: lineages, .take hanswers hlineages, by simp⟩

theorem addThrow_plainly (flow : FlowLog) (event : ThrowEvent) (stackTop : Option String) :
    (flow.addThrow context event).Plainly inv fun next =>
      next = flow.addAll
        (if context.counts (.athrow stackTop) event.exception then [event] else []) := by
  have hcounts : context.counts (.athrow stackTop) event.exception = (!context.usesHierarchy ||
      (event.exception.canBeThrown && !event.exception.isUnchecked)) := rfl
  unfold addThrow
  rw [hcounts]
  cases context.usesHierarchy with
  | false => exact flow.addEvent_plainly event
  | true =>
      cases event.exception.canBeThrown with
      | false => exact Action.Plainly.emit rfl (Action.Plainly.pure flow.addAll_nil.symm)
      | true =>
          cases event.exception.isUnchecked with
          | true => exact Action.Plainly.emit rfl (Action.Plainly.pure flow.addAll_nil.symm)
          | false => exact flow.addEvent_plainly event

theorem recordThrow_plainly (h : context.Resolves inv answers) (flow : FlowLog)
    (stackTop : Option String) (offset : Nat) :
    (flow.recordThrow context stackTop offset).Plainly inv fun next =>
      ∃ events, context.Raised answers flow.lastCall ⟨offset, .athrow stackTop⟩ events ∧
        next = flow.afterInstruction context (.athrow stackTop) events := by
  have hidiom := flow.idiomCall?_isSome context
  have hforgotten := flow.forgetCall_eq_afterInstruction
    (rfl : context.callAfter flow.lastCall (.athrow stackTop) = none)
  unfold recordThrow
  cases hname : stackTop.bind ClassName.ofSignature? with
  | none =>
      refine Action.Plainly.emit rfl (Action.Plainly.pure ⟨[], .nothing ?_, hforgotten⟩)
      simp [Context.mentioned, hname]
  | some name =>
      cases hcall : flow.idiomCall? context with
      | some call =>
          rw [hcall, Option.isSome_some] at hidiom
          refine Action.Plainly.emit rfl (Action.Plainly.pure ⟨[], .nothing ?_, hforgotten⟩)
          simp [Context.mentioned, ← hidiom]
      | none =>
          rw [hcall, Option.isSome_none] at hidiom
          have hmentioned : context.mentioned flow.lastCall (.athrow stackTop) = [name] := by
            simp [Context.mentioned, ← hidiom, hname]
          refine Action.Plainly.bind (Context.resolveOrRemark_plainly h name) ?_
          intro result hanswers
          refine Action.Plainly.mono ?_ fun _ hnext => ⟨_, .thrown hmentioned hanswers, hnext⟩
          cases result with
          | none => exact Action.Plainly.pure hforgotten
          | some exception =>
              refine (addThrow_plainly flow.forgetCall _ stackTop).mono ?_
              rintro _ rfl
              cases hcounts : context.counts (.athrow stackTop) exception <;>
                simp [Option.filter_some, hcounts, afterInstruction, forgetCall, addAll,
                  Context.callAfter]

theorem addCallee_plainly (h : context.Resolves inv answers) (flow : FlowLog) (callee : Callee)
    (offset : Nat) :
    (flow.addCallee context callee offset).Plainly inv fun next =>
      ∃ kept lineages, context.Sifts answers callee.method.throwsClause.entries kept ∧
        Context.Traced answers kept lineages ∧
        next = { flow.addAll (lineages.map fun exception => { exception, offset }) with
          lastCall := some (callee.owner, callee.method.name) } := by
  refine Action.Plainly.bind callee.method.readThrowsClause_plainly ?_
  rintro _ rfl
  refine Action.Plainly.bind (Context.withoutUnchecked_plainly h _) ?_
  intro kept hkept
  refine Action.Plainly.bind (flow.addEvents_plainly h offset kept.entries) ?_
  rintro _ ⟨lineages, hlineages, rfl⟩
  exact Action.Plainly.pure ⟨kept.entries, lineages, hkept, hlineages, rfl⟩

theorem recordCall_plainly (h : context.Resolves inv answers) (flow : FlowLog)
    (target : CallTarget) (dispatch : Dispatch) (offset : Nat) :
    (flow.recordCall context target dispatch offset).Plainly inv fun next =>
      ∃ events, context.Raised answers flow.lastCall ⟨offset, .invoke target dispatch⟩ events ∧
        next = flow.afterInstruction context (.invoke target dispatch) events := by
  have hnone : context.callee? target dispatch = none →
      ∃ events, context.Raised answers flow.lastCall ⟨offset, .invoke target dispatch⟩ events ∧
        flow.forgetCall = flow.afterInstruction context (.invoke target dispatch) events := by
    intro hcallee
    refine ⟨[], .nothing ?_, flow.forgetCall_eq_afterInstruction ?_⟩
    · simp [Context.mentioned, hcallee]
    · simp [Context.callAfter, hcallee]
  unfold recordCall
  cases harray : target.hasArrayOwner with
  | true => exact Action.Plainly.pure (hnone (by simp [Context.callee?, harray]))
  | false =>
      simp only [Bool.false_eq_true, if_false]
      cases hresolve : Callee.resolve context.source target dispatch with
      | error cause =>
          have hcallee : context.callee? target dispatch = none := by
            simp [Context.callee?, harray, hresolve, Except.toOption]
          refine Action.Plainly.emit rfl
            (Action.Plainly.emit ?_ (Action.Plainly.pure (hnone hcallee)))
          cases cause <;> rfl
      | ok found =>
          have hcallee : context.callee? target dispatch = found := by
            simp [Context.callee?, harray, hresolve, Except.toOption]
          cases found with
          | none => exact Action.Plainly.emit rfl (Action.Plainly.pure (hnone hcallee))
          | some callee =>
              refine (flow.forgetCall.addCallee_plainly h callee offset).mono ?_
              rintro _ ⟨kept, lineages, hkept, hlineages, rfl⟩
              refine ⟨_, .called hcallee hkept hlineages, ?_⟩
              simp [afterInstruction, forgetCall, addAll, Context.callAfter, hcallee]

/-- An instruction adds the events it raises, sets the call kept in mind and leaves the rest. -/
theorem recordInstruction_plainly (h : context.Resolves inv answers) (flow : FlowLog)
    (instruction : Instruction) :
    (flow.recordInstruction context instruction).Plainly inv fun next =>
      ∃ events, context.Raised answers flow.lastCall instruction events ∧
        next = flow.afterInstruction context instruction.kind events := by
  obtain ⟨offset, kind⟩ := instruction
  cases kind with
  | athrow stackTop => exact flow.recordThrow_plainly h stackTop offset
  | invoke target dispatch => exact flow.recordCall_plainly h target dispatch offset
  | checkCast target =>
      refine Action.Plainly.emit rfl (Action.Plainly.pure ⟨[], .nothing rfl, ?_⟩)
      simp [afterInstruction, Context.callAfter]
  | store slot | load slot | ret | other =>
      exact Action.Plainly.pure ⟨[], .nothing rfl, flow.forgetCall_eq_afterInstruction rfl⟩

/-- A row of the exception table adds one region, which is made from the row. -/
theorem recordEntry_plainly (h : context.Resolves inv answers) (flow : FlowLog)
    (entry : TableEntry) :
    (flow.recordEntry context entry).Plainly inv fun next =>
      ∃ region, region.row = entry ∧ next = { flow with regions := flow.regions ++ [region] } := by
  obtain ⟨start, stop, handler, catchType⟩ := entry
  unfold recordEntry caughtBy
  cases catchType with
  | none =>
      rw [pure_bind]
      exact Action.Plainly.emit rfl (Action.Plainly.pure ⟨_, rfl, rfl⟩)
  | some name =>
      simp only [bind_assoc, pure_bind]
      refine Action.Plainly.bind (Context.resolveOrRemark_plainly h name) ?_
      intro result hanswers
      refine Action.Plainly.emit rfl (Action.Plainly.pure ⟨_, ?_, rfl⟩)
      cases result with
      | none => rfl
      | some lineage =>
          obtain rfl := h.named name lineage hanswers
          rfl

/-- The change of a log concerns neither its events nor the call kept in mind, so recording does not
see it. -/
structure Unseen (change : FlowLog → FlowLog) : Prop where
  lastCall : ∀ flow, (change flow).lastCall = flow.lastCall
  addAll : ∀ flow events, change (flow.addAll events) = (change flow).addAll events
  calling : ∀ flow call, change { flow with lastCall := call } =
    { change flow with lastCall := call }

namespace Unseen

variable {change : FlowLog → FlowLog}

theorem addEvent (h : Unseen change) (flow : FlowLog) (event : ThrowEvent) :
    (change flow).addEvent event = change <$> flow.addEvent event := by
  have hadd : ∀ flow : FlowLog, flow.addEvent event = (do
      Action.log (.thrown event)
      return flow.addAll [event]) := fun _ => rfl
  rw [hadd, hadd, ← h.addAll]
  simp only [map_bind, map_pure]

theorem addThrow (h : Unseen change) (flow : FlowLog) (event : ThrowEvent) :
    (change flow).addThrow context event = change <$> flow.addThrow context event := by
  unfold FlowLog.addThrow
  split
  · simp only [map_bind, map_pure]
  · split
    · simp only [map_bind, map_pure]
    · exact h.addEvent flow event

theorem recordThrow (h : Unseen change) (flow : FlowLog) (stackTop : Option String)
    (offset : Nat) :
    (change flow).recordThrow context stackTop offset =
      change <$> flow.recordThrow context stackTop offset := by
  have hforget : (change flow).forgetCall = change flow.forgetCall := (h.calling flow none).symm
  have hidiom : (change flow).idiomCall? context = flow.idiomCall? context := by
    unfold idiomCall?
    rw [h.lastCall]
  unfold FlowLog.recordThrow
  rw [hidiom, hforget]
  cases stackTop.bind ClassName.ofSignature? with
  | none => simp only [map_bind, map_pure]
  | some name =>
      cases flow.idiomCall? context with
      | some call => simp only [map_bind, map_pure]
      | none =>
          simp only [addNamedThrow, map_bind]
          congr
          funext resolved
          cases resolved with
          | none => exact (map_pure _ _).symm
          | some exception => exact h.addThrow flow.forgetCall _

theorem addEvents (h : Unseen change) (flow : FlowLog) (offset : Nat) (names : List ClassName) :
    (change flow).addEvents context offset names =
      change <$> flow.addEvents context offset names := by
  induction names generalizing flow with
  | nil => exact (map_pure _ _).symm
  | cons name names ih =>
      simp only [FlowLog.addEvents, map_bind]
      congr
      funext resolved
      cases resolved with
      | none => exact ih flow
      | some exception =>
          simp only [h.addEvent, bind_map_left, map_bind]
          congr
          funext next
          exact ih next

theorem recordCall (h : Unseen change) (flow : FlowLog) (target : CallTarget)
    (dispatch : Dispatch) (offset : Nat) :
    (change flow).recordCall context target dispatch offset =
      change <$> flow.recordCall context target dispatch offset := by
  have hforget : (change flow).forgetCall = change flow.forgetCall := (h.calling flow none).symm
  unfold FlowLog.recordCall
  rw [hforget]
  split
  · exact (map_pure _ _).symm
  · cases Callee.resolve context.source target dispatch with
    | error cause => simp only [map_bind, map_pure]
    | ok found =>
        cases found with
        | none => simp only [map_bind, map_pure]
        | some callee =>
            simp only [addCallee, h.addEvents, map_bind, bind_map_left, map_pure, ← h.calling]

theorem recordInstruction (h : Unseen change) (flow : FlowLog) (instruction : Instruction) :
    (change flow).recordInstruction context instruction =
      change <$> flow.recordInstruction context instruction := by
  have hforget : pure (change flow).forgetCall =
      change <$> (pure flow.forgetCall : Action FlowLog) := by
    rw [map_pure]
    exact congrArg pure (h.calling flow none).symm
  obtain ⟨offset, kind⟩ := instruction
  cases kind with
  | athrow stackTop => exact h.recordThrow flow stackTop offset
  | invoke target dispatch => exact h.recordCall flow target dispatch offset
  | checkCast target => simp only [FlowLog.recordInstruction, map_bind, map_pure]
  | store slot | load slot | ret | other => exact hforget

end Unseen

end FlowLog

end Recorder

namespace Context

variable {context : Context}

theorem Sifted.retains (hmode : context.usesHierarchy = true) {names kept : List ClassName}
    (h : Sifted context.Answers names kept) : context.Retains names kept := by
  induction h with
  | nil => exact ⟨List.Sublist.slnil, by simp, List.Sublist.slnil⟩
  | @keep name result names kept hanswers hchecked _ ih =>
      refine ⟨ih.sublist.cons_cons name, ?_, ?_⟩
      · refine List.forall_mem_cons.mpr ⟨?_, ih.checked⟩
        intro lineage hlineage
        simp [hchecked lineage (hanswers.complete lineage hlineage)]
      · rw [List.filter_cons]
        split
        · exact ih.complete.cons_cons name
        · exact ih.complete.cons name
  | @drop name answer names kept hanswers hunchecked _ ih =>
      refine ⟨ih.sublist.cons name, ih.checked, ?_⟩
      rw [List.filter_cons_of_neg]
      · exact ih.complete
      · rw [surely_eq_true_iff]
        rintro ⟨lineage, hlineage, htest⟩
        rw [← Option.some.inj (hanswers.complete lineage hlineage), hmode, hunchecked] at htest
        cases htest

theorem Sifts.retains {names kept : List ClassName} (h : context.Sifts context.Answers names kept) :
    context.Retains names kept := by
  cases h with
  | hierarchy hmode hkept => exact hkept.retains hmode
  | textual hmode =>
      refine ⟨List.Sublist.refl _, ?_, List.filter_sublist⟩
      intro name _ lineage _
      rw [hmode]
      rfl

theorem Traced.resolved {names : List ClassName} {lineages : List Lineage}
    (h : Traced context.Answers names lineages) : context.Resolved names lineages := by
  induction h with
  | nil => exact ⟨by simp, List.Sublist.slnil, List.Sublist.slnil⟩
  | @skip name names lineages hanswers _ ih =>
      refine ⟨ih.admitted, ih.sublist.cons name, ?_⟩
      rw [List.filter_cons_of_neg]
      · exact ih.complete
      · rw [surely_eq_true_iff]
        rintro ⟨lineage, hlineage, -⟩
        cases hanswers.complete lineage hlineage
  | @take name lineage names lineages hanswers _ ih =>
      obtain ⟨rfl, hadmits⟩ := hanswers.sound lineage rfl
      refine ⟨List.forall_mem_cons.mpr ⟨hadmits, ih.admitted⟩, ih.sublist.cons_cons _, ?_⟩
      rw [List.filter_cons, List.map_cons]
      split
      · exact ih.complete.cons_cons _
      · exact ih.complete.cons _

/-- The event of a throw is what its class resolves to, if that counts. -/
theorem raises_of_throw {call : Option (ClassName × String)} {stackTop : Option String}
    {name : ClassName} {result : Option Lineage}
    (hmentioned : context.mentioned call (.athrow stackTop) = [name])
    (hanswers : context.Answers name result) (offset : Nat) :
    context.Raises call ⟨offset, .athrow stackTop⟩
      ((result.filter (context.counts (.athrow stackTop))).toList.map fun exception =>
        { exception, offset }) := by
  have hsilent : (∀ lineage, result = some lineage →
      context.counts (.athrow stackTop) lineage = false) →
      context.Raises call ⟨offset, .athrow stackTop⟩ [] := by
    intro hnone
    refine .nil ?_
    rw [hmentioned]
    intro other hother
    obtain rfl := List.mem_singleton.mp hother
    rw [Bool.eq_false_iff, ne_eq, Context.surely_eq_true_iff]
    rintro ⟨lineage, hlineage, htest⟩
    rw [hnone lineage (hanswers.complete lineage hlineage)] at htest
    cases htest
  cases result with
  | none => exact hsilent (by simp)
  | some exception =>
      obtain ⟨rfl, hadmits⟩ := hanswers.sound exception rfl
      have hfresh : ∀ lineage, context.freshLineage? exception.name = some lineage →
          exception = lineage :=
        fun lineage hlineage => Option.some.inj (hanswers.complete lineage hlineage)
      cases hcounts : context.counts (.athrow stackTop) exception with
      | false =>
          rw [Option.filter_some, hcounts]
          exact hsilent (by simpa using hcounts)
      | true =>
          rw [Option.filter_some, hcounts]
          constructor
          · simp
          · simpa using hadmits
          · simpa using hcounts
          · intro event hevent lineage hlineage
            obtain rfl : event = { exception, offset } := List.mem_singleton.mp hevent
            rw [← hfresh lineage hlineage]
            exact hcounts
          · rw [hmentioned]
            exact List.Sublist.refl _
          · rw [hmentioned]
            exact List.filter_sublist

/-- The events of a callee are the names of its clause that both passes, the one that takes out
unchecked exceptions and the one that resolves the rest, let through. -/
theorem raises_of_callee {call : Option (ClassName × String)} {target : CallTarget}
    {dispatch : Dispatch} {callee : Callee} {kept : List ClassName} {lineages : List Lineage}
    (hcallee : context.callee? target dispatch = some callee)
    (hkept : context.Retains callee.method.throwsClause.entries kept)
    (hlineages : context.Resolved kept lineages) (offset : Nat) :
    context.Raises call ⟨offset, .invoke target dispatch⟩
      (lineages.map fun exception => { exception, offset }) := by
  have hnames : (lineages.map fun exception => ({ exception, offset } : ThrowEvent)).map
      (fun event => event.exception.name) = lineages.map Lineage.name := by
    simp
  have hmentioned : context.mentioned call (.invoke target dispatch) =
      callee.method.throwsClause.entries := by
    simp [Context.mentioned, hcallee]
  constructor
  · simp
  · simpa using hlineages.admitted
  · intro stackTop hkind
    cases hkind
  · intro event hevent lineage hlineage
    obtain ⟨exception, hexception, rfl⟩ := List.mem_map.mp hevent
    have hmem : exception.name ∈ kept :=
      hlineages.sublist.subset (List.mem_map_of_mem hexception)
    exact hkept.checked exception.name hmem lineage hlineage
  · rw [hnames, hmentioned]
    exact hlineages.sublist.trans hkept.sublist
  · rw [hnames, hmentioned]
    -- what counts resolves, so the second pass loses none of it
    have hresolves := hkept.complete.filter (context.surely fun _ => true)
    rw [List.filter_filter] at hresolves
    have hsame : callee.method.throwsClause.entries.filter
          (context.surely (context.counts (.invoke target dispatch))) =
        callee.method.throwsClause.entries.filter fun name =>
          context.surely (fun _ => true) name && context.surely (fun lineage =>
            !context.usesHierarchy || !lineage.isUnchecked) name := by
      apply List.filter_congr
      intro name _
      cases hfresh : context.freshLineage? name <;> simp [Context.surely, hfresh, Context.counts]
    rw [hsame]
    exact hresolves.trans hlineages.complete

theorem Raised.raises {call : Option (ClassName × String)} {instruction : Instruction}
    {events : List ThrowEvent} (h : context.Raised context.Answers call instruction events) :
    context.Raises call instruction events := by
  cases h with
  | nothing hmentioned => exact .nil (by simp [hmentioned])
  | thrown hmentioned hanswers => exact raises_of_throw hmentioned hanswers _
  | called hcallee hkept hlineages =>
      exact raises_of_callee hcallee hkept.retains hlineages.resolved _

end Context

theorem FlowLog.recordInstruction_quietly {context : Context} (flow : FlowLog)
    (instruction : Instruction) :
    (flow.recordInstruction context instruction).Quietly (Memo.Reachable context) fun next =>
      ∃ events, context.Raises flow.lastCall instruction events ∧
        next = flow.afterInstruction context instruction.kind events := by
  refine (flow.recordInstruction_plainly context.resolves_reachable instruction).quietly.mono ?_
  rintro next ⟨events, hraised, hnext⟩
  exact ⟨events, hraised.raises, hnext⟩

end ExceptionFlow

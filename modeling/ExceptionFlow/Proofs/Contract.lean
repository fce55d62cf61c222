import ExceptionFlow.Context
/-!
Contracts of actions. An action takes a memo with some invariant into another one that has it; a
contract adds what holds of its value and of the batches that it hands over. Actions that take down
a log are plain besides: they hand over nothing and say nothing about dead catch variables.
-/
namespace ExceptionFlow

/-- A batch that was handed over, and whether it was taken. -/
abbrev Flush : Type :=
  Batch × Except Failure Unit

def Emission.batch? : Emission → Option Batch
  | .flush batch _ => some batch
  | _ => none

def Emission.flush? : Emission → Option Flush
  | .flush batch verdict => some (batch, verdict)
  | _ => none

/-- The remark comes from the check for dead catch variables. -/
def Remark.isDeadCatch : Remark → Bool
  | .skippedAnalysis _ _ => true
  | .mishap (.checkingDeadStore _ _) => true
  | _ => false

def Emission.isPlain : Emission → Bool
  | .log (.deadStore _ _ _) => false
  | .log (.methodDone _ _ _ _ _) => false
  | .log _ => true
  | .remark said => !said.isDeadCatch
  | .flush _ _ => false

namespace Outcome

variable {α : Type}

def batches (outcome : Outcome α) : List Batch :=
  outcome.emitted.filterMap Emission.batch?

def flushes (outcome : Outcome α) : List Flush :=
  outcome.emitted.filterMap Emission.flush?

theorem map_flushes (outcome : Outcome α) : outcome.flushes.map Prod.fst = outcome.batches := by
  unfold flushes batches
  rw [List.map_filterMap]
  congr 1
  funext emission
  cases emission <;> rfl

theorem flushes_eq_nil {outcome : Outcome α}
    (h : ∀ emission ∈ outcome.emitted, emission.isPlain = true) : outcome.flushes = [] := by
  apply List.filterMap_eq_nil_iff.mpr
  intro emission hemission
  cases emission with
  | flush batch verdict => cases h _ hemission
  | _ => rfl

end Outcome

/-- The memos that resolving classes leads to, in any number and order. -/
inductive Memo.Reachable (context : Context) : Memo → Prop where
  | empty : Reachable context {}
  | resolve {memo : Memo} (hmemo : Reachable context memo) (name : ClassName) :
      Reachable context ((context.resolve name).run memo).memo

namespace Action

variable {α β : Type} {inv : Memo → Prop}

/-- From every memo with the invariant the action comes to another one, and `post` holds of its
value and of what it hands over. -/
def Ensures (inv : Memo → Prop) (action : Action α) (post : α → List Flush → Prop) : Prop :=
  ∀ memo, inv memo →
    inv (action.run memo).memo ∧ post (action.run memo).value (action.run memo).flushes

/-- A contract of an action that hands over no batch. -/
def Quietly (inv : Memo → Prop) (action : Action α) (post : α → Prop) : Prop :=
  action.Ensures inv fun value flushes => flushes = [] ∧ post value

/-- A contract of an action all of whose emissions are plain. -/
def Plainly (inv : Memo → Prop) (action : Action α) (post : α → Prop) : Prop :=
  ∀ memo, inv memo →
    inv (action.run memo).memo ∧
      (∀ emission ∈ (action.run memo).emitted, emission.isPlain = true) ∧
      post (action.run memo).value

/-- A contract that asks nothing of the memo. -/
abbrev Always (action : Action α) (post : α → List Flush → Prop) : Prop :=
  action.Ensures (fun _ => True) post

theorem flushes_bind (action : Action α) (next : α → Action β) (memo : Memo) :
    ((action >>= next).run memo).flushes =
      (action.run memo).flushes ++
        ((next (action.run memo).value).run (action.run memo).memo).flushes := by
  simp [Outcome.flushes]

theorem Ensures.pure {post : α → List Flush → Prop} {value : α} (h : post value []) :
    (Pure.pure value : Action α).Ensures inv post :=
  fun _ hmemo => ⟨hmemo, h⟩

theorem Ensures.mono {action : Action α} {post weaker : α → List Flush → Prop}
    (h : action.Ensures inv post)
    (hpost : ∀ value flushes, post value flushes → weaker value flushes) :
    action.Ensures inv weaker := by
  intro memo hmemo
  obtain ⟨hnext, hvalue⟩ := h memo hmemo
  exact ⟨hnext, hpost _ _ hvalue⟩

theorem Ensures.bind {action : Action α} {next : α → Action β} {middle : α → List Flush → Prop}
    {post : β → List Flush → Prop} (hfirst : action.Ensures inv middle)
    (hnext : ∀ value flushes, middle value flushes →
      (next value).Ensures inv fun result more => post result (flushes ++ more)) :
    (action >>= next).Ensures inv post := by
  intro memo hmemo
  obtain ⟨hmiddle, hvalue⟩ := hfirst memo hmemo
  obtain ⟨hlast, hresult⟩ := hnext _ _ hvalue _ hmiddle
  refine ⟨hlast, ?_⟩
  rw [flushes_bind]
  exact hresult

/-- What is made of the value at the end hands over nothing more. -/
theorem Ensures.map {action : Action α} {f : α → β} {middle : α → List Flush → Prop}
    {post : β → List Flush → Prop} (h : action.Ensures inv middle)
    (hpost : ∀ value flushes, middle value flushes → post (f value) flushes) :
    (action >>= fun value => Pure.pure (f value)).Ensures inv post := by
  refine Ensures.bind h ?_
  intro value flushes hvalue
  refine Ensures.pure ?_
  rw [List.append_nil]
  exact hpost value flushes hvalue

theorem Quietly.pure {post : α → Prop} {value : α} (h : post value) :
    (Pure.pure value : Action α).Quietly inv post :=
  Ensures.pure ⟨rfl, h⟩

theorem Quietly.mono {action : Action α} {post weaker : α → Prop}
    (h : action.Quietly inv post) (hpost : ∀ value, post value → weaker value) :
    action.Quietly inv weaker :=
  Ensures.mono h fun value _ hvalue => ⟨hvalue.1, hpost value hvalue.2⟩

theorem Quietly.bind {action : Action α} {next : α → Action β} {middle : α → Prop}
    {post : β → List Flush → Prop} (hfirst : action.Quietly inv middle)
    (hnext : ∀ value, middle value → (next value).Ensures inv post) :
    (action >>= next).Ensures inv post := by
  refine Ensures.bind hfirst ?_
  rintro value flushes ⟨rfl, hvalue⟩
  exact hnext value hvalue

theorem Plainly.quietly {action : Action α} {post : α → Prop} (h : action.Plainly inv post) :
    action.Quietly inv post := by
  intro memo hmemo
  obtain ⟨hnext, hplain, hvalue⟩ := h memo hmemo
  exact ⟨hnext, Outcome.flushes_eq_nil hplain, hvalue⟩

theorem Plainly.pure {post : α → Prop} {value : α} (h : post value) :
    (Pure.pure value : Action α).Plainly inv post :=
  fun _ hmemo => ⟨hmemo, by simp, h⟩

theorem Plainly.mono {action : Action α} {post weaker : α → Prop} (h : action.Plainly inv post)
    (hpost : ∀ value, post value → weaker value) : action.Plainly inv weaker := by
  intro memo hmemo
  obtain ⟨hnext, hplain, hvalue⟩ := h memo hmemo
  exact ⟨hnext, hplain, hpost _ hvalue⟩

theorem Plainly.bind {action : Action α} {next : α → Action β} {middle : α → Prop}
    {post : β → Prop} (hfirst : action.Plainly inv middle)
    (hnext : ∀ value, middle value → (next value).Plainly inv post) :
    (action >>= next).Plainly inv post := by
  intro memo hmemo
  obtain ⟨hmiddle, hplain, hvalue⟩ := hfirst memo hmemo
  obtain ⟨hlast, hmore, hresult⟩ := hnext _ hvalue _ hmiddle
  exact ⟨hlast, List.forall_mem_append.mpr ⟨hplain, hmore⟩, hresult⟩

theorem Plainly.emit {emission : Emission} (h : emission.isPlain = true) {next : Unit → Action α}
    {post : α → Prop} (hnext : (next ()).Plainly inv post) :
    (Action.emit emission >>= next).Plainly inv post := by
  intro memo hmemo
  obtain ⟨hlast, hmore, hresult⟩ := hnext memo hmemo
  exact ⟨hlast, List.forall_mem_cons.mpr ⟨h, hmore⟩, hresult⟩

/-- The action comes to this value and hands over these batches whatever the memo, which it leaves
as it is. -/
def Yields (action : Action α) (value : α) (flushes : List Flush) : Prop :=
  ∀ memo, (action.run memo).value = value ∧ (action.run memo).memo = memo ∧
    (action.run memo).flushes = flushes

theorem Yields.pure (value : α) : (Pure.pure value : Action α).Yields value [] :=
  fun _ => ⟨rfl, rfl, rfl⟩

theorem Yields.log (record : LogRecord) : (Action.log record).Yields () [] :=
  fun _ => ⟨rfl, rfl, rfl⟩

theorem Yields.remark (said : Remark) : (Action.remark said).Yields () [] :=
  fun _ => ⟨rfl, rfl, rfl⟩

theorem Yields.flush (batch : Batch) (verdict : Except Failure Unit) :
    (Action.emit (.flush batch verdict)).Yields () [(batch, verdict)] :=
  fun _ => ⟨rfl, rfl, rfl⟩

theorem Yields.of_plainly {action : Action α} {value : α}
    (h : ∀ inv, action.Plainly inv (· = value)) : action.Yields value [] := by
  intro memo
  obtain ⟨hmemo, hplain, hvalue⟩ := h (· = memo) memo rfl
  exact ⟨hvalue, hmemo, Outcome.flushes_eq_nil hplain⟩

theorem Yields.bind {action : Action α} {next : α → Action β} {value : α} {result : β}
    {flushes more : List Flush} (hfirst : action.Yields value flushes)
    (hnext : (next value).Yields result more) :
    (action >>= next).Yields result (flushes ++ more) := by
  intro memo
  obtain ⟨hvalue, hmemo, hflushes⟩ := hfirst memo
  obtain ⟨hresult, hlast, hmore⟩ := hnext memo
  rw [flushes_bind, hvalue, hmemo, hflushes, hmore]
  simp [hvalue, hmemo, hresult, hlast]

theorem Yields.map {action : Action α} {value : α} {flushes : List Flush}
    (h : action.Yields value flushes) (f : α → β) :
    (action >>= fun value => Pure.pure (f value)).Yields (f value) flushes := by
  rw [← List.append_nil flushes]
  exact h.bind (Yields.pure (f value))

theorem Yields.ensures {action : Action α} {value : α} {flushes : List Flush}
    (h : action.Yields value flushes) {post : α → List Flush → Prop} (hpost : post value flushes) :
    action.Ensures inv post := by
  intro memo hmemo
  obtain ⟨hvalue, hnext, hflushes⟩ := h memo
  rw [hvalue, hnext, hflushes]
  exact ⟨hmemo, hpost⟩

theorem Ensures.after {action : Action α} {value : α} (h : action.Yields value [])
    {next : α → Action β} {post : β → List Flush → Prop} (hnext : (next value).Ensures inv post) :
    (action >>= next).Ensures inv post := by
  refine Quietly.bind (h.ensures ⟨rfl, rfl⟩) ?_
  rintro _ rfl
  exact hnext

theorem Ensures.afterLog {record : LogRecord} {next : Unit → Action α}
    {post : α → List Flush → Prop} (hnext : (next ()).Ensures inv post) :
    (Action.log record >>= next).Ensures inv post :=
  Ensures.after (Yields.log record) hnext

/-- Actions that go on alike from every value that the first one can have. -/
theorem bind_congr_of_always {action : Action α} {next other : α → Action β} {P : α → Prop}
    (h : action.Always fun value _ => P value)
    (hnext : ∀ value, P value → next value = other value) :
    action >>= next = action >>= other := by
  funext memo
  have hvalue := hnext _ (h memo trivial).2
  change (action >>= next).run memo = (action >>= other).run memo
  rw [run_bind, run_bind, hvalue]

end Action

end ExceptionFlow

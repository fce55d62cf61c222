import ExceptionFlow.Proofs.CallFates
/-!
A memo over classes that change. Classes are added and replaced while lineages are asked for, so
what the memo keeps may differ from the classes of today, and one of its lineages from another. What
it has answered once it answers ever after all the same, and it never keeps more than was asked.
-/
namespace ExceptionFlow

namespace Memo

variable {memo next : Memo} {name : ClassName}

/-- Every class has one lineage at most, which is kept under its name and goes up from it. -/
structure Orderly (memo : Memo) : Prop where
  distinct : (memo.entries.map Prod.fst).Nodup
  labelled : ∀ entry ∈ memo.entries, entry.2.name = entry.1 ∧ entry.1 ∈ entry.2.ancestors

theorem orderly (memo : Memo) : memo.Orderly where
  distinct := memo.distinct
  labelled entry hentry :=
    have hname := memo.labelled entry hentry
    ⟨hname, hname ▸ entry.2.own⟩

/-- The second memo is the first one, or it has one entry more, which is that of the class. -/
inductive GainsAtMost (memo : Memo) (name : ClassName) (next : Memo) : Prop where
  | nothing (hsame : next = memo) : GainsAtMost memo name next
  | entry {lineage : Lineage} (hunknown : name ∉ memo.entries.map Prod.fst)
      (hentries : next.entries = (name, lineage) :: memo.entries) : GainsAtMost memo name next

theorem GainsAtMost.size_le (h : memo.GainsAtMost name next) : memo.size ≤ next.size := by
  unfold size
  cases h with
  | nothing hsame => rw [hsame]
  | entry _ hentries =>
      rw [hentries]
      exact Nat.le_succ _

end Memo

namespace Context

theorem resolve_gainsAtMost (context : Context) (memo : Memo) (name : ClassName) :
    memo.GainsAtMost name ((context.resolve name).run memo).memo := by
  have hcase := context.resolve_cases memo name
  generalize (context.resolve name).run memo = outcome at hcase ⊢
  cases hcase with
  | found _ hunknown hfind =>
      obtain rfl := Lineage.name_of_find hfind
      exact .entry (Memo.find?_eq_none_iff.mp hunknown) (Memo.entries_insert hunknown)
  | _ => exact .nothing rfl

theorem memo_checkedNames (context : Context) (names : List ClassName) (memo : Memo) :
    ((context.checkedNames names).run memo).memo = context.warm memo names := by
  induction names generalizing memo with
  | nil => rfl
  | cons name names ih =>
      unfold checkedNames
      simp only [Action.run_bind, ih]
      cases ((context.resolve name).run memo).value <;> rfl

theorem memo_withoutUnchecked (context : Context) (clause : ThrowsClause) (memo : Memo) :
    ((context.withoutUnchecked clause).run memo).memo = context.warm memo clause.entries := by
  unfold withoutUnchecked
  split
  · exact context.memo_checkedNames clause.entries memo
  · rename_i hmode
    rw [Bool.not_eq_true] at hmode
    have hkept : context.warm memo clause.entries = memo :=
      warm_induction (P := (· = memo)) (fun _ name hsame => by
        rw [run_resolve_textual hmode]
        exact hsame) rfl clause.entries
    rw [hkept]
    rfl

end Context

/-- Classes that can be added and replaced, and the lineages found in them so far. -/
structure Library where
  classpath : Classpath
  memo : Memo := {}

inductive Request where
  | resolve (name : ClassName)
  | withoutUnchecked (clause : ThrowsClause)
  | insert (cls : ClassDecl)

/-- The classes that a request resolves, one after another. -/
def Request.names : Request → List ClassName
  | resolve name => [name]
  | withoutUnchecked clause => clause.entries
  | insert _ => []

namespace Library

/-- The context as it stands now. How the classes answer is up to `view`. -/
def today (library : Library) (context : Context) (view : Classpath → ClassSource) : Context :=
  { context with source := view library.classpath }

/-- What the library answers when it is asked for a lineage. -/
def answer (library : Library) (context : Context) (view : Classpath → ClassSource)
    (name : ClassName) : Except Failure Lineage :=
  (((library.today context view).resolve name).run library.memo).value

def after (library : Library) (context : Context) (view : Classpath → ClassSource) :
    Request → Library
  | .resolve name =>
    { library with memo := (((library.today context view).resolve name).run library.memo).memo }
  | .withoutUnchecked clause =>
    { library with
      memo := (((library.today context view).withoutUnchecked clause).run library.memo).memo }
  | .insert cls => { library with classpath := library.classpath.insert cls }

def afterAll (library : Library) (context : Context) (view : Classpath → ClassSource)
    (requests : List Request) : Library :=
  requests.foldl (after · context view) library

variable {context : Context} {view : Classpath → ClassSource}

/-- All that a request can do to the memo. -/
theorem memo_after (library : Library) (request : Request) :
    (library.after context view request).memo =
      (library.today context view).warm library.memo request.names := by
  cases request with
  | resolve name => rfl
  | withoutUnchecked clause =>
      exact (library.today context view).memo_withoutUnchecked clause library.memo
  | insert cls => rfl

theorem after_induction {P : Memo → Prop}
    (hstep : ∀ (library : Library) memo name, P memo →
      P (((library.today context view).resolve name).run memo).memo)
    {library : Library} (h : P library.memo) (request : Request) :
    P (library.after context view request).memo := by
  rw [memo_after]
  exact Context.warm_induction (hstep library) h request.names

/-- What resolving one class keeps, a run of requests keeps. -/
theorem afterAll_induction {P : Memo → Prop}
    (hstep : ∀ (library : Library) memo name, P memo →
      P (((library.today context view).resolve name).run memo).memo)
    {library : Library} (h : P library.memo) (requests : List Request) :
    P (library.afterAll context view requests).memo := by
  induction requests generalizing library with
  | nil => exact h
  | cons request requests ih => exact ih (after_induction hstep h request)

theorem afterAll_resolve (library : Library) (names : List ClassName) :
    library.afterAll context view (names.map .resolve) =
      { library with memo := (library.today context view).warm library.memo names } := by
  induction names generalizing library with
  | nil => rfl
  | cons name names ih => exact ih (library.after context view (.resolve name))

theorem partOf_afterAll (library : Library) (requests : List Request) :
    library.memo.PartOf (library.afterAll context view requests).memo :=
  afterAll_induction
    (fun _ memo name hpart => hpart.trans (Context.partOf_resolve _ memo name))
    (.refl library.memo) requests

/-- An answer that was given is kept, so it is given again whatever became of the classes. -/
theorem answer_afterAll (library : Library) (hmode : context.usesHierarchy = true)
    {name : ClassName} {lineage : Lineage}
    (hanswer : library.answer context view name = .ok lineage) (requests : List Request) :
    ((library.after context view (.resolve name)).afterAll context view requests).answer
      context view name = .ok lineage := by
  have hkept : (library.after context view (.resolve name)).memo.find? name = some lineage :=
    Context.find?_of_resolve hmode hanswer
  exact Context.resolve_of_find? hmode (partOf_afterAll _ requests name lineage hkept)

end Library

/-- What holds of a library between requests. -/
structure Library.Dependable (library : Library) (context : Context)
    (view : Classpath → ClassSource) : Prop where
  /-- A lineage that was answered once is answered ever after. -/
  permanent : context.config.strategy = .hierarchy → ∀ name lineage,
    library.answer context view name = .ok lineage → ∀ requests,
      ((library.after context view (.resolve name)).afterAll context view requests).answer
        context view name = .ok lineage
  /-- Resolving a class adds the entry of that class or none, and none if it fails. -/
  single : ∀ name,
    library.memo.GainsAtMost name (library.after context view (.resolve name)).memo
  atomic : ∀ name failure, library.answer context view name = .error failure →
    (library.after context view (.resolve name)).memo = library.memo
  /-- Taking unchecked exceptions out of a clause does no more than to resolve its classes. -/
  passing : ∀ clause, library.after context view (.withoutUnchecked clause) =
    library.afterAll context view (clause.entries.map .resolve)
  growing : ∀ request, library.memo.size ≤ (library.after context view request).memo.size
  orderly : library.memo.Orderly
  /-- By names alone nothing is kept. -/
  empty : context.config.strategy = .textual → library.memo = {}

/-- Whatever was asked of a library and whichever of its classes were added and replaced meanwhile,
its memo is written once for each class and only when the class resolves. -/
theorem afterAll_dependable (context : Context) (view : Classpath → ClassSource)
    (classpath : Classpath) (requests : List Request) :
    (({ classpath } : Library).afterAll context view requests).Dependable context view := by
  generalize hlibrary : ({ classpath } : Library).afterAll context view requests = library
  constructor
  case permanent =>
    intro hmode name lineage hanswer later
    exact library.answer_afterAll (by simp [Context.usesHierarchy, hmode]) hanswer later
  case single => exact fun name => Context.resolve_gainsAtMost _ library.memo name
  case atomic => exact fun name failure => Context.resolve_memo_of_error
  case passing =>
    intro clause
    rw [library.afterAll_resolve, ← (library.today context view).memo_withoutUnchecked]
    rfl
  case growing =>
    refine Library.after_induction (P := (library.memo.size ≤ Memo.size ·)) ?_ (Nat.le_refl _)
    intro other memo name hle
    exact Nat.le_trans hle (Context.resolve_gainsAtMost _ memo name).size_le
  case orderly => exact library.memo.orderly
  case empty =>
    intro hmode
    rw [← hlibrary]
    refine Library.afterAll_induction (P := (· = {})) ?_ rfl requests
    intro other memo name hempty
    rw [Context.run_resolve_textual (by simp [Context.usesHierarchy, Library.today, hmode])]
    exact hempty

/-- A class that is declared with one superclass first and with another one later. -/
def movedFailure (parent : ClassName) : ClassDecl :=
  { name := ⟨"a.Moved"⟩, parent := some parent }

theorem afterAll_dependable_moved :
    let context := Context.new {} Classpath.javaLang.lookup fun _ => .ok ()
    let library : Library := { classpath := Classpath.javaLang.insert (movedFailure .exception) }
    let before : Lineage := .ofAncestors ⟨"a.Moved"⟩ [.exception, .throwable, .object]
    let requests := [Request.insert (movedFailure .error)]
    library.answer context Classpath.lookup before.name = .ok before ∧
      ((library.after context Classpath.lookup (.resolve before.name)).afterAll context
        Classpath.lookup requests).answer context Classpath.lookup before.name = .ok before ∧
      (library.afterAll context Classpath.lookup requests).answer context Classpath.lookup
        before.name = .ok (.ofAncestors before.name [.error, .throwable, .object]) := by
  intro context library before requests
  have hdependable := afterAll_dependable context Classpath.lookup library.classpath []
  exact ⟨rfl, hdependable.permanent rfl before.name before rfl requests, rfl⟩

end ExceptionFlow

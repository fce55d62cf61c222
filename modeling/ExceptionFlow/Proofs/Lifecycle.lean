import ExceptionFlow.Proofs.Reachability
/-!
The life of a detector. Between two operations it is either new or in the middle of a method, and
then its log has the throws clause of that method and the rows visited since the method was started.
Nothing here hangs on what the classes are: they may even change from one operation to the next.
-/
namespace ExceptionFlow

theorem Detector.declared_startLog (body : MethodBody) :
    (startLog body).declared = body.method.throwsClause :=
  ThrowsClause.merge_empty body.method.throwsClause

namespace Detector

variable {context : Context} {detector : Detector} {visited : List TableEntry}

/-- The detector is new, or it is in the middle of a method whose clause and visited rows its log
has. -/
inductive Stands (visited : List TableEntry) : Detector → Prop where
  | idle : Stands visited {}
  | scanning {body : MethodBody} {flow : FlowLog}
      (hdeclared : flow.declared = body.method.throwsClause)
      (hrows : flow.regions.map GuardedRegion.row = visited) : Stands visited (scanning body flow)

theorem Stands.settled (h : detector.Stands visited) : detector.Settled := by
  cases h with
  | idle => exact .idle
  | scanning => exact .scanning _ _

end Detector

/-- The rows visited since a method was started with success, after one more operation. -/
def Operation.rowsAfter (operation : Operation) (result : Except Failure Answer)
    (visited : List TableEntry) : List TableEntry :=
  match operation, result with
  | .start _, .ok _ => []
  | .addEntry entry, .ok _ => visited ++ [entry]
  | _, _ => visited

namespace Detector

variable {detector : Detector} {visited : List TableEntry}

/-- A detector after operations, with the memo at that time and the rows visited since a method was
started with success. Every operation may see other classes, another liveness test and another taker
of batches than the one before, and the memo may be used elsewhere in between. -/
inductive Operated : Detector → Memo → List TableEntry → Prop where
  | new : Operated {} {} []
  | elsewhere {detector : Detector} {memo : Memo} {visited : List TableEntry}
      (h : Operated detector memo visited) (context : Context) (name : ClassName) :
      Operated detector ((context.resolve name).run memo).memo visited
  | apply {detector : Detector} {memo : Memo} {visited : List TableEntry}
      (h : Operated detector memo visited) (context : Context) (operation : Operation) :
      Operated ((detector.apply context operation).run memo).value.detector
        ((detector.apply context operation).run memo).memo
        (operation.rowsAfter ((detector.apply context operation).run memo).value.result visited)

/-- The replies to operations, one after another. -/
def replies (detector : Detector) (context : Context) :
    List Operation → Action (List (Reply Answer))
  | [] => return []
  | operation :: operations => do
    let reply ← detector.apply context operation
    let others ← reply.detector.replies context operations
    return reply :: others

theorem Performs.stands {context : Context}
    {raises : Option (ClassName × String) → Instruction → List ThrowEvent → Prop}
    (h : detector.Stands visited) {operation : Operation} {reply : Reply Answer}
    {flushes : List Flush}
    (hperforms : Performs context raises detector operation reply flushes) :
    reply.detector.Stands (operation.rowsAfter reply.result visited) := by
  cases hperforms with
  | started => exact .scanning (declared_startLog _) rfl
  | startedTwice | strayed | noCode => exact h
  | outOfPlace hdetector _ =>
      subst hdetector
      exact .idle
  | entered hdetector hregions =>
      subst hdetector
      cases h with
      | scanning hdeclared hrows =>
          refine .scanning hdeclared ?_
          rw [hregions, hrows]
          rfl
  | stepped hdetector _ _ =>
      subst hdetector
      cases h with
      | scanning hdeclared hrows => exact .scanning hdeclared hrows
  | finished | reset => exact .idle
  | ranMethod _ hbody =>
      rw [Reply.map, hbody.detector_eq]
      exact .idle
  | ranClass hmethods =>
      rcases hmethods.detector_eq with hsame | hempty
      · rw [Reply.map, hsame]
        exact h
      · rw [Reply.map, hempty]
        exact .idle

theorem apply_stands (context : Context) (h : detector.Stands visited) (operation : Operation) :
    (detector.apply context operation).Always fun reply _ =>
      reply.detector.Stands (operation.rowsAfter reply.result visited) :=
  (apply_performs context.resolves_named h.settled operation).mono fun _ _ hperforms =>
    hperforms.stands h

theorem Operated.stands {memo : Memo} (h : Operated detector memo visited) :
    detector.Stands visited := by
  induction h with
  | new => exact .idle
  | elsewhere _ _ _ ih => exact ih
  | apply _ context operation ih => exact (apply_stands context ih operation _ trivial).2

/-- What holds of a detector between operations, given the rows visited since a method was started
with success. -/
structure WellKept (detector : Detector) (visited : List TableEntry) : Prop where
  settled : detector.phase = .idle ∨ detector.phase = .scanning
  scanning_iff : detector.phase = .scanning ↔ ∃ body, detector.current = some body
  empty : detector.phase = .idle → detector.flow = {}
  declared : ∀ body, detector.current = some body →
    detector.flow.declared = body.method.throwsClause
  rows : detector.phase = .scanning → detector.flow.regions.map GuardedRegion.row = visited

theorem Stands.wellKept (h : detector.Stands visited) : detector.WellKept visited := by
  cases h with
  | idle => constructor <;> simp
  | scanning hdeclared hrows =>
      constructor
      · exact Or.inr rfl
      · exact ⟨fun _ => ⟨_, rfl⟩, fun _ => rfl⟩
      · rintro ⟨⟩
      · rintro body ⟨⟩
        exact hdeclared
      · exact fun _ => hrows

theorem Stands.eq_new (h : detector.Stands visited) (hidle : detector.phase = .idle) :
    detector = {} := by
  cases h with
  | idle => rfl
  | scanning => cases hidle

end Detector

/-- The body of a method whose only instruction lies in a guarded region. -/
def guardedBody : MethodBody :=
  { className := ⟨"a.Service"⟩
    method := { name := "run", descriptor := "()V", exceptions := [.exception] }
    code := [⟨0, .athrow none⟩] }

def guardedRow : TableEntry :=
  { start := 0, stop := 1, handler := 1, catchType := some .exception }

/-- A taker of batches that takes none. -/
def refusingContext : Context :=
  .new {} Classpath.javaLang.lookup fun _ => .error .lock

/-- Whatever was asked of a detector, it is idle and empty or in the middle of a method, with the
clause of that method and the rows visited since. An idle detector replies as a new one does. -/
theorem wellKept_of_operated (detector : Detector) (memo : Memo) (visited : List TableEntry)
    (h : Detector.Operated detector memo visited) :
    detector.WellKept visited ∧
      (detector.phase = .idle → ∀ context operations,
        (detector.replies context operations).run memo =
          (({} : Detector).replies context operations).run memo) := by
  refine ⟨h.stands.wellKept, ?_⟩
  intro hidle context operations
  rw [h.stands.eq_new hidle]

/-- The first method ends although its batch is refused; the second one is still in progress. -/
theorem wellKept_of_operated_guarded :
    ∃ detector memo, Detector.Operated detector memo [guardedRow] ∧ detector.phase = .scanning ∧
      detector.WellKept [guardedRow] := by
  have hfirst := Detector.Operated.new.apply refusingContext (.runMethod guardedBody)
  have hsecond := (hfirst.apply refusingContext (.start guardedBody)).apply refusingContext
    (.addEntry guardedRow)
  have hthird := hsecond.apply refusingContext (.runMethod { guardedBody with
    method := { guardedBody.method with flags := .ofFlag .abstractMember } })
  exact ⟨_, _, hthird, rfl, (wellKept_of_operated _ _ _ hthird).1⟩

end ExceptionFlow

import ExceptionFlow.Proofs.Lifecycle
/-!
How the run of a method ends. Classes that cannot be looked up, signatures that cannot be read and
liveness tests that fail are gone past where they are met. Only two things end a run with a failure:
an instruction outside the method, before anything is handed over, and the taker of the report.
-/
namespace ExceptionFlow

namespace MethodBody

variable {body : MethodBody} {instruction : Instruction}

/-- The instruction lies before the first one of the method or behind the last one. -/
def LiesOutside (body : MethodBody) (instruction : Instruction) : Prop :=
  ∃ first ∈ body.code.head?, ∃ last ∈ body.code.getLast?,
    instruction.offset < first.offset ∨ last.offset < instruction.offset

theorem spans_eq_false_iff (hmem : instruction ∈ body.code) :
    body.spans instruction.offset = false ↔ body.LiesOutside instruction := by
  have hcode : body.code ≠ [] := List.ne_nil_of_mem hmem
  unfold spans LiesOutside
  rw [List.head?_eq_some_head hcode, List.getLast?_eq_some_getLast hcode]
  simp only [Option.mem_some_iff, exists_eq_left', Bool.and_eq_false_iff, decide_eq_false_iff_not,
    Nat.not_le]

/-- Some instruction of the method lies outside it. -/
def Strays (body : MethodBody) : Prop :=
  ∃ instruction ∈ body.code, body.LiesOutside instruction

theorem stray?_eq_none_iff : body.stray? = none ↔ ¬ body.Strays := by
  unfold stray? Strays
  rw [List.find?_eq_none, not_exists]
  refine forall_congr' fun instruction => ?_
  rw [not_and]
  refine forall_congr' fun hmem => not_congr ?_
  rw [Bool.not_eq_true', spans_eq_false_iff hmem]

theorem stray?_eq_some {before after : List Instruction}
    (hcode : body.code = before ++ instruction :: after) (houtside : body.LiesOutside instruction)
    (hbefore : ∀ other ∈ before, ¬ body.LiesOutside other) :
    body.stray? = some instruction := by
  have hmem : ∀ other ∈ before ++ [instruction], other ∈ body.code := by
    intro other hother
    rw [hcode, List.append_cons]
    exact List.mem_append_left after hother
  unfold stray?
  refine List.find?_eq_some_iff_append.mpr ⟨?_, before, after, hcode, ?_⟩
  · rw [Bool.not_eq_true']
    exact (spans_eq_false_iff (hmem instruction (by simp))).mpr houtside
  · intro other hother
    rw [Bool.not_not]
    by_contra hspans
    rw [Bool.not_eq_true, spans_eq_false_iff (hmem other (by simp [hother]))] at hspans
    exact hbefore other hother hspans

/-- Code whose offsets never decrease begins with the least of them and ends with the greatest. -/
theorem not_strays_of_sorted
    (hsorted : body.code.Pairwise fun earlier later => earlier.offset ≤ later.offset) :
    ¬ body.Strays := by
  rintro ⟨instruction, hmem, first, hfirst, last, hlast, hoffset⟩
  obtain ⟨rest, hcons⟩ := List.head?_eq_some_iff.mp hfirst
  obtain ⟨front, hsnoc⟩ := List.getLast?_eq_some_iff.mp hlast
  have hlower : first.offset ≤ instruction.offset := by
    rw [hcons] at hsorted hmem
    rcases List.mem_cons.mp hmem with rfl | hrest
    · exact Nat.le_refl _
    · exact List.rel_of_pairwise_cons hsorted hrest
  have hupper : instruction.offset ≤ last.offset := by
    rw [hsnoc] at hsorted hmem
    rcases List.mem_append.mp hmem with hfront | hsame
    · exact (List.pairwise_append.mp hsorted).2.2 instruction hfront last (by simp)
    · exact Nat.le_of_eq (congrArg Instruction.offset (List.mem_singleton.mp hsame))
  omega

end MethodBody

/-- The findings of a method, given the memo at its start. -/
def Context.reportOn (context : Context) (body : MethodBody) (memo : Memo) : Batch :=
  ((context.reading body).run memo).value.batch body

namespace Detector

variable {context : Context} {body : MethodBody}

theorem runMethod_stray (context : Context) (hcode : body.method.hasCode = true)
    {instruction : Instruction} (hstray : body.stray? = some instruction) (memo : Memo) :
    let outcome := (({} : Detector).runMethod context body).run memo
    outcome.value = { result := .error (body.outside instruction), detector := {} } ∧
      outcome.flushes = [] := by
  obtain ⟨-, hran⟩ := runMethod_ran context.resolves_named hcode memo trivial
  cases hran with
  | stray hother hreply hflushes =>
      obtain rfl := Option.some.inj (hstray.symm.trans hother)
      exact ⟨hreply, hflushes⟩
  | done hnone =>
      rw [hstray] at hnone
      cases hnone

/-- How a method with code ends that has this report. -/
structure Ends (context : Context) (body : MethodBody) (report : Batch)
    (outcome : Outcome (Reply Nat)) : Prop where
  detector : outcome.value.detector = {}
  /-- The method is refused, before anything is handed over, exactly if an instruction lies outside
  it. -/
  refused_iff :
    (∃ instruction, outcome.value.result = .error (body.outside instruction) ∧
      outcome.flushes = []) ↔ body.Strays
  /-- What it is refused for is the first such instruction. -/
  refused : ∀ before instruction after, body.code = before ++ instruction :: after →
    body.LiesOutside instruction → (∀ other ∈ before, ¬ body.LiesOutside other) →
    outcome.value.result = .error (body.outside instruction) ∧ outcome.flushes = []
  /-- Else the report is handed over, once, and the method fails just as its taker does. -/
  handed : ¬ body.Strays →
    outcome.flushes = [(report, context.accept report)] ∧
      (∀ failure, outcome.value.result = .error failure ↔
        context.accept report = .error failure) ∧
      (context.accept report = .ok () → outcome.value.result = .ok report.size)
  /-- With offsets that never decrease, nothing but the taker of the report makes a method fail. -/
  sorted : (body.code.Pairwise fun earlier later => earlier.offset ≤ later.offset) →
    outcome.flushes = [(report, context.accept report)] ∧
      outcome.value.result = (context.accept report).map fun _ => report.size

variable {report : Batch} {outcome : Outcome (Reply Nat)}

theorem ends_of_stray {instruction : Instruction} (hstray : body.stray? = some instruction)
    (hvalue : outcome.value = { result := .error (body.outside instruction), detector := {} })
    (hflushes : outcome.flushes = []) : Ends context body report outcome := by
  have hstrays : body.Strays := by
    by_contra hinside
    rw [← MethodBody.stray?_eq_none_iff, hstray] at hinside
    cases hinside
  have hresult : outcome.value.result = .error (body.outside instruction) := by rw [hvalue]
  constructor
  · rw [hvalue]
  · exact ⟨fun _ => hstrays, fun _ => ⟨instruction, hresult, hflushes⟩⟩
  · intro before other after hcode houtside hbefore
    have hother := MethodBody.stray?_eq_some hcode houtside hbefore
    rw [hstray] at hother
    rw [← Option.some.inj hother]
    exact ⟨hresult, hflushes⟩
  · exact fun hinside => absurd hstrays hinside
  · exact fun hsorted => absurd hstrays (MethodBody.not_strays_of_sorted hsorted)

theorem ends_of_inside (hstray : body.stray? = none)
    (hvalue : outcome.value =
      { result := (context.accept report).map fun _ => report.size, detector := {} })
    (hflushes : outcome.flushes = [(report, context.accept report)]) :
    Ends context body report outcome := by
  have hinside := MethodBody.stray?_eq_none_iff.mp hstray
  constructor
  · rw [hvalue]
  · refine ⟨?_, fun hstrays => absurd hstrays hinside⟩
    rintro ⟨_, -, hnothing⟩
    rw [hflushes] at hnothing
    cases hnothing
  · intro before instruction after hcode houtside
    exact absurd ⟨instruction, by simp [hcode], houtside⟩ hinside
  · refine fun _ => ⟨hflushes, ?_, ?_⟩
    · intro failure
      rw [hvalue]
      cases context.accept report <;> simp [Except.map]
    · intro haccept
      rw [hvalue, haccept]
      rfl
  · exact fun _ => ⟨hflushes, by rw [hvalue]⟩

end Detector

/-- Whatever classes, signatures and liveness tests are like, a method with code is refused for an
instruction outside it, or it ends as the taker of its report says. -/
theorem runMethod_ends (context : Context) (detector : Detector) (memo : Memo)
    (visited : List TableEntry) (body : MethodBody)
    (hdetector : Detector.Operated detector memo visited) (hidle : detector.phase = .idle)
    (hcode : body.method.hasCode = true) :
    Detector.Ends context body (context.reportOn body memo)
      ((detector.runMethod context body).run memo) := by
  obtain rfl := hdetector.stands.eq_new hidle
  cases hstray : body.stray? with
  | some instruction =>
      obtain ⟨hvalue, hflushes⟩ := Detector.runMethod_stray context hcode hstray memo
      exact Detector.ends_of_stray hstray hvalue hflushes
  | none =>
      obtain ⟨hvalue, -, hflushes⟩ := Detector.runMethod_reading context hcode hstray memo
      exact Detector.ends_of_inside hstray hvalue hflushes

/-- A method with an unreadable signature that catches, calls and throws classes which are not
there, and an exception that is. -/
def troubledBody : MethodBody :=
  { className := ⟨"a.Service"⟩
    method := { name := "run", descriptor := "()V", signature := some "(" }
    code := [⟨0, .invoke ⟨⟨"a.Gone"⟩, "call", "()V"⟩ .virtual⟩,
      ⟨0, .athrow (some "La/Gone;")⟩, ⟨1, .athrow (some "Ljava/lang/Exception;")⟩, ⟨2, .store 1⟩]
    handlers := [{ start := 0, stop := 1, handler := 2, catchType := some ⟨"a.Gone"⟩ }] }

/-- A context whose liveness test always fails. -/
def troubledContext : Context :=
  { config := {}
    source := Classpath.javaLang.lookup
    liveness := some fun _ _ _ => .error .lock
    accept := fun _ => .ok () }

theorem runMethod_ends_troubled :
    Detector.Operated {} {} [] ∧ troubledBody.method.hasCode = true ∧
      ((({} : Detector).runMethod troubledContext troubledBody).run {}).value.result = .ok 1 ∧
      Detector.Ends troubledContext troubledBody (troubledContext.reportOn troubledBody {})
        ((({} : Detector).runMethod troubledContext troubledBody).run {}) :=
  ⟨.new, rfl, rfl, runMethod_ends troubledContext {} {} [] troubledBody .new rfl rfl⟩

end ExceptionFlow

import ExceptionFlow.Proofs.Ascent
import ExceptionFlow.Proofs.Contract
/-!
What resolving a class answers, whatever has been resolved before. The memo never changes an answer
into another one and never takes one away; it can only give one where the limit refuses it.
-/
namespace ExceptionFlow

namespace Context

variable {context : Context} {memo : Memo} {name : ClassName} {lineage : Lineage}

theorem run_resolve_textual (hmode : context.usesHierarchy = false) (memo : Memo)
    (name : ClassName) :
    (context.resolve name).run memo = ⟨.ok (.singleton name), memo, []⟩ := by
  unfold resolve
  rw [hmode]
  rfl

/-- The ways in which resolving a class can go. -/
inductive ResolveCase (context : Context) (memo : Memo) (name : ClassName) :
    Outcome (Except Failure Lineage) → Prop where
  | textual (hmode : context.usesHierarchy = false) :
      ResolveCase context memo name ⟨.ok (.singleton name), memo, []⟩
  | known (hmode : context.usesHierarchy = true) {lineage : Lineage}
      (hknown : memo.find? name = some lineage) :
      ResolveCase context memo name ⟨.ok lineage, memo, []⟩
  | found (hmode : context.usesHierarchy = true) {lineage : Lineage}
      (hunknown : memo.find? name = none)
      (hfind : Lineage.find context.source memo context.config.maxDepth name = .ok lineage) :
      ResolveCase context memo name
        ⟨.ok lineage, memo.insert lineage, [.log (.resolved lineage)]⟩
  | refused (hmode : context.usesHierarchy = true) {failure : Failure}
      (hunknown : memo.find? name = none)
      (hfind : Lineage.find context.source memo context.config.maxDepth name = .error failure) :
      ResolveCase context memo name ⟨.error failure, memo, []⟩

theorem resolve_cases (context : Context) (memo : Memo) (name : ClassName) :
    ResolveCase context memo name ((context.resolve name).run memo) := by
  cases hmode : context.usesHierarchy with
  | false =>
      rw [run_resolve_textual hmode]
      exact .textual hmode
  | true =>
      unfold resolve
      cases hknown : memo.find? name with
      | some known =>
          simp only [hmode, if_true, Action.run_bind, Action.run_getMemo, hknown]
          exact .known hmode hknown
      | none =>
          simp only [hmode, if_true, Action.run_bind, Action.run_getMemo, hknown, findLineage]
          cases hfind : Lineage.find context.source memo context.config.maxDepth name with
          | ok found => exact .found hmode hknown hfind
          | error failure => exact .refused hmode hknown hfind

theorem resolve_plain (context : Context) (name : ClassName) (memo : Memo) :
    ∀ emission ∈ ((context.resolve name).run memo).emitted, emission.isPlain = true := by
  have hcase := context.resolve_cases memo name
  generalize (context.resolve name).run memo = outcome at hcase ⊢
  cases hcase with
  | found => exact List.forall_mem_singleton.mpr rfl
  | _ => exact List.forall_mem_nil _

theorem name_of_resolve (h : ((context.resolve name).run memo).value = .ok lineage) :
    lineage.name = name := by
  have hcase := context.resolve_cases memo name
  generalize (context.resolve name).run memo = outcome at hcase h
  cases hcase with
  | textual =>
      cases h
      rfl
  | known _ hknown =>
      cases h
      exact Memo.name_of_find? hknown
  | found _ _ hfind =>
      cases h
      exact Lineage.name_of_find hfind
  | refused => cases h

theorem resolve_memo_of_error {failure : Failure}
    (h : ((context.resolve name).run memo).value = .error failure) :
    ((context.resolve name).run memo).memo = memo := by
  have hcase := context.resolve_cases memo name
  generalize (context.resolve name).run memo = outcome at hcase h ⊢
  cases hcase with
  | found => cases h
  | _ => rfl

end Context

namespace Memo.Reachable

variable {context : Context} {memo : Memo}

/-- A lineage in the memo is that of its class. With no superclass steps allowed, only classes
without superclass come into the memo. -/
theorem known (h : memo.Reachable context) {name : ClassName} {lineage : Lineage}
    (hfind : memo.find? name = some lineage) :
    ∃ above, Ascent context.source name above ∧ lineage = .ofAncestors name above ∧
      (above = [] ∨ 0 < context.config.maxDepth) := by
  induction h generalizing name lineage with
  | empty => simp [Memo.find?] at hfind
  | @resolve memo _ asked ih =>
      have hcase := context.resolve_cases memo asked
      generalize (context.resolve asked).run memo = outcome at hcase hfind
      cases hcase with
      | textual => exact ih hfind
      | known => exact ih hfind
      | refused => exact ih hfind
      | found _ hunknown hresult =>
          obtain rfl := Lineage.name_of_find hresult
          rw [Memo.find?_insert, hunknown] at hfind
          have hmemo : memo.Faithful context.source := by
            intro other kept hkept
            obtain ⟨above, habove, heq, _⟩ := ih hkept
            exact ⟨above, habove, heq⟩
          split at hfind
          · rename_i heq
            obtain rfl := Option.some.inj hfind
            obtain ⟨above, habove, hends, hlineage⟩ :=
              (Lineage.find_eq_ok_iff hmemo _ _ _).mp hresult
            rw [heq]
            exact ⟨above, habove, hlineage, hends.nil_or_pos⟩
          · exact ih hfind

theorem faithful (h : memo.Reachable context) : memo.Faithful context.source := by
  intro name lineage hfind
  obtain ⟨above, habove, heq, _⟩ := h.known hfind
  exact ⟨above, habove, heq⟩

end Memo.Reachable

namespace Context

variable {context : Context} {memo : Memo}

/-- The lineages that resolving can answer with: the name alone, or the name with its superclasses
up to a class without one. -/
inductive Admits (context : Context) : Lineage → Prop where
  | textual (hmode : context.usesHierarchy = false) (name : ClassName) :
      Admits context (.singleton name)
  | hierarchy (hmode : context.usesHierarchy = true) {name : ClassName} {above : List ClassName}
      (habove : Ascent context.source name above)
      (hdepth : above = [] ∨ 0 < context.config.maxDepth) : Admits context (.ofAncestors name above)

theorem Admits.ascent {lineage : Lineage} (h : context.Admits lineage)
    (hmode : context.usesHierarchy = true) :
    ∃ above, Ascent context.source lineage.name above ∧
      lineage.ancestors = lineage.name :: above ∧ (above = [] ∨ 0 < context.config.maxDepth) := by
  cases h with
  | textual hother _ =>
      rw [hmode] at hother
      cases hother
  | @hierarchy _ name above habove hdepth =>
      rw [Lineage.ancestors_ofAncestors habove.nodup, Lineage.name_ofAncestors]
      exact ⟨above, habove, rfl, hdepth⟩

theorem Admits.unique {first second : Lineage} (hfirst : context.Admits first)
    (hsecond : context.Admits second) (hname : first.name = second.name) : first = second := by
  cases hfirst with
  | textual hmode name =>
      cases hsecond with
      | textual _ other =>
          obtain rfl : name = other := hname
          rfl
      | hierarchy hother _ _ =>
          rw [hmode] at hother
          cases hother
  | hierarchy hmode habove _ =>
      cases hsecond with
      | textual hother _ =>
          rw [hmode] at hother
          cases hother
      | hierarchy _ hother _ =>
          simp only [Lineage.name_ofAncestors] at hname
          subst hname
          rw [habove.unique hother]

/-- Along superclasses, an answer is the lineage of a class that is known or whose superclasses end
in time. -/
theorem resolve_eq_ok_iff (hmode : context.usesHierarchy = true) (hmemo : memo.Reachable context)
    (name : ClassName) (lineage : Lineage) :
    ((context.resolve name).run memo).value = .ok lineage ↔
      ∃ above, Ascent context.source name above ∧
        (memo.Knows name ∨ Lineage.EndsWithin memo context.config.maxDepth above) ∧
        lineage = .ofAncestors name above := by
  have hcase := context.resolve_cases memo name
  generalize (context.resolve name).run memo = outcome at hcase ⊢
  cases hcase with
  | textual hother =>
      rw [hmode] at hother
      cases hother
  | known _ hknown =>
      obtain ⟨above, habove, rfl⟩ := hmemo.faithful name _ hknown
      have hknows : memo.Knows name := by simp [Memo.Knows, hknown]
      simp only [Except.ok.injEq]
      constructor
      · rintro rfl
        exact ⟨above, habove, Or.inl hknows, rfl⟩
      · rintro ⟨other, hother, _, rfl⟩
        rw [habove.unique hother]
  | found _ hunknown hfind =>
      rw [← hfind, Lineage.find_eq_ok_iff hmemo.faithful]
      simp [Memo.Knows, hunknown]
  | refused _ hunknown hfind =>
      rw [← hfind, Lineage.find_eq_ok_iff hmemo.faithful]
      simp [Memo.Knows, hunknown]

theorem knows_resolve_iff (hmode : context.usesHierarchy = true) (memo : Memo)
    (name other : ClassName) :
    ((context.resolve name).run memo).memo.Knows other ↔
      memo.Knows other ∨
        other = name ∧ ∃ lineage, ((context.resolve name).run memo).value = .ok lineage := by
  have hcase := context.resolve_cases memo name
  generalize (context.resolve name).run memo = outcome at hcase ⊢
  cases hcase with
  | textual hother =>
      rw [hmode] at hother
      cases hother
  | known _ hknown =>
      constructor
      · exact Or.inl
      · rintro (hother | ⟨rfl, _⟩)
        · exact hother
        · simp [Memo.Knows, hknown]
  | found _ _ hfind =>
      rw [Memo.knows_insert, Lineage.name_of_find hfind]
      simp
  | refused => simp

theorem knows_resolve_of_knows (hmode : context.usesHierarchy = true) {memo : Memo}
    {other : ClassName} (hknows : memo.Knows other) (name : ClassName) :
    ((context.resolve name).run memo).memo.Knows other :=
  (knows_resolve_iff hmode memo name other).mpr (Or.inl hknows)

theorem knows_resolve_self (hmode : context.usesHierarchy = true) {memo : Memo} {name : ClassName}
    {lineage : Lineage} (h : ((context.resolve name).run memo).value = .ok lineage) :
    ((context.resolve name).run memo).memo.Knows name :=
  (knows_resolve_iff hmode memo name name).mpr (Or.inr ⟨rfl, lineage, h⟩)

/-- What resolving answers before anything else was resolved. -/
def freshLineage? (context : Context) (name : ClassName) : Option Lineage :=
  ((context.resolve name).run {}).value.toOption

theorem freshLineage?_textual (hmode : context.usesHierarchy = false) (name : ClassName) :
    context.freshLineage? name = some (.singleton name) := by
  rw [freshLineage?, run_resolve_textual hmode]
  rfl

theorem freshLineage?_eq_some_iff (hmode : context.usesHierarchy = true) (name : ClassName)
    (lineage : Lineage) :
    context.freshLineage? name = some lineage ↔
      ∃ above, Ascent context.source name above ∧ above.length ≤ context.config.maxDepth ∧
        lineage = .ofAncestors name above := by
  have hiff := resolve_eq_ok_iff hmode (.empty : ({} : Memo).Reachable context) name lineage
  simp only [Memo.not_knows_empty, false_or, Lineage.endsWithin_empty] at hiff
  rw [← hiff, freshLineage?]
  cases ((context.resolve name).run {}).value <;> simp [Except.toOption]

/-- What a class can be resolved to: to nothing but its lineage, and to it for sure if it resolves
afresh. -/
structure Answers (context : Context) (name : ClassName) (result : Option Lineage) : Prop where
  sound : ∀ lineage, result = some lineage → lineage.name = name ∧ context.Admits lineage
  complete : ∀ lineage, context.freshLineage? name = some lineage → result = some lineage

/-- Every answer is one of the lineages that are admitted, and what resolves afresh resolves with
every memo. -/
theorem resolve_answers (hmemo : memo.Reachable context) (name : ClassName) :
    context.Answers name ((context.resolve name).run memo).value.toOption := by
  cases hmode : context.usesHierarchy with
  | false =>
      rw [run_resolve_textual hmode]
      constructor
      · rintro lineage hlineage
        obtain rfl : Lineage.singleton name = lineage := Option.some.inj hlineage
        exact ⟨rfl, .textual hmode name⟩
      · intro lineage hfresh
        rw [freshLineage?_textual hmode] at hfresh
        exact hfresh
  | true =>
      have hiff := resolve_eq_ok_iff hmode hmemo name
      constructor
      · intro lineage hlineage
        cases hvalue : ((context.resolve name).run memo).value with
        | error failure =>
            rw [hvalue] at hlineage
            cases hlineage
        | ok answer =>
            rw [hvalue] at hlineage
            obtain rfl : answer = lineage := Option.some.inj hlineage
            obtain ⟨above, habove, hends, rfl⟩ := (hiff answer).mp hvalue
            refine ⟨Lineage.name_ofAncestors .., .hierarchy hmode habove ?_⟩
            rcases hends with hknows | hends
            · obtain ⟨known, hknown⟩ := Option.isSome_iff_exists.mp hknows
              obtain ⟨other, hother, _, hdepth⟩ := hmemo.known hknown
              rw [habove.unique hother]
              exact hdepth
            · exact hends.nil_or_pos
      · intro lineage hfresh
        obtain ⟨above, habove, hlength, rfl⟩ := (freshLineage?_eq_some_iff hmode name _).mp hfresh
        rw [(hiff _).mpr ⟨above, habove, Or.inr (Or.inl hlength), rfl⟩]
        rfl

/-- How classes resolve from memos that have the invariant. -/
structure Resolves (context : Context) (inv : Memo → Prop)
    (answers : ClassName → Option Lineage → Prop) : Prop where
  keeps : ∀ name memo, inv memo → inv ((context.resolve name).run memo).memo
  replies : ∀ name memo, inv memo → answers name ((context.resolve name).run memo).value.toOption
  named : ∀ name lineage, answers name (some lineage) → lineage.name = name

theorem resolves_reachable (context : Context) :
    context.Resolves (Memo.Reachable context) context.Answers where
  keeps name _ hmemo := hmemo.resolve name
  replies name _ hmemo := resolve_answers hmemo name
  named _ lineage hanswers := (hanswers.sound lineage rfl).1

/-- Whatever the memo holds, an answer is a lineage of the class. -/
theorem resolves_named (context : Context) :
    context.Resolves (fun _ => True) fun name result =>
      ∀ lineage, result = some lineage → lineage.name = name where
  keeps _ _ _ := trivial
  replies name memo _ := by
    intro lineage hlineage
    cases hvalue : ((context.resolve name).run memo).value with
    | error failure =>
        rw [hvalue] at hlineage
        cases hlineage
    | ok answer =>
        rw [hvalue] at hlineage
        cases hlineage
        exact name_of_resolve hvalue
  named _ lineage hnamed := hnamed lineage rfl

theorem freshLineage?_admits {name : ClassName} {lineage : Lineage}
    (h : context.freshLineage? name = some lineage) :
    lineage.name = name ∧ context.Admits lineage :=
  (resolve_answers .empty name).sound lineage h

end Context

end ExceptionFlow

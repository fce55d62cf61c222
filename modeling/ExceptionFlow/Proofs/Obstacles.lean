import ExceptionFlow.Proofs.Recording
import Mathlib.Data.List.Nodup
/-!
Why a class is not resolved. A climb stops at the first obstacle: a class that cannot be looked up,
a class that was passed before, or one superclass more than the limit allows. The memo holds whole
chains only, so it never hides a missing class or a cycle; all it can do is to let a chain through
that is too long.
-/
namespace ExceptionFlow

/-- The superclasses of `name` up to a class without one, and no class stands twice. -/
def CompleteChain (source : ClassSource) (name : ClassName) (above : List ClassName) : Prop :=
  Ascent source name above ∧ (name :: above).Nodup

theorem completeChain_iff {source : ClassSource} {name : ClassName} {above : List ClassName} :
    CompleteChain source name above ↔ Ascent source name above :=
  ⟨And.left, fun habove => ⟨habove, habove.nodup⟩⟩

/-- The lineage has the class and then these superclasses, in this order. -/
def Lineage.Lists (lineage : Lineage) (name : ClassName) (above : List ClassName) : Prop :=
  lineage.name = name ∧ lineage.ancestors = name :: above

theorem Ascent.lists_iff {source : ClassSource} {name : ClassName} {above : List ClassName}
    (h : Ascent source name above) {lineage : Lineage} :
    lineage.Lists name above ↔ lineage = .ofAncestors name above := by
  constructor
  · rintro ⟨rfl, hancestors⟩
    exact Lineage.eq_ofAncestors hancestors
  · rintro rfl
    exact ⟨Lineage.name_ofAncestors .., Lineage.ancestors_ofAncestors h.nodup⟩

/-- The way from `name` to `last`: each of the classes `passed` is there and has the next one as its
superclass. -/
inductive Passes (source : ClassSource) : ClassName → List ClassName → ClassName → Prop where
  | here (name : ClassName) : Passes source name [] name
  | up {name parent last : ClassName} {cls : ClassDecl} {passed : List ClassName}
      (hcls : source name = .ok cls) (hparent : cls.parent = some parent)
      (hrest : Passes source parent passed last) : Passes source name (name :: passed) last

/-- A climb from `name` comes to `last` before it meets an obstacle. -/
structure Arrives (source : ClassSource) (limit : Nat) (name : ClassName)
    (passed : List ClassName) (last : ClassName) : Prop where
  passes : Passes source name passed last
  nodup : (passed ++ [last]).Nodup
  within : passed.length ≤ limit

/-- What stops a climb first. -/
inductive Obstacle (source : ClassSource) (limit : Nat) (name : ClassName) : Failure → Prop where
  | missing {passed : List ClassName} {last : ClassName} {failure : Failure}
      (harrives : Arrives source limit name passed last) (hlast : source last = .error failure) :
      Obstacle source limit name failure
  | cycle {passed : List ClassName} {last parent : ClassName} {cls : ClassDecl}
      (harrives : Arrives source limit name passed last) (hlast : source last = .ok cls)
      (hparent : cls.parent = some parent) (hpassed : parent ∈ passed ++ [last]) :
      Obstacle source limit name (.recursionLimit limit)
  | tooDeep {passed : List ClassName} {last parent : ClassName} {cls : ClassDecl}
      (harrives : Arrives source limit name passed last) (hlast : source last = .ok cls)
      (hparent : cls.parent = some parent) (hlength : passed.length = limit) :
      Obstacle source limit name (.recursionLimit limit)

namespace Passes

variable {source : ClassSource} {name last parent : ClassName} {passed : List ClassName}

theorem head_mem (h : Passes source name passed last) : name ∈ passed ++ [last] := by
  cases h with
  | here => exact List.mem_singleton_self name
  | up => exact List.mem_cons_self

theorem append {cls : ClassDecl} (h : Passes source name passed last)
    (hlast : source last = .ok cls) (hparent : cls.parent = some parent) :
    Passes source name (passed ++ [last]) parent := by
  induction h with
  | here => exact .up hlast hparent (.here parent)
  | up hcls hup _ ih => exact .up hcls hup (ih hlast)

end Passes

namespace Lineage

variable {source : ClassSource} {memo : Memo} {limit budget : Nat} {name last : ClassName}
  {passed seen : List ClassName}

/-- The climb that goes on with `name`. -/
def climbFrom (source : ClassSource) (memo : Memo) (limit budget : Nat) (seen : List ClassName)
    (name : ClassName) : Except Failure (List ClassName) :=
  source name >>= climb source memo limit budget (seen ++ [name])

theorem climbFrom_of_ok {cls : ClassDecl} (hcls : source name = .ok cls) :
    climbFrom source memo limit budget seen name =
      climb source memo limit budget (seen ++ [name]) cls := by
  rw [climbFrom, hcls]
  rfl

theorem climbFrom_of_error {failure : Failure} (hcls : source name = .error failure) :
    climbFrom source memo limit budget seen name = .error failure := by
  rw [climbFrom, hcls]
  rfl

theorem map_find_eq_climbFrom (source : ClassSource) (memo : Memo) (limit : Nat)
    (name : ClassName) :
    (find source memo limit name).map ancestors = climbFrom source memo limit limit [] name :=
  map_find source memo limit name

theorem find_eq_error_iff_climbFrom (source : ClassSource) (memo : Memo) (limit : Nat)
    (name : ClassName) (failure : Failure) :
    find source memo limit name = .error failure ↔
      climbFrom source memo limit limit [] name = .error failure :=
  find_eq_error_iff_climb source memo limit name failure

/-- A climb may be taken up at any class it comes to. -/
theorem climbFrom_passes (h : Passes source name passed last)
    (hnodup : (seen ++ (passed ++ [last])).Nodup) (hlength : passed.length ≤ budget) :
    climbFrom source {} limit budget seen name =
      climbFrom source {} limit (budget - passed.length) (seen ++ passed) last := by
  induction h generalizing seen budget with
  | here => simp
  | @up name parent last cls passed hcls hparent hrest ih =>
      obtain ⟨budget, rfl⟩ : ∃ rest, budget = rest + 1 :=
        ⟨budget - 1, by rw [List.length_cons] at hlength; omega⟩
      have hrestNodup : ((seen ++ [name]) ++ (passed ++ [last])).Nodup := by
        simpa using hnodup
      have hnew : parent ∉ seen ++ [name] := by
        intro hmem
        exact (List.nodup_append.mp hrestNodup).2.2 parent hmem parent hrest.head_mem rfl
      have hup : climbFrom source {} limit (budget + 1) seen name =
          climbFrom source {} limit budget (seen ++ [name]) parent := by
        rw [climbFrom_of_ok hcls]
        exact climb_unknown hparent hnew rfl
      rw [hup, ih hrestNodup (Nat.le_of_succ_le_succ hlength)]
      simp

theorem climb_obstacle {cls : ClassDecl} {failure : Failure}
    (harrives : Arrives source limit name passed last) (hbudget : passed.length + budget = limit)
    (hlast : source last = .ok cls)
    (herror : climb source {} limit budget (passed ++ [last]) cls = .error failure) :
    Obstacle source limit name failure := by
  cases hparent : cls.parent with
  | none =>
      rw [climb_root hparent] at herror
      cases herror
  | some parent =>
      induction budget generalizing passed last cls parent with
      | zero =>
          rw [climb_zero hparent] at herror
          obtain rfl := Except.error.inj herror
          exact .tooDeep harrives hlast hparent hbudget
      | succ budget ih =>
          by_cases hmem : parent ∈ passed ++ [last]
          · rw [climb_cycle hparent hmem] at herror
            obtain rfl := Except.error.inj herror
            exact .cycle harrives hlast hparent hmem
          · have hnext : Arrives source limit name (passed ++ [last]) parent := by
              refine ⟨harrives.passes.append hlast hparent, ?_, ?_⟩
              · rw [(List.perm_append_singleton parent (passed ++ [last])).nodup_iff]
                exact List.nodup_cons.mpr ⟨hmem, harrives.nodup⟩
              · rw [List.length_append, List.length_singleton]
                omega
            rw [climb_unknown hparent hmem rfl] at herror
            cases hfound : source parent with
            | error other =>
                rw [hfound] at herror
                obtain rfl := Except.error.inj herror
                exact .missing hnext hfound
            | ok next =>
                rw [hfound] at herror
                cases hgrand : next.parent with
                | none =>
                    change climb source {} limit budget _ next = _ at herror
                    rw [climb_root hgrand] at herror
                    cases herror
                | some grand =>
                    refine ih hnext ?_ hfound herror grand hgrand
                    rw [List.length_append, List.length_singleton]
                    omega

/-- On an empty memo a class is refused for the first obstacle and for nothing else. -/
theorem find_eq_error_iff (source : ClassSource) (limit : Nat) (name : ClassName)
    (failure : Failure) :
    find source {} limit name = .error failure ↔ Obstacle source limit name failure := by
  rw [find_eq_error_iff_climbFrom]
  constructor
  · intro herror
    have hhere : Arrives source limit name [] name := ⟨.here name, by simp, Nat.zero_le _⟩
    cases hcls : source name with
    | error other =>
        rw [climbFrom_of_error hcls] at herror
        obtain rfl := Except.error.inj herror
        exact .missing hhere hcls
    | ok cls =>
        rw [climbFrom_of_ok hcls] at herror
        exact climb_obstacle hhere (Nat.zero_add limit) hcls herror
  · have harrive : ∀ {passed : List ClassName} {last : ClassName},
        Arrives source limit name passed last → climbFrom source {} limit limit [] name =
          climbFrom source {} limit (limit - passed.length) passed last :=
      fun harrives => climbFrom_passes harrives.passes harrives.nodup harrives.within
    intro hobstacle
    cases hobstacle with
    | missing harrives hlast => rw [harrive harrives, climbFrom_of_error hlast]
    | cycle harrives hlast hparent hpassed =>
        rw [harrive harrives, climbFrom_of_ok hlast, climb_cycle hparent hpassed]
    | tooDeep harrives hlast hparent hlength =>
        rw [harrive harrives, climbFrom_of_ok hlast, hlength, Nat.sub_self, climb_zero hparent]

/-- A chain that never ends or breaks off runs into no class that is known. -/
theorem climb_eq_fresh (hmemo : memo.Faithful source) {cls : ClassDecl}
    (hcls : source name = .ok cls) (hends : ∀ above, ¬ Ascent source name above) :
    climb source memo limit budget seen cls = climb source {} limit budget seen cls := by
  cases hparent : cls.parent with
  | none => exact absurd (.root hcls hparent) (hends [])
  | some parent =>
      have hup : ∀ above, ¬ Ascent source parent above :=
        fun above habove => hends _ (.step hcls hparent habove)
      induction budget generalizing name cls parent seen with
      | zero => rw [climb_zero hparent, climb_zero hparent]
      | succ budget ih =>
          by_cases hmem : parent ∈ seen
          · rw [climb_cycle hparent hmem, climb_cycle hparent hmem]
          · have hunknown : memo.find? parent = none := by
              cases hfind : memo.find? parent with
              | none => rfl
              | some known =>
                  obtain ⟨above, habove, _⟩ := hmemo parent known hfind
                  exact absurd habove (hup above)
            rw [climb_unknown hparent hmem hunknown, climb_unknown hparent hmem rfl]
            cases hnext : source parent with
            | error failure => rfl
            | ok next =>
                cases hgrand : next.parent with
                | none => exact absurd (.root hnext hgrand) (hup [])
                | some grand =>
                    exact ih hnext hup grand hgrand
                      fun above habove => hup _ (.step hnext hgrand habove)

/-- A chain that comes to its end can only be too long. -/
theorem climb_error_of_ascent {above : List ClassName} (habove : Ascent source name above)
    {cls : ClassDecl} (hcls : source name = .ok cls) {failure : Failure}
    (herror : climb source memo limit budget seen cls = .error failure) :
    failure = .recursionLimit limit := by
  induction habove generalizing budget seen cls with
  | root hfound hparent =>
      rw [hcls] at hfound
      cases hfound
      rw [climb_root hparent] at herror
      cases herror
  | @step name parent _ _ hfound hparent hrest ih =>
      rw [hcls] at hfound
      cases hfound
      cases budget with
      | zero =>
          rw [climb_zero hparent] at herror
          exact (Except.error.inj herror).symm
      | succ budget =>
          by_cases hmem : parent ∈ seen
          · rw [climb_cycle hparent hmem] at herror
            exact (Except.error.inj herror).symm
          · cases hfind : memo.find? parent with
            | some known =>
                rw [climb_known hparent hmem hfind] at herror
                cases herror
            | none =>
                obtain ⟨next, hnext⟩ := hrest.exists_class
                rw [climb_unknown hparent hmem hfind, hnext] at herror
                exact ih hnext herror

theorem find_eq_fresh (hmemo : memo.Faithful source)
    (hends : ∀ above, ¬ Ascent source name above) :
    find source memo limit name = find source {} limit name := by
  have hsame : climbFrom source memo limit limit [] name =
      climbFrom source {} limit limit [] name := by
    cases hcls : source name with
    | error failure => rw [climbFrom_of_error hcls, climbFrom_of_error hcls]
    | ok cls => rw [climbFrom_of_ok hcls, climbFrom_of_ok hcls, climb_eq_fresh hmemo hcls hends]
  rw [← map_find_eq_climbFrom, ← map_find_eq_climbFrom] at hsame
  cases hwarm : find source memo limit name with
  | error failure =>
      cases hfresh : find source {} limit name <;>
        simp_all [Except.map]
  | ok lineage =>
      cases hfresh : find source {} limit name with
      | error failure => simp [hwarm, hfresh, Except.map] at hsame
      | ok other =>
          rw [hwarm, hfresh] at hsame
          congr 1
          exact Lineage.ext ((name_of_find hwarm).trans (name_of_find hfresh).symm)
            (Except.ok.inj hsame)

theorem find_error_of_ascent {above : List ClassName} (habove : Ascent source name above)
    {failure : Failure} (herror : find source memo limit name = .error failure) :
    failure = .recursionLimit limit := by
  obtain ⟨cls, hcls⟩ := habove.exists_class
  rw [find_eq_error_iff_climbFrom, climbFrom_of_ok hcls] at herror
  exact climb_error_of_ascent habove hcls herror

end Lineage

theorem Memo.find?_of_mem {memo : Memo} {name : ClassName} {lineage : Lineage}
    (hmem : (name, lineage) ∈ memo.entries) : memo.find? name = some lineage := by
  cases hfind : memo.find? name with
  | none => exact absurd (List.mem_map_of_mem hmem) (find?_eq_none_iff.mp hfind)
  | some other =>
      have hsame := List.inj_on_of_nodup_map memo.distinct (mem_of_find? hfind) hmem rfl
      rw [(Prod.mk.inj hsame).2]

/-- What can be asked of the lineages. -/
inductive Query where
  | resolve (name : ClassName)
  | withoutUnchecked (clause : ThrowsClause)

namespace Context

variable {context : Context} {memo : Memo}

/-- The memo after a question. -/
def memoAfter (context : Context) (memo : Memo) : Query → Memo
  | .resolve name => ((context.resolve name).run memo).memo
  | .withoutUnchecked clause => ((context.withoutUnchecked clause).run memo).memo

/-- The memo after questions that start with an empty one. -/
def memoAfterAll (context : Context) (queries : List Query) : Memo :=
  queries.foldl context.memoAfter {}

theorem memoAfter_reachable (hmemo : memo.Reachable context) (query : Query) :
    (context.memoAfter memo query).Reachable context := by
  cases query with
  | resolve name => exact hmemo.resolve name
  | withoutUnchecked clause =>
      exact (withoutUnchecked_plainly context.resolves_reachable clause memo hmemo).1

theorem memoAfterAll_reachable (context : Context) (queries : List Query) :
    (context.memoAfterAll queries).Reachable context := by
  have hfold : ∀ memo : Memo, memo.Reachable context →
      (queries.foldl context.memoAfter memo).Reachable context := by
    induction queries with
    | nil => exact fun _ hmemo => hmemo
    | cons query queries ih => exact fun memo hmemo => ih _ (memoAfter_reachable hmemo query)
  exact hfold {} .empty

theorem resolve_of_unknown (hmode : context.usesHierarchy = true) {name : ClassName}
    (hunknown : memo.find? name = none) :
    ((context.resolve name).run memo).value =
      Lineage.find context.source memo context.config.maxDepth name := by
  have hcase := context.resolve_cases memo name
  generalize (context.resolve name).run memo = outcome at hcase ⊢
  cases hcase with
  | textual hother =>
      rw [hmode] at hother
      cases hother
  | known _ hknown =>
      rw [hunknown] at hknown
      cases hknown
  | found _ _ hfind => exact hfind.symm
  | refused _ _ hfind => exact hfind.symm

/-- A chain that comes to its end is answered in full or refused as too long. -/
theorem resolve_of_ascent (hmode : context.usesHierarchy = true) (hmemo : memo.Reachable context)
    {name : ClassName} {above : List ClassName} (habove : Ascent context.source name above) :
    ((context.resolve name).run memo).value = .ok (.ofAncestors name above) ∨
      ((context.resolve name).run memo).value =
        .error (.recursionLimit context.config.maxDepth) := by
  cases hvalue : ((context.resolve name).run memo).value with
  | ok lineage =>
      obtain ⟨other, hother, _, rfl⟩ := (resolve_eq_ok_iff hmode hmemo name lineage).mp hvalue
      rw [hother.unique habove]
      exact Or.inl rfl
  | error failure =>
      have hunknown : memo.find? name = none := by
        cases hfind : memo.find? name with
        | none => rfl
        | some known =>
            have hknows : memo.Knows name := by simp [Memo.Knows, hfind]
            rw [(resolve_eq_ok_iff hmode hmemo name _).mpr ⟨above, habove, Or.inl hknows, rfl⟩]
              at hvalue
            cases hvalue
      rw [resolve_of_unknown hmode hunknown] at hvalue
      rw [Lineage.find_error_of_ascent habove hvalue]
      exact Or.inr rfl

theorem resolve_of_endless (hmode : context.usesHierarchy = true) (hmemo : memo.Reachable context)
    {name : ClassName} (hends : ∀ above, ¬ Ascent context.source name above) :
    ((context.resolve name).run memo).value = ((context.resolve name).run {}).value := by
  have hunknown : memo.find? name = none := by
    cases hfind : memo.find? name with
    | none => rfl
    | some known =>
        obtain ⟨above, habove, _⟩ := hmemo.faithful name known hfind
        exact absurd habove (hends above)
  have hfresh := resolve_of_unknown hmode (rfl : ({} : Memo).find? name = none)
  rw [resolve_of_unknown hmode hunknown, hfresh, Lineage.find_eq_fresh hmemo.faithful hends]

/-- The memo makes no difference but one: it can let a chain through that is too long. -/
theorem resolve_eq_fresh_or (hmode : context.usesHierarchy = true) (hmemo : memo.Reachable context)
    (name : ClassName) :
    ((context.resolve name).run memo).value = ((context.resolve name).run {}).value ∨
      ∃ above, Ascent context.source name above ∧ context.config.maxDepth < above.length ∧
        ((context.resolve name).run {}).value = .error (.recursionLimit context.config.maxDepth) ∧
        ((context.resolve name).run memo).value = .ok (.ofAncestors name above) := by
  by_cases hends : ∃ above, Ascent context.source name above
  · obtain ⟨above, habove⟩ := hends
    by_cases hlength : above.length ≤ context.config.maxDepth
    · have hanswer : ∀ {memo : Memo}, memo.Reachable context →
          ((context.resolve name).run memo).value = .ok (.ofAncestors name above) := fun hmemo =>
        (resolve_eq_ok_iff hmode hmemo name _).mpr ⟨above, habove, Or.inr (Or.inl hlength), rfl⟩
      exact Or.inl ((hanswer hmemo).trans (hanswer .empty).symm)
    · have hrefused : ((context.resolve name).run {}).value =
          .error (.recursionLimit context.config.maxDepth) := by
        rcases resolve_of_ascent hmode .empty habove with hfresh | hfresh
        · obtain ⟨other, hother, hdepth, _⟩ := (resolve_eq_ok_iff hmode .empty name _).mp hfresh
          rw [hother.unique habove, Lineage.endsWithin_empty] at hdepth
          exact absurd (hdepth.resolve_left (Memo.not_knows_empty name)) hlength
        · exact hfresh
      rcases resolve_of_ascent hmode hmemo habove with hwarm | hwarm
      · exact Or.inr ⟨above, habove, Nat.lt_of_not_le hlength, hrefused, hwarm⟩
      · exact Or.inl (hwarm.trans hrefused.symm)
  · exact Or.inl (resolve_of_endless hmode hmemo fun above habove => hends ⟨above, habove⟩)

/-- What is kept for a class and what is answered about it, against what its superclasses are. -/
structure AnswersExactly (context : Context) (memo : Memo) (name : ClassName) : Prop where
  kept : ∀ lineage, (name, lineage) ∈ memo.entries →
    ∃ above, CompleteChain context.source name above ∧ lineage.Lists name above
  answered : ∀ lineage, ((context.resolve name).run memo).value = .ok lineage →
    ∃ above, CompleteChain context.source name above ∧ lineage.Lists name above
  fresh : ∀ lineage, ((context.resolve name).run {}).value = .ok lineage ↔
    ∃ above, CompleteChain context.source name above ∧ above.length ≤ context.config.maxDepth ∧
      lineage.Lists name above
  refused : ∀ failure, ((context.resolve name).run {}).value = .error failure ↔
    Obstacle context.source context.config.maxDepth name failure
  warm : ((context.resolve name).run memo).value = ((context.resolve name).run {}).value ∨
    ∃ above, CompleteChain context.source name above ∧ context.config.maxDepth < above.length ∧
      ((context.resolve name).run {}).value = .error (.recursionLimit context.config.maxDepth) ∧
      ∃ lineage, ((context.resolve name).run memo).value = .ok lineage ∧ lineage.Lists name above

end Context

/-- Two superclasses where one is allowed. -/
def shallowContext : Context :=
  let bases := Classpath.javaLang.insert { name := ⟨"a.Base"⟩, parent := some .object }
  let classes := bases.insert { name := ⟨"a.Leaf"⟩, parent := some ⟨"a.Base"⟩ }
  .new { maxDepth := 1 } classes.lookup fun _ => .ok ()

/-- Along superclasses, whatever was asked before, lineages are complete chains, a class is refused
for the first obstacle, and an answer changes only where a chain is longer than the limit. -/
theorem answersExactly_memoAfterAll (context : Context)
    (hmode : context.config.strategy = .hierarchy) (queries : List Query) (name : ClassName) :
    context.AnswersExactly (context.memoAfterAll queries) name := by
  have hhierarchy : context.usesHierarchy = true := by simp [Context.usesHierarchy, hmode]
  have hmemo := context.memoAfterAll_reachable queries
  constructor
  · intro lineage hmem
    obtain ⟨above, habove, hlineage⟩ := hmemo.faithful name lineage (Memo.find?_of_mem hmem)
    exact ⟨above, completeChain_iff.mpr habove, habove.lists_iff.mpr hlineage⟩
  · intro lineage hvalue
    obtain ⟨above, habove, _, hlineage⟩ :=
      (Context.resolve_eq_ok_iff hhierarchy hmemo name lineage).mp hvalue
    exact ⟨above, completeChain_iff.mpr habove, habove.lists_iff.mpr hlineage⟩
  · intro lineage
    rw [Context.resolve_eq_ok_iff hhierarchy .empty name lineage]
    simp only [Memo.not_knows_empty, false_or, Lineage.endsWithin_empty, completeChain_iff]
    exact exists_congr fun above => and_congr_right fun habove =>
      and_congr_right fun _ => habove.lists_iff.symm
  · intro failure
    rw [Context.resolve_of_unknown hhierarchy rfl]
    exact Lineage.find_eq_error_iff _ _ name failure
  · refine (Context.resolve_eq_fresh_or hhierarchy hmemo name).imp_right ?_
    rintro ⟨above, habove, hlength, hrefused, hwarm⟩
    exact ⟨above, completeChain_iff.mpr habove, hlength, hrefused, _, hwarm,
      habove.lists_iff.mpr rfl⟩

theorem answersExactly_memoAfterAll_shallow :
    shallowContext.config.strategy = .hierarchy ∧
      shallowContext.AnswersExactly (shallowContext.memoAfterAll [.resolve ⟨"a.Base"⟩])
        ⟨"a.Leaf"⟩ ∧
      ((shallowContext.resolve ⟨"a.Leaf"⟩).run {}).value = .error (.recursionLimit 1) ∧
      ((shallowContext.resolve ⟨"a.Leaf"⟩).run
        (shallowContext.memoAfterAll [.resolve ⟨"a.Base"⟩])).value =
          .ok (.ofAncestors ⟨"a.Leaf"⟩ [⟨"a.Base"⟩, .object]) :=
  ⟨rfl, answersExactly_memoAfterAll shallowContext rfl [.resolve ⟨"a.Base"⟩] ⟨"a.Leaf"⟩, rfl, rfl⟩

end ExceptionFlow

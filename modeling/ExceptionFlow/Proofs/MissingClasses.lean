import ExceptionFlow.Proofs.LostCalls
import Mathlib.Data.List.Perm.Subperm
/-!
Does a missing class only ever cost findings? A class that is gone can take with it a call that
hands an exception on, and then the exception is found after all; and a call that is gone no longer
makes a class known that has too many superclasses. Where neither can happen, nothing is found
without the classes that is not found with them.
-/
namespace ExceptionFlow

namespace Classpath

variable {classpath other : Classpath} {gone : List ClassName}

theorem lookup_eq_ok_iff (classpath : Classpath) (name : ClassName) (cls : ClassDecl) :
    classpath.lookup name = .ok cls ↔ classpath.find? name = some cls := by
  unfold lookup
  cases classpath.find? name <;> simp

theorem exists_lookup_iff (classpath : Classpath) (name : ClassName) :
    (∃ cls, classpath.lookup name = .ok cls) ↔ classpath.contains name = true := by
  simp only [lookup_eq_ok_iff, contains, Option.isSome_iff_exists]

theorem named_lookup (classpath : Classpath) : classpath.lookup.Named := by
  intro name cls hcls
  rw [lookup_eq_ok_iff] at hcls
  simpa using List.find?_some hcls

/-- The classes that are left when some are removed. -/
def without (classpath : Classpath) (gone : List ClassName) : Classpath :=
  { classes := classpath.classes.filter fun cls => cls.name ∉ gone }

theorem find?_without (classpath : Classpath) (gone : List ClassName) (name : ClassName) :
    (classpath.without gone).find? name =
      if name ∈ gone then none else classpath.find? name := by
  unfold find? without
  rw [List.find?_filter]
  split
  · rename_i hgone
    rw [List.find?_eq_none]
    intro cls _
    by_cases hname : cls.name = name <;> simp [hname, hgone]
  · rename_i hkept
    congr 1
    funext cls
    by_cases hname : cls.name = name <;> simp [hname, hkept]

theorem lookup_without (classpath : Classpath) (gone : List ClassName) (name : ClassName) :
    (classpath.without gone).lookup name =
      if name ∈ gone then .error (.typeNotFound name.text) else classpath.lookup name := by
  by_cases hgone : name ∈ gone <;> simp [lookup, find?_without, hgone]

theorem within_without (classpath : Classpath) (gone : List ClassName) :
    (classpath.without gone).lookup.Within classpath.lookup := by
  intro name cls hcls
  rw [lookup_without] at hcls
  split at hcls
  · cases hcls
  · exact hcls

/-- Every class can be thrown by name, and calls can be made on it. -/
def WellNamed (classpath : Classpath) : Prop :=
  ∀ cls ∈ classpath.classes, cls.name.text ≠ "" ∧ '/' ∉ cls.name.text.toList ∧
    cls.name.text.toList.head? ≠ some '['

instance (classpath : Classpath) : Decidable classpath.WellNamed :=
  inferInstanceAs (Decidable (∀ cls ∈ classpath.classes, _))

theorem WellNamed.of_contains (h : classpath.WellNamed) {name : ClassName}
    (hname : classpath.contains name = true) :
    name.text ≠ "" ∧ '/' ∉ name.text.toList ∧ name.text.toList.head? ≠ some '[' := by
  rw [contains, find?, List.find?_isSome] at hname
  obtain ⟨cls, hcls, hname⟩ := hname
  exact of_decide_eq_true hname ▸ h cls hcls

/-- A class with these superclasses is found no more often for lack of others. If it is unchecked,
it lies within the limit, and if it is a checked exception or lies beyond the limit, no class that
is there hands exceptions on. -/
def Unaided (classpath : Classpath) (config : Config) (name : ClassName)
    (above : List ClassName) : Prop :=
  (¬ IsChecked (name :: above) → above.length ≤ config.maxDepth) ∧
    ((.throwable ∈ name :: above ∧ IsChecked (name :: above)) ∨ config.maxDepth < above.length →
      ∀ idiom ∈ config.idioms, classpath.contains idiom.owner = false)

/-- Removing the classes only costs findings, as far as the hierarchy of classes tells. Either
superclasses play no part, or nothing is removed, or nothing that is left and could be found gains
by it. -/
def Expendable (classpath : Classpath) (config : Config) (gone : List ClassName) : Prop :=
  config.strategy = .textual ∨ config.maxDepth = 0 ∨
    (∀ name ∈ gone, classpath.contains name = false) ∨
    ∀ name above, Ascent (classpath.without gone).lookup name above → name ≠ .throwable →
      classpath.Unaided config name above

/-- Without the classes a method finds no more than it finds with them. -/
def OnlyLoses (classpath : Classpath) (config : Config) (gone : List ClassName) : Prop :=
  ∀ accept body,
    ((Context.new config (classpath.without gone).lookup accept).found body).Sublist
      ((Context.new config classpath.lookup accept).found body)

end Classpath

namespace SameHierarchy

variable {classpath other : Classpath}

theorem without (h : SameHierarchy classpath.lookup other.lookup) (gone : List ClassName) :
    SameHierarchy (classpath.without gone).lookup (other.without gone).lookup := by
  intro name
  rw [Classpath.lookup_without, Classpath.lookup_without]
  split
  · rfl
  · exact h name

theorem contains (h : SameHierarchy classpath.lookup other.lookup) (name : ClassName) :
    classpath.contains name = other.contains name := by
  rw [Bool.eq_iff_iff, ← Classpath.exists_lookup_iff, ← Classpath.exists_lookup_iff]
  constructor
  · rintro ⟨cls, hcls⟩
    obtain ⟨found, hfound, -⟩ := h.exists_class hcls
    exact ⟨found, hfound⟩
  · rintro ⟨cls, hcls⟩
    obtain ⟨found, hfound, -⟩ := h.symm.exists_class hcls
    exact ⟨found, hfound⟩

theorem expendable (h : SameHierarchy classpath.lookup other.lookup) {config : Config}
    {gone : List ClassName} (hexpendable : classpath.Expendable config gone) :
    other.Expendable config gone := by
  unfold Classpath.Expendable Classpath.Unaided at hexpendable ⊢
  simp only [← h.contains]
  refine hexpendable.imp_right fun hrest => hrest.imp_right fun hrest => hrest.imp_right ?_
  intro hall name above habove
  exact hall name above ((h.without gone).symm.ascent habove)

end SameHierarchy

/-- No class has as many superclasses as there are classes. -/
theorem Ascent.length_lt_size {classpath : Classpath} {name : ClassName} {above : List ClassName}
    (h : Ascent classpath.lookup name above) : above.length < classpath.size := by
  have hsubset : name :: above ⊆ classpath.classes.map ClassDecl.name := by
    intro other hother
    obtain ⟨cls, hcls⟩ := h.exists_class_of_mem hother
    rw [← classpath.named_lookup other cls hcls]
    exact List.mem_map_of_mem
      (List.mem_of_find?_eq_some ((classpath.lookup_eq_ok_iff other cls).mp hcls))
  have hlength := (h.nodup.subperm hsubset).length_le
  rw [List.length_cons, List.length_map] at hlength
  exact hlength

namespace Context

/-- In a stable context where throws are not found, nothing hangs on the calls that are lost. -/
theorem Thins.found_sublist_of_stable {thin context : Context} (h : thin.Thins context)
    (hstable : thin.Stable) (body : MethodBody)
    (hthrows : thin.usesHierarchy = true → ∀ (instruction : Instruction) stackTop,
      instruction.kind = .athrow stackTop → ∀ name, thin.escapes body instruction name = false) :
    (thin.found body).Sublist (context.found body) := by
  by_cases hread : body.method.hasCode = false ∨ body.stray? ≠ none
  · rw [found_eq_nil hread]
    exact List.nil_sublist _
  · rw [not_or, not_not, Bool.not_eq_false] at hread
    have hthinStart : thin.Records thin.Raises (thin.callBefore []) body.code _ :=
      thin.records_reading hread.2 .empty
    have hfullStart : context.Records context.Raises (context.callBefore []) body.code _ :=
      context.records_reading hread.2 .empty
    rw [found_eq hread.1 hread.2, found_eq hread.1 hread.2,
      hthinStart.uncovered_eq_escapesFrom hstable body]
    exact (h.escapesFrom_sublist body [] body.code hthrows).trans
      (hfullStart.escapesFrom_sublist body)

/-- A throw is found only if some class within the limit is a checked exception. -/
theorem escapes_throw_eq_false {context : Context} (hmode : context.usesHierarchy = true)
    (hnone : ∀ name above, Ascent context.source name above → name ≠ .throwable →
      above.length ≤ context.config.maxDepth →
      ¬ (.throwable ∈ name :: above ∧ IsChecked (name :: above)))
    (body : MethodBody) {instruction : Instruction} {stackTop : Option String}
    (hkind : instruction.kind = .athrow stackTop) (name : ClassName) :
    context.escapes body instruction name = false := by
  rw [Bool.eq_false_iff]
  intro hescapes
  obtain ⟨lineage, hfresh, htest⟩ := surely_eq_true_iff.mp hescapes
  obtain ⟨above, habove, hlength, rfl⟩ :=
    (freshLineage?_eq_some_iff hmode name lineage).mp hfresh
  obtain ⟨hcounts, huncovered⟩ := Bool.and_eq_true_iff.mp htest
  have hname : name ≠ .throwable :=
    Lineage.name_ofAncestors name above ▸
      ((body.covers_eq_false_iff _ _).mp (by simpa using huncovered)).2.1
  refine hnone name above habove hname hlength
    ⟨?_, isChecked_ofAncestors.mp (isChecked_of_counts hmode hcounts)⟩
  rw [hkind] at hcounts
  simp only [counts, hmode, Bool.not_true, Bool.false_or, Bool.and_eq_true,
    Lineage.canBeThrown, Lineage.descendsFrom, List.contains_iff_mem] at hcounts
  exact (Lineage.mem_ofAncestors ..).mp hcounts.1

end Context

namespace Classpath

variable {classpath : Classpath} {config : Config} {gone : List ClassName}

theorem thins_without (classpath : Classpath) (config : Config) (gone : List ClassName)
    (accept : Batch → Except Failure Unit) :
    (Context.new config (classpath.without gone).lookup accept).Thins
      (Context.new config classpath.lookup accept) :=
  ⟨classpath.within_without gone, rfl⟩

theorem onlyLoses_of_absent (h : ∀ name ∈ gone, classpath.contains name = false) :
    classpath.OnlyLoses config gone := by
  have hsame : (classpath.without gone).lookup = classpath.lookup := by
    funext name
    rw [lookup_without]
    split
    · rename_i hgone
      have hnone := h name hgone
      rw [contains, Option.isSome_eq_false_iff, Option.isNone_iff_eq_none] at hnone
      rw [lookup, hnone]
    · rfl
  intro accept body
  rw [hsame]

theorem Expendable.onlyLoses (h : classpath.Expendable config gone) :
    classpath.OnlyLoses config gone := by
  intro accept body
  have hthins := thins_without classpath config gone accept
  rcases h with htextual | hzero | habsent | hall
  · refine hthins.found_sublist_of_stable (Or.inl htextual) body ?_
    intro hmode
    simp [Context.usesHierarchy, Context.new, htextual] at hmode
  · refine hthins.found_sublist_of_stable (Or.inr (Or.inl hzero)) body ?_
    intro hmode instruction stackTop hkind name
    refine Context.escapes_throw_eq_false hmode ?_ body hkind name
    -- a class without superclass is a throwable only if it is the root of them all
    rintro name above habove hname hlength ⟨hthrowable, -⟩
    obtain rfl : above = [] := List.length_eq_zero_iff.mp (Nat.le_zero.mp (hzero ▸ hlength))
    exact hname (List.mem_singleton.mp hthrowable).symm
  · exact onlyLoses_of_absent habsent accept body
  · by_cases hidiom : ∀ idiom ∈ config.idioms, classpath.contains idiom.owner = false
    · cases hstrategy : config.strategy with
      | textual =>
          refine hthins.found_sublist_of_stable (Or.inl hstrategy) body ?_
          intro hmode
          simp [Context.usesHierarchy, Context.new, hstrategy] at hmode
      | hierarchy =>
          have hfollows : (Context.new config (classpath.without gone).lookup accept).Follows
              (Context.new config classpath.lookup accept) :=
            { hthins with
              hierarchy := by simp [Context.usesHierarchy, Context.new, hstrategy]
              within := fun name above habove hname => (hall name above habove hname).1
              named := classpath.named_lookup
              free := by
                intro idiom hmem cls hcls
                have habsent := hidiom idiom hmem
                rw [Bool.eq_false_iff] at habsent
                exact habsent ((classpath.exists_lookup_iff _).mp ⟨cls, hcls⟩) }
          exact hfollows.found_sublist body
    · -- with a call that hands on, no class that is left is checked or beyond the limit
      have hnone : ∀ name above, Ascent (classpath.without gone).lookup name above →
          name ≠ .throwable → ¬ ((.throwable ∈ name :: above ∧ IsChecked (name :: above)) ∨
            config.maxDepth < above.length) :=
        fun name above habove hname hcase => hidiom ((hall name above habove hname).2 hcase)
      refine hthins.found_sublist_of_stable (Or.inr (Or.inr (Or.inr ?_))) body ?_
      · intro name above habove hname
        exact Nat.le_of_not_lt fun hdeep => hnone name above habove hname (Or.inr hdeep)
      · intro hmode instruction stackTop hkind name
        refine Context.escapes_throw_eq_false hmode ?_ body hkind name
        intro name above habove hname _ hchecked
        exact hnone name above habove hname (Or.inl hchecked)

end Classpath

namespace Classpath

variable {classpath : Classpath} {config : Config} {gone : List ClassName}

/-- The same classes with other interfaces and other methods. -/
def withMembers (classpath : Classpath) (interfaces : ClassName → List ClassName)
    (methods : ClassName → List MethodDecl) : Classpath :=
  { classes := classpath.classes.map fun cls =>
      { cls with interfaces := interfaces cls.name, methods := methods cls.name } }

section Members

variable (interfaces : ClassName → List ClassName) (methods : ClassName → List MethodDecl)

theorem find?_withMembers (classpath : Classpath) (name : ClassName) :
    (classpath.withMembers interfaces methods).find? name =
      (classpath.find? name).map fun cls =>
        { cls with interfaces := interfaces name, methods := methods name } := by
  unfold find? withMembers
  rw [List.find?_map]
  refine Option.map_congr fun cls hcls => ?_
  have hname : cls.name = name := by simpa using List.find?_some hcls
  rw [hname]

theorem sameHierarchy_withMembers (classpath : Classpath) :
    SameHierarchy classpath.lookup (classpath.withMembers interfaces methods).lookup := by
  intro name
  unfold lookup
  rw [find?_withMembers]
  cases classpath.find? name <;> rfl

theorem exists_withMembers {name : ClassName} (h : classpath.contains name = true) :
    ∃ cls, (classpath.withMembers interfaces methods).lookup name = .ok cls ∧
      cls.interfaces = interfaces name ∧ cls.methods = methods name := by
  obtain ⟨cls, hcls⟩ := Option.isSome_iff_exists.mp h
  refine ⟨{ cls with interfaces := interfaces name, methods := methods name }, ?_, rfl, rfl⟩
  rw [lookup_eq_ok_iff, find?_withMembers, hcls, Option.map_some]

end Members

/-- The classes under analysis, with findings accepted as they come. -/
def context (classpath : Classpath) (config : Config) : Context :=
  .new config classpath.lookup fun _ => .ok ()

theorem callee?_without (classpath : Classpath) (config : Config) {target : CallTarget}
    (hgone : target.owner ∈ gone) (dispatch : Dispatch) :
    ((classpath.without gone).context config).callee? target dispatch = none := by
  rw [Option.eq_none_iff_forall_ne_some]
  intro callee hcallee
  obtain ⟨-, hresolve⟩ := Context.callee?_eq_some_iff.mp hcallee
  obtain ⟨cls, hcls⟩ := Callee.exists_class_of_resolve hresolve
  change (classpath.without gone).lookup target.owner = _ at hcls
  rw [lookup_without, if_pos hgone] at hcls
  cases hcls

/-- A class that is removed, and one with these superclasses that is left and could be found. -/
structure Remnant (classpath : Classpath) (config : Config) (gone : List ClassName)
    (lost name : ClassName) (above : List ClassName) : Prop where
  hierarchy : config.strategy = .hierarchy
  positive : 0 < config.maxDepth
  named : classpath.WellNamed
  contained : classpath.contains lost = true
  removed : lost ∈ gone
  ascent : Ascent (classpath.without gone).lookup name above
  specific : name ≠ .throwable

namespace Remnant

variable {lost name parent : ClassName} {above rest : List ClassName}

section Kept

variable (h : classpath.Remnant config gone lost name above)
include h

theorem kept {other : ClassName} (hother : other ∈ name :: above) :
    other ∉ gone ∧ classpath.contains other = true := by
  obtain ⟨cls, hcls⟩ := h.ascent.exists_class_of_mem hother
  refine ⟨?_, (classpath.exists_lookup_iff other).mp ⟨cls, classpath.within_without gone _ _ hcls⟩⟩
  intro hgone
  rw [lookup_without, if_pos hgone] at hcls
  cases hcls

theorem ne : lost ≠ name := by
  rintro rfl
  exact (h.kept List.mem_cons_self).1 h.removed

theorem lost_hasArrayOwner (name descriptor : String) :
    CallTarget.hasArrayOwner ⟨lost, name, descriptor⟩ = false := by
  simpa [CallTarget.hasArrayOwner] using (h.named.of_contains h.contained).2.2

theorem exists_signature {other : ClassName} (hother : other ∈ name :: above) :
    ∃ stackTop : Option String, stackTop.bind ClassName.ofSignature? = some other := by
  obtain ⟨hnonempty, hslash, -⟩ := h.named.of_contains (h.kept hother).2
  exact ClassName.exists_signature hnonempty hslash

variable (interfaces : ClassName → List ClassName) (methods : ClassName → List MethodDecl)

theorem ascent_withMembers :
    Ascent ((classpath.withMembers interfaces methods).without gone).lookup name above :=
  ((sameHierarchy_withMembers interfaces methods classpath).without gone).ascent h.ascent

theorem beyondLimit (hdeep : config.maxDepth < above.length) :
    (((classpath.withMembers interfaces methods).without gone).context config).BeyondLimit
      name above where
  hierarchy := by simp [Context.usesHierarchy, context, Context.new, h.hierarchy]
  positive := h.positive
  ascent := h.ascent_withMembers interfaces methods
  deep := hdeep

theorem declares (exceptions : List ClassName) (hnodup : exceptions.Nodup)
    (hmethod : (methods name).find? (fun method =>
        method.name = "call" ∧ method.descriptor = "()I") =
      some ((⟨name, "call", "()I"⟩ : CallTarget).thrower exceptions)) :
    (((classpath.withMembers interfaces methods).without gone).context config).Declares
      ⟨name, "call", "()I"⟩ .static exceptions := by
  obtain ⟨hkept, hcontains⟩ := h.kept List.mem_cons_self
  obtain ⟨cls, hcls, -, hmethods⟩ := exists_withMembers interfaces methods hcontains
  have hsource : ((classpath.withMembers interfaces methods).without gone).lookup name =
      .ok cls := by
    rw [lookup_without, if_neg hkept, hcls]
  refine Context.declares_static ?_ hsource ?_ hnodup
  · simpa [CallTarget.hasArrayOwner] using (h.named.of_contains hcontains).2.2
  · rw [ClassDecl.method?, hmethods]
    exact hmethod

end Kept

/-- The lost class declares the superclass, and all others declare the class before it. -/
def warming (lost name parent : ClassName) : ClassName → List MethodDecl := fun owner =>
  if owner = lost then [(⟨lost, "call", "()I"⟩ : CallTarget).thrower [parent]]
  else [(⟨name, "call", "()I"⟩ : CallTarget).thrower [name, parent]]

theorem exists_of_unchecked (h : classpath.Remnant config gone lost name (parent :: rest))
    (hdeep : config.maxDepth < (parent :: rest).length)
    (hunchecked : ¬ IsChecked (name :: parent :: rest)) :
    ∃ other : Classpath, SameHierarchy classpath.lookup other.lookup ∧
      ¬ other.OnlyLoses config gone := by
  refine ⟨_, sameHierarchy_withMembers (fun _ => []) (warming lost name parent) classpath, ?_⟩
  intro hloses
  have hbeyond := h.beyondLimit (fun _ => []) (warming lost name parent) hdeep
  have hwarms : ((classpath.withMembers (fun _ => []) (warming lost name parent)).context
      config).Declares ⟨lost, "call", "()I"⟩ .static [parent] := by
    obtain ⟨cls, hcls, -, hmethods⟩ :=
      exists_withMembers (fun _ => []) (warming lost name parent) h.contained
    refine Context.declares_static (h.lost_hasArrayOwner _ _) hcls ?_ (by simp)
    simp [ClassDecl.method?, hmethods, warming, CallTarget.thrower]
  have hdeclares := h.declares (fun _ => []) (warming lost name parent) [name, parent]
    (by simp [hbeyond.ne_parent]) (by simp [warming, h.ne.symm, CallTarget.thrower])
  obtain ⟨body, hbody⟩ := (thins_without _ config gone _).not_found_sublist_of_warming hbeyond
    h.specific hunchecked (callee?_without _ config h.removed .static) hwarms hdeclares
  exact hbody (hloses _ body)

/-- The owner of the idiom hands exceptions on, and the class that is left declares itself. -/
def handing (idiom : Idiom) (name : ClassName) : ClassName → List MethodDecl := fun owner =>
  (if owner = idiom.owner then [{ name := idiom.name, descriptor := "()V" }] else []) ++
    if owner = name then [(⟨name, "call", "()I"⟩ : CallTarget).thrower [name]] else []

section Handing

variable (h : classpath.Remnant config gone lost name above) {idiom : Idiom}
  (hidiom : idiom ∈ config.idioms) (howner : classpath.contains idiom.owner = true)
include h hidiom howner

theorem handsOver :
    (((classpath.withMembers (fun _ => [idiom.owner]) (handing idiom name)).without gone).context
        config).HandsOver
      ((classpath.withMembers (fun _ => [idiom.owner]) (handing idiom name)).context config)
      ⟨lost, idiom.name, "()V"⟩ .interface := by
  have hhierarchy : ((classpath.withMembers (fun _ => [idiom.owner])
      (handing idiom name)).context config).usesHierarchy = true := by
    simp [Context.usesHierarchy, context, Context.new, h.hierarchy]
  refine { thins_without _ config gone _ with
    hierarchy := hhierarchy
    lost := callee?_without _ config h.removed .interface
    hands := ⟨⟨idiom.owner, { name := idiom.name, descriptor := "()V" }⟩, ?_, rfl, ?_⟩ }
  · obtain ⟨cls, hcls, hinterfaces, hmethods⟩ :=
      exists_withMembers (fun _ => [idiom.owner]) (handing idiom name) h.contained
    obtain ⟨owner, hdeclaring, -, hhanding⟩ :=
      exists_withMembers (fun _ => [idiom.owner]) (handing idiom name) howner
    have hdeclared : Callee.declaredIn? ⟨lost, idiom.name, "()V"⟩ .interface owner =
        some ⟨idiom.owner, { name := idiom.name, descriptor := "()V" }⟩ := by
      have hname : owner.name = idiom.owner := named_lookup _ _ _ hdeclaring
      have hflag : (AccessFlags.ofFlag .publicAccess).has .staticMember = false := by decide
      simp [Callee.declaredIn?, ClassDecl.method?, hhanding, handing, hname, MethodDecl.isStatic,
        hflag]
    rw [Context.callee?_eq_some_iff, Callee.resolve_eq_ok_iff]
    refine ⟨h.lost_hasArrayOwner _ _, .asked ?_⟩
    change Callee.spread _ _ (255 + 1) [] [lost] = _
    rw [Callee.spread_eq_ok_iff]
    -- the call is made on the owner of the idiom, or on a class that has it from there
    by_cases hsame : lost = idiom.owner
    · exact .found rfl (hsame ▸ hdeclaring) hdeclared
    · have hundeclared : Callee.declaredIn? ⟨lost, idiom.name, "()V"⟩ .interface cls = none := by
        simp [Callee.declaredIn?, ClassDecl.method?, hmethods, handing, hsame, h.ne]
      have hqueue : [idiom.owner].dropWhile (· ∈ [lost]) = [idiom.owner] := by
        simp [Ne.symm hsame]
      refine .passed rfl hcls hundeclared ?_
      rw [hinterfaces]
      change Callee.spread _ _ (254 + 1) [lost] [idiom.owner] = _
      rw [Callee.spread_eq_ok_iff]
      exact .found hqueue hdeclaring hdeclared
  · have hcontains : config.isIdiom idiom.owner idiom.name = true :=
      List.contains_iff_mem.mpr hidiom
    simp only [Context.handsOn, Option.any_some, hhierarchy, Bool.true_and]
    exact hcontains

theorem exists_of_checked (hlength : above.length ≤ config.maxDepth)
    (hthrowable : .throwable ∈ name :: above) (hchecked : IsChecked (name :: above)) :
    ∃ other : Classpath, SameHierarchy classpath.lookup other.lookup ∧
      ¬ other.OnlyLoses config gone := by
  refine ⟨_, sameHierarchy_withMembers (fun _ => [idiom.owner]) (handing idiom name) classpath, ?_⟩
  intro hloses
  obtain ⟨stackTop, hstack⟩ := h.exists_signature List.mem_cons_self
  obtain ⟨body, hbody⟩ := (h.handsOver hidiom howner).not_found_sublist_of_checked hstack
    h.specific (h.ascent_withMembers _ _) hlength hthrowable hchecked
  exact hbody (hloses _ body)

end Handing

theorem exists_of_beyondLimit (h : classpath.Remnant config gone lost name (parent :: rest))
    {idiom : Idiom} (hidiom : idiom ∈ config.idioms)
    (howner : classpath.contains idiom.owner = true)
    (hdeep : config.maxDepth < (parent :: rest).length)
    (hchecked : IsChecked (name :: parent :: rest)) :
    ∃ other : Classpath, SameHierarchy classpath.lookup other.lookup ∧
      ¬ other.OnlyLoses config gone := by
  refine ⟨_, sameHierarchy_withMembers (fun _ => [idiom.owner]) (handing idiom name) classpath, ?_⟩
  intro hloses
  obtain ⟨stackTop, hstack⟩ := h.exists_signature (List.mem_cons_of_mem name List.mem_cons_self)
  have hdeclares := h.declares (fun _ => [idiom.owner]) (handing idiom name) [name] (by simp) (by
    by_cases hsame : name = idiom.owner <;> simp [handing, hsame, CallTarget.thrower])
  obtain ⟨body, hbody⟩ := (h.handsOver hidiom howner).not_found_sublist_of_beyondLimit hstack
    (h.beyondLimit _ _ hdeep) h.specific hchecked hdeclares
  exact hbody (hloses _ body)

/-- Whatever stands in the way of removing the class shows in some method. -/
theorem exists_not_onlyLoses (h : classpath.Remnant config gone lost name above)
    (hneeded : ¬ classpath.Unaided config name above) :
    ∃ other : Classpath, SameHierarchy classpath.lookup other.lookup ∧
      ¬ other.OnlyLoses config gone := by
  by_cases hdeep : config.maxDepth < above.length
  · obtain ⟨parent, rest, rfl⟩ := List.exists_cons_of_length_pos (Nat.zero_lt_of_lt hdeep)
    by_cases hchecked : IsChecked (name :: parent :: rest)
    · have hidiom : ¬ ∀ idiom ∈ config.idioms, classpath.contains idiom.owner = false :=
        fun hall => hneeded ⟨fun hunchecked => absurd hchecked hunchecked, fun _ => hall⟩
      simp only [not_forall, Bool.not_eq_false] at hidiom
      obtain ⟨idiom, hmem, howner⟩ := hidiom
      exact h.exists_of_beyondLimit hmem howner hdeep hchecked
    · exact h.exists_of_unchecked hdeep hchecked
  · have hlength : above.length ≤ config.maxDepth := Nat.le_of_not_lt hdeep
    simp only [Unaided, hlength, implies_true, true_and, hdeep, or_false, Classical.not_imp,
      not_forall, Bool.not_eq_false] at hneeded
    obtain ⟨⟨hthrowable, hchecked⟩, idiom, hmem, howner⟩ := hneeded
    exact h.exists_of_checked hmem howner hlength hthrowable hchecked

end Remnant

theorem expendable_of_onlyLoses (hnamed : classpath.WellNamed)
    (h : ∀ other : Classpath, SameHierarchy classpath.lookup other.lookup →
      other.OnlyLoses config gone) : classpath.Expendable config gone := by
  by_contra hneeded
  simp only [Expendable, not_or, not_forall, Bool.not_eq_false] at hneeded
  obtain ⟨hstrategy, hzero, ⟨lost, hgone, hcontains⟩, name, above, habove, hname, hall⟩ := hneeded
  have hhierarchy : config.strategy = .hierarchy := by
    cases hmode : config.strategy with
    | textual => exact absurd hmode hstrategy
    | hierarchy => rfl
  obtain ⟨other, hsame, hother⟩ := Remnant.exists_not_onlyLoses
    ⟨hhierarchy, Nat.pos_of_ne_zero hzero, hnamed, hcontains, hgone, habove, hname⟩ hall
  exact hother (h other hsame)

end Classpath

/-- Removing expendable classes costs findings only, whatever else the classes of the hierarchy
declare. If classes are not expendable, and the names of all classes can be written in code, some
methods of the classes make for a finding that is there only without them. -/
theorem expendable_onlyLoses (classpath : Classpath) (config : Config)
    (gone : List ClassName) :
    (classpath.Expendable config gone →
      ∀ other : Classpath, SameHierarchy classpath.lookup other.lookup →
        other.OnlyLoses config gone) ∧
      (classpath.WellNamed →
        (∀ other : Classpath, SameHierarchy classpath.lookup other.lookup →
          other.OnlyLoses config gone) →
        classpath.Expendable config gone) :=
  ⟨fun hexpendable _ hsame => (hsame.expendable hexpendable).onlyLoses,
    Classpath.expendable_of_onlyLoses⟩

/-- A checked exception and a class that wraps it. -/
def wrappedClasses : Classpath :=
  let checked := Classpath.javaLang.insert
    { name := ⟨"java.io.IOException"⟩, parent := some .exception }
  checked.insert { name := ⟨"a.Wrapped"⟩, parent := some ⟨"java.io.IOException"⟩ }

theorem expendable_onlyLoses_wrapped :
    wrappedClasses.Expendable { idioms := [] } [⟨"a.Wrapped"⟩] ∧
      wrappedClasses.OnlyLoses { idioms := [] } [⟨"a.Wrapped"⟩] ∧
      wrappedClasses.WellNamed ∧
      ¬ ∀ other : Classpath, SameHierarchy wrappedClasses.lookup other.lookup →
        other.OnlyLoses {} [⟨"a.Wrapped"⟩] := by
  have hexpendable : wrappedClasses.Expendable { idioms := [] } [⟨"a.Wrapped"⟩] := by
    refine Or.inr (Or.inr (Or.inr fun name above habove _ => ⟨fun _ => ?_, fun _ _ hidiom => ?_⟩))
    · have hsize : (wrappedClasses.without [⟨"a.Wrapped"⟩]).size = 6 := by decide
      have hlength := habove.length_lt_size
      change above.length ≤ 64
      omega
    · exact absurd hidiom List.not_mem_nil
  have hnamed : wrappedClasses.WellNamed := by decide +kernel
  refine ⟨hexpendable, (expendable_onlyLoses wrappedClasses _ _).1 hexpendable _ fun _ => rfl,
    hnamed, fun hloses => ?_⟩
  have habove : Ascent (wrappedClasses.without [⟨"a.Wrapped"⟩]).lookup ⟨"java.io.IOException"⟩
      [.exception, .throwable, .object] :=
    .step rfl rfl (.step rfl rfl (.step rfl rfl (.root rfl rfl)))
  have hchecked : IsChecked [⟨"java.io.IOException"⟩, .exception, .throwable, .object] :=
    ⟨by decide, by decide⟩
  rcases (expendable_onlyLoses wrappedClasses {} _).2 hnamed hloses with
    htextual | hzero | habsent | hall
  · cases htextual
  · cases hzero
  · exact absurd (habsent _ List.mem_cons_self) (by decide)
  · have hidioms := (hall _ _ habove (by decide)).2 (Or.inl ⟨by decide, hchecked⟩)
    exact absurd (hidioms ⟨.throwable, "initCause"⟩ (by decide)) (by decide)

end ExceptionFlow

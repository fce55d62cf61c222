import ExceptionFlow.Proofs.Resolution
import ExceptionFlow.Proofs.Settlement
/-!
What settling the events of a method comes to. Events are settled one after another and regions are
marked on the way, but no mark has a say in what is caught. So the outcome can be told from the
regions as they were at first, and the order of the events matters to nothing but the order of those
that escape. What covers a class covers the classes that descend from it.
-/
namespace ExceptionFlow

/-- Everything is caught, or every throwable, or a class that the exception descends from. -/
def Caught.Includes : Caught → Lineage → Prop
  | any, _ => True
  | type caught, lineage => caught.name = .throwable ∨ caught.name ∈ lineage.ancestors

instance (caught : Caught) (lineage : Lineage) : Decidable (caught.Includes lineage) :=
  match caught with
  | .any => inferInstanceAs (Decidable True)
  | .type _ => inferInstanceAs (Decidable (_ ∨ _))

namespace GuardedRegion

def Encloses (region : GuardedRegion) (event : ThrowEvent) : Prop :=
  region.start ≤ event.offset ∧ event.offset < region.stop

instance (region : GuardedRegion) (event : ThrowEvent) : Decidable (region.Encloses event) :=
  inferInstanceAs (Decidable (_ ∧ _))

/-- The region catches what it encloses. A throwable of unknown class is caught by every region that
encloses it. -/
def Takes (region : GuardedRegion) (event : ThrowEvent) : Prop :=
  region.Encloses event ∧
    (event.exception.name = .throwable ∨ region.caught.Includes event.exception)

instance (region : GuardedRegion) (event : ThrowEvent) : Decidable (region.Takes event) :=
  inferInstanceAs (Decidable (_ ∧ _))

theorem catches_eq_true_iff (region : GuardedRegion) (event : ThrowEvent) :
    region.catches event = true ↔ region.Takes event := by
  unfold catches Takes Encloses guards Lineage.isUnspecific Lineage.descendsFrom Caught.Includes
  cases region.caught <;> simp

end GuardedRegion

namespace Coverage

def TakenAt (regions : List GuardedRegion) (event : ThrowEvent) (index : Nat) : Prop :=
  ∃ region ∈ regions[index]?, region.Takes event

instance (regions : List GuardedRegion) (event : ThrowEvent) (index : Nat) :
    Decidable (TakenAt regions event index) :=
  inferInstanceAs (Decidable (∃ region ∈ regions[index]?, region.Takes event))

/-- The region at the index takes the event, and none before it does. -/
def FirstTakenAt (regions : List GuardedRegion) (event : ThrowEvent) (index : Nat) : Prop :=
  TakenAt regions event index ∧ ∀ earlier < index, ¬ TakenAt regions event earlier

instance (regions : List GuardedRegion) (event : ThrowEvent) (index : Nat) :
    Decidable (FirstTakenAt regions event index) :=
  inferInstanceAs (Decidable (_ ∧ _))

/-- The exception is not just any throwable, no region that encloses the event catches its class,
and the clause has neither the root of all exceptions nor a class that it descends from. -/
def Escapes (clause : ThrowsClause) (regions : List GuardedRegion) (event : ThrowEvent) : Prop :=
  event.exception.name ≠ .throwable ∧
    (∀ region ∈ regions, region.Encloses event → ¬ region.caught.Includes event.exception) ∧
    .exception ∉ clause ∧ ∀ name ∈ event.exception.ancestors, name ∉ clause

instance (clause : ThrowsClause) (regions : List GuardedRegion) (event : ThrowEvent) :
    Decidable (Escapes clause regions event) :=
  inferInstanceAs (Decidable (_ ∧ _))

theorem takenAt_iff_getElem {regions : List GuardedRegion} {event : ThrowEvent} {index : Nat}
    (hindex : index < regions.length) :
    TakenAt regions event index ↔ regions[index].Takes event := by
  simp [TakenAt, List.getElem?_eq_getElem hindex]

theorem findIdx?_eq_some_iff (regions : List GuardedRegion) (event : ThrowEvent) (index : Nat) :
    (regions.findIdx? fun region => region.catches event) = some index ↔
      FirstTakenAt regions event index := by
  simp only [List.findIdx?_eq_some_iff_getElem, GuardedRegion.catches_eq_true_iff]
  constructor
  · rintro ⟨hindex, htakes, hbefore⟩
    refine ⟨(takenAt_iff_getElem hindex).mpr htakes, ?_⟩
    intro earlier hearlier
    rw [takenAt_iff_getElem (Nat.lt_trans hearlier hindex)]
    exact hbefore earlier hearlier
  · rintro ⟨⟨region, hregion, htakes⟩, hbefore⟩
    obtain ⟨hindex, rfl⟩ := List.getElem?_eq_some_iff.mp hregion
    refine ⟨hindex, htakes, ?_⟩
    intro earlier hearlier
    rw [← takenAt_iff_getElem]
    exact hbefore earlier hearlier

/-- The regions, those at the given places marked. A mark that was there stays. -/
def mark (taken : Nat → Bool) (regions : List GuardedRegion) : List GuardedRegion :=
  regions.mapIdx fun index region => { region with covered := region.covered || taken index }

theorem getElem?_mark (taken : Nat → Bool) (regions : List GuardedRegion) (index : Nat) :
    (mark taken regions)[index]? = regions[index]?.map fun region =>
      { region with covered := region.covered || taken index } := by
  simp [mark]

theorem mark_nowhere (regions : List GuardedRegion) : mark (fun _ => false) regions = regions := by
  apply List.ext_getElem?
  intro index
  simp [getElem?_mark]

theorem mark_mark (first second : Nat → Bool) (regions : List GuardedRegion) :
    mark second (mark first regions) = mark (fun index => first index || second index) regions := by
  apply List.ext_getElem?
  intro index
  simp [getElem?_mark, Function.comp_def, Bool.or_assoc]

/-- Marks have no say in who takes an event. -/
theorem takenAt_mark (taken : Nat → Bool) (regions : List GuardedRegion) (event : ThrowEvent)
    (index : Nat) : TakenAt (mark taken regions) event index ↔ TakenAt regions event index := by
  unfold TakenAt
  rw [getElem?_mark]
  cases regions[index]? with
  | none => simp
  | some region => simp [GuardedRegion.Takes, GuardedRegion.Encloses]

theorem firstTakenAt_mark (taken : Nat → Bool) (regions : List GuardedRegion) (event : ThrowEvent)
    (index : Nat) :
    FirstTakenAt (mark taken regions) event index ↔ FirstTakenAt regions event index := by
  simp only [FirstTakenAt, takenAt_mark]

theorem settle_eq_mark (clause : ThrowsClause) (event : ThrowEvent)
    (regions : List GuardedRegion) :
    (settle clause event regions).2 =
      mark (fun index => decide (FirstTakenAt regions event index)) regions := by
  apply List.ext_getElem?
  intro place
  rw [getElem?_mark]
  unfold settle
  cases hfind : regions.findIdx? fun region => region.catches event with
  | none =>
      have hnone : ¬ FirstTakenAt regions event place := by
        rw [← findIdx?_eq_some_iff, hfind]
        exact nofun
      simp [hnone]
  | some index =>
      have htaken : FirstTakenAt regions event place ↔ index = place := by
        rw [← findIdx?_eq_some_iff, hfind, Option.some.injEq]
      simp only [htaken, List.getElem?_modify]
      by_cases heq : index = place
      · simp [heq, GuardedRegion.markCovered]
      · simp [heq]

/-- After all events a region is marked if it was before or if it is the first to take one of
them. -/
theorem settleAll_eq_mark (clause : ThrowsClause) (events : List ThrowEvent)
    (regions : List GuardedRegion) :
    (settleAll clause events regions).2 =
      mark (fun index => decide (∃ event ∈ events, FirstTakenAt regions event index)) regions := by
  induction events generalizing regions with
  | nil =>
      simp only [List.not_mem_nil, false_and, exists_false, decide_false, mark_nowhere]
      rfl
  | cons event events ih =>
      rw [settleAll, ih, settle_eq_mark, mark_mark]
      congr 1
      funext index
      simp only [firstTakenAt_mark, List.mem_cons, exists_eq_or_imp, Bool.decide_or]

theorem stopped_eq_false_iff (event : ThrowEvent) (regions : List GuardedRegion) :
    stopped event (regions.map GuardedRegion.row) = false ↔
      ∀ region ∈ regions, ¬ region.Takes event := by
  simp only [stopped, List.any_map, List.any_eq_false, Function.comp_def,
    ← GuardedRegion.catches_eq, GuardedRegion.catches_eq_true_iff]

theorem allows_eq_false_iff (clause : ThrowsClause) (event : ThrowEvent) :
    clause.allows event = false ↔
      event.exception.name ≠ .throwable ∧ .exception ∉ clause ∧
        ∀ name ∈ event.exception.ancestors, name ∉ clause := by
  simp only [ThrowsClause.allows, Lineage.isUnspecific, ThrowsClause.declaresRoot,
    Lineage.descendsFrom, Bool.or_eq_false_iff, decide_eq_false_iff_not, List.any_eq_false,
    List.contains_iff_mem, and_assoc]
  refine and_congr_right fun _ => and_congr_right fun _ => ?_
  constructor
  · rintro ⟨-, hentries⟩ name hancestor hmem
    exact hentries name hmem hancestor
  · intro hundeclared
    refine ⟨hundeclared _ event.exception.own, ?_⟩
    intro name hmem hancestor
    exact hundeclared name hancestor hmem

/-- What escapes is told by the regions as they were at first. -/
theorem escaped_eq_filter (clause : ThrowsClause) (events : List ThrowEvent)
    (regions : List GuardedRegion) :
    escaped (settleAll clause events regions).1 =
      events.filter fun event => Escapes clause regions event := by
  rw [escaped_settleAll]
  apply List.filter_congr
  intro event _
  rw [Bool.eq_iff_iff, Bool.and_eq_true, Bool.not_eq_true', Bool.not_eq_true',
    stopped_eq_false_iff, allows_eq_false_iff, decide_eq_true_iff]
  constructor
  · rintro ⟨huntaken, hspecific, hroot, hundeclared⟩
    refine ⟨hspecific, ?_, hroot, hundeclared⟩
    intro region hregion hencloses hincludes
    exact huntaken region hregion ⟨hencloses, Or.inr hincludes⟩
  · rintro ⟨hspecific, huncaught, hroot, hundeclared⟩
    refine ⟨?_, hspecific, hroot, hundeclared⟩
    rintro region hregion ⟨hencloses, hthrowable | hincludes⟩
    · exact hspecific hthrowable
    · exact huncaught region hregion hencloses hincludes

/-- An unspecific throwable in front of an exception that the second of two overlapping regions
takes, and one that neither encloses. -/
def nestedEvents : List ThrowEvent :=
  [⟨.singleton .throwable, 3⟩, ⟨.ofAncestors ⟨"java.io.IOException"⟩ [.exception, .throwable], 3⟩,
    ⟨.ofAncestors ⟨"java.io.IOException"⟩ [.exception, .throwable], 9⟩]

def nestedRegions : List GuardedRegion :=
  [{ caught := .type (.singleton .error), start := 0, stop := 4, handler := 20 },
    { caught := .type (.singleton .exception), start := 2, stop := 9, handler := 30 },
    { caught := .any, start := 9, stop := 2, handler := 40 }]

end Coverage

open Coverage

/-- Settling is exact. The events that escape are those that nothing takes and nothing declares, in
order and as often as they were thrown. The regions are as before but for the marks of those that
are the first to take an event. So events in another order leave the same regions and let the same
events escape. -/
theorem settleAll_exact (clause : ThrowsClause) (events : List ThrowEvent)
    (regions : List GuardedRegion) :
    escaped (settleAll clause events regions).1 =
        (events.filter fun event => Escapes clause regions event) ∧
      (settleAll clause events regions).2 =
        mark (fun index => ∃ event ∈ events, FirstTakenAt regions event index) regions ∧
      ∀ others, events.Perm others →
        (escaped (settleAll clause events regions).1).Perm
            (escaped (settleAll clause others regions).1) ∧
          (settleAll clause events regions).2 = (settleAll clause others regions).2 := by
  refine ⟨escaped_eq_filter clause events regions, settleAll_eq_mark clause events regions, ?_⟩
  intro others hperm
  constructor
  · rw [escaped_settleAll, escaped_settleAll]
    exact hperm.filter _
  · simp only [settleAll_eq_mark, hperm.mem_iff]

theorem settleAll_exact_nested :
    (nestedEvents.filter fun event => Escapes {} nestedRegions event) = nestedEvents.drop 2 ∧
      escaped (settleAll {} nestedEvents nestedRegions).1 =
        nestedEvents.filter (fun event => Escapes {} nestedRegions event) ∧
      (settleAll {} nestedEvents nestedRegions).2 =
        mark (fun index => ∃ event ∈ nestedEvents, FirstTakenAt nestedRegions event index)
          nestedRegions ∧
      (settleAll {} nestedEvents nestedRegions).2 =
        (settleAll {} nestedEvents.reverse nestedRegions).2 := by
  obtain ⟨hescaped, hregions, hothers⟩ := settleAll_exact {} nestedEvents nestedRegions
  exact ⟨by decide, hescaped, hregions, (hothers _ (List.reverse_perm _).symm).2⟩

namespace Context

variable {context : Context} {upper lower : Lineage}

/-- The ancestors of an ancestor are ancestors, whichever memos the two lineages come from. -/
theorem Admits.ancestors_subset (hmode : context.usesHierarchy = true)
    (hupper : context.Admits upper) (hlower : context.Admits lower)
    (hdescends : upper.name ∈ lower.ancestors) : upper.ancestors ⊆ lower.ancestors := by
  obtain ⟨above, habove, hancestors, -⟩ := hlower.ascent hmode
  obtain ⟨top, htop, htops, -⟩ := hupper.ascent hmode
  rw [hancestors] at hdescends
  rw [hancestors, htops]
  rcases List.mem_cons.mp hdescends with heq | hmem
  · rw [heq] at htop
    rw [heq, htop.unique habove]
    exact List.Subset.refl _
  · obtain ⟨before, after, hsplit⟩ := List.append_of_mem hmem
    rw [hsplit] at habove ⊢
    rw [htop.unique habove.of_append]
    exact List.subset_cons_of_subset _ (List.subset_append_right _ _)

end Context

section Descent

variable {upper lower : Lineage} {offset : Nat}

theorem GuardedRegion.Takes.of_subset (hspecific : upper.name ≠ .throwable)
    (hsubset : upper.ancestors ⊆ lower.ancestors) {region : GuardedRegion}
    (h : region.Takes ⟨upper, offset⟩) : region.Takes ⟨lower, offset⟩ := by
  obtain ⟨hencloses, hincludes⟩ := h
  replace hincludes := hincludes.resolve_left hspecific
  refine ⟨hencloses, Or.inr ?_⟩
  cases hcaught : region.caught with
  | any => trivial
  | type caught =>
      rw [hcaught] at hincludes
      exact hincludes.imp_right (hsubset ·)

theorem ThrowsClause.allows_of_subset (clause : ThrowsClause)
    (hspecific : upper.name ≠ .throwable)
    (hsubset : upper.ancestors ⊆ lower.ancestors) (h : clause.allows ⟨upper, offset⟩ = true) :
    clause.allows ⟨lower, offset⟩ = true := by
  simp only [allows, Lineage.isUnspecific, Lineage.descendsFrom, Bool.or_eq_true,
    decide_eq_true_eq, List.any_eq_true, List.contains_iff_mem] at h ⊢
  rcases h with ((hthrowable | hroot) | hmem) | ⟨name, hmem, hancestor⟩
  · exact absurd hthrowable hspecific
  · exact Or.inl (Or.inl (Or.inr hroot))
  · exact Or.inr ⟨upper.name, hmem, hsubset upper.own⟩
  · exact Or.inr ⟨name, hmem, hsubset hancestor⟩

end Descent

def rootsContext : Context :=
  .new {} Classpath.javaLang.lookup fun _ => .ok ()

/-- What covers a class covers the classes that descend from it, whichever memos they were resolved
with. Of a throwable of unknown class this does not hold: it is never held against a method, and
those that descend from it are. -/
theorem covered_of_descends (context : Context) (memo other : Memo) (ancestor name : ClassName)
    (upper lower : Lineage) (offset : Nat) (hmode : context.usesHierarchy = true)
    (hmemo : memo.Reachable context) (hother : other.Reachable context)
    (hupper : ((context.resolve ancestor).run memo).value = .ok upper)
    (hlower : ((context.resolve name).run other).value = .ok lower)
    (hdescends : ancestor ∈ lower.ancestors) (hspecific : ancestor ≠ .throwable) :
    (∀ region : GuardedRegion,
        region.catches ⟨upper, offset⟩ = true → region.catches ⟨lower, offset⟩ = true) ∧
      (∀ clause : ThrowsClause,
        clause.allows ⟨upper, offset⟩ = true → clause.allows ⟨lower, offset⟩ = true) ∧
      ∀ clause regions,
        (∃ index, (settle clause ⟨upper, offset⟩ regions).1 = .caught index) ∨
            (settle clause ⟨upper, offset⟩ regions).1 = .declared →
          (settle clause ⟨lower, offset⟩ regions).1 ≠ .uncovered := by
  obtain ⟨rfl, hadmits⟩ :=
    (Context.resolve_answers hmemo ancestor).sound upper (by rw [hupper]; rfl)
  obtain ⟨rfl, hadmitsLower⟩ :=
    (Context.resolve_answers hother name).sound lower (by rw [hlower]; rfl)
  have hsubset := hadmits.ancestors_subset hmode hadmitsLower hdescends
  have hcatches : ∀ region : GuardedRegion,
      region.catches ⟨upper, offset⟩ = true → region.catches ⟨lower, offset⟩ = true := by
    intro region
    rw [GuardedRegion.catches_eq_true_iff, GuardedRegion.catches_eq_true_iff]
    exact GuardedRegion.Takes.of_subset hspecific hsubset
  have hallows : ∀ clause : ThrowsClause,
      clause.allows ⟨upper, offset⟩ = true → clause.allows ⟨lower, offset⟩ = true :=
    fun clause => clause.allows_of_subset hspecific hsubset
  refine ⟨hcatches, hallows, ?_⟩
  intro clause regions hcovered huncovered
  -- nothing covers the descendant, so nothing covers its ancestor
  have hupperUncovered : (settle clause ⟨upper, offset⟩ regions).1 = .uncovered := by
    rw [settle_eq_uncovered_iff, stopped_eq_false_iff] at huncovered ⊢
    obtain ⟨huntaken, hforbidden⟩ := huncovered
    constructor
    · intro region hregion htakes
      exact huntaken region hregion (htakes.of_subset hspecific hsubset)
    · rw [Bool.eq_false_iff] at hforbidden ⊢
      exact mt (hallows clause) hforbidden
  rw [hupperUncovered] at hcovered
  rcases hcovered with ⟨index, hcaught⟩ | hdeclared
  · cases hcaught
  · cases hdeclared

/-- The root of all exceptions is resolved afresh, the runtime exceptions through a memo that knows
their superclass. -/
theorem covered_of_descends_runtime :
    ∃ upper lower : Lineage,
      ((rootsContext.resolve .exception).run {}).value = .ok upper ∧
      ((rootsContext.resolve .runtimeException).run
        ((rootsContext.resolve .exception).run {}).memo).value = .ok lower ∧
      .exception ∈ lower.ancestors ∧ ClassName.exception ≠ .throwable ∧
      (settle {} ⟨upper, 3⟩ nestedRegions).1 = .caught 1 ∧
      (settle {} ⟨lower, 3⟩ nestedRegions).1 ≠ .uncovered := by
  have hother : ((rootsContext.resolve .exception).run {}).memo.Reachable rootsContext :=
    .resolve .empty _
  refine ⟨.ofAncestors .exception [.throwable, .object],
    .ofAncestors .runtimeException [.exception, .throwable, .object], by rfl, by rfl,
    by decide, by decide, by decide, ?_⟩
  obtain ⟨-, -, hsettle⟩ := covered_of_descends rootsContext {} _ .exception .runtimeException _ _ 3
    rfl .empty hother (by rfl) (by rfl) (by decide) (by decide)
  exact hsettle {} nestedRegions (Or.inl ⟨1, by decide⟩)

end ExceptionFlow

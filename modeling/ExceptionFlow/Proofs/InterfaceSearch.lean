import ExceptionFlow.Proofs.CallSearch
import Mathlib.Data.List.TakeWhile
import Mathlib.Data.Set.Card
/-!
The search among interfaces. It goes from the roots outwards, one link at a time: what is queued
lies on the level that is searched now or on the next one, and all that lies closer has been asked.
Each interface is looked up once, so the search ends even where the interfaces run in circles or
never end.
-/
namespace ExceptionFlow

/-- The search looks up these classes, in this order, and no others. -/
structure Consults {α : Type} (search : ClassSource → Except Failure α) (source : ClassSource)
    (names : List ClassName) : Prop where
  /-- The answer rests on these classes alone. -/
  enough : ∀ other : ClassSource, (∀ name ∈ names, other name = source name) →
    search other = search source
  /-- A class that fails after those before it have answered ends the search. -/
  each : ∀ before name after, names = before ++ name :: after →
    ∀ (other : ClassSource) (failure : Failure),
      (∀ earlier ∈ before, other earlier = source earlier) →
      other name = .error failure → search other = .error failure

namespace Consults

variable {α : Type} {search next : ClassSource → Except Failure α} {source : ClassSource}
  {name : ClassName} {names : List ClassName}

theorem nil (hsearch : ∀ other, search other = search source) : Consults search source [] where
  enough other _ := hsearch other
  each before name after hnames := by simp at hnames

theorem failed {failure : Failure} (hname : source name = .error failure)
    (hfails : ∀ other refused, other name = .error refused → search other = .error refused) :
    Consults search source [name] where
  enough other hsame := by
    have hother : other name = .error failure := (hsame name List.mem_cons_self).trans hname
    rw [hfails other failure hother, hfails source failure hname]
  each before later after hsplit other refused _ hlater := by
    rcases List.cons_eq_append_iff.mp hsplit with ⟨_, hhead⟩ | ⟨passed, _, hrest⟩
    · obtain ⟨rfl, _⟩ := List.cons.inj hhead
      exact hfails other refused hlater
    · simp at hrest

theorem answered {cls : ClassDecl} (hname : source name = .ok cls)
    (hfails : ∀ other refused, other name = .error refused → search other = .error refused)
    (hstep : ∀ other, other name = .ok cls → search other = next other)
    (hnext : Consults next source names) : Consults search source (name :: names) where
  enough other hsame := by
    obtain ⟨hother, hnames⟩ := List.forall_mem_cons.mp hsame
    calc
      search other = next other := hstep other (hother.trans hname)
      _ = next source := hnext.enough other hnames
      _ = search source := (hstep source hname).symm
  each before later after hsplit other refused hsame hlater := by
    rcases List.cons_eq_append_iff.mp hsplit with ⟨_, hhead⟩ | ⟨passed, rfl, hrest⟩
    · obtain ⟨rfl, _⟩ := List.cons.inj hhead
      exact hfails other refused hlater
    · obtain ⟨hother, hpassed⟩ := List.forall_mem_cons.mp hsame
      rw [hstep other (hother.trans hname)]
      exact hnext.each passed later after hrest other refused hpassed hlater

end Consults

namespace ClassSource

/-- So many links from an interface to one that it extends lead from a root to this name. -/
inductive Links (source : ClassSource) (roots : List ClassName) : Nat → ClassName → Prop where
  | root {name : ClassName} (hroot : name ∈ roots) : Links source roots 0 name
  | extend {links : Nat} {name next : ClassName} {cls : ClassDecl}
      (hname : Links source roots links name) (hcls : source name = .ok cls)
      (hnext : next ∈ cls.interfaces) : Links source roots (links + 1) next

/-- The interfaces that any number of links lead to. -/
def interfacesFrom (source : ClassSource) (roots : List ClassName) : Set ClassName :=
  {name | ∃ links, source.Links roots links name}

end ClassSource

/-- The method that a call means if it comes to this class: the first one of its name and
descriptor, and static exactly for static calls. -/
def ClassDecl.Declares (cls : ClassDecl) (target : CallTarget) (dispatch : Dispatch)
    (method : MethodDecl) : Prop :=
  cls.method? target.name target.descriptor = some method ∧
    (method.isStatic = true ↔ dispatch = .static)

namespace Callee

variable {source : ClassSource} {declared? : ClassDecl → Option Callee} {roots : List ClassName}
  {budget links : Nat} {visited queue waiting near far : List ClassName} {name : ClassName}

theorem declaredIn?_eq_some_iff (target : CallTarget) (dispatch : Dispatch) (cls : ClassDecl)
    (callee : Callee) :
    declaredIn? target dispatch cls = some callee ↔
      callee.owner = cls.name ∧ cls.Declares target dispatch callee.method := by
  obtain ⟨owner, method⟩ := callee
  unfold declaredIn? ClassDecl.Declares
  cases hmethod : cls.method? target.name target.descriptor with
  | none => simp
  | some first =>
      have hstatic : first.isStatic = decide (dispatch = .static) ↔
          (first.isStatic = true ↔ dispatch = .static) := by
        rw [Bool.eq_iff_iff, decide_eq_true_eq]
      by_cases hfirst : first.isStatic = decide (dispatch = .static)
      · simp only [hfirst, if_true, Option.some.injEq, Callee.mk.injEq]
        constructor
        · rintro ⟨rfl, rfl⟩
          exact ⟨rfl, rfl, hstatic.mp hfirst⟩
        · rintro ⟨rfl, rfl, _⟩
          exact ⟨rfl, rfl⟩
      · simp only [hfirst, if_false, Option.some.injEq, reduceCtorEq, false_iff]
        rintro ⟨_, rfl, hmatch⟩
        exact hfirst (hstatic.mpr hmatch)

theorem declaredIn?_eq_none_iff (target : CallTarget) (dispatch : Dispatch) (cls : ClassDecl) :
    declaredIn? target dispatch cls = none ↔ ∀ method, ¬ cls.Declares target dispatch method := by
  constructor
  · intro hnone method hdeclares
    have hsome := (declaredIn?_eq_some_iff target dispatch cls ⟨cls.name, method⟩).mpr
      ⟨rfl, hdeclares⟩
    rw [hnone] at hsome
    cases hsome
  · intro hnever
    cases hdeclared : declaredIn? target dispatch cls with
    | none => rfl
    | some callee =>
        obtain ⟨_, hdeclares⟩ := (declaredIn?_eq_some_iff target dispatch cls callee).mp hdeclared
        exact absurd hdeclares (hnever callee.method)

theorem not_mem_of_dropWhile (hqueue : queue.dropWhile (· ∈ visited) = name :: waiting) :
    name ∉ visited := by
  have hhead := List.head?_dropWhile_not (fun other => decide (other ∈ visited)) queue
  rw [hqueue] at hhead
  simpa using hhead

/-- The interfaces that the search looks up, in order. -/
def asked (source : ClassSource) (declared? : ClassDecl → Option Callee) :
    (budget : Nat) → (visited queue : List ClassName) → List ClassName
  | budget, visited, queue =>
    match queue.dropWhile (· ∈ visited), budget with
    | [], _ => []
    | _ :: _, 0 => []
    | name :: waiting, budget + 1 =>
      match source name with
      | .error _ => [name]
      | .ok cls =>
        if (declared? cls).isSome then [name]
        else name :: asked source declared? budget (name :: visited) (waiting ++ cls.interfaces)

theorem asked_zero : asked source declared? 0 visited queue = [] := by
  unfold asked
  cases queue.dropWhile (· ∈ visited) <;> rfl

theorem asked_done (hqueue : queue.dropWhile (· ∈ visited) = []) :
    asked source declared? budget visited queue = [] := by
  unfold asked
  simp [hqueue]

theorem asked_failed (hqueue : queue.dropWhile (· ∈ visited) = name :: waiting)
    {failure : Failure} (hcls : source name = .error failure) :
    asked source declared? (budget + 1) visited queue = [name] := by
  unfold asked
  simp [hqueue, hcls]

theorem asked_found (hqueue : queue.dropWhile (· ∈ visited) = name :: waiting) {cls : ClassDecl}
    (hcls : source name = .ok cls) {callee : Callee} (hdeclared : declared? cls = some callee) :
    asked source declared? (budget + 1) visited queue = [name] := by
  unfold asked
  simp [hqueue, hcls, hdeclared]

theorem asked_passed (hqueue : queue.dropWhile (· ∈ visited) = name :: waiting) {cls : ClassDecl}
    (hcls : source name = .ok cls) (hdeclared : declared? cls = none) :
    asked source declared? (budget + 1) visited queue =
      name :: asked source declared? budget (name :: visited) (waiting ++ cls.interfaces) := by
  conv_lhs => unfold asked
  simp [hqueue, hcls, hdeclared]

theorem spread_consults (source : ClassSource) (declared? : ClassDecl → Option Callee)
    (budget : Nat) (visited queue : List ClassName) :
    Consults (fun other => spread other declared? budget visited queue) source
      (asked source declared? budget visited queue) := by
  induction budget generalizing visited queue with
  | zero =>
      rw [asked_zero]
      refine .nil fun other => ?_
      cases hqueue : queue.dropWhile (· ∈ visited) with
      | nil => rw [spread_done hqueue, spread_done hqueue]
      | cons name waiting => rw [spread_overrun hqueue, spread_overrun hqueue]
  | succ budget ih =>
      cases hqueue : queue.dropWhile (· ∈ visited) with
      | nil =>
          rw [asked_done hqueue]
          exact .nil fun other => by rw [spread_done hqueue, spread_done hqueue]
      | cons name waiting =>
          have hfails : ∀ (other : ClassSource) (refused : Failure), other name = .error refused →
              spread other declared? (budget + 1) visited queue = .error refused :=
            fun other refused hother => spread_failed hqueue hother
          cases hcls : source name with
          | error failure =>
              rw [asked_failed hqueue hcls]
              exact .failed hcls hfails
          | ok cls =>
              cases hdeclared : declared? cls with
              | some callee =>
                  rw [asked_found hqueue hcls hdeclared]
                  exact .answered hcls hfails
                    (fun other hother => spread_found hqueue hother hdeclared)
                    (.nil fun _ => rfl)
              | none =>
                  rw [asked_passed hqueue hcls hdeclared]
                  exact .answered hcls hfails
                    (fun other hother => spread_passed hqueue hother hdeclared) (ih _ _)

theorem nodup_asked (source : ClassSource) (declared? : ClassDecl → Option Callee) (budget : Nat)
    (visited queue : List ClassName) :
    (asked source declared? budget visited queue).Nodup ∧
      (∀ name ∈ asked source declared? budget visited queue, name ∉ visited) ∧
      (asked source declared? budget visited queue).length ≤ budget := by
  induction budget generalizing visited queue with
  | zero => simp [asked_zero]
  | succ budget ih =>
      cases hqueue : queue.dropWhile (· ∈ visited) with
      | nil => simp [asked_done hqueue]
      | cons name waiting =>
          have hfresh := not_mem_of_dropWhile hqueue
          cases hcls : source name with
          | error failure => simp [asked_failed hqueue hcls, hfresh]
          | ok cls =>
              cases hdeclared : declared? cls with
              | some callee => simp [asked_found hqueue hcls hdeclared, hfresh]
              | none =>
                  obtain ⟨hnodup, hnew, hlength⟩ := ih (name :: visited) (waiting ++ cls.interfaces)
                  rw [asked_passed hqueue hcls hdeclared]
                  refine ⟨List.nodup_cons.mpr ⟨?_, hnodup⟩, ?_, Nat.succ_le_succ hlength⟩
                  · exact fun hmem => hnew name hmem List.mem_cons_self
                  · refine List.forall_mem_cons.mpr ⟨hfresh, ?_⟩
                    exact fun other hother hvisited =>
                      hnew other hother (List.mem_cons_of_mem name hvisited)

/-- The interfaces that were asked, and the queue in two parts: interfaces as many links away as the
level that is searched, and behind them interfaces one link further. -/
structure Frontier (source : ClassSource) (declared? : ClassDecl → Option Callee)
    (roots : List ClassName) (links : Nat) (visited near far : List ClassName) : Prop where
  passed : ∀ name ∈ visited, ∃ cls, source name = .ok cls ∧ declared? cls = none ∧
    ∀ next ∈ cls.interfaces, next ∈ visited ∨ next ∈ near ∨ next ∈ far
  reached : ∀ name ∈ visited, name ∈ source.interfacesFrom roots
  atLevel : ∀ name ∈ near, source.Links roots links name
  beyond : ∀ name ∈ far, source.Links roots (links + 1) name
  closer : ∀ fewer < links, ∀ name, source.Links roots fewer name → name ∈ visited
  level : ∀ name, source.Links roots links name → name ∈ visited ∨ name ∈ near

namespace Frontier

theorem start (source : ClassSource) (declared? : ClassDecl → Option Callee)
    (roots : List ClassName) : Frontier source declared? roots 0 [] roots [] where
  passed := by simp
  reached := by simp
  atLevel name hname := .root hname
  beyond := by simp
  closer := by simp
  level name hname := by
    cases hname with
    | root hroot => exact Or.inr hroot

theorem skip (h : Frontier source declared? roots links visited (name :: near) far)
    (hname : name ∈ visited) : Frontier source declared? roots links visited near far where
  passed other hother := by
    obtain ⟨cls, hcls, hdeclared, hnext⟩ := h.passed other hother
    refine ⟨cls, hcls, hdeclared, fun next hmem => ?_⟩
    rcases hnext next hmem with hvisited | hnear | hfar
    · exact Or.inl hvisited
    · rcases List.mem_cons.mp hnear with rfl | hnear
      · exact Or.inl hname
      · exact Or.inr (Or.inl hnear)
    · exact Or.inr (Or.inr hfar)
  reached := h.reached
  atLevel other hother := h.atLevel other (List.mem_cons_of_mem name hother)
  beyond := h.beyond
  closer := h.closer
  level other hother := by
    rcases h.level other hother with hvisited | hnear
    · exact Or.inl hvisited
    · rcases List.mem_cons.mp hnear with rfl | hnear
      · exact Or.inl hname
      · exact Or.inr hnear

/-- When a level has been searched, the next one is the one that was queued meanwhile. -/
theorem advance (h : Frontier source declared? roots links visited [] far) :
    Frontier source declared? roots (links + 1) visited far [] where
  passed other hother := by
    obtain ⟨cls, hcls, hdeclared, hnext⟩ := h.passed other hother
    refine ⟨cls, hcls, hdeclared, fun next hmem => ?_⟩
    rcases hnext next hmem with hvisited | hnear | hfar
    · exact Or.inl hvisited
    · cases hnear
    · exact Or.inr (Or.inl hfar)
  reached := h.reached
  atLevel := h.beyond
  beyond := by simp
  closer fewer hfewer other hother := by
    rcases Nat.lt_succ_iff_lt_or_eq.mp hfewer with hless | rfl
    · exact h.closer fewer hless other hother
    · exact (h.level other hother).resolve_right List.not_mem_nil
  level other hother := by
    cases hother with
    | extend hname hcls hnext =>
        have hvisited := (h.level _ hname).resolve_right List.not_mem_nil
        obtain ⟨cls, hother, _, hlinks⟩ := h.passed _ hvisited
        rw [hcls] at hother
        obtain rfl := Except.ok.inj hother
        rcases hlinks other hnext with hmem | hnear | hfar
        · exact Or.inl hmem
        · cases hnear
        · exact Or.inr hfar

/-- An interface that declares nothing puts the interfaces it extends on the next level. -/
theorem pass (h : Frontier source declared? roots links visited (name :: near) far)
    {cls : ClassDecl} (hcls : source name = .ok cls) (hdeclared : declared? cls = none) :
    Frontier source declared? roots links (name :: visited) near (far ++ cls.interfaces) where
  passed := by
    refine List.forall_mem_cons.mpr ⟨⟨cls, hcls, hdeclared, fun next hnext => ?_⟩, ?_⟩
    · exact Or.inr (Or.inr (List.mem_append_right far hnext))
    · intro other hother
      obtain ⟨found, hfound, hnone, hnext⟩ := h.passed other hother
      refine ⟨found, hfound, hnone, fun next hmem => ?_⟩
      rcases hnext next hmem with hvisited | hnear | hfar
      · exact Or.inl (List.mem_cons_of_mem name hvisited)
      · rcases List.mem_cons.mp hnear with rfl | hnear
        · exact Or.inl List.mem_cons_self
        · exact Or.inr (Or.inl hnear)
      · exact Or.inr (Or.inr (List.mem_append_left _ hfar))
  reached := List.forall_mem_cons.mpr ⟨⟨links, h.atLevel name List.mem_cons_self⟩, h.reached⟩
  atLevel other hother := h.atLevel other (List.mem_cons_of_mem name hother)
  beyond := by
    refine List.forall_mem_append.mpr ⟨h.beyond, fun next hnext => ?_⟩
    exact .extend (h.atLevel name List.mem_cons_self) hcls hnext
  closer fewer hfewer other hother :=
    List.mem_cons_of_mem name (h.closer fewer hfewer other hother)
  level other hother := by
    rcases h.level other hother with hvisited | hnear
    · exact Or.inl (List.mem_cons_of_mem name hvisited)
    · rcases List.mem_cons.mp hnear with rfl | hnear
      · exact Or.inl List.mem_cons_self
      · exact Or.inr hnear

/-- The next interface to be asked lies on the level that is searched then. -/
theorem exists_next (h : Frontier source declared? roots links visited near far)
    (hqueue : (near ++ far).dropWhile (· ∈ visited) = name :: waiting) :
    ∃ level here beyond, waiting = here ++ beyond ∧
      Frontier source declared? roots level visited (name :: here) beyond := by
  have hlevel : ∀ {links : Nat} {near far : List ClassName},
      Frontier source declared? roots links visited near far →
      (near ++ far).dropWhile (· ∈ visited) = name :: waiting →
      (∃ here, waiting = here ++ far ∧
          Frontier source declared? roots links visited (name :: here) far) ∨
        far.dropWhile (· ∈ visited) = name :: waiting ∧
          Frontier source declared? roots links visited [] far := by
    intro links near far h hqueue
    induction near with
    | nil => exact Or.inr ⟨hqueue, h⟩
    | cons first near ih =>
        by_cases hfirst : first ∈ visited
        · rw [List.cons_append, List.dropWhile_cons_of_pos (by simpa using hfirst)] at hqueue
          exact ih (h.skip hfirst) hqueue
        · rw [List.cons_append, List.dropWhile_cons_of_neg (by simpa using hfirst)] at hqueue
          obtain ⟨rfl, rfl⟩ := List.cons.inj hqueue
          exact Or.inl ⟨near, rfl, h⟩
  rcases hlevel h hqueue with ⟨here, hwaiting, hfrontier⟩ | ⟨hfar, hempty⟩
  · exact ⟨links, here, far, hwaiting, hfrontier⟩
  · rw [← List.append_nil far] at hfar
    rcases hlevel hempty.advance hfar with ⟨here, hwaiting, hfrontier⟩ | ⟨hnil, _⟩
    · exact ⟨links + 1, here, [], hwaiting, hfrontier⟩
    · simp at hnil

/-- Once all that is queued has been asked, so has all that can be reached. -/
theorem mem_visited (h : Frontier source declared? roots links visited near far)
    (hqueue : ∀ name ∈ near ++ far, name ∈ visited) :
    ∀ name ∈ source.interfacesFrom roots, name ∈ visited := by
  obtain ⟨hnear, hfar⟩ := List.forall_mem_append.mp hqueue
  rintro name ⟨steps, hname⟩
  induction hname with
  | @root name hroot =>
      rcases Nat.eq_zero_or_pos links with hzero | hpos
      · subst hzero
        exact (h.level name (.root hroot)).elim id (hnear name)
      · exact h.closer 0 hpos name (.root hroot)
  | extend _ hcls hnext ih =>
      obtain ⟨cls, hother, _, hlinks⟩ := h.passed _ ih
      rw [hcls] at hother
      obtain rfl := Except.ok.inj hother
      rcases hlinks _ hnext with hvisited | hmem | hmem
      · exact hvisited
      · exact hnear _ hmem
      · exact hfar _ hmem

end Frontier

/-- The name belongs to a class that does not declare what is searched for. -/
def Declines (source : ClassSource) (declared? : ClassDecl → Option Callee) (name : ClassName) :
    Prop :=
  ∃ cls, source name = .ok cls ∧ declared? cls = none

/-- All interfaces that fewer links lead to decline. -/
def DeclinesWithin (source : ClassSource) (declared? : ClassDecl → Option Callee)
    (roots : List ClassName) (links : Nat) : Prop :=
  ∀ fewer < links, ∀ name, source.Links roots fewer name → Declines source declared? name

theorem Frontier.declinesWithin (h : Frontier source declared? roots links visited near far) :
    DeclinesWithin source declared? roots links := by
  intro fewer hfewer name hname
  obtain ⟨cls, hcls, hdeclared, _⟩ := h.passed name (h.closer fewer hfewer name hname)
  exact ⟨cls, hcls, hdeclared⟩

/-- The ways in which a search from the roots can end. -/
inductive Explored (source : ClassSource) (declared? : ClassDecl → Option Callee)
    (roots : List ClassName) : Except Failure (Option Callee) → Prop where
  | found {links : Nat} {name : ClassName} {cls : ClassDecl} {callee : Callee}
      (hname : source.Links roots links name)
      (hcloser : DeclinesWithin source declared? roots links) (hcls : source name = .ok cls)
      (hdeclared : declared? cls = some callee) :
      Explored source declared? roots (.ok (some callee))
  | failed {links : Nat} {name : ClassName} {failure : Failure}
      (hname : source.Links roots links name)
      (hcloser : DeclinesWithin source declared? roots links)
      (hcls : source name = .error failure) :
      Explored source declared? roots (.error failure)
  | exhausted (hcount : (source.interfacesFrom roots).encard ≤ searchLimit)
      (hdeclines : ∀ name ∈ source.interfacesFrom roots, Declines source declared? name) :
      Explored source declared? roots (.ok none)
  | overrun (hcount : searchLimit < (source.interfacesFrom roots).encard) :
      Explored source declared? roots (.error (.recursionLimit searchLimit))

theorem encard_of_nodup {names : List ClassName} (h : names.Nodup) :
    {name | name ∈ names}.encard = names.length := by
  classical
  rw [← List.coe_toFinset, Set.encard_coe_eq_coe_finsetCard, List.toFinset_card_of_nodup h]

theorem Frontier.exhausted (h : Frontier source declared? roots links visited near far)
    (hnodup : visited.Nodup) (hlength : visited.length ≤ searchLimit)
    (hqueue : (near ++ far).dropWhile (· ∈ visited) = []) :
    Explored source declared? roots (.ok none) := by
  have hqueued : ∀ name ∈ near ++ far, name ∈ visited := by
    simpa using List.dropWhile_eq_nil_iff.mp hqueue
  have hvisited := h.mem_visited hqueued
  refine .exhausted ?_ fun name hname => ?_
  · calc
      (source.interfacesFrom roots).encard ≤ {name | name ∈ visited}.encard :=
        Set.encard_le_encard hvisited
      _ = visited.length := encard_of_nodup hnodup
      _ ≤ searchLimit := by exact_mod_cast hlength
  · obtain ⟨cls, hcls, hdeclared, _⟩ := h.passed name (hvisited name hname)
    exact ⟨cls, hcls, hdeclared⟩

/-- A full round of distinct interfaces and one more are too many. -/
theorem Frontier.overrun (h : Frontier source declared? roots links visited near far)
    (hnodup : visited.Nodup) (hlength : visited.length = searchLimit)
    (hname : name ∈ source.interfacesFrom roots) (hfresh : name ∉ visited) :
    Explored source declared? roots (.error (.recursionLimit searchLimit)) := by
  have hreached : ∀ other ∈ name :: visited, other ∈ source.interfacesFrom roots :=
    List.forall_mem_cons.mpr ⟨hname, h.reached⟩
  refine .overrun ?_
  calc
    (searchLimit : ENat) < (name :: visited).length := by
      rw [List.length_cons, hlength]
      exact_mod_cast Nat.lt_succ_self searchLimit
    _ = {other | other ∈ name :: visited}.encard :=
      (encard_of_nodup (List.nodup_cons.mpr ⟨hfresh, hnodup⟩)).symm
    _ ≤ (source.interfacesFrom roots).encard := Set.encard_le_encard hreached

theorem Frontier.explored (h : Frontier source declared? roots links visited near far)
    (hnodup : visited.Nodup) (hbudget : visited.length + budget = searchLimit) :
    Explored source declared? roots (spread source declared? budget visited (near ++ far)) := by
  -- each step moves one name from the queue to `visited`, at the cost of one unit of the budget
  induction budget generalizing links visited near far with
  | zero =>
      cases hqueue : (near ++ far).dropWhile (· ∈ visited) with
      | nil =>
          rw [spread_done hqueue]
          exact h.exhausted hnodup hbudget.le hqueue
      | cons name waiting =>
          obtain ⟨level, here, beyond, rfl, hnext⟩ := h.exists_next hqueue
          rw [spread_overrun hqueue]
          exact h.overrun hnodup hbudget ⟨level, hnext.atLevel name List.mem_cons_self⟩
            (not_mem_of_dropWhile hqueue)
  | succ budget ih =>
      cases hqueue : (near ++ far).dropWhile (· ∈ visited) with
      | nil =>
          rw [spread_done hqueue]
          exact h.exhausted hnodup (by omega) hqueue
      | cons name waiting =>
          obtain ⟨level, here, beyond, rfl, hnext⟩ := h.exists_next hqueue
          have hname := hnext.atLevel name List.mem_cons_self
          cases hcls : source name with
          | error failure =>
              rw [spread_failed hqueue hcls]
              exact .failed hname hnext.declinesWithin hcls
          | ok cls =>
              cases hdeclared : declared? cls with
              | some callee =>
                  rw [spread_found hqueue hcls hdeclared]
                  exact .found hname hnext.declinesWithin hcls hdeclared
              | none =>
                  have hfresh := not_mem_of_dropWhile hqueue
                  rw [spread_passed hqueue hcls hdeclared, List.append_assoc]
                  refine ih (hnext.pass hcls hdeclared) (List.nodup_cons.mpr ⟨hfresh, hnodup⟩) ?_
                  rw [List.length_cons]
                  omega

theorem spread_explored (source : ClassSource) (declared? : ClassDecl → Option Callee)
    (roots : List ClassName) :
    Explored source declared? roots (spread source declared? searchLimit [] roots) := by
  have hexplored := (Frontier.start source declared? roots).explored List.nodup_nil
    (Nat.zero_add searchLimit)
  rwa [List.append_nil] at hexplored

namespace Explored

variable {result : Except Failure (Option Callee)}

theorem eq_none_iff (h : Explored source declared? roots result) :
    result = .ok none ↔ (source.interfacesFrom roots).encard ≤ searchLimit ∧
      ∀ name ∈ source.interfacesFrom roots, Declines source declared? name := by
  cases h with
  | found hname _ hcls hdeclared =>
      simp only [Except.ok.injEq, reduceCtorEq, false_iff]
      rintro ⟨_, hdeclines⟩
      obtain ⟨cls, hother, hnone⟩ := hdeclines _ ⟨_, hname⟩
      rw [hcls] at hother
      obtain rfl := Except.ok.inj hother
      rw [hdeclared] at hnone
      cases hnone
  | failed hname _ hcls =>
      simp only [reduceCtorEq, false_iff]
      rintro ⟨_, hdeclines⟩
      obtain ⟨cls, hother, _⟩ := hdeclines _ ⟨_, hname⟩
      rw [hcls] at hother
      cases hother
  | exhausted hcount hdeclines => exact ⟨fun _ => ⟨hcount, hdeclines⟩, fun _ => rfl⟩
  | overrun hcount =>
      simp only [reduceCtorEq, false_iff]
      exact fun hother => absurd hother.1 hcount.not_ge

end Explored

/-- The interfaces that this search looks up, in order. -/
def askedFrom (target : CallTarget) (dispatch : Dispatch) (roots : List ClassName)
    (source : ClassSource) : List ClassName :=
  asked source (declaredIn? target dispatch) searchLimit [] roots

/-- The name belongs to a class, and a call of the target does not mean any of its methods. -/
def Lacks (source : ClassSource) (target : CallTarget) (dispatch : Dispatch) (name : ClassName) :
    Prop :=
  ∃ cls, source name = .ok cls ∧ ∀ method, ¬ cls.Declares target dispatch method

theorem declines_iff_lacks (target : CallTarget) (dispatch : Dispatch) (name : ClassName) :
    Declines source (declaredIn? target dispatch) name ↔ Lacks source target dispatch name := by
  simp only [Declines, Lacks, declaredIn?_eq_none_iff]

end Callee

open Callee

/-- The search among interfaces goes breadth first and is exact. It looks up at most 256 interfaces,
each once. What it finds lies nearest to the roots, it finds nothing exactly if nothing is there,
and it gives up only if there are too many interfaces. A look-up that fails ends it with that
failure, even if the failure reads as if the search had given up. -/
theorem searchFrom_breadthFirst (source : ClassSource) (target : CallTarget) (dispatch : Dispatch)
    (roots : List ClassName) :
    (Consults (searchFrom target dispatch roots) source (askedFrom target dispatch roots source) ∧
      (askedFrom target dispatch roots source).Nodup ∧
      (askedFrom target dispatch roots source).length ≤ searchLimit) ∧
    (∀ callee, searchFrom target dispatch roots source = .ok (some callee) →
      ∃ links name cls, source.Links roots links name ∧ source name = .ok cls ∧
        callee.owner = cls.name ∧ cls.Declares target dispatch callee.method ∧
        ∀ fewer < links, ∀ other, source.Links roots fewer other →
          Lacks source target dispatch other) ∧
    (searchFrom target dispatch roots source = .ok none ↔
      (source.interfacesFrom roots).encard ≤ searchLimit ∧
        ∀ name ∈ source.interfacesFrom roots, Lacks source target dispatch name) ∧
    (searchFrom target dispatch roots source = .error (.recursionLimit searchLimit) →
      searchLimit < (source.interfacesFrom roots).encard ∨
        ∃ links name, source.Links roots links name ∧
          source name = .error (.recursionLimit searchLimit) ∧
          ∀ fewer < links, ∀ other, source.Links roots fewer other →
            Lacks source target dispatch other) := by
  obtain ⟨hnodup, _, hlength⟩ :=
    nodup_asked source (declaredIn? target dispatch) searchLimit [] roots
  have hexplored := spread_explored source (declaredIn? target dispatch) roots
  have hcloser : ∀ links, DeclinesWithin source (declaredIn? target dispatch) roots links →
      ∀ fewer < links, ∀ other, source.Links roots fewer other →
        Lacks source target dispatch other := by
    intro links hdeclines fewer hfewer other hother
    exact (declines_iff_lacks target dispatch other).mp (hdeclines fewer hfewer other hother)
  refine ⟨⟨spread_consults _ _ _ _ _, hnodup, hlength⟩, ?_, ?_, ?_⟩
  · intro callee hresult
    rw [searchFrom] at hresult
    rw [hresult] at hexplored
    cases hexplored with
    | @found links name cls _ hname hdeclines hcls hdeclared =>
        obtain ⟨howner, hmethod⟩ :=
          (declaredIn?_eq_some_iff target dispatch cls callee).mp hdeclared
        exact ⟨links, name, cls, hname, hcls, howner, hmethod, hcloser links hdeclines⟩
  · have hnone := hexplored.eq_none_iff
    simp only [declines_iff_lacks] at hnone
    exact hnone
  · intro hresult
    rw [searchFrom] at hresult
    rw [hresult] at hexplored
    cases hexplored with
    | failed hname hdeclines hcls => exact Or.inr ⟨_, _, hname, hcls, hcloser _ hdeclines⟩
    | overrun hcount => exact Or.inl hcount

/-- A source that answers every name with the failure of a search that gives up. -/
def overrunSource : ClassSource := fun _ => .error (.recursionLimit searchLimit)

/-- One interface is not too many, but its look-up can say so. -/
theorem searchFrom_overrunSource :
    searchFrom ⟨⟨"a.Closer"⟩, "close", "()V"⟩ .interface [⟨"a.Closer"⟩] overrunSource =
        .error (.recursionLimit searchLimit) ∧
      ¬ searchLimit < (overrunSource.interfacesFrom [⟨"a.Closer"⟩]).encard := by
  refine ⟨rfl, ?_⟩
  have hroots : overrunSource.interfacesFrom [⟨"a.Closer"⟩] ⊆ {⟨"a.Closer"⟩} := by
    rintro name ⟨links, hname⟩
    cases hname with
    | root hroot => exact List.mem_singleton.mp hroot
    | extend _ hcls _ => cases hcls
  have hcount := (Set.encard_le_encard hroots).trans_eq (Set.encard_singleton _)
  rw [not_lt]
  exact hcount.trans (by exact_mod_cast (by decide : 1 ≤ searchLimit))

end ExceptionFlow

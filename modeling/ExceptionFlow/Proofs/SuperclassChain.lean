import ExceptionFlow.Proofs.InterfaceSearch
/-!
Calls and the superclasses of their owner. The owner and its superclasses form a chain, as far as
the classes are there. A search along it ends at the first class that declares the method, at the
first one that is not there, where the chain ends, or after 256 classes. How a call is dispatched
decides whether this search is made and what follows when no class of the chain declares the method.
-/
namespace ExceptionFlow

namespace ClassSource

/-- The name that so many superclass links lead to, as far as the classes below it are there. -/
def chain (source : ClassSource) (owner : ClassName) : Nat → Option ClassName
  | 0 => some owner
  | steps + 1 =>
    (source.chain owner steps).bind fun name => (source name).toOption.bind ClassDecl.parent

/-- The interfaces of the first classes of the chain, class by class. -/
def chainInterfaces (source : ClassSource) (owner : ClassName) (count : Nat) : List ClassName :=
  (List.range count).flatMap fun steps =>
    ((source.chain owner steps).bind fun name => (source name).toOption).elim []
      ClassDecl.interfaces

variable {source other : ClassSource} {owner name : ClassName} {steps : Nat} {cls : ClassDecl}

theorem chain_succ (hname : source.chain owner steps = some name) (hcls : source name = .ok cls) :
    source.chain owner (steps + 1) = cls.parent := by
  rw [chain, hname, Option.bind_some, hcls]
  rfl

theorem chainInterfaces_succ (hname : source.chain owner steps = some name)
    (hcls : source name = .ok cls) :
    source.chainInterfaces owner (steps + 1) =
      source.chainInterfaces owner steps ++ cls.interfaces := by
  unfold chainInterfaces
  rw [List.range_succ, List.flatMap_append, List.flatMap_singleton, hname, Option.bind_some, hcls]
  rfl

/-- Sources that agree on the first classes of a chain have the names up to there in common. -/
theorem chain_eq_of_agree
    (hagree : ∀ earlier < steps, ∀ name, source.chain owner earlier = some name →
      other name = source name) : other.chain owner steps = source.chain owner steps := by
  induction steps with
  | zero => rfl
  | succ steps ih =>
      have hprevious := ih fun earlier hearlier => hagree earlier (Nat.lt_succ_of_lt hearlier)
      rw [chain, chain, hprevious]
      cases hname : source.chain owner steps with
      | none => rfl
      | some name =>
          rw [Option.bind_some, Option.bind_some, hagree steps (Nat.lt_succ_self steps) name hname]

end ClassSource

namespace Callee

variable {source other : ClassSource} {target : CallTarget} {dispatch : Dispatch}
  {owner name : ClassName} {budget steps count : Nat} {callee : Callee} {failure : Failure}

theorem Climb.above_nil (rest : Climb) : rest.above [] = rest := by
  cases rest <;> rfl

theorem Climb.above_append (first second : List ClassName) (rest : Climb) :
    rest.above (first ++ second) = (rest.above second).above first := by
  cases rest <;> simp [above]

/-- The first classes of the chain are there, and the call does not mean any of their methods. -/
def LacksBelow (source : ClassSource) (target : CallTarget) (dispatch : Dispatch) (count : Nat) :
    Prop :=
  ∀ steps < count, ∃ name, source.chain target.owner steps = some name ∧
    Lacks source target dispatch name

/-- The class so many links up the chain is the first one with a method that the call means. -/
def DeclaredAt (source : ClassSource) (target : CallTarget) (dispatch : Dispatch) (steps : Nat)
    (callee : Callee) : Prop :=
  LacksBelow source target dispatch steps ∧
    ∃ name cls, source.chain target.owner steps = some name ∧ source name = .ok cls ∧
      callee.owner = cls.name ∧ cls.Declares target dispatch callee.method

/-- The class so many links up the chain is not there, and no class below it has the method. -/
def RefusedAt (source : ClassSource) (target : CallTarget) (dispatch : Dispatch) (steps : Nat)
    (failure : Failure) : Prop :=
  LacksBelow source target dispatch steps ∧
    ∃ name, source.chain target.owner steps = some name ∧ source name = .error failure

/-- The chain has so many classes, all of them are there, and none has the method. -/
def EndsAfter (source : ClassSource) (target : CallTarget) (dispatch : Dispatch) (count : Nat) :
    Prop :=
  LacksBelow source target dispatch count ∧ source.chain target.owner count = none

/-- The chain goes on after so many classes, all of which are there and do not have the method. -/
def GoesOnAfter (source : ClassSource) (target : CallTarget) (dispatch : Dispatch) (count : Nat) :
    Prop :=
  LacksBelow source target dispatch count ∧ ∃ name, source.chain target.owner count = some name

theorem LacksBelow.mono (h : LacksBelow source target dispatch count) (hsteps : steps ≤ count) :
    LacksBelow source target dispatch steps :=
  fun earlier hearlier => h earlier (hearlier.trans_le hsteps)

/-- A class of the chain that was passed, as the search sees it. -/
theorem LacksBelow.exists_class (h : LacksBelow source target dispatch count)
    (hsteps : steps < count) :
    ∃ name cls, source.chain target.owner steps = some name ∧ source name = .ok cls ∧
      declaredIn? target dispatch cls = none := by
  obtain ⟨name, hname, cls, hcls, hlacks⟩ := h steps hsteps
  exact ⟨name, cls, hname, hcls, (declaredIn?_eq_none_iff target dispatch cls).mpr hlacks⟩

/-- Classes that were passed leave the rest of the search to the classes above them. -/
theorem alongChain_add (hpassed : LacksBelow source target dispatch steps)
    (hname : source.chain target.owner steps = some name) (budget : Nat) :
    alongChain source target dispatch (steps + budget) =
      (climb source (declaredIn? target dispatch) budget name).map
        (Climb.above (source.chainInterfaces target.owner steps)) := by
  unfold alongChain
  -- the chain grows at its upper end, so the class passed last is split off the budget above it
  induction steps generalizing name budget with
  | zero =>
      obtain rfl := Option.some.inj hname
      rw [Nat.zero_add]
      cases climb source (declaredIn? target dispatch) budget target.owner with
      | error failure => rfl
      | ok rest => exact congrArg Except.ok rest.above_nil.symm
  | succ steps ih =>
      obtain ⟨middle, cls, hmiddle, hcls, hdeclared⟩ := hpassed.exists_class steps.lt_succ_self
      have hparent : cls.parent = some name :=
        (ClassSource.chain_succ hmiddle hcls).symm.trans hname
      rw [Nat.succ_add_eq_add_succ, ih (hpassed.mono steps.le_succ) hmiddle (budget + 1),
        climb_passed hcls hdeclared hparent, ClassSource.chainInterfaces_succ hmiddle hcls]
      cases climb source (declaredIn? target dispatch) budget name with
      | error failure => rfl
      | ok rest => exact congrArg Except.ok (Climb.above_append _ _ rest).symm

theorem DeclaredAt.alongChain_eq (h : DeclaredAt source target dispatch steps callee)
    (hsteps : steps < budget) : alongChain source target dispatch budget = .ok (.found callee) := by
  obtain ⟨hpassed, name, cls, hname, hcls, hdeclared⟩ := h
  obtain ⟨rest, rfl⟩ := Nat.exists_eq_add_of_lt hsteps
  rw [Nat.add_assoc, alongChain_add hpassed hname,
    climb_found hcls ((declaredIn?_eq_some_iff target dispatch cls callee).mpr hdeclared)]
  rfl

theorem RefusedAt.alongChain_eq (h : RefusedAt source target dispatch steps failure)
    (hsteps : steps < budget) : alongChain source target dispatch budget = .error failure := by
  obtain ⟨hpassed, name, hname, hcls⟩ := h
  obtain ⟨rest, rfl⟩ := Nat.exists_eq_add_of_lt hsteps
  rw [Nat.add_assoc, alongChain_add hpassed hname, climb_failed hcls]
  rfl

theorem GoesOnAfter.alongChain_eq (h : GoesOnAfter source target dispatch budget) :
    alongChain source target dispatch budget = .error (.recursionLimit searchLimit) := by
  obtain ⟨hpassed, name, hname⟩ := h
  exact alongChain_add hpassed hname 0

theorem EndsAfter.alongChain_eq (h : EndsAfter source target dispatch count)
    (hcount : count ≤ budget) :
    alongChain source target dispatch budget =
      .ok (.exhausted (source.chainInterfaces target.owner count)) := by
  obtain ⟨hpassed, hend⟩ := h
  cases count with
  | zero => cases hend
  | succ steps =>
      obtain ⟨name, cls, hname, hcls, hdeclared⟩ := hpassed.exists_class steps.lt_succ_self
      have hparent : cls.parent = none := (ClassSource.chain_succ hname hcls).symm.trans hend
      obtain ⟨rest, rfl⟩ := Nat.exists_eq_add_of_le hcount
      rw [Nat.add_assoc, Nat.add_comm 1 rest, alongChain_add (hpassed.mono steps.le_succ) hname,
        climb_last hcls hdeclared hparent, ClassSource.chainInterfaces_succ hname hcls]
      rfl

/-- Of so many classes either all lack the method, or there is a first place where that fails. -/
theorem lacksBelow_or (source : ClassSource) (target : CallTarget) (dispatch : Dispatch)
    (count : Nat) :
    LacksBelow source target dispatch count ∨
      ∃ steps < count, LacksBelow source target dispatch steps ∧
        ∀ name, source.chain target.owner steps = some name →
          ¬ Lacks source target dispatch name := by
  induction count with
  | zero => exact Or.inl fun steps hsteps => absurd hsteps steps.not_lt_zero
  | succ count ih =>
      rcases ih with hall | ⟨steps, hsteps, hpassed, hstops⟩
      · by_cases hlast : ∃ name, source.chain target.owner count = some name ∧
            Lacks source target dispatch name
        · refine Or.inl fun steps hsteps => ?_
          rcases Nat.lt_succ_iff_lt_or_eq.mp hsteps with hless | rfl
          · exact hall steps hless
          · exact hlast
        · refine Or.inr ⟨count, count.lt_succ_self, hall, fun name hname hlacks => ?_⟩
          exact hlast ⟨name, hname, hlacks⟩
      · exact Or.inr ⟨steps, Nat.lt_succ_of_lt hsteps, hpassed, hstops⟩

/-- The ways in which a search along the chain can end. -/
inductive ChainEnd (source : ClassSource) (target : CallTarget) (dispatch : Dispatch)
    (budget : Nat) : Except Failure Climb → Prop where
  | declared {steps : Nat} {callee : Callee} (hsteps : steps < budget)
      (h : DeclaredAt source target dispatch steps callee) :
      ChainEnd source target dispatch budget (.ok (.found callee))
  | refused {steps : Nat} {failure : Failure} (hsteps : steps < budget)
      (h : RefusedAt source target dispatch steps failure) :
      ChainEnd source target dispatch budget (.error failure)
  | ended {count : Nat} (hcount : count ≤ budget) (h : EndsAfter source target dispatch count) :
      ChainEnd source target dispatch budget
        (.ok (.exhausted (source.chainInterfaces target.owner count)))
  | goesOn (h : GoesOnAfter source target dispatch budget) :
      ChainEnd source target dispatch budget (.error (.recursionLimit searchLimit))

theorem exists_chainEnd (source : ClassSource) (target : CallTarget) (dispatch : Dispatch)
    (budget : Nat) : ∃ answer, ChainEnd source target dispatch budget answer := by
  rcases lacksBelow_or source target dispatch budget with hall | ⟨steps, hsteps, hpassed, hstops⟩
  · cases hname : source.chain target.owner budget with
    | none => exact ⟨_, .ended le_rfl ⟨hall, hname⟩⟩
    | some name => exact ⟨_, .goesOn ⟨hall, name, hname⟩⟩
  · cases hname : source.chain target.owner steps with
    | none => exact ⟨_, .ended hsteps.le ⟨hpassed, hname⟩⟩
    | some name =>
        cases hcls : source name with
        | error failure => exact ⟨_, .refused hsteps ⟨hpassed, name, hname, hcls⟩⟩
        | ok cls =>
            have hmethod : ∃ method, cls.Declares target dispatch method := by
              by_contra hnone
              exact hstops name hname ⟨cls, hcls, not_exists.mp hnone⟩
            obtain ⟨method, hmethod⟩ := hmethod
            have hdeclared : DeclaredAt source target dispatch steps ⟨cls.name, method⟩ :=
              ⟨hpassed, name, cls, hname, hcls, rfl, hmethod⟩
            exact ⟨_, .declared hsteps hdeclared⟩

/-- The search along the chain gives the answer of its end. -/
theorem alongChain_eq_iff (source : ClassSource) (target : CallTarget) (dispatch : Dispatch)
    (budget : Nat) (answer : Except Failure Climb) :
    alongChain source target dispatch budget = answer ↔
      ChainEnd source target dispatch budget answer := by
  have hanswer : ∀ answer, ChainEnd source target dispatch budget answer →
      alongChain source target dispatch budget = answer := by
    intro answer hend
    cases hend with
    | declared hsteps h => exact h.alongChain_eq hsteps
    | refused hsteps h => exact h.alongChain_eq hsteps
    | ended hcount h => exact h.alongChain_eq hcount
    | goesOn h => exact h.alongChain_eq
  constructor
  · rintro rfl
    obtain ⟨answer, hend⟩ := exists_chainEnd source target dispatch budget
    rwa [hanswer answer hend]
  · exact hanswer answer

theorem alongChain_eq_found_iff (source : ClassSource) (target : CallTarget) (dispatch : Dispatch)
    (budget : Nat) (callee : Callee) :
    alongChain source target dispatch budget = .ok (.found callee) ↔
      ∃ steps < budget, DeclaredAt source target dispatch steps callee := by
  rw [alongChain_eq_iff]
  constructor
  · rintro ⟨hsteps, h⟩
    exact ⟨_, hsteps, h⟩
  · rintro ⟨steps, hsteps, h⟩
    exact .declared hsteps h

theorem alongChain_eq_exhausted_iff (source : ClassSource) (target : CallTarget)
    (dispatch : Dispatch) (budget : Nat) (interfaces : List ClassName) :
    alongChain source target dispatch budget = .ok (.exhausted interfaces) ↔
      ∃ count ≤ budget, EndsAfter source target dispatch count ∧
        interfaces = source.chainInterfaces target.owner count := by
  rw [alongChain_eq_iff]
  constructor
  · intro hend
    cases hend with
    | ended hcount h => exact ⟨_, hcount, h, rfl⟩
  · rintro ⟨count, hcount, h, rfl⟩
    exact .ended hcount h

theorem alongChain_eq_error_iff (source : ClassSource) (target : CallTarget) (dispatch : Dispatch)
    (budget : Nat) (failure : Failure) :
    alongChain source target dispatch budget = .error failure ↔
      (∃ steps < budget, RefusedAt source target dispatch steps failure) ∨
        (GoesOnAfter source target dispatch budget ∧ failure = .recursionLimit searchLimit) := by
  rw [alongChain_eq_iff]
  constructor
  · intro hend
    cases hend with
    | refused hsteps h => exact Or.inl ⟨_, hsteps, h⟩
    | goesOn h => exact Or.inr ⟨h, rfl⟩
  · rintro (⟨steps, hsteps, h⟩ | ⟨h, rfl⟩)
    · exact .refused hsteps h
    · exact .goesOn h

theorem LacksBelow.of_agree (h : LacksBelow source target dispatch count)
    (hagree : ∀ steps < count, ∀ name, source.chain target.owner steps = some name →
      other name = source name) : LacksBelow other target dispatch count := by
  intro steps hsteps
  obtain ⟨name, hname, cls, hcls, hlacks⟩ := h steps hsteps
  have hchain : other.chain target.owner steps = source.chain target.owner steps :=
    ClassSource.chain_eq_of_agree fun earlier hearlier => hagree earlier (hearlier.trans hsteps)
  exact ⟨name, hchain.trans hname, cls, (hagree steps hsteps name hname).trans hcls, hlacks⟩

theorem DeclaredAt.of_agree (h : DeclaredAt source target dispatch steps callee)
    (hagree : ∀ earlier ≤ steps, ∀ name, source.chain target.owner earlier = some name →
      other name = source name) : DeclaredAt other target dispatch steps callee := by
  obtain ⟨hpassed, name, cls, hname, hcls, hdeclared⟩ := h
  have hbelow : ∀ earlier < steps, ∀ name, source.chain target.owner earlier = some name →
      other name = source name := fun earlier hearlier => hagree earlier hearlier.le
  have hchain := ClassSource.chain_eq_of_agree hbelow
  exact ⟨hpassed.of_agree hbelow, name, cls, hchain.trans hname,
    (hagree steps le_rfl name hname).trans hcls, hdeclared⟩

/-- The answer of the first 256 classes of the chain. -/
structure ChainAnswer (source : ClassSource) (target : CallTarget) (dispatch : Dispatch)
    (answer : Except Failure Climb) : Prop where
  found_iff : ∀ callee, answer = .ok (.found callee) ↔
    ∃ steps < searchLimit, DeclaredAt source target dispatch steps callee
  exhausted_iff : ∀ interfaces, answer = .ok (.exhausted interfaces) ↔
    ∃ count ≤ searchLimit, EndsAfter source target dispatch count ∧
      interfaces = source.chainInterfaces target.owner count
  /-- A failure is that of the first class that is not there, or says that the chain is too long.
  The failure does not tell which of the two it is, since a look-up can fail with any. -/
  error_iff : ∀ failure, answer = .error failure ↔
    (∃ steps < searchLimit, RefusedAt source target dispatch steps failure) ∨
      (GoesOnAfter source target dispatch searchLimit ∧ failure = .recursionLimit searchLimit)

/-- How the calls of a target are answered. -/
structure FollowsChain (source : ClassSource) (target : CallTarget) : Prop where
  chain : ∀ dispatch,
    ChainAnswer source target dispatch (alongChain source target dispatch searchLimit)
  found : ∀ dispatch ≠ .interface, ∀ callee,
    alongChain source target dispatch searchLimit = .ok (.found callee) →
      resolve source target dispatch = .ok (some callee)
  /-- Nothing beyond the class with the method is consulted. -/
  unasked : ∀ dispatch ≠ .interface, ∀ steps < searchLimit, ∀ callee,
    DeclaredAt source target dispatch steps callee → ∀ other : ClassSource,
      (∀ earlier ≤ steps, ∀ name, source.chain target.owner earlier = some name →
        other name = source name) → resolve other target dispatch = .ok (some callee)
  failed : ∀ dispatch ≠ .interface, ∀ failure,
    alongChain source target dispatch searchLimit = .error failure →
      resolve source target dispatch = .error failure
  exhausted : ∀ dispatch, dispatch = .static ∨ dispatch = .special → ∀ interfaces,
    alongChain source target dispatch searchLimit = .ok (.exhausted interfaces) →
      resolve source target dispatch = .ok none
  /-- Virtual calls turn to the interfaces of the chain. -/
  virtual_exhausted : ∀ interfaces,
    alongChain source target .virtual searchLimit = .ok (.exhausted interfaces) →
      resolve source target .virtual = searchFrom target .virtual interfaces source
  interface_found : ∀ callee,
    searchFrom target .interface [target.owner] source = .ok (some callee) →
      resolve source target .interface = .ok (some callee)
  interface_failed : ∀ failure,
    searchFrom target .interface [target.owner] source = .error failure →
      resolve source target .interface = .error failure
  /-- Interface calls turn to the root class, and to no other class. -/
  root_failed : searchFrom target .interface [target.owner] source = .ok none → ∀ failure,
    source .object = .error failure → resolve source target .interface = .error failure
  root_found_iff : searchFrom target .interface [target.owner] source = .ok none → ∀ root,
    source .object = .ok root → ∀ callee, resolve source target .interface = .ok (some callee) ↔
      callee.owner = root.name ∧ root.Declares target .interface callee.method
  root_none_iff : searchFrom target .interface [target.owner] source = .ok none → ∀ root,
    source .object = .ok root → (resolve source target .interface = .ok none ↔
      ∀ method, ¬ root.Declares target .interface method)

end Callee

open Callee

/-- Calls follow the superclass chain of their owner. The chain's own answer is the first
declaration within 256 classes, the failure of the first class that is not there, nothing where the
chain ends, or that it is too long. Static and special calls take that answer. Virtual calls turn to
the interfaces of the chain only if it has no declaration. Interface calls turn to the root class
only if the owner and the interfaces it extends have none. -/
theorem resolve_followsChain (source : ClassSource) (target : CallTarget) :
    FollowsChain source target where
  chain dispatch :=
    { found_iff := alongChain_eq_found_iff source target dispatch searchLimit
      exhausted_iff := alongChain_eq_exhausted_iff source target dispatch searchLimit
      error_iff := alongChain_eq_error_iff source target dispatch searchLimit }
  found dispatch hdispatch callee := resolve_of_found hdispatch
  unasked dispatch hdispatch steps hsteps callee h other hagree :=
    resolve_of_found hdispatch ((h.of_agree hagree).alongChain_eq hsteps)
  failed dispatch hdispatch failure := resolve_of_error hdispatch
  exhausted dispatch hdispatch interfaces := resolve_of_exhausted hdispatch
  virtual_exhausted interfaces := resolve_virtual_of_exhausted
  interface_found callee := resolve_interface_of_found
  interface_failed failure := resolve_interface_of_error
  root_failed hnone failure hroot := by
    rw [resolve_interface_of_none hnone, hroot]
    rfl
  root_found_iff hnone root hroot callee := by
    rw [resolve_interface_of_root hnone hroot, Except.ok.injEq, declaredIn?_eq_some_iff]
  root_none_iff hnone root hroot := by
    rw [resolve_interface_of_root hnone hroot, Except.ok.injEq, declaredIn?_eq_none_iff]

/-- No class has been passed, so the chain is not too long, but the look-up of the owner can say
so. -/
theorem resolve_static_overrunSource :
    resolve overrunSource ⟨⟨"a.Closer"⟩, "close", "()V"⟩ .static =
        .error (.recursionLimit searchLimit) ∧
      ¬ GoesOnAfter overrunSource ⟨⟨"a.Closer"⟩, "close", "()V"⟩ .static searchLimit := by
  refine ⟨rfl, ?_⟩
  rintro ⟨hpassed, -⟩
  obtain ⟨name, -, cls, hcls, -⟩ := hpassed 0 (by decide)
  cases hcls

end ExceptionFlow

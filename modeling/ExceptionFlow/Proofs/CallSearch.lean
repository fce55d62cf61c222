import ExceptionFlow.Call
/-!
The search for the declaration that a call means, step by step: how a climb along superclasses goes
on, how a search among interfaces goes on, and what each way of dispatch makes of the two.
-/
namespace ExceptionFlow

namespace Callee

variable {source : ClassSource} {declared? : ClassDecl → Option Callee} {target : CallTarget}
  {dispatch : Dispatch} {name : ClassName} {cls : ClassDecl} {callee : Callee} {failure : Failure}
  {budget : Nat}

/-- A climb that goes on above a class with these interfaces. -/
def Climb.above (interfaces : List ClassName) : Climb → Climb
  | found callee => found callee
  | exhausted others => exhausted (interfaces ++ others)

theorem climb_failed (hcls : source name = .error failure) :
    climb source declared? (budget + 1) name = .error failure := by
  unfold climb
  rw [hcls]
  rfl

theorem climb_found (hcls : source name = .ok cls) (hdeclared : declared? cls = some callee) :
    climb source declared? (budget + 1) name = .ok (.found callee) := by
  unfold climb
  simp [hcls, hdeclared, bind, Except.bind]

theorem climb_last (hcls : source name = .ok cls) (hdeclared : declared? cls = none)
    (hparent : cls.parent = none) :
    climb source declared? (budget + 1) name = .ok (.exhausted cls.interfaces) := by
  unfold climb
  simp [hcls, hdeclared, hparent, bind, Except.bind]

theorem climb_passed (hcls : source name = .ok cls) (hdeclared : declared? cls = none)
    {parent : ClassName} (hparent : cls.parent = some parent) :
    climb source declared? (budget + 1) name =
      (climb source declared? budget parent).map (Climb.above cls.interfaces) := by
  rw [climb]
  simp only [hcls, hdeclared, hparent, bind, Except.bind]
  cases climb source declared? budget parent with
  | error failure => rfl
  | ok rest => cases rest <;> rfl

/-- The ways in which a climb can come back. -/
inductive ClimbCase (source : ClassSource) (declared? : ClassDecl → Option Callee) (budget : Nat)
    (name : ClassName) : Climb → Prop where
  | found {cls : ClassDecl} {callee : Callee} (hcls : source name = .ok cls)
      (hdeclared : declared? cls = some callee) :
      ClimbCase source declared? budget name (.found callee)
  | last {cls : ClassDecl} (hcls : source name = .ok cls) (hdeclared : declared? cls = none)
      (hparent : cls.parent = none) :
      ClimbCase source declared? budget name (.exhausted cls.interfaces)
  | passed {cls : ClassDecl} {parent : ClassName} {rest : Climb} (hcls : source name = .ok cls)
      (hdeclared : declared? cls = none) (hparent : cls.parent = some parent)
      (hrest : climb source declared? budget parent = .ok rest) :
      ClimbCase source declared? budget name (rest.above cls.interfaces)

theorem climb_eq_ok_iff (source : ClassSource) (declared? : ClassDecl → Option Callee)
    (budget : Nat) (name : ClassName) (result : Climb) :
    climb source declared? (budget + 1) name = .ok result ↔
      ClimbCase source declared? budget name result := by
  constructor
  · intro hclimb
    cases hcls : source name with
    | error failure =>
        rw [climb_failed hcls] at hclimb
        cases hclimb
    | ok cls =>
        cases hdeclared : declared? cls with
        | some callee =>
            rw [climb_found hcls hdeclared] at hclimb
            cases hclimb
            exact .found hcls hdeclared
        | none =>
            cases hparent : cls.parent with
            | none =>
                rw [climb_last hcls hdeclared hparent] at hclimb
                cases hclimb
                exact .last hcls hdeclared hparent
            | some parent =>
                rw [climb_passed hcls hdeclared hparent] at hclimb
                cases hrest : climb source declared? budget parent with
                | error failure =>
                    rw [hrest] at hclimb
                    cases hclimb
                | ok rest =>
                    rw [hrest] at hclimb
                    cases hclimb
                    exact .passed hcls hdeclared hparent hrest
  · intro hcase
    cases hcase with
    | found hcls hdeclared => exact climb_found hcls hdeclared
    | last hcls hdeclared hparent => exact climb_last hcls hdeclared hparent
    | passed hcls hdeclared hparent hrest =>
        rw [climb_passed hcls hdeclared hparent, hrest]
        rfl

section Spreading

variable {visited queue waiting : List ClassName}

theorem spread_done (hqueue : queue.dropWhile (· ∈ visited) = []) :
    spread source declared? budget visited queue = .ok none := by
  unfold spread
  simp [hqueue]

theorem spread_overrun (hqueue : queue.dropWhile (· ∈ visited) = name :: waiting) :
    spread source declared? 0 visited queue = .error (.recursionLimit searchLimit) := by
  unfold spread
  simp [hqueue]

theorem spread_failed (hqueue : queue.dropWhile (· ∈ visited) = name :: waiting)
    (hcls : source name = .error failure) :
    spread source declared? (budget + 1) visited queue = .error failure := by
  unfold spread
  simp [hqueue, hcls, bind, Except.bind]

theorem spread_found (hqueue : queue.dropWhile (· ∈ visited) = name :: waiting)
    (hcls : source name = .ok cls) (hdeclared : declared? cls = some callee) :
    spread source declared? (budget + 1) visited queue = .ok (some callee) := by
  unfold spread
  simp [hqueue, hcls, hdeclared, bind, Except.bind]

theorem spread_passed (hqueue : queue.dropWhile (· ∈ visited) = name :: waiting)
    (hcls : source name = .ok cls) (hdeclared : declared? cls = none) :
    spread source declared? (budget + 1) visited queue =
      spread source declared? budget (name :: visited) (waiting ++ cls.interfaces) := by
  conv => lhs; unfold spread
  simp [hqueue, hcls, hdeclared, bind, Except.bind]

end Spreading

/-- The ways in which asking interfaces can come to an end. -/
inductive SpreadCase (source : ClassSource) (declared? : ClassDecl → Option Callee)
    (visited queue : List ClassName) : (budget : Nat) → Option Callee → Prop where
  | done {budget : Nat} (hqueue : queue.dropWhile (· ∈ visited) = []) :
      SpreadCase source declared? visited queue budget none
  | found {budget : Nat} {name : ClassName} {waiting : List ClassName} {cls : ClassDecl}
      {callee : Callee} (hqueue : queue.dropWhile (· ∈ visited) = name :: waiting)
      (hcls : source name = .ok cls) (hdeclared : declared? cls = some callee) :
      SpreadCase source declared? visited queue (budget + 1) (some callee)
  | passed {budget : Nat} {name : ClassName} {waiting : List ClassName} {cls : ClassDecl}
      {result : Option Callee} (hqueue : queue.dropWhile (· ∈ visited) = name :: waiting)
      (hcls : source name = .ok cls) (hdeclared : declared? cls = none)
      (hrest : spread source declared? budget (name :: visited) (waiting ++ cls.interfaces) =
        .ok result) :
      SpreadCase source declared? visited queue (budget + 1) result

theorem spread_eq_ok_iff (source : ClassSource) (declared? : ClassDecl → Option Callee)
    (budget : Nat) (visited queue : List ClassName) (result : Option Callee) :
    spread source declared? budget visited queue = .ok result ↔
      SpreadCase source declared? visited queue budget result := by
  constructor
  · intro hspread
    cases hqueue : queue.dropWhile (· ∈ visited) with
    | nil =>
        rw [spread_done hqueue] at hspread
        cases hspread
        exact .done hqueue
    | cons name waiting =>
        cases budget with
        | zero =>
            rw [spread_overrun hqueue] at hspread
            cases hspread
        | succ budget =>
            cases hcls : source name with
            | error failure =>
                rw [spread_failed hqueue hcls] at hspread
                cases hspread
            | ok cls =>
                cases hdeclared : declared? cls with
                | some callee =>
                    rw [spread_found hqueue hcls hdeclared] at hspread
                    cases hspread
                    exact .found hqueue hcls hdeclared
                | none =>
                    rw [spread_passed hqueue hcls hdeclared] at hspread
                    exact .passed hqueue hcls hdeclared hspread
  · intro hcase
    cases hcase with
    | done hqueue => exact spread_done hqueue
    | found hqueue hcls hdeclared => exact spread_found hqueue hcls hdeclared
    | passed hqueue hcls hdeclared hrest =>
        rw [spread_passed hqueue hcls hdeclared]
        exact hrest

/-- The answer of the classes of the chain. -/
def alongChain (source : ClassSource) (target : CallTarget) (dispatch : Dispatch) (budget : Nat) :
    Except Failure Climb :=
  climb source (declaredIn? target dispatch) budget target.owner

/-- A target that is searched for among the roots and the interfaces they extend. -/
def searchFrom (target : CallTarget) (dispatch : Dispatch) (roots : List ClassName)
    (source : ClassSource) : Except Failure (Option Callee) :=
  spread source (declaredIn? target dispatch) searchLimit [] roots

theorem resolve_of_found (hdispatch : dispatch ≠ .interface)
    (h : alongChain source target dispatch searchLimit = .ok (.found callee)) :
    resolve source target dispatch = .ok (some callee) := by
  unfold alongChain at h
  cases dispatch <;> simp_all [resolve, bind, Except.bind]

theorem resolve_of_error (hdispatch : dispatch ≠ .interface)
    (h : alongChain source target dispatch searchLimit = .error failure) :
    resolve source target dispatch = .error failure := by
  unfold alongChain at h
  cases dispatch <;> simp_all [resolve, bind, Except.bind]

theorem resolve_of_exhausted {interfaces : List ClassName}
    (hdispatch : dispatch = .static ∨ dispatch = .special)
    (h : alongChain source target dispatch searchLimit = .ok (.exhausted interfaces)) :
    resolve source target dispatch = .ok none := by
  unfold alongChain at h
  rcases hdispatch with rfl | rfl <;> simp [resolve, h, bind, Except.bind]

theorem resolve_virtual_of_exhausted {interfaces : List ClassName}
    (h : alongChain source target .virtual searchLimit = .ok (.exhausted interfaces)) :
    resolve source target .virtual = searchFrom target .virtual interfaces source := by
  unfold alongChain at h
  simp [resolve, searchFrom, h, bind, Except.bind]

theorem resolve_interface_of_found
    (h : searchFrom target .interface [target.owner] source = .ok (some callee)) :
    resolve source target .interface = .ok (some callee) := by
  unfold searchFrom at h
  simp [resolve, h, bind, Except.bind]

theorem resolve_interface_of_error
    (h : searchFrom target .interface [target.owner] source = .error failure) :
    resolve source target .interface = .error failure := by
  unfold searchFrom at h
  simp [resolve, h, bind, Except.bind]

theorem resolve_interface_of_none
    (h : searchFrom target .interface [target.owner] source = .ok none) :
    resolve source target .interface =
      (source .object).map (declaredIn? target .interface) := by
  unfold searchFrom at h
  cases hroot : source .object <;> simp [resolve, h, hroot, bind, Except.bind, Except.map]

theorem resolve_interface_of_root {root : ClassDecl}
    (h : searchFrom target .interface [target.owner] source = .ok none)
    (hroot : source .object = .ok root) :
    resolve source target .interface = .ok (declaredIn? target .interface root) := by
  rw [resolve_interface_of_none h, hroot]
  rfl

/-- The ways in which a call can come to a declaration or to none. -/
inductive ResolveCase (source : ClassSource) (target : CallTarget) :
    Dispatch → Option Callee → Prop where
  | climbed {dispatch : Dispatch} {callee : Callee} (hdispatch : dispatch ≠ .interface)
      (hclimb : climb source (declaredIn? target dispatch) searchLimit target.owner =
        .ok (.found callee)) :
      ResolveCase source target dispatch (some callee)
  | undeclared {dispatch : Dispatch} {interfaces : List ClassName}
      (hdispatch : dispatch = .static ∨ dispatch = .special)
      (hclimb : climb source (declaredIn? target dispatch) searchLimit target.owner =
        .ok (.exhausted interfaces)) :
      ResolveCase source target dispatch none
  | inherited {interfaces : List ClassName} {result : Option Callee}
      (hclimb : climb source (declaredIn? target .virtual) searchLimit target.owner =
        .ok (.exhausted interfaces))
      (hspread : spread source (declaredIn? target .virtual) searchLimit [] interfaces =
        .ok result) :
      ResolveCase source target .virtual result
  | asked {callee : Callee}
      (hspread : spread source (declaredIn? target .interface) searchLimit [] [target.owner] =
        .ok (some callee)) :
      ResolveCase source target .interface (some callee)
  | root {root : ClassDecl}
      (hspread : spread source (declaredIn? target .interface) searchLimit [] [target.owner] =
        .ok none)
      (hroot : source .object = .ok root) :
      ResolveCase source target .interface (declaredIn? target .interface root)

theorem resolve_eq_ok_iff (source : ClassSource) (target : CallTarget) (dispatch : Dispatch)
    (result : Option Callee) :
    resolve source target dispatch = .ok result ↔ ResolveCase source target dispatch result := by
  constructor
  · intro hresolve
    by_cases hdispatch : dispatch = .interface
    · subst hdispatch
      cases hsearch : searchFrom target .interface [target.owner] source with
      | error failure =>
          rw [resolve_interface_of_error hsearch] at hresolve
          cases hresolve
      | ok found =>
          cases found with
          | some callee =>
              rw [resolve_interface_of_found hsearch] at hresolve
              cases hresolve
              exact .asked hsearch
          | none =>
              rw [resolve_interface_of_none hsearch] at hresolve
              cases hroot : source .object with
              | error failure =>
                  rw [hroot] at hresolve
                  cases hresolve
              | ok root =>
                  rw [hroot] at hresolve
                  cases hresolve
                  exact .root hsearch hroot
    · cases hclimb : alongChain source target dispatch searchLimit with
      | error failure =>
          rw [resolve_of_error hdispatch hclimb] at hresolve
          cases hresolve
      | ok climbed =>
          cases climbed with
          | found callee =>
              rw [resolve_of_found hdispatch hclimb] at hresolve
              cases hresolve
              exact .climbed hdispatch hclimb
          | exhausted interfaces =>
              cases dispatch with
              | interface => exact absurd rfl hdispatch
              | virtual =>
                  rw [resolve_virtual_of_exhausted hclimb] at hresolve
                  exact .inherited hclimb hresolve
              | static | special =>
                  rw [resolve_of_exhausted (by simp) hclimb] at hresolve
                  cases hresolve
                  exact .undeclared (by simp) hclimb
  · intro hcase
    cases hcase with
    | climbed hdispatch hclimb => exact resolve_of_found hdispatch hclimb
    | undeclared hdispatch hclimb => exact resolve_of_exhausted hdispatch hclimb
    | inherited hclimb hspread => exact (resolve_virtual_of_exhausted hclimb).trans hspread
    | asked hspread => exact resolve_interface_of_found hspread
    | root hspread hroot => exact resolve_interface_of_root hspread hroot

end Callee

end ExceptionFlow

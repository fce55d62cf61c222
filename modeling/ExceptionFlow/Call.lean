import ExceptionFlow.Classpath
/-!
Call sites and the declarations they mean. A call names an owner, a method and a way of dispatch;
the declaration is the first one found among the classes and interfaces that dispatch consults.
-/
namespace ExceptionFlow

inductive Dispatch where
  | virtual
  | interface
  | static
  | special
  deriving DecidableEq

namespace Dispatch

def all : List Dispatch := [virtual, interface, static, special]

def text : Dispatch → String
  | virtual => "virtual"
  | interface => "interface"
  | static => "static"
  | special => "special"

instance : ToString Dispatch := ⟨text⟩

def ofText? (text : String) : Option Dispatch :=
  all.find? fun dispatch => dispatch.text = text

end Dispatch

structure CallTarget where
  owner : ClassName
  name : String
  descriptor : String
  deriving DecidableEq

namespace CallTarget

def text (target : CallTarget) : String :=
  s!"{target.owner}.{target.name}{target.descriptor}"

instance : ToString CallTarget := ⟨text⟩

/-- Calls on arrays, such as `clone`, have no declaring class to look up. -/
def hasArrayOwner (target : CallTarget) : Bool :=
  target.owner.text.toList.head? == some '['

end CallTarget

/-- The declaration that a call means, with the class that declares it. -/
structure Callee where
  owner : ClassName
  method : MethodDecl
  deriving DecidableEq

namespace Callee

/-- No search consults more classes, or more interfaces, than this. -/
def searchLimit : Nat := 256

/-- The declaration of the target in this class. Static calls mean static methods only, and all
other calls mean the others. -/
def declaredIn? (target : CallTarget) (dispatch : Dispatch) (cls : ClassDecl) : Option Callee :=
  match cls.method? target.name target.descriptor with
  | some method =>
    if method.isStatic = decide (dispatch = .static) then some { owner := cls.name, method }
    else none
  | none => none

/-- What a climb along superclasses comes back with. -/
inductive Climb where
  | found (callee : Callee)
  /-- No class of the chain has a declaration; these are their interfaces, class by class. -/
  | exhausted (interfaces : List ClassName)
  deriving DecidableEq

/-- Asks a class and then its superclasses, `budget` classes at most. -/
def climb (source : ClassSource) (declared? : ClassDecl → Option Callee) :
    (budget : Nat) → ClassName → Except Failure Climb
  | 0, _ => .error (.recursionLimit searchLimit)
  | budget + 1, name => do
    let cls ← source name
    match declared? cls, cls.parent with
    | some callee, _ => .ok (.found callee)
    | none, none => .ok (.exhausted cls.interfaces)
    | none, some parent =>
      match ← climb source declared? budget parent with
      | .found callee => .ok (.found callee)
      | .exhausted interfaces => .ok (.exhausted (cls.interfaces ++ interfaces))

/-- Asks interfaces breadth first, each once and `budget` at most. The interfaces of one that has no
declaration wait behind those already queued. -/
def spread (source : ClassSource) (declared? : ClassDecl → Option Callee) :
    (budget : Nat) → (visited queue : List ClassName) → Except Failure (Option Callee)
  | budget, visited, queue =>
    match queue.dropWhile (· ∈ visited), budget with
    | [], _ => .ok none
    | _ :: _, 0 => .error (.recursionLimit searchLimit)
    | name :: waiting, budget + 1 => do
      let cls ← source name
      match declared? cls with
      | some callee => .ok (some callee)
      | none => spread source declared? budget (name :: visited) (waiting ++ cls.interfaces)

/-- The declaration that a call means, if there is one.

* static and special calls: the owner and its superclasses
* virtual calls: the same, then all interfaces of these classes
* interface calls: the owner and its interfaces, then the root class -/
def resolve (source : ClassSource) (target : CallTarget) (dispatch : Dispatch) :
    Except Failure (Option Callee) := do
  let declared? := declaredIn? target dispatch
  match dispatch with
  | .static | .special =>
    match ← climb source declared? searchLimit target.owner with
    | .found callee => .ok (some callee)
    | .exhausted _ => .ok none
  | .virtual =>
    match ← climb source declared? searchLimit target.owner with
    | .found callee => .ok (some callee)
    | .exhausted interfaces => spread source declared? searchLimit [] interfaces
  | .interface =>
    match ← spread source declared? searchLimit [] [target.owner] with
    | some callee => .ok (some callee)
    | none => do
      let root ← source .object
      .ok (declared? root)

end Callee

end ExceptionFlow

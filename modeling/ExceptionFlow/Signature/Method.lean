import ExceptionFlow.Signature.Types
/-!
Method signatures: type parameters, parameter types, a result and the types thrown. Only the
bounds of the type parameters and the thrown types are kept, since they say which exceptions the
method throws.
-/
namespace ExceptionFlow.Signature

/-- The erased first bounds of type parameters, the latest parameter first. -/
abbrev Bounds := List (String × Erasure)

structure MethodSignature where
  bounds : Bounds
  thrown : List Erasure
  deriving DecidableEq

/-- The number of type parameters that are followed from bound to bound. -/
def boundChainLimit : Nat := 16

/-- The class that an erasure stands for: a variable stands for its bound. -/
def Bounds.classOf? (bounds : Bounds) : (budget : Nat) → Erasure → Option ClassName
  | _, .named name => some name
  | _, .array => none
  | 0, .variable _ => none
  | budget + 1, .variable name =>
    match bounds.lookup name with
    | some bound => bounds.classOf? budget bound
    | none => none

/-- The classes thrown. Variables without a bound of their own are left out. -/
def MethodSignature.throws (signature : MethodSignature) : List ClassName :=
  signature.thrown.filterMap (signature.bounds.classOf? boundChainLimit)

/-- The class bound of a type parameter. It may be left out. -/
def classBound : Reader (Option Erasure) := fun cursor =>
  if cursor.seesAny ['L', 'T', '['] then do
    let (bound, cursor) ← referenceType cursor
    return (some bound, cursor)
  else return (none, cursor)

/-- An interface bound after its `:`. -/
def interfaceBound : Reader Erasure := fun cursor => do
  let cursor ← cursor.pass
  referenceType cursor

/-- A type parameter with its first bound, if it has one. -/
def typeParameter : Reader (Option (String × Erasure)) := fun cursor => do
  let (name, cursor) ← cursor.identifier [':', '>']
  let cursor ← cursor.expect ':'
  let (bound, cursor) ← classBound cursor
  let (interfaceBounds, cursor) ← manyUntil (fun cursor => !cursor.sees ':') interfaceBound cursor
  return ((bound.or interfaceBounds.head?).map fun first => (name, first), cursor)

/-- The type parameters, if there are any. -/
def typeParameters : Reader Bounds := fun cursor =>
  if cursor.sees '<' then do
    let cursor ← cursor.pass
    let (parameters, cursor) ← manyUntil (·.sees '>') typeParameter cursor
    let cursor ← cursor.expect '>'
    return ((parameters.filterMap id).reverse, cursor)
  else return ([], cursor)

/-- The parameter types between parentheses and the result after them. -/
def parametersAndResult (cursor : Cursor) : Reading Cursor := do
  let cursor ← cursor.expect '('
  let (_, cursor) ← manyUntil (·.sees ')') javaType cursor
  let cursor ← cursor.expect ')'
  if cursor.sees 'V' then cursor.pass
  else do
    let (_, cursor) ← javaType cursor
    return cursor

/-- A thrown type after `^`. Arrays are no exceptions. -/
def thrownType : Reader Erasure := fun cursor => do
  let cursor ← cursor.expect '^'
  let (erasure, cursor) ← referenceType cursor
  if erasure = .array then .fail .thrownArray else return (erasure, cursor)

/-- Reads a whole text as a signature. -/
def readMethod (text : String) : Reading MethodSignature := do
  let (bounds, cursor) ← typeParameters (Cursor.start text)
  let cursor ← parametersAndResult cursor
  let (thrown, _) ← manyUntil Cursor.atEnd thrownType cursor
  return { bounds, thrown }

def parse (text : String) : Except Fault MethodSignature :=
  (readMethod text).outcome

/-- The exceptions that a method signature throws, in order. -/
def throwsOf (text : String) : Except Fault (List ClassName) :=
  (parse text).map MethodSignature.throws

end ExceptionFlow.Signature

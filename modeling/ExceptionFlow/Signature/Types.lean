import ExceptionFlow.ClassName
import ExceptionFlow.Signature.Cursor
/-!
The types inside a signature. Reading a type checks its whole text and keeps what it erases to.

* a type: `B`, `C`, `D`, `F`, `I`, `J`, `S`, `Z` or a reference type
* a reference type: `L` and a class type, `T` and a variable with `;`, or `[` and a type
* a class type: a name, then `.` and an inner name any number of times, each name with type
  arguments or without, and `;` at the end
* type arguments: between `<` and `>`, each `*` or a reference type that may follow `+` or `-`
-/
namespace ExceptionFlow.Signature

/-- What a reference type erases to. -/
inductive Erasure where
  | named (name : ClassName)
  | variable (name : String)
  | array
  deriving DecidableEq

def primitives : List Char := ['B', 'C', 'D', 'F', 'I', 'J', 'S', 'Z']

/-- A primitive type erases to nothing. -/
def typeWith (reference : Reader Erasure) : Reader (Option Erasure) := fun cursor =>
  if cursor.seesAny primitives then do
    let cursor ← cursor.pass
    return (none, cursor)
  else do
    let (erasure, cursor) ← reference cursor
    return (some erasure, cursor)

/-- The sign before a bounded argument, if there is one. -/
def passSign (cursor : Cursor) : Reading Cursor :=
  if cursor.seesAny ['+', '-'] then cursor.pass else return cursor

/-- The unbounded argument erases to nothing. -/
def typeArgumentWith (reference : Reader Erasure) : Reader (Option Erasure) := fun cursor =>
  if cursor.sees '*' then do
    let cursor ← cursor.pass
    return (none, cursor)
  else do
    let cursor ← passSign cursor
    let (erasure, cursor) ← reference cursor
    return (some erasure, cursor)

/-- Type arguments, if there are any. -/
def typeArgumentsWith (reference : Reader Erasure) (cursor : Cursor) : Reading Cursor :=
  if cursor.sees '<' then do
    let cursor ← cursor.pass
    let (_, cursor) ← manyUntil (·.sees '>') (typeArgumentWith reference) cursor
    cursor.expect '>'
  else return cursor

/-- The characters that end a name inside a class type. -/
def nameStops : List Char := ['<', '.', ';']

/-- An inner class after its dot. -/
def innerNameWith (reference : Reader Erasure) : Reader String := fun cursor => do
  let (byte, after) ← cursor.next
  if byte = ascii '.' then do
    let (name, after) ← after.identifier nameStops
    let after ← typeArgumentsWith reference after
    return (name, after)
  else .fail (.unexpectedInClass byte cursor.position)

/-- A class type after its `L`. Inner classes are joined to the outer name by `$`. -/
def classTypeWith (reference : Reader Erasure) : Reader ClassName := fun cursor => do
  let (outer, cursor) ← cursor.identifier nameStops
  let cursor ← typeArgumentsWith reference cursor
  let (inner, cursor) ← manyUntil (·.sees ';') (innerNameWith reference) cursor
  let cursor ← cursor.pass
  return (⟨"$".intercalate (ClassName.dotted outer :: inner)⟩, cursor)

/-- A reference type whose parts are read by `inner`. -/
def referenceWith (inner : Reader Erasure) : Reader Erasure := fun cursor => do
  let (byte, after) ← cursor.next
  if byte = ascii 'L' then do
    let (name, after) ← classTypeWith inner after
    return (.named name, after)
  else if byte = ascii 'T' then do
    let (name, after) ← after.identifier [';']
    let after ← after.expect ';'
    return (.variable name, after)
  else if byte = ascii '[' then do
    let (_, after) ← typeWith inner after
    return (.array, after)
  else .fail (.unexpected byte cursor.position)

/-- A reference type with at most `depth` types around one another. -/
def nestedReference : (depth : Nat) → Reader Erasure
  | 0 => fun cursor => .fail (.truncated cursor.position)
  | depth + 1 => referenceWith (nestedReference depth)

/-- A reference type. A type inside another starts at least one byte later, so types nest no
deeper than there are bytes. -/
def referenceType : Reader Erasure := fun cursor =>
  nestedReference (cursor.rest.length + 1) cursor

def javaType : Reader (Option Erasure) :=
  typeWith referenceType

end ExceptionFlow.Signature

import ExceptionFlow.Declaration
import ExceptionFlow.Failure
/-!
Where classes are looked up. The analysis sees a `ClassSource` only; a `Classpath` is the source
that holds its classes in a table.
-/
namespace ExceptionFlow

/-- Answers a class name with its declaration, or with the reason why there is none. -/
abbrev ClassSource := ClassName → Except Failure ClassDecl

/-- A table of classes, at most one of each name. -/
structure Classpath where
  classes : List ClassDecl := []

namespace Classpath

def find? (classpath : Classpath) (name : ClassName) : Option ClassDecl :=
  classpath.classes.find? fun cls => cls.name = name

def contains (classpath : Classpath) (name : ClassName) : Bool :=
  (classpath.find? name).isSome

def size (classpath : Classpath) : Nat :=
  classpath.classes.length

/-- Adds a class in place of the one that had its name. -/
def insert (classpath : Classpath) (cls : ClassDecl) : Classpath :=
  { classes := cls :: classpath.classes.filter fun other => other.name ≠ cls.name }

def lookup (classpath : Classpath) : ClassSource := fun name =>
  match classpath.find? name with
  | some cls => .ok cls
  | none => .error (.typeNotFound name.text)

/-- The classes that every program has: the root class and the four exception roots. -/
def javaLang : Classpath :=
  { classes :=
      [{ name := .object },
        { name := .throwable, parent := some .object },
        { name := .exception, parent := some .throwable },
        { name := .runtimeException, parent := some .exception },
        { name := .error, parent := some .throwable }] }

theorem find?_insert (classpath : Classpath) (cls : ClassDecl) (name : ClassName) :
    (classpath.insert cls).find? name =
      if cls.name = name then some cls else classpath.find? name := by
  unfold find? insert
  by_cases heq : cls.name = name
  · simp [heq]
  · simp only [List.find?_cons, heq, decide_false, List.find?_filter]
    congr 1
    funext other
    by_cases hother : other.name = name
    · simp [hother, Ne.symm heq]
    · simp [hother]

end Classpath

end ExceptionFlow

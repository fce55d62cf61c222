import ExceptionFlow.AccessFlags
import ExceptionFlow.ClassName
/-!
Classes and methods as their class files declare them.
-/
namespace ExceptionFlow

structure MethodDecl where
  name : String
  descriptor : String
  flags : AccessFlags := .ofFlag .publicAccess
  /-- The names of the exceptions attribute. -/
  exceptions : List ClassName := []
  /-- The generic signature, if the method has one. -/
  signature : Option String := none
  deriving DecidableEq

namespace MethodDecl

def isStatic (method : MethodDecl) : Bool :=
  method.flags.has .staticMember

/-- Abstract and native methods have no code to analyse. -/
def hasCode (method : MethodDecl) : Bool :=
  !(method.flags.has .abstractMember || method.flags.has .nativeCode)

end MethodDecl

structure ClassDecl where
  name : ClassName
  /-- The direct superclass. -/
  parent : Option ClassName := none
  interfaces : List ClassName := []
  flags : AccessFlags := .ofFlag .publicAccess
  methods : List MethodDecl := []
  deriving DecidableEq

namespace ClassDecl

/-- The first method of that name and descriptor. -/
def method? (cls : ClassDecl) (name descriptor : String) : Option MethodDecl :=
  cls.methods.find? fun method => method.name = name ∧ method.descriptor = descriptor

end ClassDecl

end ExceptionFlow

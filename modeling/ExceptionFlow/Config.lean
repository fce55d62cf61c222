import ExceptionFlow.ClassName
/-!
What an analysis run can be told.
-/
namespace ExceptionFlow

/-- How exceptions are compared: by their names alone, or along superclasses. -/
inductive Strategy where
  | textual
  | hierarchy
  deriving DecidableEq

namespace Strategy

def all : List Strategy := [textual, hierarchy]

def text : Strategy → String
  | textual => "textual"
  | hierarchy => "hierarchy"

instance : ToString Strategy := ⟨text⟩

def ofText? (text : String) : Option Strategy :=
  all.find? fun strategy => strategy.text = text

end Strategy

/-- A method that hands on an exception which is thrown right after the call. -/
structure Idiom where
  owner : ClassName
  name : String
  deriving DecidableEq

structure Config where
  strategy : Strategy := .hierarchy
  /-- The number of superclass steps a lineage may have. -/
  maxDepth : Nat := 64
  checkDeadCatch : Bool := true
  /-- Longer methods are not searched for dead catch variables. -/
  maxLiveness : Nat := 4096
  idioms : List Idiom := [⟨.throwable, "initCause"⟩, ⟨.throwable, "fillInStackTrace"⟩]
  deriving DecidableEq

def Config.isIdiom (config : Config) (owner : ClassName) (name : String) : Bool :=
  config.idioms.contains ⟨owner, name⟩

end ExceptionFlow

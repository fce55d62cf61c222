import ExceptionFlow.ClassName
/-!
What can go wrong while classes are looked up and methods are analysed, and how each case is told.
-/
namespace ExceptionFlow

/-- A line of the text in which a malformed piece of input was noticed. -/
structure Site where
  file : String
  line : Nat
  deriving DecidableEq

inductive Failure where
  | malformed (site : Option Site) (detail : String)
  | other (detail : String)
  | typeNotFound (name : String)
  | recursionLimit (limit : Nat)
  | unprofitable (label : String)
  | invalidState (detail : String)
  | lock
  deriving DecidableEq

namespace Failure

def message : Failure → String
  | malformed none detail => s!"Malformed - {detail}"
  | malformed (some site) detail => s!"Malformed - {site.file}:{site.line}: {detail}"
  | other detail => detail
  | typeNotFound name => s!"Failed to find type in repository - {name}"
  | recursionLimit limit => s!"Reach the maximum recursion level allowed - {limit}"
  | unprofitable label => s!"Analysis of {label} is unprofitable"
  | invalidState detail => s!"Invalid detector state - {detail}"
  | lock => "Failed to lock target"

instance : ToString Failure := ⟨message⟩

end Failure

end ExceptionFlow

import ExceptionFlow.Text.Blank
/-!
Names of classes and interfaces in dotted form, and the classes every program has.
-/
namespace ExceptionFlow

/-- A class name with dots between its packages, such as `java.io.IOException`. -/
structure ClassName where
  text : String
  deriving DecidableEq

namespace ClassName

instance : ToString ClassName := ⟨ClassName.text⟩

/-- Class files separate packages by slashes. -/
def dotted (internal : String) : String :=
  String.ofList (internal.toList.map fun char => if char = '/' then '.' else char)

def ofInternal (internal : String) : ClassName :=
  ⟨dotted internal⟩

/-- The class that a stack signature names. Arrays, type variables, primitive types and unclosed
class types name none; text without the `L…;` frame is a class name itself. -/
def ofSignature? (signature : String) : Option ClassName :=
  let text := Text.trim signature
  match text.toList with
  | [] => none
  | '[' :: _ => none
  | 'L' :: framed =>
    if framed.getLast? = some ';' ∧ framed.dropLast ≠ [] then
      some (ofInternal (String.ofList framed.dropLast))
    else none
  | first :: _ =>
    if first = 'T' ∧ text.toList.getLast? = some ';' then none
    else if text.utf8ByteSize = 1 then none
    else some (ofInternal text)

def object : ClassName := ⟨"java.lang.Object"⟩

def throwable : ClassName := ⟨"java.lang.Throwable"⟩

def exception : ClassName := ⟨"java.lang.Exception"⟩

def runtimeException : ClassName := ⟨"java.lang.RuntimeException"⟩

def error : ClassName := ⟨"java.lang.Error"⟩

theorem nodup_append_singleton {names : List ClassName} {name : ClassName} (hnames : names.Nodup)
    (hnew : name ∉ names) : (names ++ [name]).Nodup := by
  refine List.nodup_append.mpr ⟨hnames, by simp, ?_⟩
  rintro other hother _ hlast rfl
  exact hnew (List.mem_singleton.mp hlast ▸ hother)

end ClassName

end ExceptionFlow

import ExceptionFlow.ThrowsClause
import Mathlib.Data.List.Chain
/-!
The grammar of method signatures: trees and how they are written. What a tree throws is said without
regard to how its text is read: a class type names a class, and a type variable stands for the class
that the leftmost bounds of the type parameters lead to.
-/
namespace ExceptionFlow.Signature

/-- A name in a text. It ends before the first of the characters `stops`, so it has none of them. -/
structure Name (stops : List Char) where
  text : String
  nonempty : text.toList ≠ []
  free : ∀ stop ∈ stops, stop ∉ text.toList

def Name.chars {stops : List Char} (name : Name stops) : List Char :=
  name.text.toList

/-- How a type argument bounds what it stands for. -/
inductive Variance where
  | exact
  | upper
  | lower
  deriving DecidableEq

def Variance.chars : Variance → List Char
  | exact => []
  | upper => ['+']
  | lower => ['-']

mutual

inductive Reference where
  | named (outer : Segment) (inner : List Segment)
  | typeVariable (name : Name [';'])
  | array (element : JavaType)

inductive JavaType where
  | primitive (letter : Char) (known : letter ∈ primitives)
  | reference (type : Reference)

/-- One name of a class type, bare or with type arguments. -/
inductive Segment where
  | bare (name : Name nameStops)
  | applied (name : Name nameStops) (arguments : List Argument)

inductive Argument where
  | any
  | bounded (variance : Variance) (bound : Reference)

end

mutual

def Reference.chars : Reference → List Char
  | .named outer inner => 'L' :: (outer.chars ++ (Segment.innerChars inner ++ [';']))
  | .typeVariable name => 'T' :: (name.chars ++ [';'])
  | .array element => '[' :: element.chars

def JavaType.chars : JavaType → List Char
  | .primitive letter _ => [letter]
  | .reference type => type.chars

def Segment.chars : Segment → List Char
  | .bare name => name.chars
  | .applied name arguments => name.chars ++ '<' :: (Argument.allChars arguments ++ ['>'])

def Argument.chars : Argument → List Char
  | .any => ['*']
  | .bounded variance bound => variance.chars ++ bound.chars

def Segment.innerChars : List Segment → List Char
  | [] => []
  | segment :: segments => '.' :: segment.chars ++ Segment.innerChars segments

def Argument.allChars : List Argument → List Char
  | [] => []
  | argument :: arguments => argument.chars ++ Argument.allChars arguments

end

theorem Segment.innerChars_eq (segments : List Segment) :
    Segment.innerChars segments = segments.flatMap fun segment => '.' :: segment.chars := by
  induction segments with
  | nil => rfl
  | cons segment segments ih => rw [Segment.innerChars, ih, List.flatMap_cons]

theorem Argument.allChars_eq (arguments : List Argument) :
    Argument.allChars arguments = arguments.flatMap Argument.chars := by
  induction arguments with
  | nil => rfl
  | cons argument arguments ih => rw [Argument.allChars, ih, List.flatMap_cons]

def Segment.name : Segment → Name nameStops
  | bare name => name
  | applied name _ => name

/-- The class of a class type: slashes become dots, and each inner name follows a dollar sign. -/
def className (outer : Segment) (inner : List Segment) : ClassName :=
  ⟨ClassName.dotted outer.name.text ++
    String.join (inner.map fun segment => "$" ++ segment.name.text)⟩

namespace Reference

/-- The characters that reference types start with. -/
def starts : List Char := ['L', 'T', '[']

theorem head?_chars (type : Reference) : ∃ start ∈ starts, type.chars.head? = some start := by
  cases type <;> simp [starts, chars]

def isArray : Reference → Bool
  | .array _ => true
  | _ => false

def erasure : Reference → Erasure
  | .named outer inner => .named (className outer inner)
  | .typeVariable name => .variable name.text
  | .array _ => .array

theorem erasure_eq_array_iff (type : Reference) : type.erasure = .array ↔ type.isArray = true := by
  cases type <;> simp [erasure, isArray]

end Reference

structure TypeParameter where
  name : Name [':', '>']
  classBound : Option Reference
  interfaceBounds : List Reference

namespace TypeParameter

def chars (parameter : TypeParameter) : List Char :=
  parameter.name.chars ++ ':' :: ((parameter.classBound.map Reference.chars).getD [] ++
    parameter.interfaceBounds.flatMap fun bound => ':' :: bound.chars)

/-- The leftmost bound. -/
def bound? (parameter : TypeParameter) : Option Reference :=
  parameter.classBound.or parameter.interfaceBounds.head?

/-- After a type parameter without bounds, a name that starts like a reference type would be taken
for the class bound. -/
def Precedes (parameter next : TypeParameter) : Prop :=
  parameter.bound? = none → ∀ start ∈ Reference.starts, next.name.chars.head? ≠ some start

end TypeParameter

/-- Type parameters that can stand one after the other. -/
abbrev TypeParameters := { list : List TypeParameter // list.IsChain TypeParameter.Precedes }

/-- A class type or a type variable. -/
abbrev ThrownType := { type : Reference // type.isArray = false }

structure MethodSyntax where
  typeParameters : Option TypeParameters
  parameters : List JavaType
  /-- Methods without result have none. -/
  result : Option JavaType
  thrown : List ThrownType

namespace MethodSyntax

def typeParameterChars : Option TypeParameters → List Char
  | none => []
  | some parameters => '<' :: (parameters.val.flatMap TypeParameter.chars ++ ['>'])

def resultChars : Option JavaType → List Char
  | none => ['V']
  | some type => type.chars

def chars (method : MethodSyntax) : List Char :=
  typeParameterChars method.typeParameters ++
    ('(' :: (method.parameters.flatMap JavaType.chars ++ ')' :: resultChars method.result) ++
      method.thrown.flatMap fun type => '^' :: type.val.chars)

def typeParameterList (method : MethodSyntax) : List TypeParameter :=
  (method.typeParameters.map Subtype.val).getD []

end MethodSyntax

/-- The bound of a type variable: the leftmost bound of the last type parameter of that name that
has one. -/
def boundOf? (parameters : List TypeParameter) (name : String) : Option Reference :=
  (parameters.reverse.filter fun parameter => parameter.name.text = name).findSome?
    TypeParameter.bound?

/-- A reference type stands for a class that is found by looking up `lookups` bounds or fewer. -/
inductive StandsFor (parameters : List TypeParameter) : Nat → Reference → ClassName → Prop where
  | named (lookups : Nat) (outer : Segment) (inner : List Segment) :
      StandsFor parameters lookups (.named outer inner) (className outer inner)
  | typeVariable {lookups : Nat} {name : Name [';']} {bound : Reference} {cls : ClassName}
      (hbound : boundOf? parameters name.text = some bound)
      (hcls : StandsFor parameters lookups bound cls) :
      StandsFor parameters (lookups + 1) (.typeVariable name) cls

/-- The thrown classes in order, one for each thrown type that stands for a class. -/
inductive Throws (parameters : List TypeParameter) : List ThrownType → List ClassName → Prop where
  | nil : Throws parameters [] []
  | found {type : ThrownType} {types : List ThrownType} {cls : ClassName} {classes : List ClassName}
      (hcls : StandsFor parameters boundChainLimit type.val cls)
      (hclasses : Throws parameters types classes) :
      Throws parameters (type :: types) (cls :: classes)
  | lost {type : ThrownType} {types : List ThrownType} {classes : List ClassName}
      (hcls : ∀ cls, ¬ StandsFor parameters boundChainLimit type.val cls)
      (hclasses : Throws parameters types classes) :
      Throws parameters (type :: types) classes

def MethodSyntax.Throws (method : MethodSyntax) (classes : List ClassName) : Prop :=
  Signature.Throws method.typeParameterList method.thrown classes

end ExceptionFlow.Signature

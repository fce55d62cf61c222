import ExceptionFlow.Call
/-!
Method bodies: instructions at their offsets, the exception table and the line table.
-/
namespace ExceptionFlow

inductive InstructionKind where
  /-- Throws the value whose stack signature is `stackTop`, if that is tracked. -/
  | athrow (stackTop : Option String)
  | invoke (target : CallTarget) (dispatch : Dispatch)
  | checkCast (target : ClassName)
  | store (slot : Nat)
  | load (slot : Nat)
  | ret
  | other
  deriving DecidableEq

structure Instruction where
  offset : Nat
  kind : InstructionKind
  deriving DecidableEq

/-- A row of the exception table. A row without a type catches everything. -/
structure TableEntry where
  start : Nat
  stop : Nat
  handler : Nat
  catchType : Option ClassName
  deriving DecidableEq

/-- From the offset `start` on, code belongs to `line`. -/
structure LineEntry where
  start : Nat
  line : Nat
  deriving DecidableEq

/-- Line entries by increasing start. -/
structure LineTable where
  entries : List LineEntry
  sorted : entries.Pairwise fun first second => first.start ≤ second.start
  deriving DecidableEq

namespace LineTable

theorem startOrder_trans (first second third : LineEntry)
    (hfirst : decide (first.start ≤ second.start) = true)
    (hsecond : decide (second.start ≤ third.start) = true) :
    decide (first.start ≤ third.start) = true := by
  rw [decide_eq_true_eq] at *
  exact Nat.le_trans hfirst hsecond

theorem startOrder_total (first second : LineEntry) :
    (decide (first.start ≤ second.start) || decide (second.start ≤ first.start)) = true := by
  simpa using Nat.le_total first.start second.start

/-- Sorts entries by their start. Entries of one start keep their order. -/
def ofEntries (entries : List LineEntry) : LineTable where
  entries := entries.mergeSort fun first second => decide (first.start ≤ second.start)
  sorted :=
    (List.pairwise_mergeSort startOrder_trans startOrder_total entries).imp of_decide_eq_true

def isEmpty (table : LineTable) : Bool :=
  table.entries.isEmpty

/-- The line of the last entry that starts at the offset or before it. -/
def lineAt? (table : LineTable) (offset : Nat) : Option Nat :=
  (table.entries.takeWhile fun entry => entry.start ≤ offset).getLast?.map LineEntry.line

end LineTable

structure MethodBody where
  className : ClassName
  method : MethodDecl
  code : List Instruction := []
  handlers : List TableEntry := []
  lines : Option LineTable := none
  deriving DecidableEq

namespace MethodBody

/-- The method as `a.Service.run()V`. -/
def label (body : MethodBody) : String :=
  s!"{body.className}.{body.method.name}{body.method.descriptor}"

def codeLength (body : MethodBody) : Nat :=
  body.code.length

/-- The offset lies between the first and the last instruction. -/
def spans (body : MethodBody) (offset : Nat) : Bool :=
  match body.code.head?, body.code.getLast? with
  | some first, some last => first.offset ≤ offset && offset ≤ last.offset
  | _, _ => false

/-- Looks for the offset among the `size` instructions from `base` on. In each round the upper half
is given up if it begins behind the offset, and the lower half if not. -/
def bisect (code : List Instruction) (offset : Nat) : (rounds base size : Nat) → Nat
  | 0, base, _ => base
  | rounds + 1, base, size =>
    if size ≤ 1 then base
    else
      match code[base + size / 2]? with
      | some middle =>
        bisect code offset rounds (if offset < middle.offset then base else base + size / 2)
          (size - size / 2)
      | none => base

/-- The place in the code of the instruction at this offset. It is looked for by bisection, which
finds every instruction in code whose offsets increase and may miss some in other code. -/
def indexOf? (body : MethodBody) (offset : Nat) : Option Nat :=
  let index := bisect body.code offset body.code.length 0 body.code.length
  if body.code[index]?.any fun instruction => instruction.offset = offset then some index else none

def lineAt? (body : MethodBody) (offset : Nat) : Option Nat :=
  body.lines.bind fun table => table.lineAt? offset

end MethodBody

structure ClassBody where
  name : ClassName
  methods : List MethodBody := []
  deriving DecidableEq

end ExceptionFlow

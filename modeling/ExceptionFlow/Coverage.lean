import ExceptionFlow.Lineage
import ExceptionFlow.Text.Hex
import ExceptionFlow.ThrowsClause
/-!
Thrown exceptions against what stands in their way: the guarded regions of the method and its throws
clause. Each event is settled once, and a region that catches an event is marked.
-/
namespace ExceptionFlow

/-- An exception that leaves the instruction at `offset`. -/
structure ThrowEvent where
  exception : Lineage
  offset : Nat
  deriving DecidableEq

def ThrowEvent.text (event : ThrowEvent) : String :=
  s!"{event.exception.name} @ {Text.paddedHex event.offset}"

/-- What a guarded region catches. -/
inductive Caught where
  | any
  | type (lineage : Lineage)
  deriving DecidableEq

def Caught.text : Caught → String
  | any => "any"
  | type lineage => lineage.name.text

/-- A range of code, `stop` excluded, whose exceptions go to a handler. -/
structure GuardedRegion where
  caught : Caught
  start : Nat
  stop : Nat
  handler : Nat
  /-- Some event was settled by this region. -/
  covered : Bool := false
  /-- The handler stores the exception and never reads it. -/
  deadVariable : Bool := false
  deriving DecidableEq

namespace GuardedRegion

def guards (region : GuardedRegion) (offset : Nat) : Bool :=
  region.start ≤ offset && offset < region.stop

/-- The region stops the event. Which exceptions an unspecific throwable stands for is unknown, so
every region that guards its offset stops it. -/
def catches (region : GuardedRegion) (event : ThrowEvent) : Bool :=
  region.guards event.offset &&
    (event.exception.isUnspecific ||
      match region.caught with
      | .any => true
      | .type lineage => lineage.isUnspecific || event.exception.descendsFrom lineage.name)

def markCovered (region : GuardedRegion) : GuardedRegion :=
  { region with covered := true }

end GuardedRegion

/-- The throws clause lets the event leave the method. -/
def ThrowsClause.allows (clause : ThrowsClause) (event : ThrowEvent) : Bool :=
  event.exception.isUnspecific || clause.declaresRoot || event.exception.name ∈ clause ||
    clause.entries.any event.exception.descendsFrom

inductive Coverage where
  | caught (index : Nat)
  | declared
  | uncovered
  deriving DecidableEq

namespace Coverage

def text : Coverage → String
  | caught index => s!"Caught({index})"
  | declared => "Declared"
  | uncovered => "Uncovered"

/-- Settles one event: the first region that catches it is marked, else the clause is asked. -/
def settle (clause : ThrowsClause) (event : ThrowEvent) (regions : List GuardedRegion) :
    Coverage × List GuardedRegion :=
  match regions.findIdx? fun region => region.catches event with
  | some index => (.caught index, regions.modify index GuardedRegion.markCovered)
  | none => (if clause.allows event then .declared else .uncovered, regions)

/-- Settles events in order, each with the regions as the ones before left them. -/
def settleAll (clause : ThrowsClause) :
    List ThrowEvent → List GuardedRegion → List (ThrowEvent × Coverage) × List GuardedRegion
  | [], regions => ([], regions)
  | event :: events, regions =>
    let first := settle clause event regions
    let others := settleAll clause events first.2
    ((event, first.1) :: others.1, others.2)

/-- The events that nothing stops and nothing allows. -/
def escaped (settled : List (ThrowEvent × Coverage)) : List ThrowEvent :=
  (settled.filter fun entry => entry.2 = .uncovered).map Prod.fst

end Coverage

end ExceptionFlow

import ExceptionFlow.Detector
import ExceptionFlow.Text.Quoted
/-!
One-line dumps of the state of a run, for debugging. A record is written as
`Name { field: value }`, a list as `[a, b]`, a set as `{a, b}` and text in quotes.
-/
namespace ExceptionFlow.Describe

def commaSeparated (items : List String) : String :=
  ", ".intercalate items

def braced (items : List String) : String :=
  "\x7b " ++ commaSeparated items ++ " \x7d"

def fields (entries : List (String × String)) : List String :=
  entries.map fun entry => entry.1 ++ ": " ++ entry.2

def record (name : String) (entries : List (String × String)) : String :=
  name ++ " " ++ braced (fields entries)

/-- A record with parts that are not shown. -/
def openRecord (name : String) (entries : List (String × String)) : String :=
  name ++ " " ++ braced (fields entries ++ [".."])

def list (items : List String) : String :=
  "[" ++ commaSeparated items ++ "]"

def set (items : List String) : String :=
  "\x7b" ++ commaSeparated items ++ "\x7d"

def option : Option String → String
  | none => "None"
  | some text => "Some(" ++ text ++ ")"

def className (name : ClassName) : String :=
  s!"TypeName({name})"

def lineage (lineage : Lineage) : String :=
  record "ExceptionType"
    [("name", className lineage.name), ("ancestors", set (lineage.ancestors.map className))]

def event (event : ThrowEvent) : String :=
  record "ThrownExceptionEvent"
    [("exception", lineage event.exception), ("offset", toString event.offset)]

def caught : Caught → String
  | .any => "Any"
  | .type caughtLineage => "Type(" ++ lineage caughtLineage ++ ")"

def region (region : GuardedRegion) : String :=
  record "CatchRegion"
    [("caught", caught region.caught), ("start", toString region.start),
      ("end", toString region.stop), ("handler", toString region.handler),
      ("covered", toString region.covered), ("dead_variable", toString region.deadVariable)]

def clause (clause : ThrowsClause) : String :=
  record "DeclaredThrows" [("entries", list (clause.entries.map className))]

def call (call : ClassName × String) : String :=
  "(" ++ commaSeparated [className call.1, Text.quote call.2] ++ ")"

def flow (flow : FlowLog) : String :=
  record "FlowRecorder"
    [("events", list (flow.events.map event)), ("regions", list (flow.regions.map region)),
      ("declared", clause flow.declared), ("last_call", option (flow.lastCall.map call))]

def phase : Phase → String
  | .idle => "Idle"
  | .scanning => "Scanning"
  | .reconciling => "Reconciling"

def detector (detector : Detector) : String :=
  record "UndeclaredExceptionDetector"
    [("state", phase detector.phase),
      ("method", option (detector.current.map fun body => Text.quote body.label)),
      ("recorder", flow detector.flow)]

def strategy : Strategy → String
  | .textual => "Textual"
  | .hierarchy => "Hierarchy"

def idiom (idiom : Idiom) : String :=
  record "RethrowIdiom" [("owner", className idiom.owner), ("name", Text.quote idiom.name)]

def config (config : Config) : String :=
  record "AnalysisConfig"
    [("strategy", strategy config.strategy), ("max_hierarchy_depth", toString config.maxDepth),
      ("check_dead_catch", toString config.checkDeadCatch),
      ("max_liveness_instructions", toString config.maxLiveness),
      ("rethrow_idioms", list (config.idioms.map idiom))]

/-- The part of a run that finds lineages. -/
def hierarchy (config : Config) (memo : Memo) : String :=
  record "ExceptionHierarchy"
    [("strategy", strategy config.strategy), ("max_depth", toString config.maxDepth),
      ("cached", toString memo.size)]

def context (context : Context) (memo : Memo) : String :=
  openRecord "AnalysisContext"
    [("config", config context.config), ("hierarchy", hierarchy context.config memo),
      ("liveness", toString context.liveness.isSome)]

end ExceptionFlow.Describe

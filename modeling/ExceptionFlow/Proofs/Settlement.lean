import ExceptionFlow.FlowLog
/-!
Which events escape. Settling marks regions, but no mark decides what is caught, so the events that
escape can be told from the exception table and the throws clause alone.
-/
namespace ExceptionFlow

namespace TableEntry

def guards (entry : TableEntry) (offset : Nat) : Bool :=
  entry.start ≤ offset && offset < entry.stop

/-- The row catches everything, every throwable, or a class that the exception descends from. -/
def stops (entry : TableEntry) (lineage : Lineage) : Bool :=
  match entry.catchType with
  | none => true
  | some name => name = .throwable || lineage.descendsFrom name

end TableEntry

/-- An exception that is thrown at the offset is caught there or may leave the method. A throwable
of unknown class is never held against a method, and declaring the root of all exceptions declares
every one of them. -/
def MethodBody.covers (body : MethodBody) (lineage : Lineage) (offset : Nat) : Bool :=
  lineage.isUnspecific ||
    body.handlers.any (fun entry => entry.guards offset && entry.stops lineage) ||
    body.method.throwsClause.declaresRoot ||
    body.method.throwsClause.entries.any lineage.descendsFrom

namespace GuardedRegion

/-- The row of the exception table that a region was made from. -/
def row (region : GuardedRegion) : TableEntry :=
  { start := region.start
    stop := region.stop
    handler := region.handler
    catchType :=
      match region.caught with
      | .any => none
      | .type lineage => some lineage.name }

theorem catches_eq (region : GuardedRegion) (event : ThrowEvent) :
    region.catches event =
      (region.row.guards event.offset &&
        (event.exception.isUnspecific || region.row.stops event.exception)) := by
  unfold catches row TableEntry.stops
  cases region.caught <;> rfl

end GuardedRegion

namespace Coverage

theorem settle_rows (clause : ThrowsClause) (event : ThrowEvent) (regions : List GuardedRegion) :
    (settle clause event regions).2.map GuardedRegion.row = regions.map GuardedRegion.row := by
  unfold settle
  cases regions.findIdx? fun region => region.catches event with
  | none => rfl
  | some index =>
      change (regions.modify index GuardedRegion.markCovered).map GuardedRegion.row = _
      apply List.ext_getElem?
      intro place
      rw [List.getElem?_map, List.getElem?_map, List.getElem?_modify]
      cases regions[place]? with
      | none => rfl
      | some region =>
          change some (if index = place then region.markCovered else region).row = some region.row
          split <;> rfl

def stopped (event : ThrowEvent) (rows : List TableEntry) : Bool :=
  rows.any fun row =>
    row.guards event.offset && (event.exception.isUnspecific || row.stops event.exception)

theorem settle_eq_uncovered_iff (clause : ThrowsClause) (event : ThrowEvent)
    (regions : List GuardedRegion) :
    (settle clause event regions).1 = .uncovered ↔
      stopped event (regions.map GuardedRegion.row) = false ∧ clause.allows event = false := by
  have hstopped : stopped event (regions.map GuardedRegion.row) =
      regions.any fun region => region.catches event := by
    simp only [stopped, List.any_map, Function.comp_def, GuardedRegion.catches_eq]
  unfold settle
  rw [hstopped]
  cases hfind : regions.findIdx? fun region => region.catches event with
  | none =>
      have hany : (regions.any fun region => region.catches event) = false := by
        rw [List.findIdx?_eq_none_iff] at hfind
        exact List.any_eq_false.mpr fun region hregion => by simp [hfind region hregion]
      cases clause.allows event <;> simp [hany]
  | some index =>
      have hany : (regions.any fun region => region.catches event) = true := by
        rw [← List.findIdx?_isSome, hfind]
        rfl
      simp [hany]

/-- The events that escape are those that no row stops and the clause does not allow. -/
theorem escaped_settleAll (clause : ThrowsClause) (events : List ThrowEvent)
    (regions : List GuardedRegion) :
    escaped (settleAll clause events regions).1 =
      events.filter fun event =>
        !stopped event (regions.map GuardedRegion.row) && !clause.allows event := by
  induction events generalizing regions with
  | nil => rfl
  | cons event events ih =>
      -- the regions after the first event are marked, but their rows are the same
      have hrest := ih (settle clause event regions).2
      rw [settle_rows] at hrest
      have huncovered := settle_eq_uncovered_iff clause event regions
      unfold escaped at hrest ⊢
      rw [settleAll, List.filter_cons, List.filter_cons]
      by_cases hescapes : (settle clause event regions).1 = .uncovered
      · obtain ⟨hstopped, hallowed⟩ := huncovered.mp hescapes
        simp [hescapes, hstopped, hallowed, hrest]
      · have hsettled : (!stopped event (regions.map GuardedRegion.row) &&
            !clause.allows event) = false := by
          rw [Bool.eq_false_iff, ne_eq, Bool.and_eq_true, Bool.not_eq_true', Bool.not_eq_true']
          exact fun h => hescapes (huncovered.mpr h)
        simp [hescapes, hsettled, hrest]

end Coverage

namespace FlowLog

def escapes (flow : FlowLog) : List ThrowEvent :=
  flow.events.filter fun event =>
    !Coverage.stopped event (flow.regions.map GuardedRegion.row) && !flow.declared.allows event

/-- The findings of a method whose log this is. -/
def batch (flow : FlowLog) (body : MethodBody) : Batch :=
  .ofBody body (flow.escapes.map fun event => .ofBody body event.offset event.exception.name)

/-- The log is that of a method with this table and this clause. -/
structure Frames (flow : FlowLog) (body : MethodBody) : Prop where
  rows : flow.regions.map GuardedRegion.row = body.handlers
  declared : ∀ name, name ∈ flow.declared ↔ name ∈ body.method.throwsClause

theorem escapes_eq {flow : FlowLog} {body : MethodBody} (hframes : flow.Frames body) :
    flow.escapes = flow.events.filter fun event => !body.covers event.exception event.offset := by
  apply List.filter_congr
  intro event _
  rw [hframes.rows, ← Bool.not_or]
  congr 1
  rw [Bool.eq_iff_iff]
  have hroot : flow.declared.declaresRoot = body.method.throwsClause.declaresRoot := by
    simp only [ThrowsClause.declaresRoot, hframes.declared]
  have hmem : ∀ name, name ∈ flow.declared.entries ↔ name ∈ body.method.throwsClause.entries :=
    hframes.declared
  simp only [Coverage.stopped, ThrowsClause.allows, MethodBody.covers, hroot, Bool.or_eq_true,
    List.any_eq_true, Bool.and_eq_true, decide_eq_true_eq, hmem]
  constructor
  · rintro (⟨entry, hentry, hguards, hunspecific | hstops⟩ |
      ((hunspecific | hexception) | hname) | ⟨name, hname, hdescends⟩)
    · exact Or.inl (Or.inl (Or.inl hunspecific))
    · exact Or.inl (Or.inl (Or.inr ⟨entry, hentry, hguards, hstops⟩))
    · exact Or.inl (Or.inl (Or.inl hunspecific))
    · exact Or.inl (Or.inr hexception)
    · refine Or.inr ⟨event.exception.name, (hframes.declared _).mp hname, ?_⟩
      exact List.contains_iff_mem.mpr event.exception.own
    · exact Or.inr ⟨name, hname, hdescends⟩
  · rintro (((hunspecific | ⟨entry, hentry, hguards, hstops⟩) | hexception) |
      ⟨name, hname, hdescends⟩)
    · exact Or.inr (Or.inl (Or.inl (Or.inl hunspecific)))
    · exact Or.inl ⟨entry, hentry, hguards, Or.inr hstops⟩
    · exact Or.inr (Or.inl (Or.inl (Or.inr hexception)))
    · exact Or.inr (Or.inr ⟨name, hname, hdescends⟩)

end FlowLog

end ExceptionFlow

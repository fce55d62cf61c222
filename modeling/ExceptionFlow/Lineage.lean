import ExceptionFlow.Classpath
/-!
Lineages: an exception class together with all classes it descends from. Finding a lineage climbs
the superclasses once; the memo keeps what was found.
-/
namespace ExceptionFlow

@[ext]
structure Lineage where
  name : ClassName
  /-- The class itself and its superclasses. -/
  ancestors : List ClassName
  own : name ∈ ancestors
  nodup : ancestors.Nodup
  deriving DecidableEq

namespace Lineage

/-- A class of which only the name is known. -/
def singleton (name : ClassName) : Lineage :=
  { name, ancestors := [name], own := List.mem_singleton_self name, nodup := by simp }

/-- Adds an ancestor at the end unless it is there. -/
def add (lineage : Lineage) (ancestor : ClassName) : Lineage :=
  if hknown : ancestor ∈ lineage.ancestors then lineage
  else
    { name := lineage.name
      ancestors := lineage.ancestors ++ [ancestor]
      own := List.mem_append_left _ lineage.own
      nodup := ClassName.nodup_append_singleton lineage.nodup hknown }

def addAll (lineage : Lineage) (ancestors : List ClassName) : Lineage :=
  ancestors.foldl add lineage

/-- The lineage of a class with these superclasses. -/
def ofAncestors (name : ClassName) (ancestors : List ClassName) : Lineage :=
  (singleton name).addAll ancestors

theorem name_add (lineage : Lineage) (ancestor : ClassName) :
    (lineage.add ancestor).name = lineage.name := by
  unfold add
  split <;> rfl

theorem mem_add (lineage : Lineage) (ancestor other : ClassName) :
    other ∈ (lineage.add ancestor).ancestors ↔ other ∈ lineage.ancestors ∨ other = ancestor := by
  unfold add
  split
  · rename_i hknown
    exact ⟨Or.inl, fun hother => hother.elim id fun heq => heq ▸ hknown⟩
  · exact List.mem_append.trans (or_congr Iff.rfl List.mem_singleton)

theorem name_addAll (lineage : Lineage) (ancestors : List ClassName) :
    (lineage.addAll ancestors).name = lineage.name := by
  induction ancestors generalizing lineage with
  | nil => rfl
  | cons ancestor ancestors ih => exact (ih (lineage.add ancestor)).trans (name_add ..)

theorem mem_addAll (lineage : Lineage) (ancestors : List ClassName) (other : ClassName) :
    other ∈ (lineage.addAll ancestors).ancestors ↔
      other ∈ lineage.ancestors ∨ other ∈ ancestors := by
  induction ancestors generalizing lineage with
  | nil => simp [addAll]
  | cons ancestor ancestors ih =>
      have hstep : lineage.addAll (ancestor :: ancestors) =
          (lineage.add ancestor).addAll ancestors := rfl
      rw [hstep, ih, mem_add, List.mem_cons, or_assoc]

theorem ancestors_addAll (lineage : Lineage) {ancestors : List ClassName}
    (hnodup : (lineage.ancestors ++ ancestors).Nodup) :
    (lineage.addAll ancestors).ancestors = lineage.ancestors ++ ancestors := by
  induction ancestors generalizing lineage with
  | nil => exact (List.append_nil _).symm
  | cons ancestor ancestors ih =>
      have hnew : ancestor ∉ lineage.ancestors := fun hmem =>
        (List.nodup_append.mp hnodup).2.2 ancestor hmem ancestor List.mem_cons_self rfl
      have hadd : (lineage.add ancestor).ancestors = lineage.ancestors ++ [ancestor] := by
        rw [add, dif_neg hnew]
      rw [List.append_cons, ← hadd] at hnodup ⊢
      exact ih (lineage.add ancestor) hnodup

@[simp]
theorem name_ofAncestors (name : ClassName) (ancestors : List ClassName) :
    (ofAncestors name ancestors).name = name :=
  name_addAll _ _

@[simp]
theorem mem_ofAncestors (name : ClassName) (ancestors : List ClassName) (other : ClassName) :
    other ∈ (ofAncestors name ancestors).ancestors ↔ other ∈ name :: ancestors := by
  rw [ofAncestors, mem_addAll]
  simp [singleton]

theorem ancestors_ofAncestors {name : ClassName} {ancestors : List ClassName}
    (hnodup : (name :: ancestors).Nodup) :
    (ofAncestors name ancestors).ancestors = name :: ancestors :=
  ancestors_addAll (singleton name) hnodup

theorem eq_ofAncestors {lineage : Lineage} {above : List ClassName}
    (h : lineage.ancestors = lineage.name :: above) : lineage = ofAncestors lineage.name above := by
  have hnodup := lineage.nodup
  rw [h] at hnodup
  exact Lineage.ext (name_ofAncestors ..).symm (h.trans (ancestors_ofAncestors hnodup).symm)

def descendsFrom (lineage : Lineage) (other : ClassName) : Bool :=
  lineage.ancestors.contains other

def isUnspecific (lineage : Lineage) : Bool :=
  lineage.name = .throwable

def canBeThrown (lineage : Lineage) : Bool :=
  lineage.descendsFrom .throwable

/-- Runtime exceptions and errors need not be declared. -/
def isUnchecked (lineage : Lineage) : Bool :=
  lineage.descendsFrom .runtimeException || lineage.descendsFrom .error

end Lineage

theorem Lineage.labelled_nil :
    ∀ entry ∈ ([] : List (ClassName × Lineage)), entry.2.name = entry.1 :=
  List.forall_mem_nil _

/-- The lineages found so far, each under its name. -/
@[ext]
structure Memo where
  entries : List (ClassName × Lineage) := []
  distinct : (entries.map Prod.fst).Nodup := by exact List.nodup_nil
  labelled : ∀ entry ∈ entries, entry.2.name = entry.1 := by exact Lineage.labelled_nil
  deriving DecidableEq

namespace Memo

def find? (memo : Memo) (name : ClassName) : Option Lineage :=
  memo.entries.lookup name

def size (memo : Memo) : Nat :=
  memo.entries.length

theorem find?_eq_none_iff {memo : Memo} {name : ClassName} :
    memo.find? name = none ↔ name ∉ memo.entries.map Prod.fst := by
  unfold find?
  rw [List.lookup_eq_none_iff, List.mem_map]
  constructor
  · rintro hall ⟨entry, hentry, rfl⟩
    exact absurd (hall entry hentry) (by simp)
  · intro hnone entry hentry
    exact bne_iff_ne.mpr fun hname => hnone ⟨entry, hentry, hname.symm⟩

theorem mem_of_find? {memo : Memo} {name : ClassName} {lineage : Lineage}
    (hfind : memo.find? name = some lineage) : (name, lineage) ∈ memo.entries := by
  obtain ⟨before, after, hentries, -⟩ := List.lookup_eq_some_iff.mp hfind
  rw [hentries]
  exact List.mem_append_right _ List.mem_cons_self

theorem name_of_find? {memo : Memo} {name : ClassName} {lineage : Lineage}
    (hfind : memo.find? name = some lineage) : lineage.name = name :=
  memo.labelled _ (mem_of_find? hfind)

/-- Keeps a lineage under its name. What is known already stays. -/
def insert (memo : Memo) (lineage : Lineage) : Memo :=
  if hunknown : memo.find? lineage.name = none then
    { entries := (lineage.name, lineage) :: memo.entries
      distinct := List.nodup_cons.mpr ⟨find?_eq_none_iff.mp hunknown, memo.distinct⟩
      labelled := List.forall_mem_cons.mpr ⟨rfl, memo.labelled⟩ }
  else memo

theorem entries_insert {memo : Memo} {lineage : Lineage}
    (hunknown : memo.find? lineage.name = none) :
    (memo.insert lineage).entries = (lineage.name, lineage) :: memo.entries := by
  rw [insert, dif_pos hunknown]

theorem find?_insert (memo : Memo) (lineage : Lineage) (other : ClassName) :
    (memo.insert lineage).find? other =
      if other = lineage.name then some ((memo.find? lineage.name).getD lineage)
      else memo.find? other := by
  by_cases hunknown : memo.find? lineage.name = none
  · unfold find? at hunknown ⊢
    rw [entries_insert hunknown, List.lookup_cons, hunknown]
    by_cases heq : other = lineage.name
    · simp [heq]
    · simp [heq, beq_eq_false_iff_ne.mpr heq]
  · obtain ⟨known, hknown⟩ := Option.ne_none_iff_exists'.mp hunknown
    rw [insert, dif_neg hunknown, hknown]
    split
    · rename_i heq
      rw [heq, hknown]
      rfl
    · rfl

end Memo

namespace Lineage

/-- Climbs from a class to its superclasses, `budget` steps at most; `seen` are the names passed so
far. A superclass with a known lineage ends the climb, one that was passed before is a cycle. -/
def climb (source : ClassSource) (memo : Memo) (limit : Nat) :
    (budget : Nat) → (seen : List ClassName) → ClassDecl → Except Failure (List ClassName)
  | budget, seen, cls =>
    match cls.parent, budget with
    | none, _ => .ok seen
    | some _, 0 => .error (.recursionLimit limit)
    | some parent, budget + 1 =>
      if parent ∈ seen then .error (.recursionLimit limit)
      else
        match memo.find? parent with
        | some known => .ok (seen ++ (parent :: known.ancestors.filter fun name =>
            name ≠ parent ∧ name ∉ seen))
        | none => do
          let next ← source parent
          climb source memo limit budget (seen ++ [parent]) next

/-- A climb keeps the names passed before it, and comes to none of them again. -/
theorem climb_spec {source : ClassSource} {memo : Memo} {limit budget : Nat}
    {seen names : List ClassName} {cls : ClassDecl}
    (hclimb : climb source memo limit budget seen cls = .ok names) (hseen : seen.Nodup) :
    seen ⊆ names ∧ names.Nodup := by
  fun_induction climb source memo limit budget seen cls with
  | case1 =>
      cases hclimb
      exact ⟨List.Subset.refl _, hseen⟩
  | case2 => cases hclimb
  | case3 => cases hclimb
  | case4 seen _ parent _ _ hnew known _ =>
      cases hclimb
      refine ⟨List.subset_append_left _ _, List.nodup_append.mpr ⟨hseen, ?_, ?_⟩⟩
      · exact List.nodup_cons.mpr ⟨by simp, List.Pairwise.filter _ known.nodup⟩
      · rintro name hname _ hother rfl
        rcases List.mem_cons.mp hother with rfl | hother
        · exact hnew hname
        · simp [hname] at hother
  | case5 seen _ parent _ _ hnew _ ih =>
      cases hnext : source parent with
      | error failure =>
          rw [hnext] at hclimb
          cases hclimb
      | ok next =>
          rw [hnext] at hclimb
          obtain ⟨hsubset, hnodup⟩ := ih next hclimb (ClassName.nodup_append_singleton hseen hnew)
          exact ⟨fun name hname => hsubset (List.mem_append_left _ hname), hnodup⟩

/-- The lineage of a class, with at most `limit` steps from class to superclass. -/
def find (source : ClassSource) (memo : Memo) (limit : Nat) (name : ClassName) :
    Except Failure Lineage :=
  match source name with
  | .error failure => .error failure
  | .ok cls =>
    match hclimb : climb source memo limit limit [name] cls with
    | .error failure => .error failure
    | .ok ancestors =>
      have hancestors := climb_spec hclimb (by simp)
      .ok
        { name
          ancestors
          own := hancestors.1 (List.mem_singleton_self name)
          nodup := hancestors.2 }

theorem name_of_find {source : ClassSource} {memo : Memo} {limit : Nat} {name : ClassName}
    {lineage : Lineage} (hfind : find source memo limit name = .ok lineage) :
    lineage.name = name := by
  unfold find at hfind
  cases hcls : source name with
  | error failure =>
      rw [hcls] at hfind
      cases hfind
  | ok cls =>
      simp only [hcls] at hfind
      split at hfind
      · cases hfind
      · cases hfind
        rfl

/-- What is found is what the climb comes back with. -/
theorem map_find (source : ClassSource) (memo : Memo) (limit : Nat) (name : ClassName) :
    (find source memo limit name).map ancestors =
      source name >>= climb source memo limit limit [name] := by
  unfold find
  cases source name with
  | error failure => rfl
  | ok cls =>
      change _ = climb source memo limit limit [name] cls
      simp only
      split <;> simp_all [Except.map]

end Lineage

end ExceptionFlow

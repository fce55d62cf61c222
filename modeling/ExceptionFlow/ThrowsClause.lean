import ExceptionFlow.Declaration
import ExceptionFlow.Signature.Method
/-!
Throws clauses: the exceptions that a method declares, each once and in the order of first mention.
-/
namespace ExceptionFlow

@[ext]
structure ThrowsClause where
  entries : List ClassName := []
  nodup : entries.Nodup := by exact List.nodup_nil

namespace ThrowsClause

instance : DecidableEq ThrowsClause := fun clause other =>
  decidable_of_iff (clause.entries = other.entries) ThrowsClause.ext_iff.symm

instance : Membership ClassName ThrowsClause := ⟨fun clause name => name ∈ clause.entries⟩

instance (name : ClassName) (clause : ThrowsClause) : Decidable (name ∈ clause) :=
  inferInstanceAs (Decidable (name ∈ clause.entries))

def isEmpty (clause : ThrowsClause) : Bool :=
  clause.entries.isEmpty

def size (clause : ThrowsClause) : Nat :=
  clause.entries.length

/-- Adds a name at the end unless it is there. -/
def insert (clause : ThrowsClause) (name : ClassName) : ThrowsClause :=
  if hname : name ∈ clause then clause
  else
    { entries := clause.entries ++ [name]
      nodup := ClassName.nodup_append_singleton clause.nodup hname }

def insertAll (clause : ThrowsClause) (names : List ClassName) : ThrowsClause :=
  names.foldl insert clause

def ofList (names : List ClassName) : ThrowsClause :=
  insertAll {} names

/-- The names of the first clause, then those of the second that are new. -/
def merge (clause other : ThrowsClause) : ThrowsClause :=
  clause.insertAll other.entries

def filter (clause : ThrowsClause) (keep : ClassName → Bool) : ThrowsClause :=
  { entries := clause.entries.filter keep, nodup := List.Pairwise.filter keep clause.nodup }

/-- Declaring the root of all exceptions declares every one of them. -/
def declaresRoot (clause : ThrowsClause) : Bool :=
  .exception ∈ clause

theorem mem_insert (clause : ThrowsClause) (name other : ClassName) :
    other ∈ clause.insert name ↔ other ∈ clause ∨ other = name := by
  unfold insert
  split
  · rename_i hname
    constructor
    · exact Or.inl
    · rintro (hother | rfl)
      · exact hother
      · exact hname
  · exact List.mem_append.trans (or_congr Iff.rfl List.mem_singleton)

theorem filter_mem_of_sublist {names kept : List ClassName} (hnodup : names.Nodup)
    (hkept : kept.Sublist names) : names.filter (· ∈ kept) = kept := by
  induction hkept with
  | slnil => rfl
  | @cons kept names name hkept ih =>
      obtain ⟨hname, hnodup⟩ := List.nodup_cons.mp hnodup
      have hgone : name ∉ kept := fun hmem => hname (hkept.subset hmem)
      rw [List.filter_cons_of_neg (by simpa using hgone), ih hnodup]
  | @cons_cons kept names name hkept ih =>
      obtain ⟨hname, hnodup⟩ := List.nodup_cons.mp hnodup
      rw [List.filter_cons_of_pos (by simp)]
      congr 1
      refine Eq.trans (List.filter_congr fun other hother => ?_) (ih hnodup)
      have hne : other ≠ name := fun heq => hname (heq ▸ hother)
      simp [hne]

/-- No name stands there twice, so a part of the names is kept by the test for its members. -/
theorem entries_filter_mem (clause : ThrowsClause) {kept : List ClassName}
    (hkept : kept.Sublist clause.entries) : (clause.filter (· ∈ kept)).entries = kept :=
  filter_mem_of_sublist clause.nodup hkept

theorem mem_insertAll (names : List ClassName) (clause : ThrowsClause) (other : ClassName) :
    other ∈ clause.insertAll names ↔ other ∈ clause ∨ other ∈ names := by
  induction names generalizing clause with
  | nil => simp [insertAll]
  | cons name names ih =>
      have hstep : clause.insertAll (name :: names) = (clause.insert name).insertAll names := rfl
      rw [hstep, ih, mem_insert, List.mem_cons, or_assoc]

end ThrowsClause

namespace MethodDecl

/-- The generic signature of a method together with the fault that makes it unreadable. -/
def signatureFault? (method : MethodDecl) : Option (String × Signature.Fault) :=
  match method.signature with
  | none => none
  | some text =>
    match Signature.throwsOf text with
    | .ok _ => none
    | .error fault => some (text, fault)

/-- The exceptions of the generic signature. An unreadable signature adds none. -/
def signatureThrows (method : MethodDecl) : List ClassName :=
  match method.signature with
  | none => []
  | some text => (Signature.throwsOf text).toOption.getD []

/-- The exceptions attribute first, then what only the generic signature names. -/
def throwsClause (method : MethodDecl) : ThrowsClause :=
  (ThrowsClause.ofList method.exceptions).merge (ThrowsClause.ofList method.signatureThrows)

end MethodDecl

end ExceptionFlow

import ExceptionFlow.ThrowsClause
/-!
Throws clauses as ordered sets. Whatever operations a clause is built by, it names each class once,
and the classes stand in the order in which they were first mentioned.
-/
namespace ExceptionFlow

namespace ThrowsClause

theorem insert_of_mem {clause : ThrowsClause} {name : ClassName} (hname : name ∈ clause) :
    clause.insert name = clause :=
  dif_pos hname

theorem entries_insert_of_not_mem {clause : ThrowsClause} {name : ClassName}
    (hname : name ∉ clause) : (clause.insert name).entries = clause.entries ++ [name] := by
  rw [insert, dif_neg hname]

theorem insertAll_cons (clause : ThrowsClause) (name : ClassName) (names : List ClassName) :
    clause.insertAll (name :: names) = (clause.insert name).insertAll names :=
  rfl

theorem insertAll_append (clause : ThrowsClause) (names others : List ClassName) :
    clause.insertAll (names ++ others) = (clause.insertAll names).insertAll others :=
  List.foldl_append

theorem eraseDups_of_nodup {names : List ClassName} (hnodup : names.Nodup) :
    names.eraseDups = names := by
  induction names with
  | nil => rfl
  | cons name names ih =>
      obtain ⟨hname, hnodup⟩ := List.nodup_cons.mp hnodup
      have hothers : names.filter (fun other => !other == name) = names := by
        rw [List.filter_eq_self]
        intro other hother
        have hne : other ≠ name := fun heq => hname (heq ▸ hother)
        simpa using hne
      rw [List.eraseDups_cons, hothers, ih hnodup]

/-- New names come behind the old ones, each where it is first mentioned. -/
theorem entries_insertAll (clause : ThrowsClause) (names : List ClassName) :
    (clause.insertAll names).entries =
      clause.entries ++ (names.filter (· ∉ clause)).eraseDups := by
  induction names generalizing clause with
  | nil => simp [insertAll]
  | cons name names ih =>
      rw [insertAll_cons, ih]
      by_cases hname : name ∈ clause
      · rw [insert_of_mem hname, List.filter_cons_of_neg (by simpa using hname)]
      · have hothers : names.filter (· ∉ clause.insert name) =
            (names.filter (· ∉ clause)).filter fun other => !other == name := by
          rw [List.filter_filter]
          apply List.filter_congr
          intro other _
          rw [Bool.eq_iff_iff]
          simp [mem_insert, not_or, and_comm]
        rw [entries_insert_of_not_mem hname, hothers,
          List.filter_cons_of_pos (by simpa using hname), List.eraseDups_cons, List.append_assoc,
          List.singleton_append]

theorem mem_ofList (names : List ClassName) (name : ClassName) :
    name ∈ ofList names ↔ name ∈ names := by
  have hempty : name ∉ ({} : ThrowsClause) := List.not_mem_nil
  rw [ofList, mem_insertAll, or_iff_right hempty]

theorem entries_ofList (names : List ClassName) : (ofList names).entries = names.eraseDups := by
  have hall : names.filter (· ∉ ({} : ThrowsClause)) = names := by
    rw [List.filter_eq_self]
    intro name _
    exact decide_eq_true List.not_mem_nil
  rw [ofList, entries_insertAll, hall]
  rfl

theorem insertAll_of_subset {clause : ThrowsClause} {names : List ClassName}
    (hnames : ∀ name ∈ names, name ∈ clause) : clause.insertAll names = clause := by
  induction names with
  | nil => rfl
  | cons name names ih =>
      obtain ⟨hname, hnames⟩ := List.forall_mem_cons.mp hnames
      rw [insertAll_cons, insert_of_mem hname, ih hnames]

theorem merge_insert (first second : ThrowsClause) (name : ClassName) :
    first.merge (second.insert name) = (first.merge second).insert name := by
  by_cases hname : name ∈ second
  · have hmerged : name ∈ first.merge second := (mem_insertAll ..).mpr (Or.inr hname)
    rw [insert_of_mem hname, insert_of_mem hmerged]
  · rw [merge, entries_insert_of_not_mem hname, insertAll_append]
    rfl

theorem merge_insertAll (first second : ThrowsClause) (names : List ClassName) :
    first.merge (second.insertAll names) = (first.merge second).insertAll names := by
  induction names generalizing second with
  | nil => rfl
  | cons name names ih => rw [insertAll_cons, insertAll_cons, ih, merge_insert]

theorem merge_assoc (first second third : ThrowsClause) :
    (first.merge second).merge third = first.merge (second.merge third) :=
  (merge_insertAll first second third.entries).symm

theorem merge_merge_self (first second : ThrowsClause) :
    (first.merge second).merge second = first.merge second :=
  insertAll_of_subset fun _ hname => (mem_insertAll ..).mpr (Or.inr hname)

theorem merge_ofList (clause : ThrowsClause) (names : List ClassName) :
    clause.merge (ofList names) = clause.insertAll names :=
  merge_insertAll clause {} names

/-- The clauses that the operations lead to, in whatever order they are used. -/
inductive Built : ThrowsClause → Prop where
  | empty : Built {}
  | ofList (names : List ClassName) : Built (ofList names)
  | insert {clause : ThrowsClause} (hclause : Built clause) (name : ClassName) :
      Built (clause.insert name)
  | merge {clause other : ThrowsClause} (hclause : Built clause) (hother : Built other) :
      Built (clause.merge other)
  | filter {clause : ThrowsClause} (hclause : Built clause) (keep : ClassName → Bool) :
      Built (clause.filter keep)

theorem ofList_entries (clause : ThrowsClause) : ofList clause.entries = clause := by
  ext1
  rw [entries_ofList, eraseDups_of_nodup clause.nodup]

theorem entries_ofList_of_nodup {names : List ClassName} (hnodup : names.Nodup) :
    (ofList names).entries = names := by
  rw [entries_ofList, eraseDups_of_nodup hnodup]

theorem entries_merge (clause other : ThrowsClause) :
    (clause.merge other).entries = clause.entries ++ other.entries.filter (· ∉ clause) := by
  rw [merge, entries_insertAll, eraseDups_of_nodup (List.Pairwise.filter _ other.nodup)]

theorem merge_empty (clause : ThrowsClause) : ({} : ThrowsClause).merge clause = clause :=
  ofList_entries clause

end ThrowsClause

theorem MethodDecl.throwsClause_eq (method : MethodDecl) :
    method.throwsClause = ThrowsClause.ofList (method.exceptions ++ method.signatureThrows) := by
  rw [throwsClause, ThrowsClause.merge_ofList]
  exact (ThrowsClause.insertAll_append ..).symm

theorem MethodDecl.mem_throwsClause (method : MethodDecl) (name : ClassName) :
    name ∈ method.throwsClause ↔ name ∈ method.exceptions ∨ name ∈ method.signatureThrows := by
  rw [throwsClause_eq, ThrowsClause.mem_ofList, List.mem_append]

theorem MethodDecl.eraseDups_exceptions_prefix (method : MethodDecl) :
    method.exceptions.eraseDups <+: method.throwsClause.entries := by
  rw [throwsClause, ThrowsClause.merge, ThrowsClause.entries_insertAll,
    ThrowsClause.entries_ofList]
  exact List.prefix_append ..

/-- Throws clauses are ordered sets: what can be built are the lists without repetition, and a merge
puts the new names of the second clause behind the first. A method declares its exceptions attribute
and then what its signature throws, each class where it is first mentioned. -/
theorem built_ordered :
    (∀ names : List ClassName,
        (∃ clause : ThrowsClause, clause.Built ∧ clause.entries = names) ↔ names.Nodup) ∧
      (∀ clause : ThrowsClause, clause.Built ∧
        ∀ kept : List ClassName, kept.Sublist clause.entries →
          ∃ keep, (clause.filter keep).entries = kept) ∧
      (∀ first second : ThrowsClause,
        (first.merge second).entries = first.entries ++ second.entries.filter (· ∉ first)) ∧
      (∀ first second third : ThrowsClause,
        (first.merge second).merge third = first.merge (second.merge third)) ∧
      (∀ first second : ThrowsClause, (first.merge second).merge second = first.merge second) ∧
      ∀ method : MethodDecl,
        method.throwsClause.entries =
          (method.exceptions ++ method.signatureThrows).eraseDups ∧
        ∀ signature : Option String, method.exceptions.eraseDups <+:
          ({ method with signature } : MethodDecl).throwsClause.entries := by
  refine ⟨?_, ?_, ThrowsClause.entries_merge, ThrowsClause.merge_assoc,
    ThrowsClause.merge_merge_self, ?_⟩
  · intro names
    constructor
    · rintro ⟨clause, -, rfl⟩
      exact clause.nodup
    · exact fun hnodup =>
        ⟨.ofList names, .ofList names, ThrowsClause.entries_ofList_of_nodup hnodup⟩
  · intro clause
    refine ⟨?_, fun kept hkept => ⟨(· ∈ kept), clause.entries_filter_mem hkept⟩⟩
    rw [← clause.ofList_entries]
    exact .ofList clause.entries
  · intro method
    refine ⟨?_, fun signature => MethodDecl.eraseDups_exceptions_prefix { method with signature }⟩
    rw [method.throwsClause_eq, ThrowsClause.entries_ofList]

end ExceptionFlow

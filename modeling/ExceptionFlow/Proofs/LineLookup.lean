import ExceptionFlow.Body
import Mathlib.Data.List.TakeWhile
/-!
Lines of offsets. A line table may be given its entries in any order and with several of them at one
start. The entry that holds at an offset is told in terms of the entries as they were given: sorting
keeps the order of entries with one start, so the last of them in the list is the last in the table.
-/
namespace ExceptionFlow

/-- The entry holds at the offset: of the entries that start there or before, none starts later than
it, and none that starts with it stands behind it. -/
def LineEntry.HoldsAt (offset : Nat) (entries : List LineEntry) (entry : LineEntry) : Prop :=
  entry.start ≤ offset ∧ ∃ earlier later, entries = earlier ++ entry :: later ∧
    (∀ other ∈ earlier, other.start ≤ offset → other.start ≤ entry.start) ∧
    ∀ other ∈ later, other.start ≤ offset → other.start < entry.start

namespace LineTable

theorem mem_ofEntries (entries : List LineEntry) (entry : LineEntry) :
    entry ∈ (ofEntries entries).entries ↔ entry ∈ entries :=
  List.mem_mergeSort

/-- Entries of one start keep their order. -/
theorem filter_ofEntries (entries : List LineEntry) (start : Nat) :
    (ofEntries entries).entries.filter (·.start = start) = entries.filter (·.start = start) := by
  have hperm := List.mergeSort_perm entries fun first second => decide (first.start ≤ second.start)
  have hsorted : (entries.filter (·.start = start)).Pairwise
      fun first second => decide (first.start ≤ second.start) = true := by
    apply List.pairwise_of_forall_mem_list
    intro first hfirst second hsecond
    simp only [List.mem_filter, decide_eq_true_eq] at *
    omega
  -- entries that are in order already stay one behind the other, and no others have this start
  have hkept := List.sublist_mergeSort startOrder_trans startOrder_total hsorted
    List.filter_sublist
  have hfiltered := hkept.filter (·.start = start)
  rw [List.filter_filter] at hfiltered
  simp only [Bool.and_self] at hfiltered
  exact (hfiltered.eq_of_length (hperm.filter _).length_eq.symm).symm

theorem getLast?_filter_eq_some_iff (keep : LineEntry → Bool) (entries : List LineEntry)
    (entry : LineEntry) :
    (entries.filter keep).getLast? = some entry ↔ keep entry = true ∧
      ∃ earlier later, entries = earlier ++ entry :: later ∧
        ∀ other ∈ later, keep other = false := by
  rw [List.getLast?_filter, List.find?_eq_some_iff_append]
  refine and_congr_right fun _ => ?_
  constructor
  · rintro ⟨later, earlier, hentries, hlater⟩
    refine ⟨earlier.reverse, later.reverse, ?_, by simpa using hlater⟩
    rw [← List.reverse_reverse entries, hentries]
    simp
  · rintro ⟨earlier, later, rfl, hlater⟩
    exact ⟨later.reverse, earlier.reverse, by simp, by simpa using hlater⟩

/-- What holds is the last entry of its start, and its start is the greatest up to the offset. So
only the order among entries of one start matters. -/
theorem holdsAt_iff (offset : Nat) (entries : List LineEntry) (entry : LineEntry) :
    entry.HoldsAt offset entries ↔ entry.start ≤ offset ∧
      (entries.filter (·.start = entry.start)).getLast? = some entry ∧
      ∀ other ∈ entries, other.start ≤ offset → other.start ≤ entry.start := by
  unfold LineEntry.HoldsAt
  refine and_congr_right fun hstart => ?_
  simp only [getLast?_filter_eq_some_iff, decide_true, true_and, decide_eq_false_iff_not]
  constructor
  · rintro ⟨earlier, later, rfl, hearlier, hlater⟩
    refine ⟨⟨earlier, later, rfl, ?_⟩, ?_⟩
    · intro other hmem hsame
      have hless := hlater other hmem (by omega)
      omega
    · simp only [List.forall_mem_append, List.forall_mem_cons]
      exact ⟨hearlier, fun _ => Nat.le_refl _,
        fun other hmem hbefore => Nat.le_of_lt (hlater other hmem hbefore)⟩
  · rintro ⟨⟨earlier, later, rfl, hlast⟩, hgreatest⟩
    simp only [List.forall_mem_append, List.forall_mem_cons] at hgreatest
    refine ⟨earlier, later, rfl, hgreatest.1, fun other hmem hbefore => ?_⟩
    exact Nat.lt_of_le_of_ne (hgreatest.2.2 other hmem hbefore) (hlast other hmem)

theorem holdsAt_ofEntries (offset : Nat) (entries : List LineEntry) (entry : LineEntry) :
    entry.HoldsAt offset (ofEntries entries).entries ↔ entry.HoldsAt offset entries := by
  simp only [holdsAt_iff, filter_ofEntries, mem_ofEntries]

variable {entries : List LineEntry}

theorem takeWhile_eq_filter
    (hsorted : entries.Pairwise fun first second => first.start ≤ second.start) (offset : Nat) :
    (entries.takeWhile fun entry => entry.start ≤ offset) =
      entries.filter fun entry => entry.start ≤ offset := by
  induction entries with
  | nil => rfl
  | cons first entries ih =>
      obtain ⟨hfirst, hsorted⟩ := List.pairwise_cons.mp hsorted
      by_cases hstart : first.start ≤ offset
      · rw [List.takeWhile_cons_of_pos (by simpa using hstart),
          List.filter_cons_of_pos (by simpa using hstart), ih hsorted]
      · have hnone : ∀ entry ∈ first :: entries, ¬ entry.start ≤ offset := by
          rw [List.forall_mem_cons]
          refine ⟨hstart, fun entry hmem => ?_⟩
          have := hfirst entry hmem
          omega
        rw [List.takeWhile_cons_of_neg (by simpa using hstart), eq_comm, List.filter_eq_nil_iff]
        simpa using hnone

theorem getLast?_filter_iff_holdsAt
    (hsorted : entries.Pairwise fun first second => first.start ≤ second.start) (offset : Nat)
    (entry : LineEntry) :
    (entries.filter fun entry => entry.start ≤ offset).getLast? = some entry ↔
      entry.HoldsAt offset entries := by
  rw [getLast?_filter_eq_some_iff, LineEntry.HoldsAt, decide_eq_true_eq]
  refine and_congr_right fun hstart => ?_
  simp only [decide_eq_false_iff_not]
  constructor
  · rintro ⟨earlier, later, rfl, hlater⟩
    have hbefore := (List.pairwise_append.mp hsorted).2.2
    refine ⟨earlier, later, rfl, ?_, fun other hmem hother => absurd hother (hlater other hmem)⟩
    exact fun other hmem _ => hbefore other hmem entry List.mem_cons_self
  · rintro ⟨earlier, later, rfl, -, hlater⟩
    refine ⟨earlier, later, rfl, fun other hmem hother => ?_⟩
    have hbehind := (List.pairwise_cons.mp (List.pairwise_append.mp hsorted).2.1).1 other hmem
    have hless := hlater other hmem hother
    omega

/-- A table that was given its entries in any order has no line at an offset exactly if all entries
start behind it, and otherwise the line of the entry that holds there. -/
theorem lineAt?_ofEntries (entries : List LineEntry) (offset : Nat) :
    ((ofEntries entries).lineAt? offset = none ↔ ∀ entry ∈ entries, offset < entry.start) ∧
      ∀ line, (ofEntries entries).lineAt? offset = some line ↔
        ∃ entry : LineEntry, entry.HoldsAt offset entries ∧ entry.line = line := by
  rw [lineAt?, takeWhile_eq_filter (ofEntries entries).sorted]
  constructor
  · simp [mem_ofEntries]
  · intro line
    simp only [Option.map_eq_some_iff, getLast?_filter_iff_holdsAt (ofEntries entries).sorted,
      holdsAt_ofEntries]

example : (ofEntries [⟨4, 6⟩, ⟨0, 5⟩, ⟨4, 7⟩]).lineAt? 9 = some 7 := by cbv

end LineTable

end ExceptionFlow

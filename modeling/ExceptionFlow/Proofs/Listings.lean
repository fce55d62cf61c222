import ExceptionFlow.Listing
import Mathlib.Data.List.Infix
/-!
What a printed listing names. Its entries are the longest runs of characters behind the first marker
that are no separators, and they count only if each of them is a qualified name. The marker does not
overlap with itself and no separator occurs in a name, so names that are printed behind a marker
with separators between them are read back as they are.
-/
namespace ExceptionFlow

namespace Text.CodePoints

/-- No block of the one overlaps with a block of the other. -/
def apart (blocks others : CodePoints) : Bool :=
  blocks.all fun block => others.all fun other => block.2 < other.1 || other.2 < block.1

theorem exists_block_of_contains {blocks : CodePoints} {char : Char}
    (hchar : blocks.contains char = true) :
    ∃ block ∈ blocks, block.1 ≤ char.toNat ∧ char.toNat ≤ block.2 := by
  induction blocks with
  | nil => cases hchar
  | cons block blocks ih =>
      unfold CodePoints.contains at hchar
      split at hchar
      case isTrue => cases hchar
      case isFalse hfirst =>
        rcases (Bool.or_eq_true ..).mp hchar with hlast | hlater
        · exact ⟨block, List.mem_cons_self, Nat.le_of_not_lt hfirst, of_decide_eq_true hlast⟩
        · obtain ⟨later, hmem, hrange⟩ := ih hlater
          exact ⟨later, List.mem_cons_of_mem _ hmem, hrange⟩

theorem not_contains_of_apart {blocks others : CodePoints} (hapart : apart blocks others = true)
    {char : Char} (hchar : blocks.contains char = true) : others.contains char = false := by
  by_contra hother
  obtain ⟨block, hblock, hlow, hhigh⟩ := exists_block_of_contains hchar
  obtain ⟨other, hmem, hlow', hhigh'⟩ :=
    exists_block_of_contains ((Bool.not_eq_false _).mp hother)
  have hboth := List.all_eq_true.mp (List.all_eq_true.mp hapart block hblock) other hmem
  simp only [Bool.or_eq_true, decide_eq_true_eq] at hboth
  omega

end Text.CodePoints

namespace Listing

theorem isNamePart_dot : isNamePart '.' = false := by decide

theorem isNamePart_comma : isNamePart ',' = false := by decide

theorem isNamePart_of_isBlank {char : Char} (hblank : Text.isBlank char = true) :
    isNamePart char = false := by
  have hletter : Text.isLetter char = false :=
    Text.CodePoints.not_contains_of_apart (by decide +kernel) hblank
  have hnumeral : Text.isNumeral char = false :=
    Text.CodePoints.not_contains_of_apart (by decide +kernel) hblank
  have hunderscore : char ≠ '_' := by
    rintro rfl
    cases hblank
  have hdollar : char ≠ '$' := by
    rintro rfl
    cases hblank
  simp [isNamePart, hletter, hnumeral, hunderscore, hdollar]

theorem isNamePart_of_isSeparator {char : Char} (hchar : isSeparator char = true) :
    isNamePart char = false := by
  rcases (Bool.or_eq_true ..).mp hchar with hcomma | hblank
  · obtain rfl := of_decide_eq_true hcomma
    exact isNamePart_comma
  · exact isNamePart_of_isBlank hblank

theorem isSeparator_dot : isSeparator '.' = false := by decide

/-- A letter, `_` or `$`, and then letters, numerals, `_` and `$`. -/
def SimpleName (segment : List Char) : Prop :=
  ∃ first others, segment = first :: others ∧
    (Text.isLetter first = true ∨ first = '_' ∨ first = '$') ∧
    ∀ char ∈ others, Text.isLetter char = true ∨ Text.isNumeral char = true ∨
      char = '_' ∨ char = '$'

/-- One simple name or more, with dots between them. -/
def QualifiedName (name : List Char) : Prop :=
  ∃ segments : List (List Char), segments ≠ [] ∧ (∀ segment ∈ segments, SimpleName segment) ∧
    name = ['.'].intercalate segments

theorem isSimpleName_iff (segment : List Char) :
    isSimpleName segment = true ↔ SimpleName segment := by
  cases segment with
  | nil => simp [isSimpleName, SimpleName]
  | cons first others =>
      simp [isSimpleName, SimpleName, isNameStart, isNamePart, or_assoc]

theorem SimpleName.isNamePart {segment : List Char} (hsegment : SimpleName segment) {char : Char}
    (hchar : char ∈ segment) : isNamePart char = true := by
  obtain ⟨first, others, rfl, hfirst, hothers⟩ := hsegment
  simp only [Listing.isNamePart, Bool.or_eq_true, decide_eq_true_eq, or_assoc]
  rcases List.mem_cons.mp hchar with rfl | hmem
  · exact hfirst.imp_right Or.inr
  · exact hothers char hmem

theorem isQualifiedName_iff (name : List Char) :
    isQualifiedName name = true ↔ QualifiedName name := by
  simp only [isQualifiedName, List.all_eq_true, isSimpleName_iff]
  constructor
  · intro hsegments
    exact ⟨name.splitOn '.', List.splitOnP_ne_nil _ _, hsegments,
      (List.intercalate_splitOn '.').symm⟩
  · rintro ⟨segments, hsome, hsegments, rfl⟩
    have hdot : ∀ segment ∈ segments, '.' ∉ segment := by
      intro segment hmem hchar
      have hpart := (hsegments segment hmem).isNamePart hchar
      rw [isNamePart_dot] at hpart
      cases hpart
    rwa [List.splitOn_intercalate '.' hdot hsome]

instance (name : List Char) : Decidable (QualifiedName name) :=
  decidable_of_iff _ (isQualifiedName_iff name)

theorem QualifiedName.ne_nil {name : List Char} (hname : QualifiedName name) : name ≠ [] := by
  rintro rfl
  rw [← isQualifiedName_iff] at hname
  cases hname

theorem forall_mem_intercalate {holds : Char → Prop} {between : List Char}
    {segments : List (List Char)} (hbetween : ∀ char ∈ between, holds char)
    (hsegments : ∀ segment ∈ segments, ∀ char ∈ segment, holds char) :
    ∀ char ∈ between.intercalate segments, holds char := by
  induction segments with
  | nil => simp
  | cons segment segments ih =>
      obtain ⟨hsegment, hothers⟩ := List.forall_mem_cons.mp hsegments
      cases segments with
      | nil => simpa using hsegment
      | cons next segments =>
          rw [List.intercalate_cons_cons, List.forall_mem_append, List.forall_mem_append]
          exact ⟨⟨hsegment, hbetween⟩, ih hothers⟩

theorem QualifiedName.free {name : List Char} (hname : QualifiedName name) :
    ∀ char ∈ name, isSeparator char = false := by
  obtain ⟨segments, -, hsegments, rfl⟩ := hname
  refine forall_mem_intercalate (List.forall_mem_singleton.mpr isSeparator_dot) ?_
  intro segment hmem char hchar
  by_contra hseparator
  have hpart := isNamePart_of_isSeparator ((Bool.not_eq_false _).mp hseparator)
  rw [(hsegments segment hmem).isNamePart hchar] at hpart
  cases hpart

/-- The text has its first marker right behind `before`. -/
structure FirstMarker (text before tail : List Char) : Prop where
  split : text = before ++ (marker ++ tail)
  first : ∀ others rest, text = others ++ (marker ++ rest) → before.length ≤ others.length

theorem marker_eq : marker = 'E' :: ['x', 'c', 'e', 'p', 't', 'i', 'o', 'n', 's', ':'] := by
  decide +kernel

theorem firstMarker_nil {text : List Char} (hmarker : marker <+: text) (before tail : List Char) :
    FirstMarker text before tail ↔ before = [] ∧ text.drop marker.length = tail := by
  obtain ⟨rest, rfl⟩ := hmarker
  rw [List.drop_left]
  constructor
  · intro hfirst
    have hlength := hfirst.first [] rest rfl
    obtain rfl := List.eq_nil_of_length_eq_zero (Nat.le_zero.mp hlength)
    exact ⟨rfl, List.append_cancel_left hfirst.split⟩
  · rintro ⟨rfl, rfl⟩
    exact ⟨rfl, fun _ _ _ => Nat.zero_le _⟩

theorem firstMarker_cons {char : Char} {rest : List Char} (hmarker : ¬ marker <+: char :: rest)
    (before tail : List Char) :
    FirstMarker (char :: rest) before tail ↔
      ∃ shorter, before = char :: shorter ∧ FirstMarker rest shorter tail := by
  constructor
  · rintro ⟨hsplit, hfirst⟩
    cases before with
    | nil => exact absurd ⟨tail, hsplit.symm⟩ hmarker
    | cons head shorter =>
        obtain ⟨rfl, hrest⟩ := List.cons.inj hsplit
        refine ⟨shorter, rfl, hrest, ?_⟩
        intro others more hmore
        have hlength := hfirst (char :: others) more (by rw [hmore, List.cons_append])
        exact Nat.le_of_succ_le_succ hlength
  · rintro ⟨shorter, rfl, hrest, hfirst⟩
    refine ⟨by rw [hrest, List.cons_append], ?_⟩
    intro others more hmore
    cases others with
    | nil => exact absurd ⟨more, hmore.symm⟩ hmarker
    | cons head others =>
        exact Nat.succ_le_succ (hfirst others more (List.cons.inj hmore).2)

theorem afterMarker?_eq_some_iff (text tail : List Char) :
    afterMarker? text = some tail ↔ ∃ before, FirstMarker text before tail := by
  induction text with
  | nil =>
      constructor
      · intro hfound
        cases hfound
      · rintro ⟨before, hsplit, -⟩
        rw [marker_eq] at hsplit
        simp at hsplit
  | cons char rest ih =>
      unfold afterMarker?
      split
      case isTrue hmarker =>
        simp [firstMarker_nil (List.isPrefixOf_iff_prefix.mp hmarker)]
      case isFalse hmarker =>
        rw [List.isPrefixOf_iff_prefix] at hmarker
        simp only [ih, firstMarker_cons hmarker]
        constructor
        · rintro ⟨shorter, hshorter⟩
          exact ⟨_, shorter, rfl, hshorter⟩
        · rintro ⟨-, shorter, -, hshorter⟩
          exact ⟨shorter, hshorter⟩

theorem afterMarker?_eq_none_iff (text : List Char) :
    afterMarker? text = none ↔ ¬ marker <:+: text := by
  induction text with
  | nil => simp [afterMarker?, marker_eq]
  | cons char rest ih =>
      unfold afterMarker?
      rw [List.infix_cons_iff, not_or, ← ih]
      split
      case isTrue hmarker => simp [List.isPrefixOf_iff_prefix.mp hmarker]
      case isFalse hmarker =>
        rw [List.isPrefixOf_iff_prefix] at hmarker
        simp [hmarker]

/-- Only the first character of the marker is a capital. -/
theorem capital_notMem {first : Char} {others : List Char} (hmarker : marker = first :: others) :
    'E' ∉ others := by
  obtain ⟨-, rfl⟩ := List.cons.inj (marker_eq.symm.trans hmarker)
  simp

/-- A marker does not begin before another one and end inside it. -/
theorem firstMarker_of_not_infix {before : List Char} (hbefore : ¬ marker <:+: before)
    (tail : List Char) : FirstMarker (before ++ (marker ++ tail)) before tail := by
  refine ⟨rfl, ?_⟩
  intro others rest hsplit
  rcases List.append_eq_append_iff.mp hsplit with ⟨more, rfl, -⟩ | ⟨more, rfl, hmore⟩
  · simp
  · cases more with
    | nil => simp
    | cons first more =>
        rcases List.append_eq_append_iff.mp hmore with ⟨past, hpast, -⟩ | ⟨overlap, hoverlap, hrest⟩
        · exact absurd ⟨others, past, by rw [hpast, List.append_assoc]⟩ hbefore
        · cases overlap with
          | nil =>
              rw [List.append_nil] at hoverlap
              exact absurd ⟨others, [], by rw [hoverlap, List.append_nil]⟩ hbefore
          | cons char overlap =>
              have hcapital : char = 'E' := by
                rw [marker_eq] at hrest
                exact (List.cons.inj hrest).1.symm
              exact absurd (by simp [hcapital]) (capital_notMem hoverlap)

/-- The entries are the longest runs of characters that are no separators, in order. -/
inductive Runs : List Char → List (List Char) → Prop where
  | none {gap : List Char} (hgap : ∀ char ∈ gap, isSeparator char = true) : Runs gap []
  | next {gap run rest : List Char} {entries : List (List Char)}
      (hgap : ∀ char ∈ gap, isSeparator char = true) (hrun : run ≠ [])
      (hfree : ∀ char ∈ run, isSeparator char = false)
      (hend : ∀ char ∈ rest.head?, isSeparator char = true) (hrest : Runs rest entries) :
      Runs (gap ++ (run ++ rest)) (run :: entries)

/-- What stands between separators and is not empty. -/
def entriesOf (tail : List Char) : List (List Char) :=
  (tail.splitOnP isSeparator).filter fun entry => !entry.isEmpty

theorem entriesOf_cons {char : Char} (hchar : isSeparator char = true) (tail : List Char) :
    entriesOf (char :: tail) = entriesOf tail := by
  simp [entriesOf, List.splitOnP_cons_eq_if_modifyHead, hchar]

theorem entriesOf_append {gap : List Char} (hgap : ∀ char ∈ gap, isSeparator char = true)
    (tail : List Char) : entriesOf (gap ++ tail) = entriesOf tail := by
  induction gap with
  | nil => rfl
  | cons char gap ih =>
      obtain ⟨hchar, hgap⟩ := List.forall_mem_cons.mp hgap
      rw [List.cons_append, entriesOf_cons hchar, ih hgap]

theorem entriesOf_run {run rest : List Char} (hrun : run ≠ [])
    (hfree : ∀ char ∈ run, isSeparator char = false)
    (hend : ∀ char ∈ rest.head?, isSeparator char = true) :
    entriesOf (run ++ rest) = run :: entriesOf rest := by
  cases rest with
  | nil => simp [entriesOf, List.splitOnP_eq_singleton hfree, hrun]
  | cons char rest =>
      have hchar : isSeparator char = true := hend char rfl
      rw [entriesOf_cons hchar, entriesOf, entriesOf,
        List.splitOnP_append_cons_of_forall_mem hfree char hchar,
        List.filter_cons_of_pos (by simpa using hrun)]

theorem Runs.entriesOf_eq {tail : List Char} {entries : List (List Char)}
    (hruns : Runs tail entries) : entriesOf tail = entries := by
  induction hruns with
  | none hgap => simpa [entriesOf] using entriesOf_append hgap []
  | next hgap hrun hfree hend _ ih => rw [entriesOf_append hgap, entriesOf_run hrun hfree hend, ih]

/-- One more character in front: a separator changes nothing, and any other character begins the
first run or is one by itself. -/
theorem Runs.exists_cons {tail : List Char} {entries : List (List Char)}
    (hruns : Runs tail entries) (char : Char) : ∃ more, Runs (char :: tail) more := by
  cases hchar : isSeparator char with
  | true =>
      cases hruns with
      | none hgap => exact ⟨[], .none (List.forall_mem_cons.mpr ⟨hchar, hgap⟩)⟩
      | next hgap hrun hfree hend hrest =>
          exact ⟨_, .next (List.forall_mem_cons.mpr ⟨hchar, hgap⟩) hrun hfree hend hrest⟩
  | false =>
      by_cases hhead : ∀ first ∈ tail.head?, isSeparator first = true
      · exact ⟨_, @Runs.next [] [char] tail entries (by simp) (List.cons_ne_nil _ _)
          (List.forall_mem_singleton.mpr hchar) hhead hruns⟩
      · cases hruns with
        | none hgap =>
            exact absurd (fun first hfirst => hgap first (List.mem_of_head? hfirst)) hhead
        | @next gap run rest entries hgap hrun hfree hend hrest =>
            cases gap with
            | nil =>
                exact ⟨_, @Runs.next [] (char :: run) rest entries (by simp) (List.cons_ne_nil _ _)
                  (List.forall_mem_cons.mpr ⟨hchar, hfree⟩) hend hrest⟩
            | cons first gap =>
                refine absurd ?_ hhead
                rintro _ ⟨⟩
                exact hgap first List.mem_cons_self

theorem exists_runs (tail : List Char) : ∃ entries, Runs tail entries := by
  induction tail with
  | nil => exact ⟨[], .none (by simp)⟩
  | cons char tail ih =>
      obtain ⟨entries, hruns⟩ := ih
      exact hruns.exists_cons char

def classNames (entries : List (List Char)) : List ClassName :=
  entries.map fun entry => ⟨String.ofList entry⟩

theorem names_of_forall {entries : List (List Char)}
    (hentries : ∀ entry ∈ entries, QualifiedName entry) :
    names entries = .ok (classNames entries) := by
  induction entries with
  | nil => rfl
  | cons entry entries ih =>
      obtain ⟨hentry, hothers⟩ := List.forall_mem_cons.mp hentries
      rw [names, if_pos ((isQualifiedName_iff entry).mpr hentry), ih hothers]
      rfl

/-- One entry that is no qualified name spoils the whole listing. -/
theorem names_of_exists {entries : List (List Char)}
    (hentries : ∃ entry ∈ entries, ¬ QualifiedName entry) :
    ∃ fault, names entries = .error fault := by
  induction entries with
  | nil => simp at hentries
  | cons entry entries ih =>
      rw [names]
      by_cases hentry : QualifiedName entry
      · have hothers : ∃ other ∈ entries, ¬ QualifiedName other := by simpa [hentry] using hentries
        obtain ⟨fault, hfault⟩ := ih hothers
        rw [if_pos ((isQualifiedName_iff entry).mpr hentry), hfault]
        exact ⟨fault, rfl⟩
      · rw [if_neg (mt (isQualifiedName_iff entry).mp hentry)]
        exact ⟨_, rfl⟩

theorem listed_of_not_infix {text : String} (hmarker : ¬ marker <:+: text.toList) :
    listed text = [] := by
  rw [listed, parse, (afterMarker?_eq_none_iff _).mpr hmarker]
  rfl

theorem listed_of_runs {text : String} {before tail : List Char}
    (hfirst : FirstMarker text.toList before tail) {entries : List (List Char)}
    (hruns : Runs tail entries) : listed text = (names entries).toOption.getD [] := by
  have hparse : parse text = names (entriesOf tail) := by
    rw [parse, (afterMarker?_eq_some_iff _ _).mpr ⟨before, hfirst⟩]
    rfl
  rw [listed, hparse, hruns.entriesOf_eq]

/-- Commas and blanks. -/
abbrev Gap := { chars : List Char // ∀ char ∈ chars, isSeparator char = true }

/-- Qualified names behind a marker. There may be a gap before the first of them and behind the
last, and there is one between any two. -/
structure Printed where
  before : List Char
  unmarked : ¬ marker <:+: before
  items : List (Gap × { name : List Char // QualifiedName name })
  apart : ∀ item ∈ items.tail, item.1.val ≠ []
  trail : Gap

namespace Printed

def itemChars (items : List (Gap × { name : List Char // QualifiedName name })) : List Char :=
  items.flatMap fun item => item.1.val ++ item.2.val

def chars (printed : Printed) : List Char :=
  printed.before ++ (marker ++ (itemChars printed.items ++ printed.trail.val))

def names (printed : Printed) : List (List Char) :=
  printed.items.map fun item => item.2.val

theorem head?_items {items : List (Gap × { name : List Char // QualifiedName name })}
    (hapart : ∀ item ∈ items, item.1.val ≠ []) (trail : Gap) :
    ∀ char ∈ (itemChars items ++ trail.val).head?, isSeparator char = true := by
  intro char hchar
  cases items with
  | nil => exact trail.property char (List.mem_of_head? hchar)
  | cons item items =>
      rw [itemChars, List.flatMap_cons, List.append_assoc, List.append_assoc,
        List.head?_append_of_ne_nil _ (hapart item List.mem_cons_self)] at hchar
      exact item.1.property char (List.mem_of_head? hchar)

/-- Behind a name there is the gap before the next one, the trail or nothing. -/
theorem runs_items {items : List (Gap × { name : List Char // QualifiedName name })}
    (hapart : ∀ item ∈ items.tail, item.1.val ≠ []) (trail : Gap) :
    Runs (itemChars items ++ trail.val) (items.map fun item => item.2.val) := by
  induction items with
  | nil => exact .none trail.property
  | cons item items ih =>
      have hrest := ih fun other hother => hapart other (List.mem_of_mem_tail hother)
      have hruns := Runs.next item.1.property item.2.property.ne_nil item.2.property.free
        (head?_items hapart trail) hrest
      simpa [itemChars] using hruns

theorem listed_eq {printed : Printed} {text : String} (htext : text.toList = printed.chars) :
    listed text = classNames printed.names := by
  have hfirst : FirstMarker text.toList printed.before
      (itemChars printed.items ++ printed.trail.val) := by
    rw [htext]
    exact firstMarker_of_not_infix printed.unmarked _
  have hnames : ∀ name ∈ printed.names, QualifiedName name := by
    intro name hname
    obtain ⟨item, -, rfl⟩ := List.mem_map.mp hname
    exact item.2.property
  rw [listed_of_runs hfirst (runs_items printed.apart printed.trail)]
  exact congrArg (fun result => result.toOption.getD []) (names_of_forall hnames)

end Printed

/-- A listing names the longest runs without separators behind its first marker if all of them are
qualified names, and nothing otherwise. So names that are printed behind a marker are read back in
order and as often as they are there. -/
theorem listed_exact (text : String) :
    (marker <:+: text.toList →
        ∃ before tail entries, FirstMarker text.toList before tail ∧ Runs tail entries) ∧
      (∀ before tail entries, FirstMarker text.toList before tail → Runs tail entries →
        ((∀ entry ∈ entries, QualifiedName entry) → listed text = classNames entries) ∧
          ((∃ entry ∈ entries, ¬ QualifiedName entry) → listed text = [])) ∧
      (¬ marker <:+: text.toList → listed text = []) ∧
      ∀ printed : Printed, text.toList = printed.chars →
        listed text = classNames printed.names := by
  refine ⟨?_, ?_, listed_of_not_infix, fun printed => Printed.listed_eq⟩
  · intro hmarker
    cases htail : afterMarker? text.toList with
    | none => exact absurd hmarker ((afterMarker?_eq_none_iff _).mp htail)
    | some tail =>
        obtain ⟨before, hfirst⟩ := (afterMarker?_eq_some_iff _ _).mp htail
        obtain ⟨entries, hruns⟩ := exists_runs tail
        exact ⟨before, tail, entries, hfirst, hruns⟩
  · intro before tail entries hfirst hruns
    rw [listed_of_runs hfirst hruns]
    constructor
    · intro hentries
      rw [names_of_forall hentries]
      rfl
    · intro hentries
      obtain ⟨fault, hfault⟩ := names_of_exists hentries
      rw [hfault]
      rfl

/-- Two names behind a text that nearly has the marker itself. -/
def printedListing : Printed where
  before := "Exceptions Exceptions".toList
  unmarked := (afterMarker?_eq_none_iff _).mp (by decide +kernel)
  items := [(⟨[' '], List.all_eq_true.mp rfl⟩, ⟨"java.io.IOException".toList, by decide +kernel⟩),
    (⟨[',', '\t', ','], List.all_eq_true.mp rfl⟩, ⟨"a.B$1".toList, by decide +kernel⟩)]
  apart := by simp
  trail := ⟨['\n'], List.all_eq_true.mp rfl⟩

theorem listed_exact_nearMarker :
    (String.ofList printedListing.chars).toList = printedListing.chars ∧
      listed (String.ofList printedListing.chars) = [⟨"java.io.IOException"⟩, ⟨"a.B$1"⟩] := by
  have htext : (String.ofList printedListing.chars).toList = printedListing.chars :=
    String.toList_ofList
  refine ⟨htext, ((listed_exact _).2.2.2 printedListing htext).trans ?_⟩
  decide +kernel

end Listing

end ExceptionFlow

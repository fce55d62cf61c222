import ExceptionFlow.Proofs.Consuming
/-!
The readers of types against the grammar: each reads exactly the texts of its trees. A reader that
is given another one for the types inside reads the trees whose direct parts that one reads, so the
depth a reader is given bounds how deep its trees are nested.
-/
namespace ExceptionFlow.Signature

open Cursor Reading

namespace JavaType

def erasure? : JavaType → Option Erasure
  | primitive _ _ => none
  | reference type => some type.erasure

/-- The reference types directly inside. -/
def parts : JavaType → List Reference
  | primitive _ _ => []
  | reference type => [type]

end JavaType

namespace Argument

def erasure? : Argument → Option Erasure
  | any => none
  | bounded _ bound => some bound.erasure

def parts : Argument → List Reference
  | any => []
  | bounded _ bound => [bound]

end Argument

namespace Segment

def parts : Segment → List Reference
  | bare _ => []
  | applied _ arguments => arguments.flatMap Argument.parts

/-- A bare name ends at the next name or at the end of its class type. -/
def Before : Segment → List UInt8 → Prop
  | bare _, rest => ∃ stop ∈ ['.', ';'], rest.head? = some (ascii stop)
  | applied _ _, _ => True

end Segment

def Reference.parts : Reference → List Reference
  | .named outer inner => (outer :: inner).flatMap Segment.parts
  | .typeVariable _ => []
  | .array element => element.parts

theorem Reference.not_seesAny {type : Reference} {cursor after : Cursor}
    (hconsumes : cursor.Consumes type.chars after) {chars : List Char}
    (hchars : ∀ char ∈ chars, char.toNat < 128 ∧ char ∉ Reference.starts) :
    ¬ cursor.seesAny chars = true := by
  intro hsees
  obtain ⟨char, hmem, hsees⟩ := (seesAny_iff ..).mp hsees
  rw [sees_eq_false_of_consumes type.head?_chars hconsumes (hchars char hmem).1
    (hchars char hmem).2] at hsees
  cases hsees

theorem Argument.head?_bounded (variance : Variance) (bound : Reference) :
    ∃ start ∈ ['+', '-'] ++ Reference.starts,
      (Argument.bounded variance bound).chars.head? = some start := by
  cases variance with
  | exact =>
      obtain ⟨start, hmem, hhead⟩ := bound.head?_chars
      exact ⟨start, List.mem_append_right _ hmem, hhead⟩
  | upper => simp [chars, Variance.chars]
  | lower => simp [chars, Variance.chars]

theorem Argument.head?_chars (argument : Argument) :
    ∃ start ∈ '*' :: '+' :: '-' :: Reference.starts, argument.chars.head? = some start := by
  cases argument with
  | any => simp [chars]
  | bounded variance bound =>
      obtain ⟨start, hmem, hhead⟩ := head?_bounded variance bound
      exact ⟨start, List.mem_cons_of_mem _ hmem, hhead⟩

theorem primitive_not_start :
    ∀ letter ∈ primitives, letter.toNat < 128 ∧ letter ∉ Reference.starts := by
  simp [primitives, Reference.starts]

/-- The reader accepts exactly the texts of the reference types that are allowed. -/
def ReadsTypes (reader : Reader Erasure) (allowed : Reference → Prop) : Prop :=
  ∀ cursor erasure after, (reader cursor).outcome = .ok (erasure, after) ↔
    ∃ type : Reference, allowed type ∧ type.erasure = erasure ∧ cursor.Consumes type.chars after

section Inner

variable {inner : Reader Erasure} {allowed : Reference → Prop}

theorem typeWith_eq_ok_iff (hinner : ReadsTypes inner allowed) (cursor after : Cursor)
    (result : Option Erasure) :
    (typeWith inner cursor).outcome = .ok (result, after) ↔
      ∃ type : JavaType, (∀ part ∈ type.parts, allowed part) ∧ type.erasure? = result ∧
        cursor.Consumes type.chars after := by
  unfold typeWith
  constructor
  · intro hread
    split at hread
    case isTrue hsees =>
      obtain ⟨letter, hletter, hsees⟩ := (seesAny_iff ..).mp hsees
      cases hread
      exact ⟨.primitive letter hletter, by simp [JavaType.parts], rfl,
        (consumes_singleton (primitive_not_start letter hletter).1 ..).mpr ⟨hsees, rfl⟩⟩
    case isFalse =>
      simp only [bind_eq_ok_iff, Prod.exists] at hread
      obtain ⟨erasure, between, hread, ⟨⟩⟩ := hread
      obtain ⟨type, hallowed, rfl, hconsumes⟩ := (hinner ..).mp hread
      exact ⟨.reference type, by simpa [JavaType.parts] using hallowed, rfl, hconsumes⟩
  · rintro ⟨type, hallowed, rfl, hconsumes⟩
    cases type with
    | primitive letter hletter =>
        obtain ⟨hsees, rfl⟩ :=
          (consumes_singleton (primitive_not_start letter hletter).1 ..).mp hconsumes
        rw [if_pos ((seesAny_iff ..).mpr ⟨letter, hletter, hsees⟩)]
        rfl
    | reference type =>
        rw [if_neg (Reference.not_seesAny hconsumes primitive_not_start)]
        simp only [bind_eq_ok_iff, Prod.exists]
        exact ⟨_, _, (hinner ..).mpr
          ⟨type, hallowed type (by simp [JavaType.parts]), rfl, hconsumes⟩, rfl⟩

/-- A sign before a type tells its variance. -/
theorem exists_variance_iff (bound : Reference) (cursor after : Cursor) :
    (∃ variance : Variance, cursor.Consumes (variance.chars ++ bound.chars) after) ↔
      (if cursor.seesAny ['+', '-'] then cursor.skip else cursor).Consumes bound.chars after := by
  constructor
  · rintro ⟨variance, hconsumes⟩
    cases variance with
    | exact =>
        rw [if_neg (Reference.not_seesAny hconsumes (by simp [Reference.starts]))]
        exact hconsumes
    | upper =>
        obtain ⟨hsees, hconsumes⟩ := (consumes_ascii (by decide) ..).mp hconsumes
        rw [if_pos ((seesAny_iff ..).mpr ⟨'+', by decide, hsees⟩)]
        exact hconsumes
    | lower =>
        obtain ⟨hsees, hconsumes⟩ := (consumes_ascii (by decide) ..).mp hconsumes
        rw [if_pos ((seesAny_iff ..).mpr ⟨'-', by decide, hsees⟩)]
        exact hconsumes
  · intro hconsumes
    split at hconsumes
    case isTrue hsign =>
      obtain ⟨sign, hmem, hsees⟩ := (seesAny_iff ..).mp hsign
      simp only [List.mem_cons, List.not_mem_nil, or_false] at hmem
      rcases hmem with rfl | rfl
      · exact ⟨.upper, (consumes_ascii (by decide) ..).mpr ⟨hsees, hconsumes⟩⟩
      · exact ⟨.lower, (consumes_ascii (by decide) ..).mpr ⟨hsees, hconsumes⟩⟩
    case isFalse => exact ⟨.exact, hconsumes⟩

theorem outcome_passSign (cursor : Cursor) :
    (passSign cursor).outcome =
      .ok (if cursor.seesAny ['+', '-'] then cursor.skip else cursor) := by
  unfold passSign
  split <;> rfl

theorem typeArgumentWith_eq_ok_iff (hinner : ReadsTypes inner allowed) (cursor after : Cursor)
    (result : Option Erasure) :
    (typeArgumentWith inner cursor).outcome = .ok (result, after) ↔
      ∃ argument : Argument, (∀ part ∈ argument.parts, allowed part) ∧
        argument.erasure? = result ∧ cursor.Consumes argument.chars after := by
  unfold typeArgumentWith
  constructor
  · intro hread
    split at hread
    case isTrue hsees =>
      cases hread
      exact ⟨.any, by simp [Argument.parts], rfl,
        (consumes_singleton (by decide) ..).mpr ⟨hsees, rfl⟩⟩
    case isFalse =>
      simp only [bind_eq_ok_iff, outcome_passSign, Except.ok.injEq, exists_eq_left',
        Prod.exists] at hread
      obtain ⟨erasure, between, hread, ⟨⟩⟩ := hread
      obtain ⟨bound, hallowed, rfl, hconsumes⟩ := (hinner ..).mp hread
      obtain ⟨variance, hconsumes⟩ := (exists_variance_iff ..).mpr hconsumes
      exact ⟨.bounded variance bound, by simpa [Argument.parts] using hallowed, rfl, hconsumes⟩
  · rintro ⟨argument, hallowed, rfl, hconsumes⟩
    cases argument with
    | any =>
        obtain ⟨hsees, rfl⟩ := (consumes_singleton (by decide) ..).mp hconsumes
        rw [if_pos hsees]
        rfl
    | bounded variance bound =>
        have hstar : cursor.sees '*' = false :=
          sees_eq_false_of_consumes (Argument.head?_bounded variance bound) hconsumes (by decide)
            (by decide)
        rw [if_neg (by simp [hstar])]
        simp only [bind_eq_ok_iff, outcome_passSign, Except.ok.injEq, exists_eq_left', Prod.exists]
        exact ⟨_, _, (hinner ..).mpr ⟨bound, hallowed bound (by simp [Argument.parts]), rfl,
          (exists_variance_iff ..).mp ⟨variance, hconsumes⟩⟩, rfl⟩

theorem readsItems_arguments (hinner : ReadsTypes inner allowed) :
    ReadsItems (·.sees '>') (typeArgumentWith inner)
      (fun argument => ∀ part ∈ argument.parts, allowed part) Argument.chars Argument.erasure?
      (fun _ _ => True) where
  reads cursor result after _ := by simp only [typeArgumentWith_eq_ok_iff hinner, and_true]
  nonempty argument := ne_nil_of_head? argument.head?_chars
  opens argument _ _ hconsumes :=
    sees_eq_false_of_consumes argument.head?_chars hconsumes (by decide) (by decide)

theorem typeArgumentsWith_eq_ok_iff (hinner : ReadsTypes inner allowed) (cursor after : Cursor)
    (hsees : cursor.sees '<' = true) :
    (typeArgumentsWith inner cursor).outcome = .ok after ↔
      ∃ arguments : List Argument, (∀ part ∈ arguments.flatMap Argument.parts, allowed part) ∧
        cursor.Consumes ('<' :: (arguments.flatMap Argument.chars ++ ['>'])) after := by
  unfold typeArgumentsWith
  rw [if_pos hsees]
  simp only [outcome_pass_bind, bind_eq_ok_iff, Prod.exists,
    (readsItems_arguments hinner).manyUntil_eq_ok_iff, expect_eq_ok_iff]
  constructor
  · rintro ⟨_, between, ⟨arguments, hallowed, -, hconsumes, -, -⟩, hend, rfl⟩
    exact ⟨arguments, List.forall_mem_flatMap.mpr hallowed,
      (consumes_enclosed (by decide) (by decide) ..).mpr ⟨hsees, between, hconsumes, hend, rfl⟩⟩
  · rintro ⟨arguments, hallowed, hconsumes⟩
    obtain ⟨-, between, harguments, hend, rfl⟩ :=
      (consumes_enclosed (by decide) (by decide) ..).mp hconsumes
    exact ⟨_, between, ⟨arguments, List.forall_mem_flatMap.mp hallowed, rfl, harguments,
      separated_true .., hend⟩, hend, rfl⟩

theorem nameStops_ascii : ∀ stop ∈ nameStops, stop.toNat < 128 := by simp [nameStops]

/-- A name and its type arguments, if it has any, make a segment. -/
theorem segment_eq_ok_iff (hinner : ReadsTypes inner allowed) (cursor after : Cursor)
    (text : String) :
    (∃ between, (cursor.identifier nameStops).outcome = .ok (text, between) ∧
        (typeArgumentsWith inner between).outcome = .ok after) ↔
      ∃ segment : Segment, (∀ part ∈ segment.parts, allowed part) ∧ segment.name.text = text ∧
        cursor.Consumes segment.chars after ∧ segment.Before after.rest := by
  simp only [identifier_eq_ok_iff nameStops_ascii]
  constructor
  · rintro ⟨between, ⟨name, rfl, hname, hstop⟩, harguments⟩
    by_cases hsees : between.sees '<' = true
    · obtain ⟨arguments, hallowed, hconsumes⟩ :=
        (typeArgumentsWith_eq_ok_iff hinner _ _ hsees).mp harguments
      refine ⟨.applied name arguments, hallowed, rfl, ?_, trivial⟩
      rw [Segment.chars, Argument.allChars_eq, consumes_append]
      exact ⟨between, hname, hconsumes⟩
    · unfold typeArgumentsWith at harguments
      rw [if_neg hsees] at harguments
      cases harguments
      obtain ⟨stop, hmem, hstop⟩ := (seesAny_iff ..).mp hstop
      refine ⟨.bare name, by simp [Segment.parts], rfl, hname, stop, ?_, (sees_iff ..).mp hstop⟩
      refine List.mem_of_ne_of_mem ?_ hmem
      rintro rfl
      exact hsees hstop
  · rintro ⟨segment, hallowed, rfl, hconsumes, hbefore⟩
    cases segment with
    | bare name =>
        obtain ⟨stop, hmem, hhead⟩ := hbefore
        have hstop : after.sees stop = true := (sees_iff ..).mpr hhead
        refine ⟨after, ⟨name, rfl, hconsumes,
          (seesAny_iff ..).mpr ⟨stop, List.mem_cons_of_mem _ hmem, hstop⟩⟩, ?_⟩
        unfold typeArgumentsWith
        rw [if_neg, outcome_pure]
        intro hsees
        have hopen : stop = '<' := sees_unique (nameStops_ascii stop (List.mem_cons_of_mem _ hmem))
          (by decide) hstop hsees
        rw [hopen] at hmem
        exact absurd hmem (by decide)
    | applied name arguments =>
        rw [Segment.chars, Argument.allChars_eq, consumes_append] at hconsumes
        obtain ⟨between, hname, hconsumes⟩ := hconsumes
        have hsees : between.sees '<' = true := ((consumes_ascii (by decide) ..).mp hconsumes).1
        refine ⟨between, ⟨name, rfl, hname, (seesAny_iff ..).mpr ⟨'<', by decide, hsees⟩⟩, ?_⟩
        exact (typeArgumentsWith_eq_ok_iff hinner _ _ hsees).mpr ⟨arguments, hallowed, hconsumes⟩

theorem innerNameWith_eq_ok_iff (hinner : ReadsTypes inner allowed) (cursor after : Cursor)
    (text : String) :
    (innerNameWith inner cursor).outcome = .ok (text, after) ↔
      ∃ segment : Segment, (∀ part ∈ segment.parts, allowed part) ∧ segment.name.text = text ∧
        cursor.Consumes ('.' :: segment.chars) after ∧ segment.Before after.rest := by
  unfold innerNameWith
  simp only [bind_eq_ok_iff, Prod.exists, next_eq_ok_iff]
  constructor
  · rintro ⟨byte, _, ⟨hhead, rfl⟩, hread⟩
    split at hread
    case isTrue hdot =>
      simp only [bind_eq_ok_iff, Prod.exists] at hread
      obtain ⟨name, between, hname, _, harguments, ⟨⟩⟩ := hread
      obtain ⟨segment, hallowed, rfl, hconsumes, hbefore⟩ :=
        (segment_eq_ok_iff hinner _ _ _).mp ⟨between, hname, harguments⟩
      exact ⟨segment, hallowed, rfl,
        (consumes_ascii (by decide) ..).mpr ⟨sees_of_head? hhead hdot, hconsumes⟩, hbefore⟩
    case isFalse => cases hread
  · rintro ⟨segment, hallowed, rfl, hconsumes, hbefore⟩
    obtain ⟨hsees, hconsumes⟩ := (consumes_ascii (by decide) ..).mp hconsumes
    obtain ⟨between, hname, harguments⟩ :=
      (segment_eq_ok_iff hinner _ _ _).mpr ⟨segment, hallowed, rfl, hconsumes, hbefore⟩
    refine ⟨_, _, ⟨(sees_iff ..).mp hsees, rfl⟩, ?_⟩
    simp only [if_true, bind_eq_ok_iff, Prod.exists]
    exact ⟨_, between, hname, after, harguments, rfl⟩

theorem readsItems_inner (hinner : ReadsTypes inner allowed) :
    ReadsItems (·.sees ';') (innerNameWith inner)
      (fun segment => ∀ part ∈ segment.parts, allowed part) (fun segment => '.' :: segment.chars)
      (fun segment => segment.name.text) Segment.Before where
  reads cursor result after _ := innerNameWith_eq_ok_iff hinner cursor after result
  nonempty segment := List.cons_ne_nil _ _
  opens segment _ _ hconsumes :=
    sees_eq_false_of_consumes ⟨'.', List.mem_singleton_self _, rfl⟩ hconsumes (by decide)
      (by decide)

theorem Segment.before_inner (segment : Segment) (segments : List Segment) {rest : List UInt8}
    (hrest : rest.head? = some (ascii ';')) :
    segment.Before (bytes (segments.flatMap fun segment => '.' :: segment.chars) ++ rest) := by
  cases segment with
  | applied => trivial
  | bare name =>
      cases segments with
      | nil => exact ⟨';', by decide, hrest⟩
      | cons next segments =>
          exact ⟨'.', by decide, (head?_bytes_append (by decide) (by simp) rest).mpr rfl⟩

theorem separated_inner (segments : List Segment) {rest : List UInt8}
    (hrest : rest.head? = some (ascii ';')) :
    Separated (fun segment => '.' :: segment.chars) Segment.Before segments rest := by
  induction segments with
  | nil => trivial
  | cons segment segments ih => exact ⟨segment.before_inner segments hrest, ih⟩

theorem intercalate_eq (outer : String) (inner : List String) :
    "$".intercalate (outer :: inner) = outer ++ String.join (inner.map ("$" ++ ·)) := by
  induction inner generalizing outer with
  | nil => simp
  | cons name inner ih => simp [ih, String.append_assoc]

theorem className_eq (outer : Segment) (segments : List Segment) :
    className outer segments = ⟨"$".intercalate (ClassName.dotted outer.name.text ::
      segments.map fun segment => segment.name.text)⟩ := by
  rw [className, intercalate_eq, List.map_map]
  rfl

theorem classTypeWith_eq_ok_iff (hinner : ReadsTypes inner allowed) (cursor after : Cursor)
    (cls : ClassName) :
    (classTypeWith inner cursor).outcome = .ok (cls, after) ↔
      ∃ (outer : Segment) (segments : List Segment),
        (∀ part ∈ (outer :: segments).flatMap Segment.parts, allowed part) ∧
        className outer segments = cls ∧
        cursor.Consumes (outer.chars ++ (Segment.innerChars segments ++ [';'])) after := by
  unfold classTypeWith
  simp only [bind_eq_ok_iff, Prod.exists, outcome_pass_bind]
  constructor
  · rintro ⟨text, between, htext, last, harguments, names, _, hnames, ⟨⟩⟩
    obtain ⟨outer, houter, rfl, hconsumes, -⟩ :=
      (segment_eq_ok_iff hinner _ _ _).mp ⟨between, htext, harguments⟩
    obtain ⟨segments, hsegments, rfl, hrest, -, hend⟩ :=
      ((readsItems_inner hinner).manyUntil_eq_ok_iff ..).mp hnames
    refine ⟨outer, segments, ?_, className_eq outer segments, ?_⟩
    · exact List.forall_mem_flatMap.mpr (List.forall_mem_cons.mpr ⟨houter, hsegments⟩)
    · rw [Segment.innerChars_eq, consumes_append]
      exact ⟨last, hconsumes, (consumes_append ..).mpr
        ⟨_, hrest, (consumes_singleton (by decide) ..).mpr ⟨hend, rfl⟩⟩⟩
  · rintro ⟨outer, segments, hallowed, rfl, hconsumes⟩
    rw [Segment.innerChars_eq, consumes_append] at hconsumes
    obtain ⟨last, houter, hconsumes⟩ := hconsumes
    obtain ⟨close, hsegments, hclose⟩ := (consumes_append ..).mp hconsumes
    obtain ⟨hend, rfl⟩ := (consumes_singleton (by decide) ..).mp hclose
    -- whatever its last segment is, a class type closes with a character that ends a bare name
    have hparts := List.forall_mem_cons.mp (List.forall_mem_flatMap.mp hallowed)
    have hhead := (sees_iff ..).mp hend
    have hbefore : outer.Before last.rest := by
      rw [hsegments.rest]
      exact outer.before_inner segments hhead
    obtain ⟨between, htext, harguments⟩ :=
      (segment_eq_ok_iff hinner _ _ _).mpr ⟨outer, hparts.1, rfl, houter, hbefore⟩
    have hnames := ((readsItems_inner hinner).manyUntil_eq_ok_iff last close _).mpr
      ⟨segments, hparts.2, rfl, hsegments, separated_inner segments hhead, hend⟩
    refine ⟨_, between, htext, last, harguments, _, close, hnames, ?_⟩
    rw [className_eq, outcome_pure]

theorem readsTypes_referenceWith (hinner : ReadsTypes inner allowed) :
    ReadsTypes (referenceWith inner) fun type => ∀ part ∈ type.parts, allowed part := by
  intro cursor erasure after
  unfold referenceWith
  simp only [bind_eq_ok_iff, Prod.exists, next_eq_ok_iff]
  constructor
  · rintro ⟨byte, _, ⟨hhead, rfl⟩, hread⟩
    split at hread
    case isTrue hbyte =>
      simp only [bind_eq_ok_iff, Prod.exists] at hread
      obtain ⟨cls, _, hread, ⟨⟩⟩ := hread
      obtain ⟨outer, segments, hallowed, rfl, hconsumes⟩ :=
        (classTypeWith_eq_ok_iff hinner _ _ _).mp hread
      exact ⟨.named outer segments, hallowed, rfl,
        (consumes_ascii (by decide) ..).mpr ⟨sees_of_head? hhead hbyte, hconsumes⟩⟩
    case isFalse =>
      split at hread
      case isTrue hbyte =>
        simp only [bind_eq_ok_iff, Prod.exists, expect_eq_ok_iff] at hread
        obtain ⟨text, between, hname, _, ⟨hend, rfl⟩, ⟨⟩⟩ := hread
        obtain ⟨name, rfl, hname, -⟩ := (identifier_eq_ok_iff (by simp) ..).mp hname
        exact ⟨.typeVariable name, by simp [Reference.parts], rfl,
          (consumes_enclosed (by decide) (by decide) ..).mpr
            ⟨sees_of_head? hhead hbyte, between, hname, hend, rfl⟩⟩
      case isFalse =>
        split at hread
        case isTrue hbyte =>
          simp only [bind_eq_ok_iff, Prod.exists] at hread
          obtain ⟨_, _, hread, ⟨⟩⟩ := hread
          obtain ⟨element, hallowed, -, hconsumes⟩ := (typeWith_eq_ok_iff hinner _ _ _).mp hread
          exact ⟨.array element, hallowed, rfl,
            (consumes_ascii (by decide) ..).mpr ⟨sees_of_head? hhead hbyte, hconsumes⟩⟩
        case isFalse => cases hread
  · rintro ⟨type, hallowed, rfl, hconsumes⟩
    cases type with
    | named outer segments =>
        obtain ⟨hsees, hconsumes⟩ := (consumes_ascii (by decide) ..).mp hconsumes
        refine ⟨_, _, ⟨(sees_iff ..).mp hsees, rfl⟩, ?_⟩
        simp only [if_true, bind_eq_ok_iff, Prod.exists]
        exact ⟨_, after, (classTypeWith_eq_ok_iff hinner _ _ _).mpr
          ⟨outer, segments, hallowed, rfl, hconsumes⟩, rfl⟩
    | typeVariable name =>
        obtain ⟨hsees, between, hname, hend, rfl⟩ :=
          (consumes_enclosed (by decide) (by decide) ..).mp hconsumes
        refine ⟨_, _, ⟨(sees_iff ..).mp hsees, rfl⟩, ?_⟩
        rw [if_neg (by decide), if_pos rfl]
        simp only [bind_eq_ok_iff, Prod.exists, expect_eq_ok_iff]
        exact ⟨_, between, (identifier_eq_ok_iff (by simp) ..).mpr
          ⟨name, rfl, hname, (seesAny_iff ..).mpr ⟨';', by decide, hend⟩⟩, _, ⟨hend, rfl⟩, rfl⟩
    | array element =>
        obtain ⟨hsees, hconsumes⟩ := (consumes_ascii (by decide) ..).mp hconsumes
        refine ⟨_, _, ⟨(sees_iff ..).mp hsees, rfl⟩, ?_⟩
        rw [if_neg (by decide), if_neg (by decide), if_pos rfl]
        simp only [bind_eq_ok_iff, Prod.exists]
        exact ⟨_, after, (typeWith_eq_ok_iff hinner _ _ _).mpr
          ⟨element, hallowed, rfl, hconsumes⟩, rfl⟩

end Inner

/-- At most `depth` reference types are around one another. -/
def Within : Nat → Reference → Prop
  | 0, _ => False
  | depth + 1, type => ∀ part ∈ type.parts, Within depth part

theorem readsTypes_nestedReference (depth : Nat) :
    ReadsTypes (nestedReference depth) (Within depth) := by
  induction depth with
  | zero =>
      intro cursor erasure after
      simp [nestedReference, Within]
  | succ depth ih => exact readsTypes_referenceWith ih

theorem length_bytes_le_flatMap {ι : Type} (chars : ι → List Char) {tree : ι} {trees : List ι}
    (htree : tree ∈ trees) :
    (bytes (chars tree)).length ≤ (bytes (trees.flatMap chars)).length := by
  obtain ⟨first, last, rfl⟩ := List.append_of_mem htree
  simp only [List.flatMap_append, List.flatMap_cons, bytes_append, List.length_append]
  omega

theorem length_bytes_cons (char : Char) (chars : List Char) :
    (bytes chars).length < (bytes (char :: chars)).length := by
  have hpos := length_pos_bytes (List.cons_ne_nil char [])
  rw [← List.singleton_append, bytes_append, List.length_append]
  omega

theorem Argument.length_part {argument : Argument} {part : Reference}
    (hpart : part ∈ argument.parts) :
    (bytes part.chars).length ≤ (bytes argument.chars).length := by
  cases argument with
  | any => cases hpart
  | bounded variance bound =>
      obtain rfl := List.mem_singleton.mp hpart
      rw [chars, bytes_append, List.length_append]
      omega

theorem Segment.length_part {segment : Segment} {part : Reference}
    (hpart : part ∈ segment.parts) : (bytes part.chars).length ≤ (bytes segment.chars).length := by
  cases segment with
  | bare => cases hpart
  | applied name arguments =>
      obtain ⟨argument, hargument, hpart⟩ := List.mem_flatMap.mp hpart
      have hpart := Argument.length_part hpart
      have hargument := length_bytes_le_flatMap Argument.chars hargument
      have hopen := length_bytes_cons '<' (arguments.flatMap Argument.chars ++ ['>'])
      simp only [chars, Argument.allChars_eq, bytes_append, List.length_append] at hopen ⊢
      omega

theorem JavaType.length_part {type : JavaType} {part : Reference} (hpart : part ∈ type.parts) :
    (bytes part.chars).length ≤ (bytes type.chars).length := by
  cases type with
  | primitive => cases hpart
  | reference type =>
      obtain rfl := List.mem_singleton.mp hpart
      exact Nat.le_refl _

theorem Reference.length_part {type part : Reference} (hpart : part ∈ type.parts) :
    (bytes part.chars).length < (bytes type.chars).length := by
  cases type with
  | named outer inner =>
      obtain ⟨segment, hsegment, hpart⟩ := List.mem_flatMap.mp hpart
      have hpart := Segment.length_part hpart
      have hlabel := length_bytes_cons 'L' (outer.chars ++ (Segment.innerChars inner ++ [';']))
      simp only [bytes_append, List.length_append, Segment.innerChars_eq] at hlabel
      rw [chars, Segment.innerChars_eq]
      rcases List.mem_cons.mp hsegment with rfl | hinner
      · omega
      · have hlength := length_bytes_le_flatMap (fun segment => '.' :: segment.chars) hinner
        have hdot := length_bytes_cons '.' segment.chars
        omega
  | typeVariable => cases hpart
  | array element =>
      exact Nat.lt_of_le_of_lt (JavaType.length_part hpart) (length_bytes_cons ..)

/-- Each type inside another one is shorter, so the length bounds the nesting. -/
theorem within_of_length {depth : Nat} {type : Reference}
    (hlength : (bytes type.chars).length < depth) : Within depth type := by
  induction depth generalizing type with
  | zero => exact absurd hlength (Nat.not_lt_zero _)
  | succ depth ih =>
      intro part hpart
      have hshorter := Reference.length_part hpart
      exact ih (by omega)

theorem referenceType_eq_ok_iff (cursor after : Cursor) (erasure : Erasure) :
    (referenceType cursor).outcome = .ok (erasure, after) ↔
      ∃ type : Reference, type.erasure = erasure ∧ cursor.Consumes type.chars after := by
  rw [referenceType, readsTypes_nestedReference]
  constructor
  · rintro ⟨type, -, herasure, hconsumes⟩
    exact ⟨type, herasure, hconsumes⟩
  · rintro ⟨type, herasure, hconsumes⟩
    refine ⟨type, within_of_length ?_, herasure, hconsumes⟩
    rw [hconsumes.rest, List.length_append]
    omega

theorem javaType_eq_ok_iff (cursor after : Cursor) (result : Option Erasure) :
    (javaType cursor).outcome = .ok (result, after) ↔
      ∃ type : JavaType, type.erasure? = result ∧ cursor.Consumes type.chars after := by
  have hreads : ReadsTypes referenceType fun _ => True := by
    intro cursor erasure after
    simp only [referenceType_eq_ok_iff, true_and]
  rw [javaType, typeWith_eq_ok_iff hreads]
  simp

end ExceptionFlow.Signature

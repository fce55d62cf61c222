import ExceptionFlow.Proofs.TypeReading
/-!
Reading a method signature is the inverse of writing one: a text is read exactly if a tree is
written so, and what is read is what that tree throws.
-/
namespace ExceptionFlow.Signature

open Cursor Reading

/-- The bytes do not begin like a reference type. -/
def BeginsNoReference (rest : List UInt8) : Prop :=
  ∀ start ∈ Reference.starts, rest.head? ≠ some (ascii start)

theorem beginsNoReference_iff (cursor : Cursor) :
    BeginsNoReference cursor.rest ↔ ¬ cursor.seesAny Reference.starts = true := by
  simp [BeginsNoReference, seesAny_iff, sees_iff]

theorem starts_ascii : ∀ start ∈ Reference.starts, start.toNat < 128 := by simp [Reference.starts]

theorem beginsNoReference_of_head? {char : Char} (hchar : char.toNat < 128)
    (hstart : char ∉ Reference.starts) {rest : List UInt8}
    (hrest : rest.head? = some (ascii char)) : BeginsNoReference rest := by
  intro start hmem hhead
  rw [hrest, Option.some_inj] at hhead
  exact hstart (ascii_inj hchar (starts_ascii start hmem) hhead ▸ hmem)

theorem Reference.seesAny_starts {type : Reference} {cursor after : Cursor}
    (hconsumes : cursor.Consumes type.chars after) : cursor.seesAny starts = true := by
  obtain ⟨start, hmem, hhead⟩ := type.head?_chars
  exact (seesAny_iff ..).mpr
    ⟨start, hmem, sees_of_consumes (starts_ascii start hmem) hhead hconsumes⟩

theorem classBound_eq_ok_iff (cursor after : Cursor) (result : Option Erasure) :
    (classBound cursor).outcome = .ok (result, after) ↔
      ∃ bound : Option Reference, bound.map Reference.erasure = result ∧
        cursor.Consumes ((bound.map Reference.chars).getD []) after ∧
        (bound = none → BeginsNoReference after.rest) := by
  unfold classBound
  constructor
  · intro hread
    split at hread
    case isTrue =>
      simp only [bind_eq_ok_iff, Prod.exists, referenceType_eq_ok_iff] at hread
      obtain ⟨_, _, ⟨bound, rfl, hconsumes⟩, ⟨⟩⟩ := hread
      exact ⟨some bound, rfl, hconsumes, by simp⟩
    case isFalse hsees =>
      cases hread
      exact ⟨none, rfl, (consumes_nil ..).mpr rfl, fun _ => (beginsNoReference_iff _).mpr hsees⟩
  · rintro ⟨bound, rfl, hconsumes, hnone⟩
    cases bound with
    | none =>
        obtain rfl := (consumes_nil ..).mp hconsumes
        have hsees : ¬ after.seesAny ['L', 'T', '['] = true :=
          (beginsNoReference_iff _).mp (hnone rfl)
        rw [if_neg hsees]
        rfl
    | some bound =>
        have hsees : cursor.seesAny ['L', 'T', '['] = true := Reference.seesAny_starts hconsumes
        rw [if_pos hsees]
        simp only [bind_eq_ok_iff, Prod.exists]
        exact ⟨_, _, (referenceType_eq_ok_iff ..).mpr ⟨bound, rfl, hconsumes⟩, rfl⟩

theorem readsItems_interfaceBounds :
    ReadsItems (fun cursor => !cursor.sees ':') interfaceBound
      (fun _ => True) (fun bound => ':' :: bound.chars) Reference.erasure (fun _ _ => True) where
  reads cursor result after hdone := by
    have hsees : cursor.sees ':' = true := by simpa using hdone
    simp [interfaceBound, outcome_pass_bind, referenceType_eq_ok_iff, consumes_ascii, hsees]
  nonempty _ := List.cons_ne_nil _ _
  opens bound cursor after hconsumes := by
    simp [((consumes_ascii (by decide) ..).mp hconsumes).1]

namespace TypeParameter

/-- The name with the erased leftmost bound. -/
def entry? (parameter : TypeParameter) : Option (String × Erasure) :=
  parameter.bound?.map fun bound => (parameter.name.text, bound.erasure)

/-- What follows can be taken neither for one more bound nor, if there is none, for the first. -/
def Before (parameter : TypeParameter) (rest : List UInt8) : Prop :=
  rest.head? ≠ some (ascii ':') ∧
    (parameter.bound? = none → BeginsNoReference rest)

theorem entry?_eq (parameter : TypeParameter) :
    parameter.entry? = ((parameter.classBound.map Reference.erasure).or
      (parameter.interfaceBounds.map Reference.erasure).head?).map
        fun first => (parameter.name.text, first) := by
  rw [List.head?_map, ← Option.map_or, Option.map_map]
  rfl

theorem bound?_eq_none_iff (parameter : TypeParameter) :
    parameter.bound? = none ↔ parameter.classBound = none ∧ parameter.interfaceBounds = [] := by
  rw [bound?, Option.or_eq_none_iff, List.head?_eq_none_iff]

end TypeParameter

theorem parameterStops_ascii : ∀ stop ∈ [':', '>'], stop.toNat < 128 := by simp

theorem typeParameter_eq_ok_iff (cursor after : Cursor) (result : Option (String × Erasure)) :
    (typeParameter cursor).outcome = .ok (result, after) ↔
      ∃ parameter : TypeParameter, parameter.entry? = result ∧
        cursor.Consumes parameter.chars after ∧ parameter.Before after.rest := by
  unfold typeParameter
  simp only [bind_eq_ok_iff, Prod.exists, expect_eq_ok_iff, classBound_eq_ok_iff,
    identifier_eq_ok_iff parameterStops_ascii, readsItems_interfaceBounds.manyUntil_eq_ok_iff,
    outcome_pure, Except.ok.injEq, Prod.mk.injEq]
  constructor
  · rintro ⟨_, colon, ⟨name, rfl, hname, -⟩, _, ⟨hcolon, rfl⟩, _, between,
      ⟨classBound, rfl, hclass, hnone⟩, _, last, ⟨interfaceBounds, -, rfl, hinterfaces, -, hdone⟩,
      rfl, rfl⟩
    refine ⟨⟨name, classBound, interfaceBounds⟩, TypeParameter.entry?_eq _, ?_, ?_, ?_⟩
    · rw [TypeParameter.chars, consumes_append]
      refine ⟨colon, hname, (consumes_ascii (by decide) ..).mpr ⟨hcolon, ?_⟩⟩
      exact (consumes_append ..).mpr ⟨between, hclass, hinterfaces⟩
    · exact (sees_eq_false_iff ..).mp (by simpa using hdone)
    · intro hbound
      obtain ⟨hclassBound, rfl⟩ := (TypeParameter.bound?_eq_none_iff _).mp hbound
      obtain rfl := (consumes_nil ..).mp hinterfaces
      exact hnone hclassBound
  · rintro ⟨⟨name, classBound, interfaceBounds⟩, rfl, hconsumes, hdone, hnone⟩
    rw [TypeParameter.chars, consumes_append] at hconsumes
    obtain ⟨colon, hname, hconsumes⟩ := hconsumes
    rw [consumes_ascii (by decide), consumes_append] at hconsumes
    obtain ⟨hcolon, between, hclass, hinterfaces⟩ := hconsumes
    -- without a class bound, the next byte is a colon or what follows the parameter
    have hopen : classBound = none → BeginsNoReference between.rest := by
      intro hclassBound
      cases interfaceBounds with
      | nil =>
          obtain rfl := (consumes_nil ..).mp hinterfaces
          exact hnone ((TypeParameter.bound?_eq_none_iff _).mpr ⟨hclassBound, rfl⟩)
      | cons bound bounds =>
          have hsees := sees_of_consumes (by decide : ':'.toNat < 128) rfl hinterfaces
          exact beginsNoReference_of_head? (by decide) (by decide) ((sees_iff ..).mp hsees)
    have hend : (!after.sees ':') = true := by rw [(sees_eq_false_iff ..).mpr hdone, Bool.not_false]
    exact ⟨_, colon, ⟨name, rfl, hname, (seesAny_iff ..).mpr ⟨':', by decide, hcolon⟩⟩, _,
      ⟨hcolon, rfl⟩, _, between, ⟨classBound, rfl, hclass, hopen⟩, _, after,
      ⟨interfaceBounds, fun _ _ => trivial, rfl, hinterfaces, separated_true .., hend⟩,
      (TypeParameter.entry?_eq ⟨name, classBound, interfaceBounds⟩).symm, rfl⟩

theorem Name.chars_ne_nil {stops : List Char} (name : Name stops) : name.chars ≠ [] :=
  name.nonempty

theorem TypeParameter.head?_chars (parameter : TypeParameter) :
    parameter.chars.head? = parameter.name.chars.head? := by
  rw [chars, List.head?_append_of_ne_nil _ parameter.name.chars_ne_nil]

theorem TypeParameter.chars_ne_nil (parameter : TypeParameter) : parameter.chars ≠ [] :=
  List.append_ne_nil_of_left_ne_nil parameter.name.chars_ne_nil _

/-- A type parameter starts with its name, which has no colon and no bracket. -/
theorem TypeParameter.head?_ne (parameter : TypeParameter) {stop : Char} (hstop : stop ∈ [':', '>'])
    (rest : List UInt8) : (bytes parameter.chars ++ rest).head? ≠ some (ascii stop) := by
  rw [Ne, head?_bytes_append (parameterStops_ascii stop hstop) parameter.chars_ne_nil,
    parameter.head?_chars]
  intro hhead
  exact parameter.name.free stop hstop (List.mem_of_head? hhead)

theorem TypeParameter.before_close (parameter : TypeParameter) {rest : List UInt8}
    (hrest : rest.head? = some (ascii '>')) : parameter.Before rest := by
  refine ⟨?_, fun _ => beginsNoReference_of_head? (by decide) (by decide) hrest⟩
  rw [hrest]
  decide

theorem TypeParameter.before_iff_precedes (parameter next : TypeParameter)
    (rest : List UInt8) :
    parameter.Before (bytes next.chars ++ rest) ↔ parameter.Precedes next := by
  have hbegins : BeginsNoReference (bytes next.chars ++ rest) ↔
      ∀ start ∈ Reference.starts, next.name.chars.head? ≠ some start := by
    apply forall₂_congr
    intro start hmem
    rw [Ne, head?_bytes_append (starts_ascii start hmem) next.chars_ne_nil, next.head?_chars]
  rw [Before, hbegins]
  exact and_iff_right (next.head?_ne (by decide) rest)

/-- Type parameters in angle brackets can be told apart exactly if they form a chain. -/
theorem separated_iff_isChain (parameters : List TypeParameter) {rest : List UInt8}
    (hrest : rest.head? = some (ascii '>')) :
    Separated TypeParameter.chars TypeParameter.Before parameters rest ↔
      parameters.IsChain TypeParameter.Precedes := by
  induction parameters with
  | nil => simp [Separated]
  | cons parameter parameters ih =>
      cases parameters with
      | nil => simpa [Separated] using parameter.before_close hrest
      | cons next parameters =>
          rw [Separated, ih, List.isChain_cons_cons, List.flatMap_cons, bytes_append,
            List.append_assoc, parameter.before_iff_precedes]

/-- The bounds of type parameters, the latest first. -/
def boundsOf (parameters : List TypeParameter) : Bounds :=
  ((parameters.map TypeParameter.entry?).filterMap id).reverse

theorem readsItems_typeParameters :
    ReadsItems (·.sees '>') typeParameter (fun _ => True) TypeParameter.chars TypeParameter.entry?
      TypeParameter.Before where
  reads cursor result after _ := by simp only [typeParameter_eq_ok_iff, true_and]
  nonempty := TypeParameter.chars_ne_nil
  opens parameter cursor after hconsumes := by
    rw [sees_eq_false_iff, hconsumes.rest]
    exact parameter.head?_ne (by decide) after.rest

theorem typeParameters_eq_ok_iff (cursor after : Cursor) (bounds : Bounds) :
    (typeParameters cursor).outcome = .ok (bounds, after) ↔
      ∃ parameters : Option TypeParameters,
        boundsOf ((parameters.map Subtype.val).getD []) = bounds ∧
        cursor.Consumes (MethodSyntax.typeParameterChars parameters) after ∧
        (parameters = none → after.sees '<' = false) := by
  unfold typeParameters
  constructor
  · intro hread
    split at hread
    case isTrue hsees =>
      simp only [outcome_pass_bind, bind_eq_ok_iff, Prod.exists,
        readsItems_typeParameters.manyUntil_eq_ok_iff, expect_eq_ok_iff] at hread
      obtain ⟨_, close, ⟨parameters, -, rfl, hconsumes, hseparated, hclose⟩, _, ⟨-, rfl⟩, ⟨⟩⟩ :=
        hread
      have hchain := (separated_iff_isChain parameters ((sees_iff ..).mp hclose)).mp hseparated
      refine ⟨some ⟨parameters, hchain⟩, rfl, ?_, by simp⟩
      exact (consumes_enclosed (by decide) (by decide) ..).mpr
        ⟨hsees, close, hconsumes, hclose, rfl⟩
    case isFalse hsees =>
      cases hread
      exact ⟨none, rfl, (consumes_nil ..).mpr rfl, fun _ => by simpa using hsees⟩
  · rintro ⟨parameters, rfl, hconsumes, hnone⟩
    cases parameters with
    | none =>
        obtain rfl := (consumes_nil ..).mp hconsumes
        rw [if_neg (by simp [hnone rfl])]
        rfl
    | some parameters =>
        obtain ⟨hsees, close, hparameters, hclose, rfl⟩ :=
          (consumes_enclosed (by decide) (by decide) ..).mp hconsumes
        have hseparated :=
          (separated_iff_isChain parameters.val ((sees_iff ..).mp hclose)).mpr parameters.property
        rw [if_pos hsees]
        simp only [outcome_pass_bind, bind_eq_ok_iff, Prod.exists,
          readsItems_typeParameters.manyUntil_eq_ok_iff, expect_eq_ok_iff]
        exact ⟨_, close, ⟨parameters.val, fun _ _ => trivial, rfl, hparameters, hseparated, hclose⟩,
          _, ⟨hclose, rfl⟩, rfl⟩

theorem JavaType.head?_chars (type : JavaType) :
    ∃ start ∈ primitives ++ Reference.starts, type.chars.head? = some start := by
  cases type with
  | primitive letter hletter => exact ⟨letter, List.mem_append_left _ hletter, rfl⟩
  | reference type =>
      obtain ⟨start, hmem, hhead⟩ := type.head?_chars
      exact ⟨start, List.mem_append_right _ hmem, hhead⟩

theorem readsItems_parameters :
    ReadsItems (·.sees ')') javaType (fun _ => True) JavaType.chars JavaType.erasure?
      (fun _ _ => True) where
  reads cursor result after _ := by simp only [javaType_eq_ok_iff, true_and, and_true]
  nonempty type := ne_nil_of_head? type.head?_chars
  opens type _ _ hconsumes :=
    sees_eq_false_of_consumes type.head?_chars hconsumes (by decide) (by decide)

theorem result_eq_ok_iff (cursor after : Cursor) :
    (if cursor.sees 'V' then cursor.pass
      else do
        let (_, cursor) ← javaType cursor
        return cursor : Reading Cursor).outcome = .ok after ↔
      ∃ result : Option JavaType, cursor.Consumes (MethodSyntax.resultChars result) after := by
  constructor
  · intro hread
    split at hread
    case isTrue hsees =>
      cases hread
      exact ⟨none, (consumes_singleton (by decide) ..).mpr ⟨hsees, rfl⟩⟩
    case isFalse =>
      simp only [bind_eq_ok_iff, Prod.exists, javaType_eq_ok_iff] at hread
      obtain ⟨_, _, ⟨type, -, hconsumes⟩, ⟨⟩⟩ := hread
      exact ⟨some type, hconsumes⟩
  · rintro ⟨result, hconsumes⟩
    cases result with
    | none =>
        obtain ⟨hsees, rfl⟩ := (consumes_singleton (by decide) ..).mp hconsumes
        rw [if_pos hsees, outcome_pass]
    | some type =>
        have hsees : cursor.sees 'V' = false :=
          sees_eq_false_of_consumes type.head?_chars hconsumes (by decide) (by decide)
        rw [if_neg (by simp [hsees])]
        simp only [bind_eq_ok_iff, Prod.exists]
        exact ⟨_, after, (javaType_eq_ok_iff ..).mpr ⟨type, rfl, hconsumes⟩, rfl⟩

theorem parametersAndResult_eq_ok_iff (cursor after : Cursor) :
    (parametersAndResult cursor).outcome = .ok after ↔
      ∃ (parameters : List JavaType) (result : Option JavaType),
        cursor.Consumes ('(' :: (parameters.flatMap JavaType.chars ++
          ')' :: MethodSyntax.resultChars result)) after := by
  unfold parametersAndResult
  simp only [bind_eq_ok_iff, Prod.exists, expect_eq_ok_iff, result_eq_ok_iff,
    readsItems_parameters.manyUntil_eq_ok_iff]
  constructor
  · rintro ⟨_, ⟨hopen, rfl⟩, _, close, ⟨parameters, -, rfl, hparameters, -, hclose⟩, _, ⟨-, rfl⟩,
      result, hresult⟩
    refine ⟨parameters, result, ?_⟩
    rw [consumes_ascii (by decide), consumes_append]
    exact ⟨hopen, close, hparameters, (consumes_ascii (by decide) ..).mpr ⟨hclose, hresult⟩⟩
  · rintro ⟨parameters, result, hconsumes⟩
    rw [consumes_ascii (by decide), consumes_append] at hconsumes
    obtain ⟨hopen, close, hparameters, hconsumes⟩ := hconsumes
    obtain ⟨hclose, hresult⟩ := (consumes_ascii (by decide) ..).mp hconsumes
    exact ⟨_, ⟨hopen, rfl⟩, _, close, ⟨parameters, fun _ _ => trivial, rfl, hparameters,
      separated_true .., hclose⟩, _, ⟨hclose, rfl⟩, result, hresult⟩

theorem thrownType_eq_ok_iff (cursor after : Cursor) (erasure : Erasure) :
    (thrownType cursor).outcome = .ok (erasure, after) ↔
      ∃ type : ThrownType, type.val.erasure = erasure ∧
        cursor.Consumes ('^' :: type.val.chars) after := by
  unfold thrownType
  simp only [bind_eq_ok_iff, Prod.exists, expect_eq_ok_iff, referenceType_eq_ok_iff]
  constructor
  · rintro ⟨_, ⟨hsees, rfl⟩, _, _, ⟨type, rfl, hconsumes⟩, hread⟩
    split at hread
    case isTrue => cases hread
    case isFalse harray =>
      cases hread
      have hthrown : type.isArray = false := by
        rw [type.erasure_eq_array_iff] at harray
        simpa using harray
      exact ⟨⟨type, hthrown⟩, rfl, (consumes_ascii (by decide) ..).mpr ⟨hsees, hconsumes⟩⟩
  · rintro ⟨⟨type, hthrown⟩, rfl, hconsumes⟩
    obtain ⟨hsees, hconsumes⟩ := (consumes_ascii (by decide) ..).mp hconsumes
    refine ⟨_, ⟨hsees, rfl⟩, _, after, ⟨type, rfl, hconsumes⟩, ?_⟩
    rw [if_neg, outcome_pure]
    rw [type.erasure_eq_array_iff, hthrown]
    exact Bool.false_ne_true

theorem readsItems_thrown :
    ReadsItems atEnd thrownType (fun _ => True) (fun type : ThrownType => '^' :: type.val.chars)
      (fun type => type.val.erasure) (fun _ _ => True) where
  reads cursor result after _ := by simp only [thrownType_eq_ok_iff, true_and, and_true]
  nonempty _ := List.cons_ne_nil _ _
  opens type cursor after hconsumes := by
    have hsome := hconsumes.length_lt (List.cons_ne_nil _ _)
    rw [atEnd, List.isEmpty_eq_false_iff_exists_mem]
    exact List.exists_mem_of_length_pos (by omega)

/-- What is kept of a signature that is read. -/
def MethodSyntax.signature (method : MethodSyntax) : MethodSignature :=
  { bounds := boundsOf method.typeParameterList, thrown := method.thrown.map (·.val.erasure) }

theorem parse_eq_ok_iff (text : String) (signature : MethodSignature) :
    parse text = .ok signature ↔
      ∃ method : MethodSyntax, method.chars = text.toList ∧ method.signature = signature := by
  unfold parse readMethod
  simp only [bind_eq_ok_iff, Prod.exists, typeParameters_eq_ok_iff, parametersAndResult_eq_ok_iff,
    readsItems_thrown.manyUntil_eq_ok_iff, outcome_pure, Except.ok.injEq]
  constructor
  · rintro ⟨_, opening, ⟨typeParameters, rfl, htypes, -⟩, throwing, ⟨parameters, result, hresult⟩,
      _, last, ⟨thrown, -, rfl, hthrown, -, hend⟩, rfl⟩
    refine ⟨⟨typeParameters, parameters, result, thrown⟩, ?_, rfl⟩
    have hwhole : (start text).Consumes
        (MethodSyntax.chars ⟨typeParameters, parameters, result, thrown⟩) last :=
      (consumes_append ..).mpr
        ⟨opening, htypes, (consumes_append ..).mpr ⟨throwing, hresult, hthrown⟩⟩
    have hlast : last.rest = [] := List.isEmpty_iff.mp hend
    have hbytes := hwhole.rest
    rw [rest_start, hlast, List.append_nil] at hbytes
    exact (bytes_inj.mp hbytes).symm
  · rintro ⟨⟨typeParameters, parameters, result, thrown⟩, hchars, rfl⟩
    have hwhole : (start text).Consumes
        (MethodSyntax.chars ⟨typeParameters, parameters, result, thrown⟩)
        ⟨(bytes text.toList).length, []⟩ := by
      rw [hchars]
      exact ⟨by rw [rest_start, List.append_nil], (Nat.zero_add _).symm⟩
    obtain ⟨opening, htypes, hwhole⟩ := (consumes_append ..).mp hwhole
    obtain ⟨throwing, hresult, hthrown⟩ := (consumes_append ..).mp hwhole
    have hopen : opening.sees '<' = false :=
      sees_eq_false_of_consumes ⟨'(', List.mem_singleton_self _, rfl⟩ hresult (by decide)
        (by decide)
    exact ⟨_, opening, ⟨typeParameters, rfl, htypes, fun _ => hopen⟩, throwing,
      ⟨parameters, result, hresult⟩, _, _, ⟨thrown, fun _ _ => trivial, rfl, hthrown,
        separated_true .., rfl⟩, rfl⟩

theorem boundsOf_eq (parameters : List TypeParameter) :
    boundsOf parameters = parameters.reverse.filterMap TypeParameter.entry? := by
  rw [boundsOf, List.filterMap_map, List.filterMap_reverse]
  rfl

theorem lookup_boundsOf (parameters : List TypeParameter) (name : String) :
    (boundsOf parameters).lookup name = (boundOf? parameters name).map Reference.erasure := by
  rw [boundsOf_eq, boundOf?]
  generalize parameters.reverse = latest
  induction latest with
  | nil => rfl
  | cons parameter latest ih =>
      cases hbound : parameter.bound? with
      | none =>
          have hentry : parameter.entry? = none := by
            rw [TypeParameter.entry?, hbound, Option.map_none]
          rw [List.filterMap_cons_none hentry, ih, List.filter_cons]
          split
          · rw [List.findSome?_cons, hbound]
          · rfl
      | some bound =>
          have hentry : parameter.entry? = some (parameter.name.text, bound.erasure) := by
            rw [TypeParameter.entry?, hbound, Option.map_some]
          rw [List.filterMap_cons_some hentry, List.lookup_cons, List.filter_cons]
          by_cases hname : parameter.name.text = name
          · simp [hname, hbound]
          · have hother : (name == parameter.name.text) = false :=
              beq_eq_false_iff_ne.mpr (Ne.symm hname)
            simp [hname, hother, ih]

namespace StandsFor

variable {parameters : List TypeParameter} {lookups : Nat} {cls : ClassName}

theorem named_iff {outer : Segment} {inner : List Segment} :
    StandsFor parameters lookups (.named outer inner) cls ↔ className outer inner = cls := by
  constructor
  · rintro ⟨⟩
    rfl
  · rintro rfl
    exact .named lookups outer inner

theorem not_array {element : JavaType} : ¬ StandsFor parameters lookups (.array element) cls := by
  rintro ⟨⟩

theorem not_zero {name : Name [';']} : ¬ StandsFor parameters 0 (.typeVariable name) cls := by
  rintro ⟨⟩

theorem succ_iff {name : Name [';']} :
    StandsFor parameters (lookups + 1) (.typeVariable name) cls ↔
      ∃ bound, boundOf? parameters name.text = some bound ∧
        StandsFor parameters lookups bound cls := by
  constructor
  · rintro (_ | ⟨hbound, hcls⟩)
    exact ⟨_, hbound, hcls⟩
  · rintro ⟨bound, hbound, hcls⟩
    exact .typeVariable hbound hcls

end StandsFor

theorem classOf?_eq_some_iff (parameters : List TypeParameter) (lookups : Nat) (type : Reference)
    (cls : ClassName) :
    (boundsOf parameters).classOf? lookups type.erasure = some cls ↔
      StandsFor parameters lookups type cls := by
  induction lookups generalizing type with
  | zero =>
      cases type with
      | named => simp [Reference.erasure, Bounds.classOf?, StandsFor.named_iff]
      | typeVariable => simp [Reference.erasure, Bounds.classOf?, StandsFor.not_zero]
      | array => simp [Reference.erasure, Bounds.classOf?, StandsFor.not_array]
  | succ lookups ih =>
      cases type with
      | named => simp [Reference.erasure, Bounds.classOf?, StandsFor.named_iff]
      | typeVariable name =>
          rw [Reference.erasure, Bounds.classOf?, lookup_boundsOf, StandsFor.succ_iff]
          cases boundOf? parameters name.text with
          | none => simp
          | some bound => simp [ih]
      | array => simp [Reference.erasure, Bounds.classOf?, StandsFor.not_array]

theorem throws_iff (parameters : List TypeParameter) (types : List ThrownType)
    (classes : List ClassName) :
    Throws parameters types classes ↔
      (types.map (·.val.erasure)).filterMap ((boundsOf parameters).classOf? boundChainLimit) =
        classes := by
  induction types generalizing classes with
  | nil =>
      constructor
      · rintro ⟨⟩
        rfl
      · rintro rfl
        exact .nil
  | cons type types ih =>
      rw [List.map_cons]
      cases hcls : (boundsOf parameters).classOf? boundChainLimit type.val.erasure with
      | none =>
          have hlost : ∀ cls, ¬ StandsFor parameters boundChainLimit type.val cls := by
            intro cls hstands
            rw [← classOf?_eq_some_iff, hcls] at hstands
            cases hstands
          rw [List.filterMap_cons_none hcls, ← ih]
          constructor
          · intro hthrows
            cases hthrows with
            | found hstands hclasses => exact absurd hstands (hlost _)
            | lost _ hclasses => exact hclasses
          · exact .lost hlost
      | some cls =>
          have hfound := (classOf?_eq_some_iff ..).mp hcls
          rw [List.filterMap_cons_some hcls]
          constructor
          · intro hthrows
            cases hthrows with
            | found hstands hclasses =>
                rw [← classOf?_eq_some_iff, hcls, Option.some_inj] at hstands
                rw [hstands, (ih _).mp hclasses]
            | lost hlost _ => exact absurd hfound (hlost cls)
          · rintro rfl
            exact .found hfound ((ih _).mpr rfl)

theorem MethodSyntax.throws_iff (method : MethodSyntax) (classes : List ClassName) :
    method.Throws classes ↔ method.signature.throws = classes :=
  Signature.throws_iff ..

end ExceptionFlow.Signature

namespace ExceptionFlow

open Signature

theorem MethodDecl.signatureThrows_eq {method : MethodDecl} {text : String}
    (hsignature : method.signature = some text) :
    method.signatureThrows = ((parse text).map MethodSignature.throws).toOption.getD [] := by
  rw [signatureThrows, hsignature]
  rfl

/-- A signature is accepted exactly if the grammar writes it. Then it is read as its tree and throws
what that tree throws, and otherwise it throws nothing. -/
theorem signatureThrows_written (method : MethodDecl) (text : String)
    (hsignature : method.signature = some text) :
    ((∃ signature, parse text = .ok signature) ↔
        ∃ tree : MethodSyntax, tree.chars = text.toList) ∧
      (∀ tree : MethodSyntax, tree.chars = text.toList → parse text = .ok tree.signature ∧
        ∀ classes, method.signatureThrows = classes ↔ tree.Throws classes) ∧
      ((¬ ∃ tree : MethodSyntax, tree.chars = text.toList) → method.signatureThrows = []) := by
  have hwritten : ∀ tree : MethodSyntax, tree.chars = text.toList →
      parse text = .ok tree.signature :=
    fun tree hchars => (parse_eq_ok_iff text tree.signature).mpr ⟨tree, hchars, rfl⟩
  have haccepted : (∃ signature, parse text = .ok signature) ↔
      ∃ tree : MethodSyntax, tree.chars = text.toList := by
    constructor
    · rintro ⟨signature, hparse⟩
      obtain ⟨tree, hchars, -⟩ := (parse_eq_ok_iff text signature).mp hparse
      exact ⟨tree, hchars⟩
    · rintro ⟨tree, hchars⟩
      exact ⟨tree.signature, hwritten tree hchars⟩
  rw [MethodDecl.signatureThrows_eq hsignature]
  refine ⟨haccepted, ?_, ?_⟩
  · intro tree hchars
    refine ⟨hwritten tree hchars, fun classes => ?_⟩
    rw [tree.throws_iff, hwritten tree hchars]
    rfl
  · intro hrefused
    cases hparse : parse text with
    | ok signature => exact absurd (haccepted.mp ⟨signature, hparse⟩) hrefused
    | error fault => rfl

def signedMethod (text : String) : MethodDecl :=
  { name := "call", descriptor := "()V", signature := some text }

def boundedSignature : String :=
  "<A::Ljava/lang/Runnable;B:TC;C:Ljava/io/IOException;>()V^TA;^TB;^TD;^La/B<*>.C;"

def arraySignature : String := "()V^[La/B;"

/-- Variables are followed through `C`, `D` is no type parameter, and arrays cannot be thrown. -/
theorem signatureThrows_written_bounds :
    (∃ tree : MethodSyntax, tree.chars = boundedSignature.toList ∧
      tree.Throws [⟨"java.lang.Runnable"⟩, ⟨"java.io.IOException"⟩, ⟨"a.B$C"⟩]) ∧
      ¬ ∃ tree : MethodSyntax, tree.chars = arraySignature.toList := by
  have hbounds := signatureThrows_written (signedMethod boundedSignature) boundedSignature rfl
  have harray := signatureThrows_written (signedMethod arraySignature) arraySignature rfl
  constructor
  · obtain ⟨tree, hchars⟩ := hbounds.1.mp ⟨_, rfl⟩
    exact ⟨tree, hchars, ((hbounds.2.1 tree hchars).2 _).mp (by decide +kernel)⟩
  · rw [← harray.1]
    rintro ⟨signature, hread⟩
    have hparse : parse arraySignature = .error .thrownArray := by rfl
    rw [hparse] at hread
    cases hread

end ExceptionFlow

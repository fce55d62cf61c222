import ExceptionFlow.Proofs.SignatureReading
/-!
Signatures that are cut short. Each part of a signature ends at a character of its own and never
because the text ends there, so the part is read in the same way whatever follows it. A text that is
cut short can therefore only be read if the cut is right behind the result or a thrown type, and
then it has the type parameters of the whole and the first few of its thrown types.
-/
namespace ExceptionFlow.Signature

open Cursor Reading

/-- The reader takes each tree off the front of any text that begins with it. -/
def TakesOff {ι α : Type} (reader : Reader α) (chars : ι → List Char) (value : ι → α) : Prop :=
  ∀ tree cursor after, cursor.Consumes (chars tree) after →
    (reader cursor).outcome = .ok (value tree, after)

theorem consumes_front (chars rest : List Char) :
    Consumes ⟨0, bytes (chars ++ rest)⟩ chars ⟨(bytes chars).length, bytes rest⟩ :=
  ⟨bytes_append chars rest, (Nat.zero_add _).symm⟩

/-- Where such a part ends in a text, and what it is read as, does not depend on how the text is
taken apart. -/
theorem TakesOff.unique {ι α : Type} {reader : Reader α} {chars : ι → List Char} {value : ι → α}
    (hreader : TakesOff reader chars value) {tree other : ι} {rest others : List Char}
    (htext : chars tree ++ rest = chars other ++ others) :
    value tree = value other ∧ rest = others := by
  have hread := hreader tree _ _ (consumes_front (chars tree) rest)
  have hagain := hreader other _ _ (consumes_front (chars other) others)
  rw [htext, hagain] at hread
  simp only [Except.ok.injEq, Prod.mk.injEq, Cursor.mk.injEq, bytes_inj] at hread
  exact ⟨hread.1.symm, hread.2.2.symm⟩

theorem takesOff_referenceType : TakesOff referenceType Reference.chars Reference.erasure := by
  intro type cursor after hconsumes
  exact (referenceType_eq_ok_iff ..).mpr ⟨type, rfl, hconsumes⟩

/-- All of a signature before its thrown types. -/
def methodHead : Reader Bounds := fun cursor => do
  let (bounds, cursor) ← typeParameters cursor
  let cursor ← parametersAndResult cursor
  return (bounds, cursor)

namespace MethodSyntax

def headChars (method : MethodSyntax) : List Char :=
  typeParameterChars method.typeParameters ++
    '(' :: (method.parameters.flatMap JavaType.chars ++ ')' :: resultChars method.result)

def thrownChars (types : List ThrownType) : List Char :=
  types.flatMap fun type => '^' :: type.val.chars

theorem chars_eq (method : MethodSyntax) :
    method.chars = method.headChars ++ thrownChars method.thrown := by
  rw [chars, headChars, thrownChars, List.append_assoc]

end MethodSyntax

theorem takesOff_methodHead :
    TakesOff methodHead MethodSyntax.headChars fun method =>
      boundsOf method.typeParameterList := by
  intro method cursor after hconsumes
  obtain ⟨opening, htypes, hresult⟩ := (consumes_append ..).mp hconsumes
  -- a parenthesis follows, so the text of a method without type parameters does not open them
  have hopen : opening.sees '<' = false :=
    sees_eq_false_of_consumes ⟨'(', List.mem_singleton_self _, rfl⟩ hresult (by decide) (by decide)
  unfold methodHead
  simp only [bind_eq_ok_iff, Prod.exists, typeParameters_eq_ok_iff, parametersAndResult_eq_ok_iff]
  exact ⟨_, opening, ⟨method.typeParameters, rfl, htypes, fun _ => hopen⟩, after,
    ⟨method.parameters, method.result, hresult⟩, rfl⟩

/-- Thrown types at the front of others are the first few of them. -/
theorem isPrefix_erasures {types others : List ThrownType} {rest : List Char}
    (htext : MethodSyntax.thrownChars types ++ rest = MethodSyntax.thrownChars others) :
    types.map (·.val.erasure) <+: others.map (·.val.erasure) := by
  induction types generalizing others with
  | nil => exact List.nil_prefix
  | cons type types ih =>
      cases others with
      | nil => cases htext
      | cons other others =>
          simp only [MethodSyntax.thrownChars, List.flatMap_cons, List.cons_append,
            List.append_assoc, List.cons.injEq, true_and] at htext
          obtain ⟨herasure, hrest⟩ := takesOff_referenceType.unique htext
          rw [List.map_cons, List.map_cons, herasure]
          exact (List.prefix_cons_inj _).mpr (ih hrest)

/-- A text that can be read when it is cut short has the same bounds as the whole and the first few
of its thrown types. -/
theorem parse_cut {text cut : String} (hcut : cut.toList <+: text.toList)
    {signature shorter : MethodSignature} (htext : parse text = .ok signature)
    (hshorter : parse cut = .ok shorter) :
    shorter.bounds = signature.bounds ∧ shorter.thrown <+: signature.thrown := by
  obtain ⟨method, hmethod, rfl⟩ := (parse_eq_ok_iff ..).mp htext
  obtain ⟨cutMethod, hcutMethod, rfl⟩ := (parse_eq_ok_iff ..).mp hshorter
  obtain ⟨rest, hrest⟩ := hcut
  rw [← hmethod, ← hcutMethod, cutMethod.chars_eq, method.chars_eq, List.append_assoc] at hrest
  obtain ⟨hbounds, hthrown⟩ := takesOff_methodHead.unique hrest
  exact ⟨hbounds, isPrefix_erasures hthrown⟩

/-- A cut right behind a thrown type leaves the signature that throws the types before the cut. -/
theorem exists_cut {text : String} {signature : MethodSignature}
    (htext : parse text = .ok signature) {thrown : List Erasure}
    (hthrown : thrown <+: signature.thrown) :
    ∃ cut : String, cut.toList <+: text.toList ∧ parse cut = .ok { signature with thrown } := by
  obtain ⟨method, hmethod, rfl⟩ := (parse_eq_ok_iff ..).mp htext
  obtain ⟨types, ⟨others, htypes⟩, rfl⟩ := List.prefix_map_iff.mp hthrown
  let shorter : MethodSyntax := { method with thrown := types }
  refine ⟨String.ofList shorter.chars, ⟨MethodSyntax.thrownChars others, ?_⟩, ?_⟩
  · rw [String.toList_ofList, ← hmethod, shorter.chars_eq, method.chars_eq, List.append_assoc,
      ← htypes, MethodSyntax.thrownChars, MethodSyntax.thrownChars, ← List.flatMap_append]
    rfl
  · exact (parse_eq_ok_iff ..).mpr ⟨shorter, String.toList_ofList.symm, rfl⟩

end ExceptionFlow.Signature

namespace ExceptionFlow

open Signature

theorem MethodDecl.signatureThrows_of_parse {method : MethodDecl} {text : String}
    (hsignature : method.signature = some text) {signature : MethodSignature}
    (hparse : parse text = .ok signature) : method.signatureThrows = signature.throws := by
  rw [signatureThrows_eq hsignature, hparse]
  rfl

/-- What is left of the throws part of a signature when its text is cut short: never an entry that
was not there and never another order, but the first few entries, if any. Each number of them is
left by some cut. -/
theorem signatureThrows_cut (method : MethodDecl) (text : String)
    (hsignature : method.signature = some text)
    (haccepted : ∃ signature, parse text = .ok signature) :
    (∀ cut : String, cut.toList <+: text.toList →
        ({ method with signature := some cut } : MethodDecl).signatureThrows <+:
          method.signatureThrows) ∧
      ∀ names : List ClassName, names <+: method.signatureThrows →
        ∃ cut : String, cut.toList <+: text.toList ∧
          ({ method with signature := some cut } : MethodDecl).signatureThrows = names := by
  obtain ⟨signature, hparse⟩ := haccepted
  rw [MethodDecl.signatureThrows_of_parse hsignature hparse]
  constructor
  · intro cut hcut
    cases hshorter : parse cut with
    | error fault =>
        rw [MethodDecl.signatureThrows_eq rfl, hshorter]
        exact List.nil_prefix
    | ok shorter =>
        obtain ⟨hbounds, hthrown⟩ := parse_cut hcut hparse hshorter
        rw [MethodDecl.signatureThrows_of_parse rfl hshorter, MethodSignature.throws, hbounds]
        exact hthrown.filterMap _
  · intro names hnames
    obtain ⟨thrown, hthrown, rfl⟩ := List.prefix_filterMap_iff.mp hnames
    obtain ⟨cut, hcut, hshorter⟩ := exists_cut hparse hthrown
    exact ⟨cut, hcut, MethodDecl.signatureThrows_of_parse rfl hshorter⟩

/-- The signature with bounds up to its second thrown type. -/
def cutSignature : String :=
  "<A::Ljava/lang/Runnable;B:TC;C:Ljava/io/IOException;>()V^TA;^TB;"

theorem signatureThrows_cut_bounds :
    (∃ signature, parse boundedSignature = .ok signature) ∧
      cutSignature.toList <+: boundedSignature.toList ∧
      (signedMethod cutSignature).signatureThrows =
        [⟨"java.lang.Runnable"⟩, ⟨"java.io.IOException"⟩] ∧
      (signedMethod cutSignature).signatureThrows <+:
        (signedMethod boundedSignature).signatureThrows := by
  have haccepted : ∃ signature, parse boundedSignature = .ok signature := ⟨_, rfl⟩
  have hcut : cutSignature.toList <+: boundedSignature.toList := by decide +kernel
  exact ⟨haccepted, hcut, by decide +kernel,
    (signatureThrows_cut (signedMethod boundedSignature) boundedSignature rfl haccepted).1 _ hcut⟩

end ExceptionFlow

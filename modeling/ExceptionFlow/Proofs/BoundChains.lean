import ExceptionFlow.Proofs.SignatureReading
import Mathlib.Data.List.Chain
import Mathlib.Data.List.Perm.Subperm
import Mathlib.Logic.Relation
/-!
Type variables whose bounds are type variables. From a variable the bounds lead on from one to the
next until they come to a class, to an array or to a variable without bound, or they never end.
There are finitely many type parameters, so bounds that do not end come back to a variable. A
variable stands for a class exactly if the class is found by sixteen look-ups or fewer.
-/
namespace ExceptionFlow.Signature

/-- The variable that a bound consists of. -/
def Reference.variableName? : Reference → Option String
  | .typeVariable name => some name.text
  | _ => none

/-- The variable that is the bound of a variable, if that has a bound and it is one. -/
def nextVariable? (parameters : List TypeParameter) (name : String) : Option String :=
  (boundOf? parameters name).bind Reference.variableName?

/-- The first variable has the second for its bound. -/
def PointsTo (parameters : List TypeParameter) (name next : String) : Prop :=
  nextVariable? parameters name = some next

/-- Bounds are looked up from the variable on, each time that of the variable found before. The last
of the `lookups` comes to `found`, which is not a variable, or finds no bound. -/
inductive Leads (parameters : List TypeParameter) : Nat → String → Option Reference → Prop where
  | ends {name : String} (hend : nextVariable? parameters name = none) :
      Leads parameters 1 name (boundOf? parameters name)
  | passes {lookups : Nat} {name next : String} {found : Option Reference}
      (hnext : PointsTo parameters name next) (hfound : Leads parameters lookups next found) :
      Leads parameters (lookups + 1) name found

/-- Some variable that is met on the way is met again. -/
def Cyclic (parameters : List TypeParameter) (name : String) : Prop :=
  ∃ met, Relation.ReflTransGen (PointsTo parameters) name met ∧
    Relation.TransGen (PointsTo parameters) met met

variable {parameters : List TypeParameter} {lookups limit : Nat} {name next : String}
  {found : Option Reference}

theorem PointsTo.unique {other : String} (hnext : PointsTo parameters name next)
    (hother : PointsTo parameters name other) : next = other :=
  Option.some_inj.mp (hnext.symm.trans hother)

namespace Leads

theorem pos (hleads : Leads parameters lookups name found) : 0 < lookups := by
  cases hleads <;> omega

theorem iff_of_pointsTo (hnext : PointsTo parameters name next) :
    Leads parameters lookups name found ↔
      ∃ fewer, lookups = fewer + 1 ∧ Leads parameters fewer next found := by
  constructor
  · intro hleads
    cases hleads with
    | ends hend =>
        rw [PointsTo, hend] at hnext
        cases hnext
    | passes hother hfound =>
        rw [hnext.unique hother]
        exact ⟨_, rfl, hfound⟩
  · rintro ⟨fewer, rfl, hfound⟩
    exact .passes hnext hfound

theorem iff_of_end (hend : nextVariable? parameters name = none) :
    Leads parameters lookups name found ↔ lookups = 1 ∧ found = boundOf? parameters name := by
  constructor
  · intro hleads
    cases hleads with
    | ends => exact ⟨rfl, rfl⟩
    | passes hnext =>
        rw [PointsTo, hend] at hnext
        cases hnext
  · rintro ⟨rfl, rfl⟩
    exact .ends hend

theorem unique {others : Nat} {other : Option Reference}
    (hleads : Leads parameters lookups name found) (hothers : Leads parameters others name other) :
    lookups = others ∧ found = other := by
  induction hleads generalizing others with
  | ends hend =>
      obtain ⟨rfl, rfl⟩ := (iff_of_end hend).mp hothers
      exact ⟨rfl, rfl⟩
  | passes hnext _ ih =>
      obtain ⟨fewer, rfl, hfewer⟩ := (iff_of_pointsTo hnext).mp hothers
      obtain ⟨rfl, rfl⟩ := ih hfewer
      exact ⟨rfl, rfl⟩

/-- What bounds lead to is never one more variable. -/
theorem found_ne_variable (hleads : Leads parameters lookups name found) (other : Name [';']) :
    found ≠ some (.typeVariable other) := by
  induction hleads with
  | ends hend =>
      intro hbound
      rw [nextVariable?, hbound] at hend
      cases hend
  | passes _ _ ih => exact ih

end Leads

theorem Cyclic.of_pointsTo (hcyclic : Cyclic parameters name)
    (hnext : PointsTo parameters name next) : Cyclic parameters next := by
  obtain ⟨met, hmet, hagain⟩ := hcyclic
  rcases hmet.cases_head with rfl | ⟨second, hsecond, hmet⟩
  · obtain ⟨second, hsecond, hback⟩ := Relation.TransGen.head'_iff.mp hagain
    rw [hnext.unique hsecond]
    exact ⟨name, hback, hagain⟩
  · rw [hnext.unique hsecond]
    exact ⟨met, hmet, hagain⟩

theorem Cyclic.exists_next (hcyclic : Cyclic parameters name) :
    ∃ next, PointsTo parameters name next := by
  obtain ⟨met, hmet, hagain⟩ := hcyclic
  rcases hmet.cases_head with rfl | ⟨second, hsecond, -⟩
  · obtain ⟨second, hsecond, -⟩ := Relation.TransGen.head'_iff.mp hagain
    exact ⟨second, hsecond⟩
  · exact ⟨second, hsecond⟩

theorem Leads.not_cyclic (hleads : Leads parameters lookups name found) :
    ¬ Cyclic parameters name := by
  induction hleads with
  | ends hend =>
      intro hcyclic
      obtain ⟨next, hnext⟩ := hcyclic.exists_next
      rw [PointsTo, hend] at hnext
      cases hnext
  | passes hnext _ ih => exact fun hcyclic => ih (hcyclic.of_pointsTo hnext)

theorem PointsTo.mem_names (hnext : PointsTo parameters name next) :
    name ∈ parameters.map (·.name.text) := by
  obtain ⟨bound, hbound, -⟩ := Option.bind_eq_some_iff.mp hnext
  obtain ⟨parameter, hparameter, -⟩ := List.exists_of_findSome?_eq_some hbound
  simp only [List.mem_filter, List.mem_reverse, decide_eq_true_eq] at hparameter
  exact List.mem_map.mpr ⟨parameter, hparameter⟩

theorem exists_pointsTo_of_endless
    (hendless : ∀ lookups found, ¬ Leads parameters lookups name found) :
    ∃ next, PointsTo parameters name next := by
  cases hend : nextVariable? parameters name with
  | none => exact absurd (.ends hend) (hendless 1 _)
  | some next => exact ⟨next, hend⟩

/-- Bounds that do not end can be followed as far as one likes. -/
theorem exists_chain (hendless : ∀ lookups found, ¬ Leads parameters lookups name found)
    (length : Nat) :
    ∃ passed : List String, passed.length = length ∧
      (name :: passed).IsChain (PointsTo parameters) ∧
      ∀ other ∈ name :: passed, ∃ next, PointsTo parameters other next := by
  induction length generalizing name with
  | zero =>
      obtain ⟨next, hnext⟩ := exists_pointsTo_of_endless hendless
      exact ⟨[], rfl, List.isChain_singleton _, by simpa using ⟨next, hnext⟩⟩
  | succ length ih =>
      obtain ⟨next, hnext⟩ := exists_pointsTo_of_endless hendless
      obtain ⟨passed, rfl, hchain, hpassed⟩ :=
        ih fun lookups found hfound => hendless _ found (.passes hnext hfound)
      exact ⟨next :: passed, rfl, List.isChain_cons_cons.mpr ⟨hnext, hchain⟩,
        List.forall_mem_cons.mpr ⟨⟨next, hnext⟩, hpassed⟩⟩

/-- Bounds end or come back to a variable, since a chain of variables that is longer than the list
of type parameters has one of them twice. -/
theorem exists_leads_or_cyclic (parameters : List TypeParameter) (name : String) :
    (∃ lookups found, Leads parameters lookups name found) ∨ Cyclic parameters name := by
  by_contra hneither
  obtain ⟨hendless, hacyclic⟩ := not_or.mp hneither
  obtain ⟨passed, hlength, hchain, hpassed⟩ :=
    exists_chain (fun lookups found hleads => hendless ⟨lookups, found, hleads⟩) parameters.length
  have hpairs : (name :: passed).Pairwise (Relation.TransGen (PointsTo parameters)) :=
    (hchain.imp fun _ _ => Relation.TransGen.single).pairwise
  have hreached : ∀ other ∈ name :: passed,
      Relation.ReflTransGen (PointsTo parameters) name other := by
    rw [List.forall_mem_cons]
    refine ⟨.refl, fun other hother => ?_⟩
    exact ((List.pairwise_cons.mp hpairs).1 other hother).to_reflTransGen
  have hnodup : (name :: passed).Nodup := by
    refine hpairs.imp_of_mem fun {first second} hfirst _ hagain heq => ?_
    exact hacyclic ⟨first, hreached first hfirst, heq ▸ hagain⟩
  have hsubset : name :: passed ⊆ parameters.map (·.name.text) := by
    intro other hother
    obtain ⟨next, hnext⟩ := hpassed other hother
    exact hnext.mem_names
  have hshort := (List.subperm_of_subset hnodup hsubset).length_le
  rw [List.length_cons, hlength, List.length_map] at hshort
  omega

theorem classOf?_variable_iff (parameters : List TypeParameter) (limit : Nat) (name : String)
    (cls : ClassName) :
    (boundsOf parameters).classOf? limit (.variable name) = some cls ↔
      ∃ lookups ≤ limit, ∃ outer inner,
        Leads parameters lookups name (some (.named outer inner)) ∧
          className outer inner = cls := by
  induction limit generalizing name with
  | zero =>
      constructor
      · rintro ⟨⟩
      · rintro ⟨lookups, hlookups, outer, inner, hleads, -⟩
        have := hleads.pos
        omega
  | succ limit ih =>
      rw [Bounds.classOf?, lookup_boundsOf]
      -- the first look-up is the last, or another variable is left with one look-up less
      cases hnext : nextVariable? parameters name with
      | none =>
          simp only [Leads.iff_of_end hnext]
          cases hbound : boundOf? parameters name with
          | none => simp
          | some bound =>
              cases bound with
              | named outer inner => simp [Reference.erasure, Bounds.classOf?]
              | typeVariable other => simp [nextVariable?, hbound, Reference.variableName?] at hnext
              | array element => simp [Reference.erasure, Bounds.classOf?]
      | some next =>
          obtain ⟨bound, hbound, hvariable⟩ := Option.bind_eq_some_iff.mp hnext
          have herasure : bound.erasure = .variable next := by
            cases bound <;> simp_all [Reference.variableName?, Reference.erasure]
          simp only [hbound, Option.map_some, herasure, ih, Leads.iff_of_pointsTo hnext]
          constructor
          · rintro ⟨lookups, hlookups, outer, inner, hleads, hcls⟩
            exact ⟨lookups + 1, by omega, outer, inner, ⟨lookups, rfl, hleads⟩, hcls⟩
          · rintro ⟨_, hlookups, outer, inner, ⟨lookups, rfl, hleads⟩, hcls⟩
            exact ⟨lookups, by omega, outer, inner, hleads, hcls⟩

/-- There are four ways to find nothing. -/
theorem classOf?_variable_eq_none_iff (parameters : List TypeParameter) (limit : Nat)
    (name : String) :
    (boundsOf parameters).classOf? limit (.variable name) = none ↔
      (∃ lookups, Leads parameters lookups name none) ∨
      (∃ lookups element, Leads parameters lookups name (some (.array element))) ∨
      Cyclic parameters name ∨
      ∃ lookups > limit, ∃ outer inner,
        Leads parameters lookups name (some (.named outer inner)) := by
  rw [Option.eq_none_iff_forall_ne_some]
  simp only [ne_eq, classOf?_variable_iff]
  constructor
  · intro hnothing
    rcases exists_leads_or_cyclic parameters name with ⟨lookups, found, hleads⟩ | hcyclic
    · cases found with
      | none => exact Or.inl ⟨lookups, hleads⟩
      | some bound =>
          cases bound with
          | named outer inner =>
              have hbeyond : limit < lookups := by
                by_contra hwithin
                exact hnothing _ ⟨lookups, by omega, outer, inner, hleads, rfl⟩
              exact Or.inr (Or.inr (Or.inr ⟨lookups, hbeyond, outer, inner, hleads⟩))
          | typeVariable other => exact absurd rfl (hleads.found_ne_variable other)
          | array element => exact Or.inr (Or.inl ⟨lookups, element, hleads⟩)
    · exact Or.inr (Or.inr (Or.inl hcyclic))
  · rintro hnowhere cls ⟨within, hwithin, outer, inner, hnamed, -⟩
    rcases hnowhere with ⟨_, hleads⟩ | ⟨_, _, hleads⟩ | hcyclic | ⟨_, hbeyond, _, _, hleads⟩
    · cases (hleads.unique hnamed).2
    · cases (hleads.unique hnamed).2
    · exact hnamed.not_cyclic hcyclic
    · have hsame := (hleads.unique hnamed).1
      omega

/-- A type variable of a signature that is read stands for the class that its bounds lead to by
sixteen look-ups or fewer. It stands for nothing exactly if the bounds lead to a variable without
bound, to an array, round in a circle, or to a class by more look-ups. -/
theorem classOf?_followsBounds (text : String) (signature : MethodSignature)
    (hread : parse text = .ok signature) :
    (∃ tree : MethodSyntax, tree.chars = text.toList) ∧
      ∀ tree : MethodSyntax, tree.chars = text.toList → ∀ name : String,
        (∀ cls, signature.bounds.classOf? boundChainLimit (.variable name) = some cls ↔
          ∃ lookups ≤ 16, ∃ outer inner,
            Leads tree.typeParameterList lookups name (some (.named outer inner)) ∧
              className outer inner = cls) ∧
        (signature.bounds.classOf? boundChainLimit (.variable name) = none ↔
          (∃ lookups, Leads tree.typeParameterList lookups name none) ∨
          (∃ lookups element, Leads tree.typeParameterList lookups name (some (.array element))) ∨
          Cyclic tree.typeParameterList name ∨
          ∃ lookups > 16, ∃ outer inner,
            Leads tree.typeParameterList lookups name (some (.named outer inner))) := by
  constructor
  · obtain ⟨tree, hchars, -⟩ := (parse_eq_ok_iff text signature).mp hread
    exact ⟨tree, hchars⟩
  · intro tree hchars name
    -- whichever tree is written so, its type parameters have the bounds that were read
    have hbounds : signature.bounds = boundsOf tree.typeParameterList := by
      rw [(parse_eq_ok_iff text tree.signature).mpr ⟨tree, hchars, rfl⟩, Except.ok.injEq] at hread
      rw [← hread, MethodSyntax.signature]
    rw [hbounds]
    exact ⟨classOf?_variable_iff _ _ name, classOf?_variable_eq_none_iff _ _ name⟩

/-- The bounds of `B` lead to the class by sixteen look-ups, those of `A` by one more, and those of
`R` go round in a circle. -/
def chainedSignature : String :=
  "<A:TB;B:TC;C:TD;D:TE;E:TF;F:TG;G:TH;H:TI;I:TJ;J:TK;K:TL;L:TM;M:TN;N:TO;O:TP;P:TQ;Q:La/X;" ++
    "R:TS;S:TR;>()V^TA;^TB;^TR;"

theorem classOf?_followsBounds_chained :
    ∃ tree : MethodSyntax, tree.chars = chainedSignature.toList ∧
      (∃ lookups ≤ 16, ∃ outer inner,
        Leads tree.typeParameterList lookups "B" (some (.named outer inner)) ∧
          className outer inner = ⟨"a.X"⟩) ∧
      ∀ name ∈ ["A", "R"], ¬ ∃ lookups ≤ 16, ∃ outer inner,
        Leads tree.typeParameterList lookups name (some (.named outer inner)) := by
  have hclasses : (parse chainedSignature).toOption.map (fun signature =>
      ["A", "B", "R"].map fun name => signature.bounds.classOf? boundChainLimit (.variable name)) =
        some [none, some ⟨"a.X"⟩, none] := by
    decide +kernel
  obtain ⟨signature, hread⟩ : ∃ signature, parse chainedSignature = .ok signature := by
    cases hread : parse chainedSignature with
    | error fault => rw [hread] at hclasses; cases hclasses
    | ok signature => exact ⟨signature, rfl⟩
  rw [hread] at hclasses
  simp only [Except.toOption, Option.map_some, List.map_cons, List.map_nil, Option.some.injEq,
    List.cons.injEq, and_true] at hclasses
  obtain ⟨hbeyond, hwithin, hcircle⟩ := hclasses
  obtain ⟨⟨tree, hchars⟩, hfollows⟩ := classOf?_followsBounds chainedSignature signature hread
  have hnothing : ∀ name, signature.bounds.classOf? boundChainLimit (.variable name) = none →
      ¬ ∃ lookups ≤ 16, ∃ outer inner,
        Leads tree.typeParameterList lookups name (some (.named outer inner)) := by
    rintro name hnone ⟨lookups, hlookups, outer, inner, hleads⟩
    have hsome := ((hfollows tree hchars name).1 _).mpr
      ⟨lookups, hlookups, outer, inner, hleads, rfl⟩
    rw [hnone] at hsome
    cases hsome
  refine ⟨tree, hchars, ((hfollows tree hchars "B").1 _).mp hwithin, ?_⟩
  intro name hname
  rcases List.mem_pair.mp hname with rfl | rfl
  · exact hnothing "A" hbeyond
  · exact hnothing "R" hcircle

end ExceptionFlow.Signature

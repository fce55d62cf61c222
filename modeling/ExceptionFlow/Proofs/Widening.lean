import ExceptionFlow.Proofs.MissingClasses
/-!
More classes than before. A search that comes to an answer has asked for classes that are there, and
it finds the same ones in every source that has more, so it takes the same way to the same answer.
-/
namespace ExceptionFlow

variable {source wider : ClassSource}

namespace Lineage

theorem Climbed.of_within (h : source.Within wider) {memo : Memo} {budget : Nat}
    {seen names : List ClassName} {cls : ClassDecl}
    (hclimbed : Climbed source memo budget seen cls names) :
    Climbed wider memo budget seen cls names := by
  induction hclimbed with
  | root hparent => exact .root hparent
  | known hparent hseen hknown => exact .known hparent hseen hknown
  | passed hparent hseen hunknown hnext _ ih =>
      exact .passed hparent hseen hunknown (h _ _ hnext) ih

theorem find_of_within (h : source.Within wider) {memo : Memo} {limit : Nat} {name : ClassName}
    {lineage : Lineage} (hfind : find source memo limit name = .ok lineage) :
    find wider memo limit name = .ok lineage := by
  rw [find_eq_ok_iff_climb] at hfind ⊢
  obtain ⟨hname, cls, hcls, hclimb⟩ := hfind
  have hclimbed := (climbed_of_climb hclimb).of_within h
  exact ⟨hname, cls, h name cls hcls, hclimbed.climb_eq limit⟩

end Lineage

/-- A class that resolves does so alike with more classes, down to what is logged and kept. -/
theorem Context.resolve_of_within {context : Context} (h : context.source.Within wider)
    {memo : Memo} {name : ClassName} {lineage : Lineage}
    (hresolved : ((context.resolve name).run memo).value = .ok lineage) :
    (({ context with source := wider } : Context).resolve name).run memo =
      (context.resolve name).run memo := by
  have hcase := context.resolve_cases memo name
  generalize (context.resolve name).run memo = outcome at hcase hresolved ⊢
  have hmode : ({ context with source := wider } : Context).usesHierarchy =
      context.usesHierarchy := rfl
  cases hcase with
  | textual htextual => exact run_resolve_textual (hmode.trans htextual) memo name
  | known hhierarchy hknown => simp [resolve, hmode, hhierarchy, hknown]
  | found hhierarchy hunknown hfind =>
      simp [resolve, hmode, hhierarchy, hunknown, findLineage, Lineage.find_of_within h hfind]
  | refused => cases hresolved

theorem Classpath.within_insert {classpath : Classpath} {cls : ClassDecl}
    (hnew : classpath.contains cls.name = false) :
    classpath.lookup.Within (classpath.insert cls).lookup := by
  intro name found hfound
  rw [lookup_eq_ok_iff] at hfound ⊢
  have hname : cls.name ≠ name := by
    rintro rfl
    simp [contains, hfound] at hnew
  rw [find?_insert, if_neg hname, hfound]

/-- With more classes, every call that came to a declaration or to none comes to the same, and every
class that resolved has the same lineage. -/
theorem answers_widened (context : Context) (wider : ClassSource)
    (h : context.source.Within wider) :
    (∀ target dispatch result, Callee.resolve context.source target dispatch = .ok result →
        Callee.resolve wider target dispatch = .ok result) ∧
      ∀ name memo lineage, ((context.resolve name).run memo).value = .ok lineage →
        (({ context with source := wider } : Context).resolve name).run memo =
          (context.resolve name).run memo :=
  ⟨fun _ _ _ => Callee.resolve_of_within h, fun _ _ _ => Context.resolve_of_within h⟩

/-- A service whose method is declared by its superclass. Its interface is not there. -/
def serviceClasses : Classpath :=
  (Classpath.javaLang.insert
    { name := ⟨"a.Base"⟩
      parent := some .object
      methods := [{ name := "open", descriptor := "()V" }] }).insert
    { name := ⟨"a.Service"⟩, parent := some ⟨"a.Base"⟩, interfaces := [⟨"a.Plugin"⟩] }

/-- The interface, which declares the method as well. -/
def pluginInterface : ClassDecl :=
  { name := ⟨"a.Plugin"⟩
    methods := [{ name := "open", descriptor := "()V", exceptions := [.exception] }] }

def serviceContext : Context :=
  .new {} serviceClasses.lookup fun _ => .ok ()

theorem answers_widened_plugin :
    let wider := (serviceClasses.insert pluginInterface).lookup
    let call : CallTarget := ⟨⟨"a.Service"⟩, "open", "()V"⟩
    let found : Callee := ⟨⟨"a.Base"⟩, { name := "open", descriptor := "()V" }⟩
    serviceContext.source.Within wider ∧
      Callee.resolve serviceContext.source call .virtual = .ok (some found) ∧
      Callee.resolve wider call .virtual = .ok (some found) ∧
      ((serviceContext.resolve .error).run {}).value =
        .ok (.ofAncestors .error [.throwable, .object]) ∧
      (({ serviceContext with source := wider } : Context).resolve .error).run {} =
        (serviceContext.resolve .error).run {} := by
  intro wider call found
  have hwithin : serviceContext.source.Within wider := Classpath.within_insert (by decide)
  obtain ⟨hcalls, hclasses⟩ := answers_widened serviceContext wider hwithin
  exact ⟨hwithin, rfl, hcalls call .virtual _ rfl, rfl, hclasses .error {} _ rfl⟩

end ExceptionFlow

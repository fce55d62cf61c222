import ExceptionFlow.Lineage
/-!
The superclasses of a class up to one that has none. A lineage is found exactly when they end in
time: within the limit, or at a class whose lineage is known already.
-/
namespace ExceptionFlow

/-- `above` are the superclasses of `name` from the nearest one up to a class without superclass. -/
inductive Ascent (source : ClassSource) : (name : ClassName) → (above : List ClassName) → Prop where
  | root {name : ClassName} {cls : ClassDecl} (hcls : source name = .ok cls)
      (hparent : cls.parent = none) : Ascent source name []
  | step {name parent : ClassName} {cls : ClassDecl} {above : List ClassName}
      (hcls : source name = .ok cls) (hparent : cls.parent = some parent)
      (habove : Ascent source parent above) : Ascent source name (parent :: above)

namespace Ascent

variable {source : ClassSource} {name : ClassName} {above : List ClassName}

theorem exists_class (h : Ascent source name above) : ∃ cls, source name = .ok cls := by
  cases h with
  | root hcls _ => exact ⟨_, hcls⟩
  | step hcls _ _ => exact ⟨_, hcls⟩

theorem nil_iff {cls : ClassDecl} (hcls : source name = .ok cls) (hparent : cls.parent = none) :
    Ascent source name above ↔ above = [] := by
  constructor
  · intro h
    cases h with
    | root => rfl
    | step hother hsome _ =>
        rw [hcls] at hother
        cases hother
        rw [hparent] at hsome
        cases hsome
  · rintro rfl
    exact .root hcls hparent

theorem cons_iff {parent : ClassName} {cls : ClassDecl} (hcls : source name = .ok cls)
    (hparent : cls.parent = some parent) :
    Ascent source name above ↔ ∃ rest, Ascent source parent rest ∧ above = parent :: rest := by
  constructor
  · intro h
    cases h with
    | root hother hnone =>
        rw [hcls] at hother
        cases hother
        rw [hparent] at hnone
        cases hnone
    | step hother hsome hrest =>
        rw [hcls] at hother
        cases hother
        rw [hparent] at hsome
        cases hsome
        exact ⟨_, hrest, rfl⟩
  · rintro ⟨rest, hrest, rfl⟩
    exact .step hcls hparent hrest

theorem unique {first second : List ClassName} (hfirst : Ascent source name first)
    (hsecond : Ascent source name second) : first = second := by
  induction hfirst generalizing second with
  | root hcls hparent => exact ((nil_iff hcls hparent).mp hsecond).symm
  | step hcls hparent _ ih =>
      obtain ⟨rest, hrest, rfl⟩ := (cons_iff hcls hparent).mp hsecond
      rw [ih hrest]

theorem of_append {before after : List ClassName} {ancestor : ClassName}
    (h : Ascent source name (before ++ ancestor :: after)) : Ascent source ancestor after := by
  induction before generalizing name with
  | nil =>
      cases h with
      | step _ _ hrest => exact hrest
  | cons first before ih =>
      cases h with
      | step _ _ hrest => exact ih hrest

theorem exists_class_of_mem (h : Ascent source name above) {other : ClassName}
    (hother : other ∈ name :: above) : ∃ cls, source other = .ok cls := by
  rcases List.mem_cons.mp hother with rfl | hother
  · exact h.exists_class
  · obtain ⟨before, after, rfl⟩ := List.append_of_mem hother
    exact h.of_append.exists_class

theorem not_mem (h : Ascent source name above) : name ∉ above := by
  intro hmem
  obtain ⟨before, after, hsplit⟩ := List.append_of_mem hmem
  have hafter : Ascent source name after := of_append (hsplit ▸ h)
  have hlength := congrArg List.length (h.unique hafter)
  rw [hsplit, List.length_append, List.length_cons] at hlength
  omega

theorem nodup (h : Ascent source name above) : (name :: above).Nodup := by
  induction h with
  | root => simp
  | step hcls hparent hrest ih =>
      exact List.nodup_cons.mpr ⟨(step hcls hparent hrest).not_mem, ih⟩

end Ascent

namespace Memo

/-- A lineage is kept under the name. -/
def Knows (memo : Memo) (name : ClassName) : Prop :=
  (memo.find? name).isSome

instance (memo : Memo) (name : ClassName) : Decidable (memo.Knows name) :=
  inferInstanceAs (Decidable ((memo.find? name).isSome))

/-- Every lineage kept is that of the class it is kept for. -/
def Faithful (memo : Memo) (source : ClassSource) : Prop :=
  ∀ name lineage, memo.find? name = some lineage →
    ∃ above, Ascent source name above ∧ lineage = .ofAncestors name above

@[simp]
theorem not_knows_empty (name : ClassName) : ¬ ({} : Memo).Knows name := by
  simp [Knows, find?]

theorem knows_insert (memo : Memo) (lineage : Lineage) (other : ClassName) :
    (memo.insert lineage).Knows other ↔ memo.Knows other ∨ other = lineage.name := by
  unfold Knows
  rw [find?_insert]
  by_cases heq : other = lineage.name <;> simp [heq]

end Memo

namespace Lineage

/-- The superclasses end in time: within the budget, or at a class the memo knows. -/
def EndsWithin (memo : Memo) (budget : Nat) (above : List ClassName) : Prop :=
  above.length ≤ budget ∨ ∃ known ∈ above.take budget, memo.Knows known

theorem endsWithin_nil (memo : Memo) (budget : Nat) : EndsWithin memo budget [] :=
  Or.inl (Nat.zero_le budget)

theorem not_endsWithin_zero_cons (memo : Memo) (parent : ClassName) (above : List ClassName) :
    ¬ EndsWithin memo 0 (parent :: above) := by
  simp [EndsWithin]

theorem EndsWithin.nil_or_pos {memo : Memo} {budget : Nat} {above : List ClassName}
    (h : EndsWithin memo budget above) : above = [] ∨ 0 < budget := by
  cases budget with
  | succ budget => exact Or.inr budget.succ_pos
  | zero =>
      cases above with
      | nil => exact Or.inl rfl
      | cons parent above => exact absurd h (not_endsWithin_zero_cons memo parent above)

theorem endsWithin_succ_cons (memo : Memo) (budget : Nat) (parent : ClassName)
    (above : List ClassName) :
    EndsWithin memo (budget + 1) (parent :: above) ↔
      memo.Knows parent ∨ EndsWithin memo budget above := by
  simp only [EndsWithin, List.length_cons, Nat.add_le_add_iff_right, List.take_succ_cons,
    List.mem_cons, exists_eq_or_imp]
  exact or_left_comm

@[simp]
theorem endsWithin_empty (budget : Nat) (above : List ClassName) :
    EndsWithin {} budget above ↔ above.length ≤ budget := by
  simp [EndsWithin]

variable {source : ClassSource} {memo : Memo}

section Climb

variable {limit budget : Nat} {seen : List ClassName} {cls : ClassDecl} {parent : ClassName}

theorem climb_root (hparent : cls.parent = none) :
    climb source memo limit budget seen cls = .ok seen := by
  unfold climb
  rw [hparent]

theorem climb_zero (hparent : cls.parent = some parent) :
    climb source memo limit 0 seen cls = .error (.recursionLimit limit) := by
  unfold climb
  rw [hparent]

theorem climb_cycle (hparent : cls.parent = some parent) (hseen : parent ∈ seen) :
    climb source memo limit budget seen cls = .error (.recursionLimit limit) := by
  cases budget with
  | zero => exact climb_zero hparent
  | succ budget =>
      unfold climb
      simp only [hparent, if_pos hseen]

theorem climb_known (hparent : cls.parent = some parent) (hseen : parent ∉ seen)
    {known : Lineage} (hknown : memo.find? parent = some known) :
    climb source memo limit (budget + 1) seen cls =
      .ok (seen ++ parent :: known.ancestors.filter fun name => name ≠ parent ∧ name ∉ seen) := by
  unfold climb
  simp only [hparent, if_neg hseen, hknown]

theorem climb_unknown (hparent : cls.parent = some parent) (hseen : parent ∉ seen)
    (hunknown : memo.find? parent = none) :
    climb source memo limit (budget + 1) seen cls =
      source parent >>= climb source memo limit budget (seen ++ [parent]) := by
  unfold climb
  simp only [hparent, if_neg hseen, hunknown]

end Climb

/-- The way of a climb that comes back: it ends at a root or at a class of the memo, and it asks for
every class that it passes. -/
inductive Climbed (source : ClassSource) (memo : Memo) :
    Nat → List ClassName → ClassDecl → List ClassName → Prop where
  | root {budget : Nat} {seen : List ClassName} {cls : ClassDecl} (hparent : cls.parent = none) :
      Climbed source memo budget seen cls seen
  | known {budget : Nat} {seen : List ClassName} {cls : ClassDecl} {parent : ClassName}
      {known : Lineage} (hparent : cls.parent = some parent) (hseen : parent ∉ seen)
      (hknown : memo.find? parent = some known) :
      Climbed source memo (budget + 1) seen cls
        (seen ++ parent :: known.ancestors.filter fun name => name ≠ parent ∧ name ∉ seen)
  | passed {budget : Nat} {seen names : List ClassName} {cls next : ClassDecl}
      {parent : ClassName} (hparent : cls.parent = some parent) (hseen : parent ∉ seen)
      (hunknown : memo.find? parent = none) (hnext : source parent = .ok next)
      (hrest : Climbed source memo budget (seen ++ [parent]) next names) :
      Climbed source memo (budget + 1) seen cls names

theorem climbed_of_climb {limit budget : Nat} {seen names : List ClassName} {cls : ClassDecl}
    (hclimb : climb source memo limit budget seen cls = .ok names) :
    Climbed source memo budget seen cls names := by
  induction budget generalizing seen cls with
  | zero =>
      cases hparent : cls.parent with
      | none =>
          rw [climb_root hparent] at hclimb
          cases hclimb
          exact .root hparent
      | some parent =>
          rw [climb_zero hparent] at hclimb
          cases hclimb
  | succ budget ih =>
      cases hparent : cls.parent with
      | none =>
          rw [climb_root hparent] at hclimb
          cases hclimb
          exact .root hparent
      | some parent =>
          by_cases hseen : parent ∈ seen
          · rw [climb_cycle hparent hseen] at hclimb
            cases hclimb
          · cases hfind : memo.find? parent with
            | some known =>
                rw [climb_known hparent hseen hfind] at hclimb
                cases hclimb
                exact .known hparent hseen hfind
            | none =>
                rw [climb_unknown hparent hseen hfind] at hclimb
                cases hnext : source parent with
                | error failure =>
                    rw [hnext] at hclimb
                    cases hclimb
                | ok next =>
                    rw [hnext] at hclimb
                    exact .passed hparent hseen hfind hnext (ih hclimb)

theorem Climbed.climb_eq {budget : Nat} {seen names : List ClassName} {cls : ClassDecl}
    (h : Climbed source memo budget seen cls names) (limit : Nat) :
    climb source memo limit budget seen cls = .ok names := by
  induction h with
  | root hparent => exact climb_root hparent
  | known hparent hseen hknown => exact climb_known hparent hseen hknown
  | passed hparent hseen hunknown hnext _ ih =>
      rw [climb_unknown hparent hseen hunknown, hnext]
      exact ih

theorem filter_known {parent : ClassName} {seen rest : List ClassName}
    (hrest : Ascent source parent rest) (hseen : ∀ other ∈ rest, other ∉ seen) :
    ((ofAncestors parent rest).ancestors.filter fun name => name ≠ parent ∧ name ∉ seen) =
      rest := by
  rw [ancestors_ofAncestors hrest.nodup, List.filter_cons_of_neg (by simp)]
  apply List.filter_eq_self.mpr
  intro other hother
  have hne : other ≠ parent := fun heq => hrest.not_mem (heq ▸ hother)
  simp [hne, hseen other hother]

/-- No name passed before lies above the class, else a climb would take it for a cycle. -/
def Apart (source : ClassSource) (name : ClassName) (seen : List ClassName) : Prop :=
  ∀ above, Ascent source name above → ∀ other ∈ above, other ∉ seen

namespace Apart

variable {name parent : ClassName} {cls : ClassDecl} {seen : List ClassName}

theorem beyond (h : Apart source name seen) (hcls : source name = .ok cls)
    (hparent : cls.parent = some parent) {rest : List ClassName}
    (hrest : Ascent source parent rest) : parent ∉ seen ∧ ∀ other ∈ rest, other ∉ seen :=
  List.forall_mem_cons.mp (h _ (.step hcls hparent hrest))

theorem step (h : Apart source name seen) (hcls : source name = .ok cls)
    (hparent : cls.parent = some parent) : Apart source parent (seen ++ [parent]) := by
  intro rest hrest other hother
  rw [List.mem_append, List.mem_singleton]
  rintro (hbefore | rfl)
  · exact (h.beyond hcls hparent hrest).2 other hother hbefore
  · exact hrest.not_mem hother

end Apart

section Climbing

variable {budget : Nat} {name : ClassName} {cls : ClassDecl} {seen names above : List ClassName}

theorem Climbed.exists_ascent (hmemo : memo.Faithful source)
    (h : Climbed source memo budget seen cls names) (hcls : source name = .ok cls)
    (hapart : Apart source name seen) :
    ∃ above, Ascent source name above ∧ EndsWithin memo budget above ∧ names = seen ++ above := by
  induction h generalizing name with
  | root hparent =>
      exact ⟨[], .root hcls hparent, endsWithin_nil _ _, (List.append_nil _).symm⟩
  | @known budget seen cls parent known hparent _ hknown =>
      obtain ⟨rest, hrest, rfl⟩ := hmemo parent known hknown
      have hknows : memo.Knows parent := by simp [Memo.Knows, hknown]
      rw [filter_known hrest (hapart.beyond hcls hparent hrest).2]
      exact ⟨parent :: rest, .step hcls hparent hrest,
        (endsWithin_succ_cons memo budget parent rest).mpr (Or.inl hknows), rfl⟩
  | @passed budget seen names cls next parent hparent _ _ hnext _ ih =>
      obtain ⟨rest, hrest, hends, rfl⟩ := ih hnext (hapart.step hcls hparent)
      exact ⟨parent :: rest, .step hcls hparent hrest,
        (endsWithin_succ_cons memo budget parent rest).mpr (Or.inr hends), by simp⟩

theorem climbed_of_ascent (hmemo : memo.Faithful source) (h : Ascent source name above)
    (hcls : source name = .ok cls) (hapart : Apart source name seen)
    (hends : EndsWithin memo budget above) :
    Climbed source memo budget seen cls (seen ++ above) := by
  induction h generalizing budget seen cls with
  | root hother hparent =>
      obtain rfl := Except.ok.inj (hcls.symm.trans hother)
      rw [List.append_nil]
      exact .root hparent
  | @step name parent _ rest hother hparent hrest ih =>
      obtain rfl := Except.ok.inj (hcls.symm.trans hother)
      obtain ⟨hnew, hbeyond⟩ := hapart.beyond hcls hparent hrest
      cases budget with
      | zero => exact absurd hends (not_endsWithin_zero_cons memo parent rest)
      | succ budget =>
          cases hfind : memo.find? parent with
          | some known =>
              obtain ⟨others, hothers, rfl⟩ := hmemo parent known hfind
              obtain rfl := hothers.unique hrest
              rw [← filter_known hothers hbeyond]
              exact .known hparent hnew hfind
          | none =>
              have hunknown : ¬ memo.Knows parent := by simp [Memo.Knows, hfind]
              have hlater := ((endsWithin_succ_cons memo budget parent rest).mp hends).resolve_left
                hunknown
              obtain ⟨next, hnext⟩ := hrest.exists_class
              have hclimbed := ih hnext (hapart.step hcls hparent) hlater
              rw [List.append_assoc, List.singleton_append] at hclimbed
              exact .passed hparent hnew hfind hnext hclimbed

/-- The climb comes back exactly with the superclasses that end in time. -/
theorem climb_eq_ok_iff (hmemo : memo.Faithful source) (limit : Nat) (hcls : source name = .ok cls)
    (hapart : Apart source name seen) :
    climb source memo limit budget seen cls = .ok names ↔
      ∃ above, Ascent source name above ∧ EndsWithin memo budget above ∧ names = seen ++ above := by
  constructor
  · intro hclimb
    exact (climbed_of_climb hclimb).exists_ascent hmemo hcls hapart
  · rintro ⟨above, habove, hends, rfl⟩
    exact (climbed_of_ascent hmemo habove hcls hapart hends).climb_eq limit

end Climbing

theorem find_eq_ok_iff_climb (source : ClassSource) (memo : Memo) (limit : Nat) (name : ClassName)
    (lineage : Lineage) :
    find source memo limit name = .ok lineage ↔
      lineage.name = name ∧ ∃ cls, source name = .ok cls ∧
        climb source memo limit limit [name] cls = .ok lineage.ancestors := by
  have hmap := map_find source memo limit name
  cases hcls : source name with
  | error failure =>
      rw [hcls] at hmap
      cases hfind : find source memo limit name with
      | error failure => simp
      | ok found =>
          rw [hfind] at hmap
          cases hmap
  | ok cls =>
      rw [hcls] at hmap
      change _ = climb source memo limit limit [name] cls at hmap
      simp only [Except.ok.injEq, exists_eq_left', ← hmap]
      cases hfind : find source memo limit name with
      | error failure => simp [Except.map]
      | ok found =>
          have hname := name_of_find hfind
          simp only [Except.map, Except.ok.injEq, Lineage.ext_iff, hname]
          exact and_congr_left' eq_comm

theorem find_eq_error_iff_climb (source : ClassSource) (memo : Memo) (limit : Nat)
    (name : ClassName) (failure : Failure) :
    find source memo limit name = .error failure ↔
      source name >>= climb source memo limit limit [name] = .error failure := by
  rw [← map_find]
  cases find source memo limit name <;> simp [Except.map]

theorem find_eq_ok_iff (hmemo : memo.Faithful source) (limit : Nat) (name : ClassName)
    (lineage : Lineage) :
    find source memo limit name = .ok lineage ↔
      ∃ above, Ascent source name above ∧ EndsWithin memo limit above ∧
        lineage = .ofAncestors name above := by
  have hapart : Apart source name [name] := by
    intro above habove other hother
    rw [List.mem_singleton]
    rintro rfl
    exact habove.not_mem hother
  rw [find_eq_ok_iff_climb]
  constructor
  · rintro ⟨hname, cls, hcls, hclimb⟩
    obtain ⟨above, habove, hends, hancestors⟩ :=
      (climb_eq_ok_iff hmemo limit hcls hapart).mp hclimb
    refine ⟨above, habove, hends, Lineage.ext (hname.trans (name_ofAncestors ..).symm) ?_⟩
    rw [hancestors, ancestors_ofAncestors habove.nodup]
    rfl
  · rintro ⟨above, habove, hends, rfl⟩
    obtain ⟨cls, hcls⟩ := habove.exists_class
    refine ⟨name_ofAncestors .., cls, hcls, ?_⟩
    rw [ancestors_ofAncestors habove.nodup]
    exact (climb_eq_ok_iff hmemo limit hcls hapart).mpr ⟨above, habove, hends, rfl⟩

end Lineage

end ExceptionFlow

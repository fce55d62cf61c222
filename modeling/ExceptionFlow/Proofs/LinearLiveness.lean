import ExceptionFlow.Proofs.DeadCatch
/-!
What the straight-line test for liveness comes to. In code whose offsets increase an instruction is
known by its offset, so that a slot is read again can be told from the instructions between the one
at the offset and the first one that reads the slot. A handler that is checked with this test is
found in the code before the test is asked, so the test never fails for want of an instruction.
-/
namespace ExceptionFlow

/-- Each instruction lies behind the one before it. -/
def Increasing (code : List Instruction) : Prop :=
  code.Pairwise fun earlier later => earlier.offset < later.offset

namespace Increasing

variable {before after : List Instruction} {instruction other : Instruction}

/-- The offsets before an instruction are smaller than its own, and those behind it are greater. -/
theorem split (hcode : Increasing (before ++ instruction :: after)) :
    (∀ earlier ∈ before, earlier.offset < instruction.offset) ∧
      (∀ later ∈ after, instruction.offset < later.offset) ∧ Increasing after := by
  obtain ⟨-, hafter, hbefore⟩ := List.pairwise_append.mp hcode
  obtain ⟨hlater, hafter⟩ := List.pairwise_cons.mp hafter
  exact ⟨fun earlier hearlier => hbefore earlier hearlier instruction List.mem_cons_self, hlater,
    hafter⟩

theorem mem_before_iff (hcode : Increasing (before ++ instruction :: after)) :
    other ∈ before ↔
      other ∈ before ++ instruction :: after ∧ other.offset < instruction.offset := by
  obtain ⟨hbefore, hafter, -⟩ := hcode.split
  grind

theorem mem_after_iff (hcode : Increasing (before ++ instruction :: after)) :
    other ∈ after ↔
      other ∈ before ++ instruction :: after ∧ instruction.offset < other.offset := by
  obtain ⟨hbefore, hafter, -⟩ := hcode.split
  grind

/-- Offsets are ordered as the places are. -/
theorem offset_lt_iff {code : List Instruction} (hcode : Increasing code) {first second : Nat}
    (hfirst : code[first]? = some instruction) (hsecond : code[second]? = some other) :
    instruction.offset < other.offset ↔ first < second := by
  obtain ⟨hlt, rfl⟩ := List.getElem?_eq_some_iff.mp hfirst
  obtain ⟨hlt', rfl⟩ := List.getElem?_eq_some_iff.mp hsecond
  have hordered := List.pairwise_iff_getElem.mp hcode
  constructor
  · intro hoffset
    by_contra hle
    obtain heq | hgt := Nat.eq_or_lt_of_le (Nat.le_of_not_lt hle)
    · subst heq
      exact Nat.lt_irrefl _ hoffset
    · exact Nat.lt_asymm hoffset (hordered second first hlt' hlt hgt)
  · exact hordered first second hlt hlt'

end Increasing

namespace MethodBody

variable {body : MethodBody}

/-- The place that is looked for stays among those that are left. -/
theorem bisect_eq {code : List Instruction} (hcode : Increasing code) {instruction : Instruction}
    {place : Nat} (hplace : code[place]? = some instruction) {rounds base size : Nat}
    (hrounds : size ≤ rounds) (hlower : base ≤ place) (hupper : place < base + size)
    (hlength : base + size ≤ code.length) :
    bisect code instruction.offset rounds base size = place := by
  induction rounds generalizing base size with
  | zero => omega
  | succ rounds ih =>
      rw [bisect]
      split
      · omega
      · have hmiddle : base + size / 2 < code.length := by omega
        rw [List.getElem?_eq_getElem hmiddle]
        have hhalf := hcode.offset_lt_iff hplace (List.getElem?_eq_getElem hmiddle)
        by_cases hbehind : place < base + size / 2
        · simp only [hhalf.mpr hbehind, if_true]
          exact ih (by omega) hlower (by omega) (by omega)
        · simp only [mt hhalf.mp hbehind, if_false]
          exact ih (by omega) (by omega) (by omega) (by omega)

theorem indexOf?_eq_length (hbody : Increasing body.code) {before after : List Instruction}
    {instruction : Instruction} (hcode : body.code = before ++ instruction :: after) :
    body.indexOf? instruction.offset = some before.length := by
  have hplace : body.code[before.length]? = some instruction := by simp [hcode]
  have hlength : before.length < body.code.length := by simp [hcode]
  have hfound : bisect body.code instruction.offset body.code.length 0 body.code.length =
      before.length :=
    bisect_eq hbody hplace (Nat.le_refl _) (Nat.zero_le _) (by omega) (by omega)
  simp [indexOf?, hfound, hplace]

theorem indexOf?_eq_none {offset : Nat}
    (hoffset : ∀ instruction ∈ body.code, instruction.offset ≠ offset) :
    body.indexOf? offset = none := by
  unfold indexOf?
  refine if_neg fun hfound => ?_
  obtain ⟨instruction, hplace, heq⟩ := (Option.any_eq_true _ _).mp hfound
  exact hoffset instruction (List.mem_of_getElem? hplace) (of_decide_eq_true heq)

end MethodBody

namespace Liveness

variable {body : MethodBody} {limit : Nat}

/-- Behind this instruction the value of the slot is gone. -/
def Ends (slot : Nat) : InstructionKind → Prop
  | .store written => written = slot
  | .ret => True
  | .athrow _ => True
  | _ => False

instance (slot : Nat) : (kind : InstructionKind) → Decidable (Ends slot kind)
  | .store written => inferInstanceAs (Decidable (written = slot))
  | .ret => isTrue trivial
  | .athrow _ => isTrue trivial
  | .invoke _ _ => isFalse id
  | .checkCast _ => isFalse id
  | .load _ => isFalse id
  | .other => isFalse id

/-- An instruction behind the offset reads the slot, and the value is still there. -/
def ReadAfter (body : MethodBody) (offset slot : Nat) : Prop :=
  ∃ reading ∈ body.code, (offset < reading.offset ∧ reading.kind = .load slot) ∧
    ∀ between ∈ body.code, offset < between.offset → between.offset < reading.offset →
      ¬ Ends slot between.kind

instance (body : MethodBody) (offset slot : Nat) : Decidable (ReadAfter body offset slot) :=
  inferInstanceAs (Decidable (∃ reading ∈ body.code, _ ∧ _))

/-- The same in code that is read from its front. -/
def ReadIn (slot : Nat) (code : List Instruction) : Prop :=
  ∃ before reading after, code = before ++ reading :: after ∧ reading.kind = .load slot ∧
    ∀ instruction ∈ before, ¬ Ends slot instruction.kind

theorem not_readIn_nil (slot : Nat) : ¬ ReadIn slot [] := by
  rintro ⟨before, reading, after, hcode, -⟩
  exact List.append_ne_nil_of_right_ne_nil _ (List.cons_ne_nil _ _) hcode.symm

theorem readIn_cons (slot : Nat) (instruction : Instruction) (code : List Instruction) :
    ReadIn slot (instruction :: code) ↔
      instruction.kind = .load slot ∨ (¬ Ends slot instruction.kind ∧ ReadIn slot code) := by
  constructor
  · rintro ⟨before, reading, after, hcode, hreading, hbefore⟩
    cases before with
    | nil =>
        obtain ⟨rfl, -⟩ := List.cons.inj hcode
        exact Or.inl hreading
    | cons first before =>
        obtain ⟨rfl, hrest⟩ := List.cons.inj hcode
        obtain ⟨hfirst, hothers⟩ := List.forall_mem_cons.mp hbefore
        exact Or.inr ⟨hfirst, before, reading, after, hrest, hreading, hothers⟩
  · rintro (hreading | ⟨hfirst, before, reading, after, rfl, hreading, hbefore⟩)
    · exact ⟨[], instruction, code, rfl, hreading, by simp⟩
    · exact ⟨instruction :: before, reading, after, rfl, hreading,
        List.forall_mem_cons.mpr ⟨hfirst, hbefore⟩⟩

theorem readFirst_eq_true_iff (slot : Nat) (code : List Instruction) :
    readFirst slot code = true ↔ ReadIn slot code := by
  induction code with
  | nil => simp [readFirst, not_readIn_nil]
  | cons instruction code ih =>
      rw [readFirst, readIn_cons, ← ih]
      cases instruction.kind <;> simp [Ends]

/-- What lies behind an instruction by its offset lies behind it in the code. -/
theorem readAfter_iff (hbody : Increasing body.code) {before after : List Instruction}
    {instruction : Instruction} (hcode : body.code = before ++ instruction :: after)
    (slot : Nat) : ReadAfter body instruction.offset slot ↔ ReadIn slot after := by
  rw [hcode] at hbody
  have hafter := hbody.split.2.2
  unfold ReadAfter
  rw [hcode]
  constructor
  · rintro ⟨reading, hreading, ⟨hoffset, hload⟩, hbetween⟩
    obtain ⟨between, rest, rfl⟩ := List.append_of_mem (hbody.mem_after_iff.mpr ⟨hreading, hoffset⟩)
    refine ⟨between, reading, rest, rfl, hload, ?_⟩
    intro other hother
    obtain ⟨hmem, hupper⟩ := hafter.mem_before_iff.mp hother
    obtain ⟨hmem, hlower⟩ := hbody.mem_after_iff.mp hmem
    exact hbetween other hmem hlower hupper
  · rintro ⟨between, reading, rest, rfl, hload, hbetween⟩
    obtain ⟨hreading, hoffset⟩ := hbody.mem_after_iff.mp (List.mem_append_cons_self)
    refine ⟨reading, hreading, ⟨hoffset, hload⟩, ?_⟩
    intro other hother hlower hupper
    have hmem := hbody.mem_after_iff.mpr ⟨hother, hlower⟩
    exact hbetween other (hafter.mem_before_iff.mpr ⟨hmem, hupper⟩)

theorem linear_over (hlimit : limit < body.codeLength) (offset slot : Nat) :
    linear limit body offset slot = .error (.unprofitable body.label) :=
  if_pos hlimit

theorem linear_nowhere (hlimit : body.codeLength ≤ limit) {offset : Nat}
    (hoffset : ∀ instruction ∈ body.code, instruction.offset ≠ offset) (slot : Nat) :
    ∃ text, linear limit body offset slot = .error (.malformed none text) := by
  rw [linear, if_neg (Nat.not_lt.mpr hlimit), MethodBody.indexOf?_eq_none hoffset]
  exact ⟨_, rfl⟩

theorem linear_at (hbody : Increasing body.code) (hlimit : body.codeLength ≤ limit)
    {instruction : Instruction} (hmem : instruction ∈ body.code) (slot : Nat) :
    linear limit body instruction.offset slot =
      .ok (decide (ReadAfter body instruction.offset slot)) := by
  obtain ⟨before, after, hcode⟩ := List.append_of_mem hmem
  have hread : readFirst slot after = decide (ReadAfter body instruction.offset slot) := by
    rw [Bool.eq_iff_iff, decide_eq_true_iff, readFirst_eq_true_iff, readAfter_iff hbody hcode]
  rw [linear, if_neg (Nat.not_lt.mpr hlimit), MethodBody.indexOf?_eq_length hbody hcode]
  simp [hcode, hread]

/-- The answer of the test for a body, an offset and a slot. -/
structure Answers (limit : Nat) (body : MethodBody) (offset slot : Nat)
    (answer : Except Failure Bool) : Prop where
  unprofitable_iff : (∃ label, answer = .error (.unprofitable label)) ↔ limit < body.codeLength
  malformed_iff : (∃ place text, answer = .error (.malformed place text)) ↔
    body.codeLength ≤ limit ∧ ∀ instruction ∈ body.code, instruction.offset ≠ offset
  live_iff : answer = .ok true ↔
    body.codeLength ≤ limit ∧ (∃ instruction ∈ body.code, instruction.offset = offset) ∧
      ReadAfter body offset slot
  dead_iff : answer = .ok false ↔
    body.codeLength ≤ limit ∧ (∃ instruction ∈ body.code, instruction.offset = offset) ∧
      ¬ ReadAfter body offset slot

theorem answers_linear (hbody : Increasing body.code) (limit offset slot : Nat) :
    Answers limit body offset slot (linear limit body offset slot) := by
  by_cases hlimit : limit < body.codeLength
  · rw [linear_over hlimit]
    constructor <;> simp [hlimit, Nat.not_le.mpr hlimit]
  · have hwithin : body.codeLength ≤ limit := Nat.le_of_not_lt hlimit
    by_cases hoffset : ∃ instruction ∈ body.code, instruction.offset = offset
    · obtain ⟨instruction, hmem, rfl⟩ := id hoffset
      rw [linear_at hbody hwithin hmem]
      constructor <;> simp [hlimit, hwithin, hoffset]
    · have hnowhere : ∀ instruction ∈ body.code, instruction.offset ≠ offset := by
        simpa using hoffset
      obtain ⟨text, hlinear⟩ := linear_nowhere hwithin hnowhere slot
      rw [hlinear]
      constructor
      · simp [hlimit]
      · simpa [hwithin] using hnowhere
      · simp [hoffset]
      · simp [hoffset]

/-- The handler begins by storing the exception into the slot. -/
def StoresInto (body : MethodBody) (handler slot : Nat) : Prop :=
  ⟨handler, .store slot⟩ ∈ body.code

theorem handlerSlot?_at (hbody : Increasing body.code) {instruction : Instruction}
    (hmem : instruction ∈ body.code) (slot : Nat) :
    handlerSlot? body instruction.offset = some slot ↔ instruction.kind = .store slot := by
  obtain ⟨before, after, hcode⟩ := List.append_of_mem hmem
  have hfound : ((body.indexOf? instruction.offset).bind fun index => body.code[index]?) =
      some instruction := by
    rw [MethodBody.indexOf?_eq_length hbody hcode]
    simp [hcode]
  rw [handlerSlot?, hfound]
  obtain ⟨offset, kind⟩ := instruction
  cases kind <;> simp

theorem handlerSlot?_eq_some_iff (hbody : Increasing body.code) (handler slot : Nat) :
    handlerSlot? body handler = some slot ↔ StoresInto body handler slot := by
  constructor
  · intro hslot
    by_cases hoffset : ∃ instruction ∈ body.code, instruction.offset = handler
    · obtain ⟨instruction, hmem, rfl⟩ := hoffset
      obtain hkind := (handlerSlot?_at hbody hmem slot).mp hslot
      rwa [StoresInto, ← hkind]
    · have hnone : body.indexOf? handler = none :=
        MethodBody.indexOf?_eq_none (by simpa using hoffset)
      rw [handlerSlot?, hnone] at hslot
      cases hslot
  · exact fun hstores => (handlerSlot?_at hbody hstores slot).mpr rfl

section Regions

variable {region : GuardedRegion} {slot : Nat} {memo : Memo}

theorem run_checkRegion_none (isLive : Liveness)
    (hslot : handlerSlot? body region.handler = none) :
    (checkRegion isLive body region).run memo = { value := region, memo, emitted := [] } := by
  rw [checkRegion, hslot]
  rfl

theorem run_checkRegion_over (hslot : handlerSlot? body region.handler = some slot)
    (hlimit : limit < body.codeLength) :
    (checkRegion (linear limit) body region).run memo =
      { value := region
        memo
        emitted := [.remark (.skippedAnalysis body.className
          (body.method.name ++ body.method.descriptor))] } := by
  simp only [checkRegion, hslot, linear_over hlimit]
  rfl

theorem run_checkRegion_within (hslot : handlerSlot? body region.handler = some slot)
    {live : Bool} (hlive : linear limit body region.handler slot = .ok live) :
    (checkRegion (linear limit) body region).run memo =
      { value := { region with deadVariable := !live }
        memo
        emitted := if live then [] else [.log (.deadStore body.label region slot)] } := by
  simp only [checkRegion, hslot, hlive]
  cases live <;> rfl

end Regions

/-- What checking a region with the straight-line test comes to. -/
structure Checked (limit : Nat) (body : MethodBody) (region : GuardedRegion) (memo : Memo)
    (outcome : Outcome GuardedRegion) : Prop where
  /-- Nothing is said, or that the method is skipped. In particular no failure is. -/
  remarks : outcome.remarks = [] ∨ outcome.remarks =
    [.skippedAnalysis body.className (body.method.name ++ body.method.descriptor)]
  skipped_iff : outcome.remarks ≠ [] ↔
    (∃ slot, StoresInto body region.handler slot) ∧ limit < body.codeLength
  /-- The mark tells whether the slot of the handler is read again. -/
  marked : ∀ slot, StoresInto body region.handler slot → body.codeLength ≤ limit →
    outcome.value =
      { region with deadVariable := !decide (ReadAfter body region.handler slot) }
  kept : (∀ slot, StoresInto body region.handler slot → limit < body.codeLength) →
    outcome.value = region
  /-- No other field changes in any case. -/
  frame : { outcome.value with deadVariable := region.deadVariable } = region
  memo : outcome.memo = memo

theorem checked_linear (hbody : Increasing body.code) (limit : Nat) (region : GuardedRegion)
    (memo : Memo) :
    Checked limit body region memo ((checkRegion (linear limit) body region).run memo) := by
  have hstores := handlerSlot?_eq_some_iff hbody region.handler
  cases hslot : handlerSlot? body region.handler with
  | none =>
      simp only [hslot, reduceCtorEq, false_iff] at hstores
      rw [run_checkRegion_none _ hslot]
      constructor <;> simp [hstores, Outcome.remarks]
  | some slot =>
      simp only [hslot, Option.some.injEq] at hstores
      by_cases hlimit : limit < body.codeLength
      · have hbeyond : ¬ body.codeLength ≤ limit := Nat.not_le.mpr hlimit
        rw [run_checkRegion_over hslot hlimit]
        constructor <;> simp [← hstores, hlimit, hbeyond, Outcome.remarks, Emission.remark?]
      · have hwithin : body.codeLength ≤ limit := Nat.le_of_not_lt hlimit
        have hlive := linear_at hbody hwithin ((hstores slot).mp rfl) slot
        rw [run_checkRegion_within hslot hlive]
        constructor <;> simp [← hstores, hlimit, hwithin, Outcome.remarks, Emission.remark?]

end Liveness

open Liveness

/-- The straight-line test tells exactly whether a slot is read again, for methods that are short
enough and offsets where an instruction is. So checking a region with it says nothing but that the
method is skipped, and the mark of the region tells whether the exception is read that its handler
stores. -/
theorem linear_exact (limit : Nat) (body : MethodBody) (hbody : Increasing body.code) :
    (∀ offset slot, Answers limit body offset slot (linear limit body offset slot)) ∧
      ∀ region memo,
        Checked limit body region memo ((checkRegion (linear limit) body region).run memo) :=
  ⟨answers_linear hbody limit, checked_linear hbody limit⟩

/-- A handler that stores the exception, reads another slot and then stores anew. -/
def overwritingBody : MethodBody :=
  { className := ⟨"a.Service"⟩
    method := { name := "run", descriptor := "()V" }
    code := [⟨0, .ret⟩, ⟨3, .store 1⟩, ⟨4, .load 2⟩, ⟨7, .store 1⟩, ⟨8, .load 1⟩] }

theorem linear_exact_overwriting :
    Increasing overwritingBody.code ∧
      linear 5 overwritingBody 3 2 = .ok true ∧
      linear 5 overwritingBody 3 1 = .ok false ∧
      (∃ label, linear 4 overwritingBody 3 1 = .error (.unprofitable label)) ∧
      ∀ memo, Checked 5 overwritingBody ⟨.any, 0, 1, 3, false, false⟩ memo
        ((checkRegion (linear 5) overwritingBody ⟨.any, 0, 1, 3, false, false⟩).run memo) := by
  have hbody : Increasing overwritingBody.code := by
    unfold Increasing overwritingBody
    decide
  exact ⟨hbody, rfl, rfl,
    ((linear_exact 4 overwritingBody hbody).1 3 1).unprofitable_iff.mpr (by decide),
    (linear_exact 5 overwritingBody hbody).2 _⟩

end ExceptionFlow

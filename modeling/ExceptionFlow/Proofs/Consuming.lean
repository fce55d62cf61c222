import ExceptionFlow.Proofs.Grammar
import Mathlib.Data.List.TakeWhile
/-!
Reading as taking characters off the front. The cursors count bytes and the texts are made of
characters, so what a reader passes is said in characters and compared in UTF-8: an ASCII character
is one byte, and that byte occurs in no other character.
-/
namespace ExceptionFlow.Signature

def bytes (chars : List Char) : List UInt8 :=
  chars.flatMap String.utf8EncodeChar

@[simp] theorem bytes_nil : bytes [] = [] := rfl

@[simp] theorem bytes_append (first second : List Char) :
    bytes (first ++ second) = bytes first ++ bytes second :=
  List.flatMap_append

theorem data_utf8Encode (chars : List Char) : chars.utf8Encode.data.toList = bytes chars :=
  List.toList_data_toByteArray

theorem rest_start (text : String) : (Cursor.start text).rest = bytes text.toList := by
  rw [← data_utf8Encode, String.utf8Encode_toList]
  rfl

theorem bytes_inj {first second : List Char} : bytes first = bytes second ↔ first = second := by
  rw [← String.ofList_inj, ← String.toByteArray_inj, String.toByteArray_ofList,
    String.toByteArray_ofList, ← List.toByteArray_inj]
  rfl

theorem ne_nil_of_head? {chars starts : List Char}
    (hhead : ∃ start ∈ starts, chars.head? = some start) : chars ≠ [] := by
  obtain ⟨start, -, hhead⟩ := hhead
  rintro rfl
  cases hhead

theorem length_pos_bytes {chars : List Char} (hchars : chars ≠ []) : 0 < (bytes chars).length := by
  obtain ⟨char, others, rfl⟩ := List.exists_cons_of_ne_nil hchars
  rw [List.length_pos_iff]
  simp [bytes]

theorem encode_ascii {char : Char} (hchar : char.toNat < 128) :
    String.utf8EncodeChar char = [ascii char] := by
  have hval : char.val.toNat ≤ 0x7f := Nat.le_of_lt_succ hchar
  exact if_pos hval

theorem ascii_inj {char other : Char} (hchar : char.toNat < 128) (hother : other.toNat < 128)
    (hbytes : ascii char = ascii other) : char = other := by
  have hsame : bytes [char] = bytes [other] := by
    simp [bytes, encode_ascii hchar, encode_ascii hother, hbytes]
  exact List.singleton_inj.mp (bytes_inj.mp hsame)

/-- The bytes of a character outside of ASCII all have their highest bit set. -/
theorem le_of_mem_encode {char : Char} (hchar : ¬ char.toNat < 128) {byte : UInt8}
    (hbyte : byte ∈ String.utf8EncodeChar char) : 128 ≤ byte.toNat := by
  have hval : ¬ char.val.toNat ≤ 127 := fun hle => hchar (Nat.lt_succ_of_le hle)
  simp only [String.utf8EncodeChar, hval, if_false] at hbyte
  split at hbyte
  · simp only [List.mem_cons, List.not_mem_nil, or_false] at hbyte
    rcases hbyte with rfl | rfl <;> simp <;> omega
  · split at hbyte
    · simp only [List.mem_cons, List.not_mem_nil, or_false] at hbyte
      rcases hbyte with rfl | rfl | rfl <;> simp <;> omega
    · simp only [List.mem_cons, List.not_mem_nil, or_false] at hbyte
      rcases hbyte with rfl | rfl | rfl | rfl <;> simp <;> omega

theorem ascii_mem_encode_iff {char other : Char} (hchar : char.toNat < 128) :
    ascii char ∈ String.utf8EncodeChar other ↔ other = char := by
  by_cases hother : other.toNat < 128
  · rw [encode_ascii hother, List.mem_singleton]
    exact ⟨fun hbyte => (ascii_inj hchar hother hbyte).symm, fun heq => by rw [heq]⟩
  · constructor
    · intro hbyte
      have hhigh := le_of_mem_encode hother hbyte
      have hlow : (ascii char).toNat < 128 := by
        simp only [ascii, UInt8.toNat_ofNat']
        omega
      omega
    · rintro rfl
      exact absurd hchar hother

theorem ascii_mem_bytes_iff {char : Char} (hchar : char.toNat < 128) (chars : List Char) :
    ascii char ∈ bytes chars ↔ char ∈ chars := by
  simp [bytes, List.mem_flatMap, ascii_mem_encode_iff hchar]

theorem head?_bytes_append {char : Char} (hchar : char.toNat < 128) {chars : List Char}
    (hchars : chars ≠ []) (rest : List UInt8) :
    (bytes chars ++ rest).head? = some (ascii char) ↔ chars.head? = some char := by
  obtain ⟨first, others, rfl⟩ := List.exists_cons_of_ne_nil hchars
  obtain ⟨byte, more, hfirst⟩ :=
    List.exists_cons_of_ne_nil (String.utf8EncodeChar_ne_nil : String.utf8EncodeChar first ≠ [])
  have hhead : (bytes (first :: others) ++ rest).head? = some byte := by simp [bytes, hfirst]
  rw [hhead, List.head?_cons, Option.some_inj, Option.some_inj]
  constructor
  · rintro rfl
    apply (ascii_mem_encode_iff hchar).mp
    rw [hfirst]
    exact List.mem_cons_self
  · rintro rfl
    rw [encode_ascii hchar] at hfirst
    exact (List.cons.inj hfirst).1.symm

theorem fromUTF8?_eq_some_iff (encoded : List UInt8) (text : String) :
    String.fromUTF8? ⟨encoded.toArray⟩ = some text ↔ bytes text.toList = encoded := by
  rw [← data_utf8Encode, String.utf8Encode_toList]
  constructor
  · intro hdecoded
    unfold String.fromUTF8? at hdecoded
    split at hdecoded
    · cases hdecoded
      rfl
    · cases hdecoded
  · rintro rfl
    exact dif_pos text.isValidUTF8

namespace Cursor

/-- The characters stand between the cursor and `after`. -/
structure Consumes (cursor : Cursor) (chars : List Char) (after : Cursor) : Prop where
  rest : cursor.rest = bytes chars ++ after.rest
  position : after.position = cursor.position + (bytes chars).length

@[simp] theorem consumes_nil (cursor after : Cursor) :
    cursor.Consumes [] after ↔ after = cursor := by
  obtain ⟨position, rest⟩ := cursor
  obtain ⟨afterPosition, afterRest⟩ := after
  constructor
  · rintro ⟨hrest, hposition⟩
    simp_all
  · intro hsame
    cases hsame
    exact ⟨rfl, rfl⟩

theorem consumes_append (cursor after : Cursor) (first second : List Char) :
    cursor.Consumes (first ++ second) after ↔
      ∃ between, cursor.Consumes first between ∧ between.Consumes second after := by
  constructor
  · rintro ⟨hrest, hposition⟩
    rw [bytes_append, List.append_assoc] at hrest
    rw [bytes_append, List.length_append, ← Nat.add_assoc] at hposition
    exact ⟨⟨_, bytes second ++ after.rest⟩, ⟨hrest, rfl⟩, ⟨rfl, hposition⟩⟩
  · rintro ⟨between, hfirst, hsecond⟩
    constructor
    · rw [hfirst.rest, hsecond.rest, bytes_append, List.append_assoc]
    · rw [hsecond.position, hfirst.position, bytes_append, List.length_append, Nat.add_assoc]

theorem consumes_singleton {char : Char} (hchar : char.toNat < 128) (cursor after : Cursor) :
    cursor.Consumes [char] after ↔ cursor.sees char = true ∧ after = cursor.skip := by
  have hbytes : bytes [char] = [ascii char] := by simp [bytes, encode_ascii hchar]
  obtain ⟨position, rest⟩ := cursor
  obtain ⟨afterPosition, afterRest⟩ := after
  rw [sees_iff, skip, Cursor.mk.injEq]
  constructor
  · rintro ⟨hrest, hposition⟩
    rw [hbytes] at hrest hposition
    cases hrest
    exact ⟨rfl, hposition, rfl⟩
  · rintro ⟨hhead, rfl, rfl⟩
    obtain ⟨others, rfl⟩ := List.head?_eq_some_iff.mp hhead
    constructor <;> rw [hbytes] <;> rfl

theorem consumes_ascii {char : Char} (hchar : char.toNat < 128) (cursor after : Cursor)
    (chars : List Char) :
    cursor.Consumes (char :: chars) after ↔
      cursor.sees char = true ∧ cursor.skip.Consumes chars after := by
  rw [← List.singleton_append, consumes_append]
  simp only [consumes_singleton hchar]
  constructor
  · rintro ⟨between, ⟨hsees, rfl⟩, hchars⟩
    exact ⟨hsees, hchars⟩
  · rintro ⟨hsees, hchars⟩
    exact ⟨cursor.skip, ⟨hsees, rfl⟩, hchars⟩

theorem consumes_enclosed {first last : Char} (hfirst : first.toNat < 128)
    (hlast : last.toNat < 128) (cursor after : Cursor) (chars : List Char) :
    cursor.Consumes (first :: (chars ++ [last])) after ↔
      cursor.sees first = true ∧ ∃ between, cursor.skip.Consumes chars between ∧
        between.sees last = true ∧ after = between.skip := by
  simp only [consumes_ascii hfirst, consumes_append, consumes_singleton hlast]

theorem sees_of_head? {cursor : Cursor} {byte : UInt8} {char : Char}
    (hhead : cursor.rest.head? = some byte) (hbyte : byte = ascii char) :
    cursor.sees char = true := by
  rw [sees_iff, hhead, hbyte]

theorem sees_eq_false_iff (cursor : Cursor) (char : Char) :
    cursor.sees char = false ↔ cursor.rest.head? ≠ some (ascii char) := by
  rw [← Bool.not_eq_true, sees_iff]

theorem sees_of_consumes {cursor after : Cursor} {chars : List Char} {start : Char}
    (hstart : start.toNat < 128) (hhead : chars.head? = some start)
    (hconsumes : cursor.Consumes chars after) : cursor.sees start = true := by
  obtain ⟨others, rfl⟩ := List.head?_eq_some_iff.mp hhead
  exact ((consumes_ascii hstart ..).mp hconsumes).1

theorem sees_eq_false_of_consumes {cursor after : Cursor} {chars starts : List Char}
    (hhead : ∃ start ∈ starts, chars.head? = some start) (hconsumes : cursor.Consumes chars after)
    {char : Char} (hchar : char.toNat < 128) (hstart : char ∉ starts) :
    cursor.sees char = false := by
  obtain ⟨start, hmem, hhead⟩ := hhead
  obtain ⟨others, rfl⟩ := List.head?_eq_some_iff.mp hhead
  by_contra hsees
  rw [Bool.not_eq_false, sees_iff, hconsumes.rest,
    head?_bytes_append hchar (List.cons_ne_nil start others), hhead, Option.some_inj] at hsees
  exact hstart (hsees ▸ hmem)

theorem sees_unique {cursor : Cursor} {char other : Char} (hchar : char.toNat < 128)
    (hother : other.toNat < 128) (hsees : cursor.sees char = true)
    (hsees' : cursor.sees other = true) : char = other := by
  rw [sees_iff] at hsees hsees'
  rw [hsees, Option.some_inj] at hsees'
  exact ascii_inj hchar hother hsees'

theorem Consumes.length_lt {cursor after : Cursor} {chars : List Char} (hchars : chars ≠ [])
    (hconsumes : cursor.Consumes chars after) : after.rest.length < cursor.rest.length := by
  have hpos := length_pos_bytes hchars
  rw [hconsumes.rest, List.length_append]
  omega

theorem seesAny_iff (cursor : Cursor) (chars : List Char) :
    cursor.seesAny chars = true ↔ ∃ char ∈ chars, cursor.sees char = true :=
  List.any_eq_true

end Cursor

namespace Cursor

theorem expect_eq_ok_iff (wanted : Char) (cursor after : Cursor) :
    (cursor.expect wanted).outcome = .ok after ↔
      cursor.sees wanted = true ∧ after = cursor.skip := by
  rw [expect, Reading.bind_eq_ok_iff, Prod.exists, sees_iff]
  simp only [next_eq_ok_iff]
  constructor
  · rintro ⟨byte, passed, ⟨hhead, rfl⟩, hfound⟩
    split at hfound
    case isTrue hbyte =>
      cases hfound
      exact ⟨by rw [hhead, hbyte], rfl⟩
    case isFalse => cases hfound
  · rintro ⟨hhead, rfl⟩
    refine ⟨_, _, ⟨hhead, rfl⟩, ?_⟩
    rw [if_pos rfl]
    rfl

/-- The byte does not end a name. -/
def isFree (stops : List Char) (byte : UInt8) : Bool :=
  !stops.any fun stop => byte == ascii stop

theorem isFree_eq_false_iff (stops : List Char) (byte : UInt8) :
    isFree stops byte = false ↔ ∃ stop ∈ stops, byte = ascii stop := by
  simp [isFree]

theorem isFree_of_mem_name {stops : List Char} (hstops : ∀ stop ∈ stops, stop.toNat < 128)
    (name : Name stops) {byte : UInt8} (hbyte : byte ∈ bytes name.chars) :
    isFree stops byte = true := by
  by_contra hstop
  obtain ⟨stop, hmem, rfl⟩ := (isFree_eq_false_iff stops byte).mp (by simpa using hstop)
  exact name.free stop hmem ((ascii_mem_bytes_iff (hstops stop hmem) _).mp hbyte)

theorem seesAny_iff_isFree {stops : List Char} (cursor : Cursor) :
    cursor.seesAny stops = true ↔
      ∃ byte, cursor.rest.head? = some byte ∧ isFree stops byte = false := by
  simp only [seesAny_iff, sees_iff, isFree_eq_false_iff]
  constructor
  · rintro ⟨stop, hmem, hhead⟩
    exact ⟨_, hhead, stop, hmem, rfl⟩
  · rintro ⟨_, hhead, stop, hmem, rfl⟩
    exact ⟨stop, hmem, hhead⟩

/-- An identifier goes up to the first stop, and there is one. -/
theorem identifier_eq_ok_iff_takeWhile (stops : List Char) (cursor after : Cursor) (text : String) :
    (cursor.identifier stops).outcome = .ok (text, after) ↔
      bytes text.toList = cursor.rest.takeWhile (isFree stops) ∧ text.toList ≠ [] ∧
        after.rest = cursor.rest.dropWhile (isFree stops) ∧ after.rest ≠ [] ∧
        after.position = cursor.position + (bytes text.toList).length := by
  obtain ⟨position, rest⟩ := cursor
  have hsplit : rest.takeWhile (isFree stops) ++ rest.dropWhile (isFree stops) = rest :=
    List.takeWhile_append_dropWhile
  have htaken : rest.takeWhile (fun byte => !stops.any fun stop => byte == ascii stop) =
      rest.takeWhile (isFree stops) := rfl
  simp only [identifier, htaken]
  clear htaken
  generalize rest.takeWhile (isFree stops) = taken at *
  generalize rest.dropWhile (isFree stops) = left at *
  subst hsplit
  simp only [List.drop_left]
  constructor
  · intro hread
    split at hread
    case isTrue => cases hread
    case isFalse hsome =>
      split at hread
      case h_1 decoded hdecoded =>
        cases hread
        have htaken := (fromUTF8?_eq_some_iff _ _).mp hdecoded
        subst htaken
        simp only [Bool.or_eq_true, List.isEmpty_iff, not_or] at hsome
        refine ⟨rfl, ?_, rfl, hsome.2, rfl⟩
        intro hnil
        exact hsome.1 (by rw [hnil, bytes_nil])
      case h_2 => cases hread
  · rintro ⟨rfl, hnonempty, hrest, hleft, hposition⟩
    have htaken := List.ne_nil_of_length_pos (length_pos_bytes hnonempty)
    obtain ⟨afterPosition, afterRest⟩ := after
    subst hrest hposition
    have hsome : ((bytes text.toList).isEmpty || List.isEmpty afterRest) = false := by
      simp [htaken, hleft]
    rw [if_neg (by simp [hsome]), (fromUTF8?_eq_some_iff _ _).mpr rfl]

/-- An identifier reads a name, and one of the stops follows. -/
theorem identifier_eq_ok_iff {stops : List Char} (hstops : ∀ stop ∈ stops, stop.toNat < 128)
    (cursor after : Cursor) (text : String) :
    (cursor.identifier stops).outcome = .ok (text, after) ↔
      ∃ name : Name stops, name.text = text ∧ cursor.Consumes name.chars after ∧
        after.seesAny stops = true := by
  rw [identifier_eq_ok_iff_takeWhile]
  constructor
  · rintro ⟨htaken, hnonempty, hdropped, hleft, hposition⟩
    have hfree : ∀ stop ∈ stops, stop ∉ text.toList := by
      intro stop hmem hchar
      have hbyte := (ascii_mem_bytes_iff (hstops stop hmem) _).mpr hchar
      rw [htaken] at hbyte
      have hfree := List.mem_takeWhile_imp hbyte
      rw [(isFree_eq_false_iff stops _).mpr ⟨stop, hmem, rfl⟩] at hfree
      cases hfree
    have hrest : cursor.rest = bytes text.toList ++ after.rest := by
      rw [htaken, hdropped, List.takeWhile_append_dropWhile]
    have hstop : after.seesAny stops = true := by
      rw [seesAny_iff_isFree]
      refine ⟨_, List.head?_eq_some_head hleft, ?_⟩
      simp only [hdropped]
      exact List.head_dropWhile_not _ _
    exact ⟨⟨text, hnonempty, hfree⟩, rfl, ⟨hrest, hposition⟩, hstop⟩
  · rintro ⟨name, rfl, hname, hstop⟩
    obtain ⟨byte, hhead, hbyte⟩ := (seesAny_iff_isFree after).mp hstop
    obtain ⟨rest, hrest⟩ := List.head?_eq_some_iff.mp hhead
    have hall : ∀ byte ∈ bytes name.chars, isFree stops byte = true :=
      fun _ => isFree_of_mem_name hstops name
    have htaken : cursor.rest.takeWhile (isFree stops) = bytes name.chars := by
      rw [hname.rest, List.takeWhile_append_of_pos hall, hrest,
        List.takeWhile_cons_of_neg (by simp [hbyte]), List.append_nil]
    have hdropped : cursor.rest.dropWhile (isFree stops) = after.rest := by
      rw [hname.rest, List.dropWhile_append_of_pos hall, hrest,
        List.dropWhile_cons_of_neg (by simp [hbyte])]
    exact ⟨htaken.symm, name.nonempty, hdropped.symm, by simp [hrest], hname.position⟩

end Cursor

section Items

variable {ι α : Type}

/-- Each tree of a row stands before bytes that may follow it. -/
def Separated (chars : ι → List Char) (before : ι → List UInt8 → Prop) :
    List ι → List UInt8 → Prop
  | [], _ => True
  | tree :: trees, rest =>
    before tree (bytes (trees.flatMap chars) ++ rest) ∧ Separated chars before trees rest

@[simp] theorem separated_true (chars : ι → List Char) (trees : List ι) (rest : List UInt8) :
    Separated chars (fun _ _ => True) trees rest := by
  induction trees with
  | nil => trivial
  | cons tree trees ih => exact ⟨trivial, ih⟩

/-- While it is not `done`, the item reads exactly the trees that are allowed. A tree is written so
that it cannot be taken for the end of the row. -/
structure ReadsItems (done : Cursor → Bool) (item : Reader α) (allowed : ι → Prop)
    (chars : ι → List Char) (value : ι → α) (before : ι → List UInt8 → Prop) : Prop where
  reads : ∀ cursor result after, done cursor = false →
    ((item cursor).outcome = .ok (result, after) ↔
      ∃ tree, allowed tree ∧ value tree = result ∧ cursor.Consumes (chars tree) after ∧
        before tree after.rest)
  nonempty : ∀ tree, chars tree ≠ []
  opens : ∀ tree cursor after, cursor.Consumes (chars tree) after → done cursor = false

variable {done : Cursor → Bool} {item : Reader α} {allowed : ι → Prop} {chars : ι → List Char}
  {value : ι → α} {before : ι → List UInt8 → Prop}

theorem ReadsItems.repeatUntil_eq_ok_iff (hitem : ReadsItems done item allowed chars value before)
    (budget : Nat) (cursor after : Cursor) (results : List α)
    (hbudget : cursor.rest.length < budget) :
    (repeatUntil done item budget cursor).outcome = .ok (results, after) ↔
      ∃ trees : List ι, (∀ tree ∈ trees, allowed tree) ∧ trees.map value = results ∧
        cursor.Consumes (trees.flatMap chars) after ∧ Separated chars before trees after.rest ∧
        done after = true := by
  induction budget generalizing cursor results with
  | zero => exact absurd hbudget (Nat.not_lt_zero _)
  | succ budget ih =>
      cases hdone : done cursor with
      | true =>
          rw [repeatUntil, if_pos hdone]
          constructor
          · rintro ⟨⟩
            exact ⟨[], by simp, rfl, by simp, trivial, hdone⟩
          · rintro ⟨trees, -, rfl, hconsumes, -, -⟩
            cases trees with
            | nil =>
                rw [(Cursor.consumes_nil cursor after).mp hconsumes, List.map_nil]
                rfl
            | cons tree trees =>
                rw [List.flatMap_cons, Cursor.consumes_append] at hconsumes
                obtain ⟨between, htree, -⟩ := hconsumes
                rw [hitem.opens tree cursor between htree] at hdone
                cases hdone
      | false =>
          rw [repeatUntil, if_neg (by simp [hdone])]
          simp only [Reading.bind_eq_ok_iff, Prod.exists, Reading.outcome_pure, Except.ok.injEq,
            Prod.mk.injEq]
          constructor
          · rintro ⟨first, between, hfirst, others, last, hothers, rfl, rfl⟩
            obtain ⟨tree, hallowed, rfl, htree, hbefore⟩ :=
              (hitem.reads cursor first between hdone).mp hfirst
            -- the tree takes a byte at least, so one budget less is enough for the rest
            have hlength := htree.length_lt (hitem.nonempty tree)
            obtain ⟨trees, hall, rfl, htrees, hseparated, hend⟩ :=
              (ih between others (by omega)).mp hothers
            refine ⟨tree :: trees, List.forall_mem_cons.mpr ⟨hallowed, hall⟩, rfl, ?_, ?_, hend⟩
            · exact (Cursor.consumes_append ..).mpr ⟨between, htree, htrees⟩
            · exact ⟨by rwa [← htrees.rest], hseparated⟩
          · rintro ⟨trees, hall, rfl, hconsumes, hseparated, hend⟩
            cases trees with
            | nil =>
                rw [(Cursor.consumes_nil cursor after).mp hconsumes, hdone] at hend
                cases hend
            | cons tree trees =>
                rw [List.flatMap_cons, Cursor.consumes_append] at hconsumes
                obtain ⟨between, htree, htrees⟩ := hconsumes
                have hlength := htree.length_lt (hitem.nonempty tree)
                have hbefore := hseparated.1
                rw [← htrees.rest] at hbefore
                refine ⟨value tree, between, ?_, trees.map value, after, ?_, rfl, rfl⟩
                · exact (hitem.reads cursor _ between hdone).mpr
                    ⟨tree, hall tree List.mem_cons_self, rfl, htree, hbefore⟩
                · exact (ih between _ (by omega)).mpr
                    ⟨trees, (List.forall_mem_cons.mp hall).2, rfl, htrees, hseparated.2, hend⟩

theorem ReadsItems.manyUntil_eq_ok_iff (hitem : ReadsItems done item allowed chars value before)
    (cursor after : Cursor) (results : List α) :
    (manyUntil done item cursor).outcome = .ok (results, after) ↔
      ∃ trees : List ι, (∀ tree ∈ trees, allowed tree) ∧ trees.map value = results ∧
        cursor.Consumes (trees.flatMap chars) after ∧ Separated chars before trees after.rest ∧
        done after = true :=
  hitem.repeatUntil_eq_ok_iff _ cursor after results (Nat.lt_succ_self _)

end Items

end ExceptionFlow.Signature

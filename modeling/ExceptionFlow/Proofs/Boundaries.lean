import ExceptionFlow.Proofs.SignatureReading
/-!
Reading never splits a character. The cursor goes byte by byte, but what it passes without a fault
is one character of ASCII or all characters before one. So wherever a name is looked for, the cursor
stands between two characters, and the bytes taken for the name are whole characters.
-/
namespace ExceptionFlow.Signature

open Cursor

/-- The byte position lies between two characters of the text or at one of its ends. -/
def Between (text : String) (position : Nat) : Prop :=
  String.Pos.Raw.IsValid text ⟨position⟩

/-- The cursor stands between two characters of the text. -/
def Cursor.At (text : String) (cursor : Cursor) : Prop :=
  ∃ passed left, text.toList = passed ++ left ∧ cursor = ⟨(bytes passed).length, bytes left⟩

theorem utf8ByteSize_eq (text : String) : text.utf8ByteSize = (bytes text.toList).length := by
  rw [← rest_start]
  rfl

namespace Cursor

variable {text : String} {cursor : Cursor}

theorem at_start (text : String) : (start text).At text :=
  ⟨[], text.toList, rfl, by rw [← rest_start]; rfl⟩

theorem At.between (hat : cursor.At text) : Between text cursor.position := by
  obtain ⟨passed, left, htext, rfl⟩ := hat
  rw [Between, String.Pos.Raw.isValid_iff_exists_append]
  refine ⟨String.ofList passed, String.ofList left, ?_, ?_⟩
  · rw [← String.ofList_append, ← htext, String.ofList_toList]
  · rw [String.rawEndPos, utf8ByteSize_eq, String.toList_ofList]

theorem At.position_add (hat : cursor.At text) :
    cursor.position + cursor.rest.length = text.utf8ByteSize := by
  obtain ⟨passed, left, htext, rfl⟩ := hat
  rw [utf8ByteSize_eq, htext, bytes_append, List.length_append]

/-- A byte of ASCII is a character. -/
theorem At.skip {char : Char} (hchar : char.toNat < 128) (hat : cursor.At text)
    (hsees : cursor.sees char = true) : cursor.skip.At text := by
  obtain ⟨passed, left, htext, rfl⟩ := hat
  cases left with
  | nil => cases hsees
  | cons first left =>
      have hfirst : first = char := by
        have hhead : (bytes (first :: left) ++ []).head? = some (ascii char) := by
          rw [List.append_nil]
          exact (sees_iff ..).mp hsees
        rw [head?_bytes_append hchar (List.cons_ne_nil first left)] at hhead
        exact Option.some_inj.mp hhead
      subst hfirst
      refine ⟨passed ++ [first], left, by simp [htext], ?_⟩
      simp [Cursor.skip, bytes, encode_ascii hchar]

/-- The bytes before the first stop are the characters before it. -/
theorem takeWhile_bytes {stops : List Char} (hstops : ∀ stop ∈ stops, stop.toNat < 128)
    (chars : List Char) :
    (bytes chars).takeWhile (isFree stops) = bytes (chars.takeWhile (· ∉ stops)) := by
  induction chars with
  | nil => rfl
  | cons first chars ih =>
      have hbytes : bytes (first :: chars) = String.utf8EncodeChar first ++ bytes chars := rfl
      rw [hbytes]
      by_cases hfirst : first ∈ stops
      · have hstop : isFree stops (ascii first) = false :=
          (isFree_eq_false_iff ..).mpr ⟨first, hfirst, rfl⟩
        rw [List.takeWhile_cons_of_neg (by simpa using hfirst), encode_ascii (hstops first hfirst),
          List.singleton_append, List.takeWhile_cons_of_neg (by simp [hstop])]
        rfl
      · have hfree : ∀ byte ∈ String.utf8EncodeChar first, isFree stops byte = true := by
          intro byte hbyte
          by_contra hstop
          obtain ⟨stop, hmem, rfl⟩ := (isFree_eq_false_iff stops byte).mp (by simpa using hstop)
          rw [ascii_mem_encode_iff (hstops stop hmem)] at hbyte
          exact hfirst (hbyte ▸ hmem)
        rw [List.takeWhile_cons_of_pos (by simpa using hfirst), List.takeWhile_append_of_pos hfree,
          ih]
        rfl

/-- Behind the bytes before the first stop. -/
def behindName (stops : List Char) (cursor : Cursor) : Cursor :=
  { position := cursor.position + (cursor.rest.takeWhile (isFree stops)).length
    rest := cursor.rest.dropWhile (isFree stops) }

theorem At.behindName {stops : List Char} (hstops : ∀ stop ∈ stops, stop.toNat < 128)
    (hat : cursor.At text) : (cursor.behindName stops).At text := by
  obtain ⟨passed, left, htext, rfl⟩ := hat
  have hleft : left.takeWhile (· ∉ stops) ++ left.dropWhile (· ∉ stops) = left :=
    List.takeWhile_append_dropWhile
  have hrest : (bytes left).dropWhile (isFree stops) = bytes (left.dropWhile (· ∉ stops)) := by
    apply (List.append_right_inj (bytes (left.takeWhile (· ∉ stops)))).mp
    rw [← bytes_append, hleft, ← takeWhile_bytes hstops, List.takeWhile_append_dropWhile]
  refine ⟨passed ++ left.takeWhile (· ∉ stops), left.dropWhile (· ∉ stops), ?_, ?_⟩
  · rw [htext, List.append_assoc, hleft]
  · simp only [Cursor.behindName, takeWhile_bytes hstops, hrest, bytes_append, List.length_append]

theorem At.identifier_decodes {stops : List Char} (hstops : ∀ stop ∈ stops, stop.toNat < 128)
    (hat : cursor.At text) (position : Nat) :
    (cursor.identifier stops).outcome ≠ .error (.notUtf8 position) := by
  obtain ⟨passed, left, htext, rfl⟩ := hat
  have htaken : (bytes left).takeWhile (fun byte => !stops.any fun stop => byte == ascii stop) =
      bytes (left.takeWhile (· ∉ stops)) := takeWhile_bytes hstops left
  have hdecoded := (fromUTF8?_eq_some_iff (bytes (left.takeWhile (· ∉ stops)))
    (String.ofList (left.takeWhile (· ∉ stops)))).mpr (by rw [String.toList_ofList])
  simp only [identifier, htaken, hdecoded]
  split
  · rintro ⟨⟩
  · rintro ⟨⟩

end Cursor

/-- The moves go from the first place to the last, each from where the one before it stopped. -/
def Path : Nat → List Move → Nat → Prop
  | first, [], last => first = last
  | first, move :: moves, last => move.start = first ∧ Path move.stop moves last

theorem Path.append {first middle last : Nat} {moves others : List Move}
    (hmoves : Path first moves middle) (hothers : Path middle others last) :
    Path first (moves ++ others) last := by
  induction moves generalizing first with
  | nil =>
      cases hmoves
      exact hothers
  | cons move moves ih => exact ⟨hmoves.1, ih hmoves.2⟩

/-- The move goes forward and stays inside the text, and a name starts and ends between two
characters. -/
structure Move.Sound (text : String) (move : Move) : Prop where
  forward : move.start ≤ move.stop
  inside : move.stop ≤ text.utf8ByteSize
  whole : move.isName = true → Between text move.start ∧ Between text move.stop

namespace Reading

variable {α β : Type}

/-- The reading moves from the place `first` on and splits no character. If it ends with a value,
then `post` holds of the value and of the place that the reading has come to. -/
structure Sound (text : String) (first : Nat) (post : α → Nat → Prop) (reading : Reading α) :
    Prop where
  path : ∃ last, Path first reading.moves last ∧
    ∀ value, reading.outcome = .ok value → post value last
  moves : ∀ move ∈ reading.moves, move.Sound text
  decodes : ∀ position, reading.outcome ≠ .error (.notUtf8 position)

variable {text : String} {first : Nat}

theorem Sound.pure {post : α → Nat → Prop} {value : α} (hpost : post value first) :
    Sound text first post (Pure.pure value) where
  path := ⟨first, rfl, by rintro _ ⟨⟩; exact hpost⟩
  moves := by rintro _ ⟨⟩
  decodes := by rintro _ ⟨⟩

theorem Sound.fail {post : α → Nat → Prop} {fault : Fault}
    (hfault : ∀ position, fault ≠ .notUtf8 position) :
    Sound text first post (Reading.fail fault) where
  path := ⟨first, rfl, by rintro _ ⟨⟩⟩
  moves := by rintro _ ⟨⟩
  decodes := by rintro position ⟨⟩; exact hfault position rfl

theorem Sound.bind {reading : Reading α} {next : α → Reading β} {middle : α → Nat → Prop}
    {post : β → Nat → Prop} (hfirst : Sound text first middle reading)
    (hnext : ∀ value place, middle value place → Sound text place post (next value)) :
    Sound text first post (reading >>= next) := by
  obtain ⟨place, hpath, hmiddle⟩ := hfirst.path
  cases hend : reading.outcome with
  | error fault =>
      rw [bind_of_error hend]
      refine ⟨⟨place, hpath, by rintro _ ⟨⟩⟩, hfirst.moves, ?_⟩
      rintro position ⟨⟩
      exact hfirst.decodes position hend
  | ok value =>
      have hrest := hnext value place (hmiddle value hend)
      obtain ⟨last, hothers, hpost⟩ := hrest.path
      rw [bind_of_ok hend]
      exact ⟨⟨last, hpath.append hothers, hpost⟩,
        List.forall_mem_append.mpr ⟨hfirst.moves, hrest.moves⟩, hrest.decodes⟩

/-- The cursor stands at the place, between two characters. -/
def Lands (text : String) (cursor : Cursor) (place : Nat) : Prop :=
  cursor.At text ∧ cursor.position = place

variable {cursor : Cursor}

theorem sound_passing {byte : UInt8} (hat : cursor.At text)
    (hhead : cursor.rest.head? = some byte) :
    Move.Sound text ⟨cursor.position, cursor.position + 1, false⟩ where
  forward := Nat.le_succ _
  inside := by
    obtain ⟨rest, hrest⟩ := List.head?_eq_some_iff.mp hhead
    have hsize := hat.position_add
    rw [hrest, List.length_cons] at hsize
    change cursor.position + 1 ≤ text.utf8ByteSize
    omega
  whole := by rintro ⟨⟩

theorem sound_pass {char : Char} (hchar : char.toNat < 128) (hat : cursor.At text)
    (hsees : cursor.sees char = true) :
    Sound text cursor.position (Lands text) cursor.pass where
  path := ⟨cursor.position + 1, ⟨rfl, rfl⟩, by rintro _ ⟨⟩; exact ⟨hat.skip hchar hsees, rfl⟩⟩
  moves := List.forall_mem_singleton.mpr (sound_passing hat ((sees_iff ..).mp hsees))
  decodes := by rintro _ ⟨⟩

/-- The next byte may be a part of a character. It is a whole one if it is ASCII. -/
theorem sound_next (hat : cursor.At text) :
    Sound text cursor.position
      (fun result place => ∀ char : Char, char.toNat < 128 → result.1 = ascii char →
        Lands text result.2 place) cursor.next := by
  unfold next
  split
  case h_1 => exact .fail (by rintro _ ⟨⟩)
  case h_2 byte rest hrest =>
    have hhead : cursor.rest.head? = some byte := by rw [hrest, List.head?_cons]
    refine ⟨⟨cursor.position + 1, ⟨rfl, rfl⟩, ?_⟩, ?_, by rintro _ ⟨⟩⟩
    · rintro _ ⟨⟩ char hchar rfl
      exact ⟨hat.skip hchar ((sees_iff ..).mpr hhead), rfl⟩
    · exact List.forall_mem_singleton.mpr (sound_passing hat hhead)

theorem sound_expect {wanted : Char} (hwanted : wanted.toNat < 128) (hat : cursor.At text) :
    Sound text cursor.position (Lands text) (cursor.expect wanted) := by
  refine (sound_next hat).bind ?_
  rintro ⟨found, after⟩ place hlands
  dsimp only
  split
  case isTrue hfound => exact .pure (hlands wanted hwanted hfound)
  case isFalse => exact .fail (by rintro _ ⟨⟩)

/-- The bytes looked at for a name are whole characters, so they can be decoded. -/
theorem sound_identifier {stops : List Char} (hstops : ∀ stop ∈ stops, stop.toNat < 128)
    (hat : cursor.At text) :
    Sound text cursor.position (fun result => Lands text result.2) (cursor.identifier stops) where
  path := by
    refine ⟨_, ⟨rfl, rfl⟩, ?_⟩
    rintro ⟨name, after⟩ hread
    obtain ⟨hname, -, hrest, -, hposition⟩ := (identifier_eq_ok_iff_takeWhile ..).mp hread
    have hafter : after = cursor.behindName stops := by
      cases after
      rw [hname] at hposition
      exact congrArg₂ Cursor.mk hposition hrest
    rw [hafter]
    exact ⟨hat.behindName hstops, rfl⟩
  moves := by
    have hbehind := hat.behindName hstops
    exact List.forall_mem_singleton.mpr ⟨Nat.le_add_right _ _,
      Nat.le_of_add_right_le hbehind.position_add.le, fun _ => ⟨hat.between, hbehind.between⟩⟩
  decodes := hat.identifier_decodes hstops

/-- Started between two characters, the reader ends between two, and splits none on the way. -/
def SplitsNone (text : String) (reader : Reader α) : Prop :=
  ∀ cursor, cursor.At text →
    Sound text cursor.position (fun result => Lands text result.2) (reader cursor)

theorem sound_repeatUntil {done : Cursor → Bool} {item : Reader α}
    (hitem : ∀ cursor, cursor.At text → done cursor = false →
      Sound text cursor.position (fun result => Lands text result.2) (item cursor))
    (budget : Nat) (hat : cursor.At text) :
    Sound text cursor.position
      (fun result place => Lands text result.2 place ∧ done result.2 = true)
      (repeatUntil done item budget cursor) := by
  induction budget generalizing cursor with
  | zero => exact .fail (by rintro _ ⟨⟩)
  | succ budget ih =>
      unfold repeatUntil
      split
      case isTrue hdone => exact .pure ⟨⟨hat, rfl⟩, hdone⟩
      case isFalse hdone =>
        refine (hitem cursor hat (by simpa using hdone)).bind ?_
        rintro ⟨value, after⟩ _ ⟨hafter, rfl⟩
        refine (ih hafter).bind ?_
        rintro ⟨values, last⟩ place hlast
        exact .pure hlast

theorem SplitsNone.manyUntil {item : Reader α} (hitem : SplitsNone text item)
    (done : Cursor → Bool) (hat : cursor.At text) :
    Sound text cursor.position
      (fun result place => Lands text result.2 place ∧ done result.2 = true)
      (manyUntil done item cursor) :=
  sound_repeatUntil (fun cursor hat _ => hitem cursor hat) _ hat

section Inner

variable {inner : Reader Erasure}

theorem typeWith_splitsNone (hinner : SplitsNone text inner) :
    SplitsNone text (typeWith inner) := by
  intro cursor hat
  unfold typeWith
  split
  case isTrue hsees =>
    obtain ⟨letter, hletter, hsees⟩ := (seesAny_iff ..).mp hsees
    refine (sound_pass (primitive_not_start letter hletter).1 hat hsees).bind ?_
    intro after place hafter
    exact .pure hafter
  case isFalse =>
    refine (hinner cursor hat).bind ?_
    rintro ⟨erasure, after⟩ place hafter
    exact .pure hafter

theorem sound_passSign (hat : cursor.At text) :
    Sound text cursor.position (Lands text) (passSign cursor) := by
  unfold passSign
  split
  case isTrue hsees =>
    obtain ⟨sign, hsign, hsees⟩ := (seesAny_iff ..).mp hsees
    have hascii : ∀ sign ∈ ['+', '-'], sign.toNat < 128 := by simp
    exact sound_pass (hascii sign hsign) hat hsees
  case isFalse => exact .pure ⟨hat, rfl⟩

theorem typeArgumentWith_splitsNone (hinner : SplitsNone text inner) :
    SplitsNone text (typeArgumentWith inner) := by
  intro cursor hat
  unfold typeArgumentWith
  split
  case isTrue hsees =>
    refine (sound_pass (by decide) hat hsees).bind ?_
    intro after place hafter
    exact .pure hafter
  case isFalse =>
    refine (sound_passSign hat).bind ?_
    rintro bound _ ⟨hbound, rfl⟩
    refine (hinner bound hbound).bind ?_
    rintro ⟨erasure, after⟩ place hafter
    exact .pure hafter

theorem sound_typeArgumentsWith (hinner : SplitsNone text inner) (hat : cursor.At text) :
    Sound text cursor.position (Lands text) (typeArgumentsWith inner cursor) := by
  unfold typeArgumentsWith
  split
  case isTrue hsees =>
    refine (sound_pass (by decide) hat hsees).bind ?_
    rintro opened _ ⟨hopened, rfl⟩
    refine ((typeArgumentWith_splitsNone hinner).manyUntil _ hopened).bind ?_
    rintro ⟨arguments, close⟩ _ ⟨⟨hclose, rfl⟩, -⟩
    exact sound_expect (by decide) hclose
  case isFalse => exact .pure ⟨hat, rfl⟩

theorem innerNameWith_splitsNone (hinner : SplitsNone text inner) :
    SplitsNone text (innerNameWith inner) := by
  intro cursor hat
  refine (sound_next hat).bind ?_
  rintro ⟨byte, dot⟩ place hlands
  dsimp only
  split
  case isTrue hbyte =>
    obtain ⟨hdot, rfl⟩ := hlands '.' (by decide) hbyte
    refine (sound_identifier nameStops_ascii hdot).bind ?_
    rintro ⟨name, behind⟩ _ ⟨hbehind, rfl⟩
    refine (sound_typeArgumentsWith hinner hbehind).bind ?_
    intro after place hafter
    exact .pure hafter
  case isFalse => exact .fail (by rintro _ ⟨⟩)

theorem classTypeWith_splitsNone (hinner : SplitsNone text inner) :
    SplitsNone text (classTypeWith inner) := by
  intro cursor hat
  refine (sound_identifier nameStops_ascii hat).bind ?_
  rintro ⟨outer, behind⟩ _ ⟨hbehind, rfl⟩
  refine (sound_typeArgumentsWith hinner hbehind).bind ?_
  rintro rest _ ⟨hrest, rfl⟩
  refine ((innerNameWith_splitsNone hinner).manyUntil _ hrest).bind ?_
  rintro ⟨names, close⟩ _ ⟨⟨hclose, rfl⟩, hend⟩
  refine (sound_pass (by decide) hclose hend).bind ?_
  intro after place hafter
  exact .pure hafter

theorem referenceWith_splitsNone (hinner : SplitsNone text inner) :
    SplitsNone text (referenceWith inner) := by
  intro cursor hat
  refine (sound_next hat).bind ?_
  rintro ⟨byte, opened⟩ place hlands
  dsimp only
  split
  case isTrue hbyte =>
    obtain ⟨hopened, rfl⟩ := hlands 'L' (by decide) hbyte
    refine (classTypeWith_splitsNone hinner opened hopened).bind ?_
    rintro ⟨cls, after⟩ place hafter
    exact .pure hafter
  split
  case isTrue hbyte =>
    obtain ⟨hopened, rfl⟩ := hlands 'T' (by decide) hbyte
    refine (sound_identifier (by simp) hopened).bind ?_
    rintro ⟨name, behind⟩ _ ⟨hbehind, rfl⟩
    refine (sound_expect (by decide) hbehind).bind ?_
    intro after place hafter
    exact .pure hafter
  split
  case isTrue hbyte =>
    obtain ⟨hopened, rfl⟩ := hlands '[' (by decide) hbyte
    refine (typeWith_splitsNone hinner opened hopened).bind ?_
    rintro ⟨element, after⟩ place hafter
    exact .pure hafter
  case isFalse => exact .fail (by rintro _ ⟨⟩)

end Inner

theorem nestedReference_splitsNone (depth : Nat) : SplitsNone text (nestedReference depth) := by
  induction depth with
  | zero => exact fun _ _ => .fail (by rintro _ ⟨⟩)
  | succ depth ih => exact referenceWith_splitsNone ih

theorem referenceType_splitsNone : SplitsNone text referenceType :=
  fun cursor hat => nestedReference_splitsNone _ cursor hat

theorem javaType_splitsNone : SplitsNone text javaType :=
  typeWith_splitsNone referenceType_splitsNone

theorem classBound_splitsNone : SplitsNone text classBound := by
  intro cursor hat
  unfold classBound
  split
  case isTrue =>
    refine (referenceType_splitsNone cursor hat).bind ?_
    rintro ⟨bound, after⟩ place hafter
    exact .pure hafter
  case isFalse => exact .pure ⟨hat, rfl⟩

theorem sound_interfaceBound (hat : cursor.At text) (hdone : (!cursor.sees ':') = false) :
    Sound text cursor.position (fun result => Lands text result.2) (interfaceBound cursor) := by
  have hcolon : cursor.sees ':' = true := by simpa using hdone
  refine (sound_pass (by decide) hat hcolon).bind ?_
  rintro bound _ ⟨hbound, rfl⟩
  exact referenceType_splitsNone bound hbound

theorem typeParameter_splitsNone : SplitsNone text typeParameter := by
  intro cursor hat
  refine (sound_identifier parameterStops_ascii hat).bind ?_
  rintro ⟨name, behind⟩ _ ⟨hbehind, rfl⟩
  refine (sound_expect (by decide) hbehind).bind ?_
  rintro colon _ ⟨hcolon, rfl⟩
  refine (classBound_splitsNone colon hcolon).bind ?_
  rintro ⟨bound, next⟩ _ ⟨hnext, rfl⟩
  refine (sound_repeatUntil (fun _ => sound_interfaceBound) _ hnext).bind ?_
  rintro ⟨bounds, after⟩ place ⟨hafter, -⟩
  exact .pure hafter

theorem typeParameters_splitsNone : SplitsNone text typeParameters := by
  intro cursor hat
  unfold typeParameters
  split
  case isTrue hsees =>
    refine (sound_pass (by decide) hat hsees).bind ?_
    rintro opened _ ⟨hopened, rfl⟩
    refine (typeParameter_splitsNone.manyUntil _ hopened).bind ?_
    rintro ⟨parameters, close⟩ _ ⟨⟨hclose, rfl⟩, -⟩
    refine (sound_expect (by decide) hclose).bind ?_
    intro after place hafter
    exact .pure hafter
  case isFalse => exact .pure ⟨hat, rfl⟩

theorem sound_parametersAndResult (hat : cursor.At text) :
    Sound text cursor.position (Lands text) (parametersAndResult cursor) := by
  refine (sound_expect (by decide) hat).bind ?_
  rintro opened _ ⟨hopened, rfl⟩
  refine (javaType_splitsNone.manyUntil _ hopened).bind ?_
  rintro ⟨parameters, close⟩ _ ⟨⟨hclose, rfl⟩, -⟩
  refine (sound_expect (by decide) hclose).bind ?_
  rintro result _ ⟨hresult, rfl⟩
  split
  case isTrue hsees => exact sound_pass (by decide) hresult hsees
  case isFalse =>
    refine (javaType_splitsNone result hresult).bind ?_
    rintro ⟨type, after⟩ place hafter
    exact .pure hafter

theorem thrownType_splitsNone : SplitsNone text thrownType := by
  intro cursor hat
  refine (sound_expect (by decide) hat).bind ?_
  rintro opened _ ⟨hopened, rfl⟩
  refine (referenceType_splitsNone opened hopened).bind ?_
  rintro ⟨erasure, after⟩ place hafter
  dsimp only
  split
  case isTrue => exact .fail (by rintro _ ⟨⟩)
  case isFalse => exact .pure hafter

/-- A signature that is read is read to its end. -/
theorem sound_readMethod (text : String) :
    Sound text 0 (fun _ place => place = text.utf8ByteSize) (readMethod text) := by
  refine (typeParameters_splitsNone _ (at_start text)).bind ?_
  rintro ⟨bounds, opening⟩ _ ⟨hopening, rfl⟩
  refine (sound_parametersAndResult hopening).bind ?_
  rintro throwing _ ⟨hthrowing, rfl⟩
  refine (thrownType_splitsNone.manyUntil _ hthrowing).bind ?_
  rintro ⟨thrown, last⟩ _ ⟨⟨hlast, rfl⟩, hend⟩
  apply Sound.pure
  have hsize := hlast.position_add
  rw [List.isEmpty_iff.mp hend, List.length_nil, Nat.add_zero] at hsize
  exact hsize

end Reading

/-- Whatever text is read as a signature, the cursor goes forward from the start, never beyond the
end, and all of the way if the text is read. What is taken for a name starts and ends between two
characters, so no name fails to be decoded. -/
theorem parse_splitsNone (text : String) :
    (readMethod text).outcome = parse text ∧
      (∃ last, Path 0 (readMethod text).moves last ∧
        ∀ signature, parse text = .ok signature → last = text.utf8ByteSize) ∧
      (∀ move ∈ (readMethod text).moves,
        move.start ≤ move.stop ∧ move.stop ≤ text.utf8ByteSize ∧
          (move.isName = true → Between text move.start ∧ Between text move.stop)) ∧
      ∀ position, parse text ≠ .error (.notUtf8 position) := by
  have hsound := Reading.sound_readMethod text
  refine ⟨rfl, hsound.path, ?_, hsound.decodes⟩
  intro move hmove
  have hmove := hsound.moves move hmove
  exact ⟨hmove.forward, hmove.inside, hmove.whole⟩

end ExceptionFlow.Signature

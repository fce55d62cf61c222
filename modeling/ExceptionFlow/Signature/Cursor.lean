/-!
Reading a signature from the front, byte by byte. A cursor knows how many bytes of the UTF-8 text it
has passed, because that is how faults name their place. A reading tells all moves of the cursor,
and not only where it has come to in the end.
-/
namespace ExceptionFlow.Signature

/-- Why a signature cannot be read. Positions count the bytes of its UTF-8 text. -/
inductive Fault where
  | truncated (position : Nat)
  | expected (wanted : Char) (position : Nat) (found : UInt8)
  | identifier (position : Nat)
  | notUtf8 (position : Nat)
  | unexpected (found : UInt8) (position : Nat)
  | unexpectedInClass (found : UInt8) (position : Nat)
  | thrownArray
  deriving DecidableEq

/-- The character whose code point is the byte. -/
def byteChar (byte : UInt8) : Char :=
  Char.ofNat byte.toNat

def Fault.message : Fault → String
  | truncated position => s!"Signature truncated at {position}"
  | expected wanted position found =>
    s!"Expected '{wanted}' at {position}, found '{byteChar found}'"
  | identifier position => s!"Empty or unterminated identifier at {position}"
  | notUtf8 position => s!"Identifier at {position} is not UTF-8"
  | unexpected found position => s!"Unexpected '{byteChar found}' at {position}"
  | unexpectedInClass found position =>
    s!"Unexpected '{byteChar found}' in class type at {position}"
  | thrownArray => "Array type in throws clause"

/-- The byte of an ASCII character. -/
def ascii (char : Char) : UInt8 :=
  UInt8.ofNat char.toNat

/-- What is left of a text, and how many bytes came before it. -/
structure Cursor where
  position : Nat
  rest : List UInt8
  deriving DecidableEq

/-- A move of the cursor over the bytes from `start` up to `stop`. -/
structure Move where
  start : Nat
  stop : Nat
  /-- The bytes are taken for a name. -/
  isName : Bool

/-- The moves of the cursor while something is read, and how the reading ends. -/
structure Reading (α : Type) where
  moves : List Move
  outcome : Except Fault α

namespace Reading

variable {α β : Type}

instance : Monad Reading where
  pure value := { moves := [], outcome := .ok value }
  bind first next :=
    match first.outcome with
    | .error fault => { moves := first.moves, outcome := .error fault }
    | .ok value =>
      let rest := next value
      { moves := first.moves ++ rest.moves, outcome := rest.outcome }

def fail (fault : Fault) : Reading α :=
  { moves := [], outcome := .error fault }

@[simp] theorem outcome_pure (value : α) : (pure value : Reading α).outcome = .ok value := rfl

@[simp] theorem outcome_fail (fault : Fault) : (fail fault : Reading α).outcome = .error fault :=
  rfl

theorem bind_of_error {first : Reading α} {fault : Fault} (h : first.outcome = .error fault)
    (next : α → Reading β) :
    first >>= next = { moves := first.moves, outcome := .error fault } := by
  simp [bind, h]

theorem bind_of_ok {first : Reading α} {value : α} (h : first.outcome = .ok value)
    (next : α → Reading β) :
    first >>= next =
      { moves := first.moves ++ (next value).moves, outcome := (next value).outcome } := by
  simp [bind, h]

theorem bind_eq_ok_iff (first : Reading α) (next : α → Reading β) (result : β) :
    (first >>= next).outcome = .ok result ↔
      ∃ value, first.outcome = .ok value ∧ (next value).outcome = .ok result := by
  cases h : first.outcome with
  | error fault => simp [bind_of_error h]
  | ok value => simp [bind_of_ok h]

end Reading

/-- Reads a value off the front of what is left. -/
abbrev Reader (α : Type) := Cursor → Reading (α × Cursor)

namespace Cursor

def start (text : String) : Cursor :=
  { position := 0, rest := text.toUTF8.data.toList }

def atEnd (cursor : Cursor) : Bool :=
  cursor.rest.isEmpty

/-- The next byte is this ASCII character. -/
def sees (cursor : Cursor) (char : Char) : Bool :=
  cursor.rest.head? == some (ascii char)

theorem sees_iff (cursor : Cursor) (char : Char) :
    cursor.sees char = true ↔ cursor.rest.head? = some (ascii char) := by
  simp [sees]

/-- The next byte is one of these ASCII characters. -/
def seesAny (cursor : Cursor) (chars : List Char) : Bool :=
  chars.any cursor.sees

def skip (cursor : Cursor) : Cursor :=
  { position := cursor.position + 1, rest := cursor.rest.tail }

/-- The cursor moves over the next byte. -/
def pass (cursor : Cursor) : Reading Cursor :=
  { moves := [⟨cursor.position, cursor.position + 1, false⟩], outcome := .ok cursor.skip }

/-- The next byte, which the cursor passes. At the end it stays where it is. -/
def next : Reader UInt8 := fun cursor =>
  match cursor.rest with
  | [] => .fail (.truncated cursor.position)
  | byte :: _ => do
    let after ← cursor.pass
    return (byte, after)

@[simp] theorem outcome_pass (cursor : Cursor) : cursor.pass.outcome = .ok cursor.skip := rfl

theorem outcome_pass_bind {α : Type} (cursor : Cursor) (next : Cursor → Reading α) :
    (cursor.pass >>= next).outcome = (next cursor.skip).outcome :=
  rfl

theorem next_eq_ok_iff (cursor after : Cursor) (byte : UInt8) :
    cursor.next.outcome = .ok (byte, after) ↔
      cursor.rest.head? = some byte ∧ after = cursor.skip := by
  unfold next
  cases cursor.rest with
  | nil => simp
  | cons first rest => simp [outcome_pass_bind, eq_comm]

def expect (wanted : Char) (cursor : Cursor) : Reading Cursor := do
  let (found, after) ← cursor.next
  if found = ascii wanted then return after
  else .fail (.expected wanted cursor.position found)

/-- The text before the first of the bytes `stops`, which has to come and is left standing. The
cursor passes the bytes whether they make a name or not. -/
def identifier (stops : List Char) : Reader String := fun cursor =>
  let name := cursor.rest.takeWhile fun byte => !stops.any fun stop => byte == ascii stop
  let after : Cursor :=
    { position := cursor.position + name.length, rest := cursor.rest.drop name.length }
  { moves := [⟨cursor.position, after.position, true⟩]
    outcome :=
      if name.isEmpty || after.rest.isEmpty then .error (.identifier cursor.position)
      else
        match String.fromUTF8? ⟨name.toArray⟩ with
        | some text => .ok (text, after)
        | none => .error (.notUtf8 cursor.position) }

end Cursor

/-- Reads items until `done`, `budget` of them at most. -/
def repeatUntil {α : Type} (done : Cursor → Bool) (item : Reader α) :
    (budget : Nat) → Reader (List α)
  | 0, cursor => .fail (.truncated cursor.position)
  | budget + 1, cursor =>
    if done cursor then return ([], cursor)
    else do
      let (first, cursor) ← item cursor
      let (others, cursor) ← repeatUntil done item budget cursor
      return (first :: others, cursor)

/-- Reads items until `done`. An item takes at least one byte, so there are no more items than
bytes. -/
def manyUntil {α : Type} (done : Cursor → Bool) (item : Reader α) : Reader (List α) :=
  fun cursor => repeatUntil done item (cursor.rest.length + 1) cursor

end ExceptionFlow.Signature

/-!
Lowercase hexadecimal numbers.
-/
namespace ExceptionFlow.Text

/-- The hexadecimal digits of a number, without leading zeros. -/
def hexDigits (value : Nat) : String :=
  String.ofList (Nat.toDigits 16 value)

/-- A number as `0x1a`. -/
def hex (value : Nat) : String :=
  "0x" ++ hexDigits value

/-- A number as `0x001a`, with four digits at least. -/
def paddedHex (value : Nat) : String :=
  let digits := Nat.toDigits 16 value
  "0x" ++ String.ofList (List.replicate (4 - digits.length) '0' ++ digits)

end ExceptionFlow.Text

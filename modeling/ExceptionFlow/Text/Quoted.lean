import ExceptionFlow.Text.Hex
import ExceptionFlow.Text.Visible
/-!
Quoted text: what stands between double quotes can be read back from one line of visible characters.
-/
namespace ExceptionFlow.Text

/-- The written form of one character between double quotes. -/
def quoteChar : Char → String
  | '\x00' => "\\0"
  | '\t' => "\\t"
  | '\r' => "\\r"
  | '\n' => "\\n"
  | '"' => "\\\""
  | '\\' => "\\\\"
  | char =>
    if isVisible char then String.singleton char
    else "\\u\x7b" ++ hexDigits char.toNat ++ "\x7d"

/-- The text between double quotes. -/
def quote (text : String) : String :=
  "\"" ++ String.join (text.toList.map quoteChar) ++ "\""

end ExceptionFlow.Text

import MotionRack.Text.Invisible

/-!
# Quoted values

Values as messages quote them: between double quotes, on one line, and with every character that
would leave no mark written as its code point.
-/
namespace MotionRack.Quoted

/-- The lower-case hexadecimal digits of a code point, without leading zeros. -/
def codePoint (c : Char) : String := String.ofList (Nat.toDigits 16 c.toNat)

/-- One character between the quotes. The single quote stands for itself. -/
def escape (c : Char) : String :=
  match c with
  | '\x00' => "\\0"
  | '\t' => "\\t"
  | '\r' => "\\r"
  | '\n' => "\\n"
  | '"' => "\\\""
  | '\\' => "\\\\"
  | c => if Invisible.holds c then "\\u\x7b" ++ codePoint c ++ "\x7d" else c.toString

/-- A whole text in quotes. -/
def render (text : String) : String :=
  "\"" ++ String.join (text.toList.map escape) ++ "\""

end MotionRack.Quoted

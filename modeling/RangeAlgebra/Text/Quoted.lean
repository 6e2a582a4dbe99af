import RangeAlgebra.Text.ExtendingMark
import RangeAlgebra.Text.Invisible

/-!
Text between quotes, written so that each character of it can be seen. A character stands for
itself unless it would end the quotation, would not be seen, or would be drawn into the
character before it. Those are written with a backslash, by a letter where one is customary and
by their number otherwise.
-/

namespace RangeAlgebra.Text

/-- A character by its number in hexadecimal. -/
def byNumber (c : Char) : String :=
  "\\u\x7b" ++ String.ofList (Nat.toDigits 16 c.toNat) ++ "\x7d"

def escape (c : Char) : String :=
  match c with
  | '"' => "\\\""
  | '\\' => "\\\\"
  | '\n' => "\\n"
  | '\r' => "\\r"
  | '\t' => "\\t"
  | '\x00' => "\\0"
  | c => if isExtendingMark c || isInvisible c then byNumber c else c.toString

def quote (text : String) : String :=
  "\"" ++ String.join (text.toList.map escape) ++ "\""

end RangeAlgebra.Text

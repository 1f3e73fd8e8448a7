import SensorIngest.Text.Glyph

/-!
# Quoted text

Text from outside is shown in double quotes. Quotes and backslashes get a backslash, the usual
controls their letter, and all else that cannot be shown by itself is given by its code point.
-/

namespace SensorIngest.Text

/-- A character inside double quotes. -/
def escapeChar (c : Char) : List Char :=
  match c with
  | '\x00' => ['\\', '0']
  | '\t' => ['\\', 't']
  | '\r' => ['\\', 'r']
  | '\n' => ['\\', 'n']
  | '\\' => ['\\', '\\']
  | '"' => ['\\', '"']
  | c =>
    if Glyph.isShown c then [c]
    else ['\\', 'u', '\x7b'] ++ Nat.toDigits 16 c.toNat ++ ['\x7d']

def quote (text : String) : String :=
  String.ofList ('"' :: text.toList.flatMap escapeChar ++ ['"'])

end SensorIngest.Text

import RowStore.Text.Visible

namespace RowStore.Text

def hexDigits (n : Nat) : List Char := Nat.toDigits 16 n

/-- Quotes, backslashes and the common controls are escaped by a letter, and what is not
visible by its code point. -/
def quotedChar (c : Char) : List Char :=
  match c with
  | '\x00' => ['\\', '0']
  | '\t' => ['\\', 't']
  | '\n' => ['\\', 'n']
  | '\r' => ['\\', 'r']
  | '"' => ['\\', '"']
  | '\\' => ['\\', '\\']
  | c => if isVisible c then [c] else ['\\', 'u', '\x7b'] ++ hexDigits c.toNat ++ ['\x7d']

def quoted (s : String) : String :=
  String.ofList (['"'] ++ s.toList.flatMap quotedChar ++ ['"'])

end RowStore.Text

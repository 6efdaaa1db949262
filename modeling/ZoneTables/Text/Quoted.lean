import ZoneTables.Text.Decimal
import ZoneTables.Text.Visible

/-!
# Quoted text

Names in log lines that show records stand between double quotes, with
escapes for quotes, backslashes and characters that cannot be seen.
-/

namespace ZoneTables.Text

def shortHexDigits (n : Nat) : List Char := Nat.toDigits 16 n

def quoteChar (c : Char) : List Char :=
  match c with
  | '"' => ['\\', '"']
  | '\\' => ['\\', '\\']
  | '\x00' => ['\\', '0']
  | '\t' => ['\\', 't']
  | '\n' => ['\\', 'n']
  | '\r' => ['\\', 'r']
  | _ =>
    if isVisible c then [c]
    else '\\' :: 'u' :: '\x7b' :: shortHexDigits c.toNat ++ ['\x7d']

def quote (s : String) : String :=
  String.ofList ('"' :: s.toList.flatMap quoteChar ++ ['"'])

end ZoneTables.Text

import CrdForge.Text.Hexadecimal
import CrdForge.Text.Printable

/-! Quoted text, as messages show names: between double quotes, with everything that could be
mistaken or not be seen written as an escape. -/
namespace CrdForge.Text

/-- One character inside double quotes. -/
def quotedChar (c : Char) : List Char :=
  match c with
  | '\x00' => ['\\', '0']
  | '\t' => ['\\', 't']
  | '\n' => ['\\', 'n']
  | '\r' => ['\\', 'r']
  | '"' => ['\\', '"']
  | '\\' => ['\\', '\\']
  | c => if isPrintable c then [c] else '\\' :: 'u' :: '{' :: hexDigits c.toNat ++ ['}']

/-- The text between double quotes. -/
def quoted (text : String) : String :=
  String.ofList ('"' :: text.toList.flatMap quotedChar ++ ['"'])

/-- Quoted texts, separated by commas. -/
def quotedList (texts : List String) : String :=
  String.intercalate ", " (texts.map quoted)

end CrdForge.Text

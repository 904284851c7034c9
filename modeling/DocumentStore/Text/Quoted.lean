import DocumentStore.Text.Unprintable
set_option autoImplicit false

/-!
# Quoted text

Messages show a text between double quotes.  The quote, the backslash and the four named controls
have short escapes; any other unprintable character is shown by its code point in lower-case
hexadecimal.  A single quote stands for itself.
-/

namespace DocumentStore.Text

/-- A number in lower-case hexadecimal without leading zeros. -/
def hexadecimal (n : Nat) : String := String.ofList (Nat.toDigits 16 n)

/-- A character as it appears between the quotes. -/
def quoteChar (c : Char) : String :=
  match c with
  | '"' => "\\\""
  | '\\' => "\\\\"
  | '\n' => "\\n"
  | '\r' => "\\r"
  | '\t' => "\\t"
  | '\x00' => "\\0"
  | c => if isUnprintable c then "\\u\x7b" ++ hexadecimal c.toNat ++ "\x7d" else c.toString

/-- A text between double quotes. -/
def quoted (s : String) : String :=
  "\"" ++ String.join (s.toList.map quoteChar) ++ "\""

end DocumentStore.Text

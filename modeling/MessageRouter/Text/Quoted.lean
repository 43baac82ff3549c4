import MessageRouter.Text.Printable
/-!
# `Text.Quoted` — quoted strings and characters in messages

* `escape`: how one character is written between quotes.
* `quoted`: a text between double quotes; a single quote inside it stands as it is.
* `quotedChar`: a character between single quotes; a double quote inside them stands as it is.

A character that is not plain (`Text.isPlain`) is written by its code point in hexadecimal.
-/
namespace MessageRouter
namespace Text

/-- A code point in hexadecimal between braces, after a backslash and `u`. -/
def escapeCodePoint (c : Char) : List Char :=
  '\\' :: 'u' :: '\x7b' :: Nat.toDigits 16 c.toNat ++ ['\x7d']

/-- One character between quotes of the kind `quote`. -/
def escape (quote c : Char) : List Char :=
  if c = quote then ['\\', quote]
  else if c = '\\' then ['\\', '\\']
  else if c = '\n' then ['\\', 'n']
  else if c = '\r' then ['\\', 'r']
  else if c = '\t' then ['\\', 't']
  else if c = '\x00' then ['\\', '0']
  else if isPlain c then [c]
  else escapeCodePoint c

/-- A text between double quotes. -/
def quoted (s : String) : String :=
  String.ofList ('"' :: s.toList.flatMap (escape '"') ++ ['"'])

/-- A character between single quotes. -/
def quotedChar (c : Char) : String :=
  String.ofList ('\'' :: escape '\'' c ++ ['\''])

end Text
end MessageRouter

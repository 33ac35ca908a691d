import LineScript.Text.Hidden

/-!
# Texts quoted for a reader

Inside a message a text stands between quotes, with a backslash before quotes and backslashes,
a letter for the common control characters, and the code point of any other character that
could not be seen.
-/

namespace LineScript

/-- A character of a quoted text. -/
def shownChar (c : Char) : List Char :=
  if c = '"' then ['\\', '"']
  else if c = '\\' then ['\\', '\\']
  else if c = '\n' then ['\\', 'n']
  else if c = '\r' then ['\\', 'r']
  else if c = '\t' then ['\\', 't']
  else if c = '\x00' then ['\\', '0']
  else if isHidden c then '\\' :: 'u' :: '{' :: Nat.toDigits 16 c.toNat ++ ['}']
  else [c]

/-- A text between quotes. -/
def quotedText (text : String) : String :=
  String.ofList ('"' :: text.toList.flatMap shownChar ++ ['"'])

end LineScript

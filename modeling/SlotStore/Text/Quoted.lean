import SlotStore.Text.Invisible

/-!
# Quoted text

A text in messages and query descriptions stands between double quotes.  A quote and a backslash are
written after a backslash, the common controls by a letter, and any other invisible character by its
code point in braces.

* `Text.escape` : the written form of one character;
* `Text.quote` : the written form of a text.
-/

namespace SlotStore.Text

/-- A code point in lower-case hexadecimal between braces. -/
def codePoint (n : Nat) : List Char :=
  '\\' :: 'u' :: '\x7b' :: (Nat.toDigits 16 n ++ ['\x7d'])

/-- The written form of one character inside quotes. -/
def escape (c : Char) : List Char :=
  match c with
  | '\x00' => ['\\', '0']
  | '\t' => ['\\', 't']
  | '\n' => ['\\', 'n']
  | '\r' => ['\\', 'r']
  | '"' => ['\\', '"']
  | '\\' => ['\\', '\\']
  | c => if isInvisible c then codePoint c.toNat else [c]

/-- A text between quotes. -/
def quote (s : String) : String :=
  String.ofList ('"' :: (s.toList.flatMap escape ++ ['"']))

end SlotStore.Text

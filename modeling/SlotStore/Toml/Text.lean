import SlotStore.Key

/-!
# Blanks, comments, strings and keys of TOML

The pieces of a TOML text below its values.  A reader takes them off the front of a list of
characters and gives what is left.

* `blankLines?`, `lineEnd?` : what may stand around values;
* `string?` : a string in any of its four forms;
* `keyPath?` : a key, which may be dotted;
* `writeString` : a string in the form that shows it best.
-/

namespace SlotStore.Toml

/-! ## Blanks and comments -/

def isBlank (c : Char) : Bool := c = ' ' || c = '\t'

/-- What is left after blanks. -/
def skipBlanks (cs : List Char) : List Char := cs.dropWhile isBlank

/-- What is left after a line break. -/
def newline? : List Char → Option (List Char)
  | '\n' :: cs => some cs
  | '\r' :: '\n' :: cs => some cs
  | _ => none

/-- A tab, or a character from the blank on other than the delete character. -/
def isPlain (c : Char) : Bool := c = '\t' || (' ' ≤ c && c ≠ '\x7f')

/-- What is left after a comment, if one stands there. -/
def skipComment : List Char → List Char
  | '#' :: cs => cs.dropWhile isPlain
  | cs => cs

/-- What is left after the rest of a line: blanks, a comment, and the end of the line or text. -/
def lineEnd? (cs : List Char) : Option (List Char) :=
  match skipComment (skipBlanks cs) with
  | [] => some []
  | rest => newline? rest

/-- What is left after blanks, comments and line breaks; a comment has to end with a line break. -/
def blankLines? : (inComment : Bool) → List Char → Option (List Char)
  | false, '#' :: cs => blankLines? true cs
  | _, '\n' :: cs => blankLines? false cs
  | _, '\r' :: '\n' :: cs => blankLines? false cs
  | true, c :: cs => if isPlain c then blankLines? true cs else none
  | true, [] => none
  | false, c :: cs => if isBlank c then blankLines? false cs else some (c :: cs)
  | false, [] => some []

/-! ## Strings -/

/-- The character of a code point in hexadecimal. -/
def codePoint? (digits : List Char) : Option Char := do
  let values ← digits.mapM Key.hexDigit?
  let n := values.foldl (fun n d => 16 * n + d) 0
  if h : n.isValidChar then some (Char.ofNatAux n h) else none

/-- What an escaped letter stands for. -/
def escaped? : Char → Option Char
  | 'b' => some '\x08'
  | 'f' => some '\x0c'
  | 'n' => some '\n'
  | 'r' => some '\r'
  | 't' => some '\t'
  | '"' => some '"'
  | '\\' => some '\\'
  | _ => none

/-- Puts a character in front of what was read. -/
def consChar (c : Char) (r : Option (List Char × List Char)) : Option (List Char × List Char) :=
  r.map fun (s, rest) => (c :: s, rest)

/-- The rest of a string in double quotes. -/
def quotedRest? : List Char → Option (List Char × List Char)
  | '"' :: cs => some ([], cs)
  | '\\' :: 'u' :: a :: b :: c :: d :: cs => do
    consChar (← codePoint? [a, b, c, d]) (quotedRest? cs)
  | '\\' :: 'U' :: a :: b :: c :: d :: e :: f :: g :: h :: cs => do
    consChar (← codePoint? [a, b, c, d, e, f, g, h]) (quotedRest? cs)
  | '\\' :: c :: cs => do consChar (← escaped? c) (quotedRest? cs)
  | c :: cs => if isPlain c then consChar c (quotedRest? cs) else none
  | [] => none

/-- The rest of a string in single quotes. -/
def literalRest? : List Char → Option (List Char × List Char)
  | '\'' :: cs => some ([], cs)
  | c :: cs => if isPlain c then consChar c (literalRest? cs) else none
  | [] => none

/-- Where a reader of a long string stands with respect to an escaped line break. -/
inductive Fold
  | outside
  /-- After the backslash; blanks and a line break have to follow. -/
  | before
  /-- After the line break; blanks and line breaks are passed over. -/
  | after

/-- The rest of a string in three double quotes.  Up to two quotes may stand right before the
closing ones. -/
def longQuotedRest? : Fold → List Char → Option (List Char × List Char)
  | .before, '\n' :: cs => longQuotedRest? .after cs
  | .before, '\r' :: '\n' :: cs => longQuotedRest? .after cs
  | .before, c :: cs => if isBlank c then longQuotedRest? .before cs else none
  | .after, '\n' :: cs => longQuotedRest? .after cs
  | .after, '\r' :: '\n' :: cs => longQuotedRest? .after cs
  | _, '"' :: '"' :: '"' :: '"' :: '"' :: cs => some (['"', '"'], cs)
  | _, '"' :: '"' :: '"' :: '"' :: cs => some (['"'], cs)
  | _, '"' :: '"' :: '"' :: cs => some ([], cs)
  | _, '\\' :: 'u' :: a :: b :: c :: d :: cs => do
    consChar (← codePoint? [a, b, c, d]) (longQuotedRest? .outside cs)
  | _, '\\' :: 'U' :: a :: b :: c :: d :: e :: f :: g :: h :: cs => do
    consChar (← codePoint? [a, b, c, d, e, f, g, h]) (longQuotedRest? .outside cs)
  | _, '\\' :: '\n' :: cs => longQuotedRest? .after cs
  | _, '\\' :: '\r' :: '\n' :: cs => longQuotedRest? .after cs
  | _, '\\' :: c :: cs =>
    if isBlank c then longQuotedRest? .before cs
    else do consChar (← escaped? c) (longQuotedRest? .outside cs)
  | _, '\n' :: cs => consChar '\n' (longQuotedRest? .outside cs)
  | _, '\r' :: '\n' :: cs => consChar '\n' (longQuotedRest? .outside cs)
  | .after, c :: cs =>
    if isBlank c then longQuotedRest? .after cs
    else if isPlain c then consChar c (longQuotedRest? .outside cs)
    else none
  | .outside, c :: cs =>
    if isPlain c then consChar c (longQuotedRest? .outside cs) else none
  | _, [] => none

/-- The rest of a string in three single quotes.  Up to two quotes may stand right before the
closing ones. -/
def longLiteralRest? : List Char → Option (List Char × List Char)
  | '\'' :: '\'' :: '\'' :: '\'' :: '\'' :: cs => some (['\'', '\''], cs)
  | '\'' :: '\'' :: '\'' :: '\'' :: cs => some (['\''], cs)
  | '\'' :: '\'' :: '\'' :: cs => some ([], cs)
  | '\n' :: cs => consChar '\n' (longLiteralRest? cs)
  | '\r' :: '\n' :: cs => consChar '\n' (longLiteralRest? cs)
  | c :: cs => if isPlain c then consChar c (longLiteralRest? cs) else none
  | [] => none

/-- What is left after a line break, if one stands there. -/
def skipNewline (cs : List Char) : List Char := (newline? cs).getD cs

/-- A string in one pair of quotes of either kind. -/
def shortString? (cs : List Char) : Option (String × List Char) :=
  let read := match cs with
    | '"' :: cs => quotedRest? cs
    | '\'' :: cs => literalRest? cs
    | _ => none
  read.map fun (s, rest) => (String.ofList s, rest)

/-- A string in any form.  A line break right after three opening quotes is not part of it. -/
def string? : List Char → Option (String × List Char)
  | '"' :: '"' :: '"' :: cs =>
    (longQuotedRest? .outside (skipNewline cs)).map fun (s, rest) => (String.ofList s, rest)
  | '\'' :: '\'' :: '\'' :: cs =>
    (longLiteralRest? (skipNewline cs)).map fun (s, rest) => (String.ofList s, rest)
  | cs => shortString? cs

/-! ## Keys -/

/-- A character of a key without quotes. -/
def isBare (c : Char) : Bool := c.isAlphanum || c = '-' || c = '_'

/-- One part of a key. -/
def simpleKey? (cs : List Char) : Option (String × List Char) :=
  match cs with
  | '"' :: _ => shortString? cs
  | '\'' :: _ => shortString? cs
  | _ =>
    let bare := cs.takeWhile isBare
    if bare = [] then none else some (String.ofList bare, cs.dropWhile isBare)

/-- A dotted key of at most `fuel` parts, with blanks around each. -/
def keyParts? : (fuel : Nat) → List Char → Option (List String × List Char)
  | 0, _ => none
  | fuel + 1, cs => do
    let (part, rest) ← simpleKey? (skipBlanks cs)
    match skipBlanks rest with
    | '.' :: rest => (keyParts? fuel rest).map fun (parts, rest) => (part :: parts, rest)
    | rest => some ([part], rest)

/-- How deep keys and values may nest. -/
def nestingLimit : Nat := 80

/-- A key as the path of its parts. -/
def keyPath? (cs : List Char) : Option (List String × List Char) := keyParts? (nestingLimit - 1) cs

/-! ## Writing strings -/

/-- The four forms of a string: by the kind of its quotes, one or three of them at each end. -/
inductive StringForm
  | quoted
  | literal
  | longQuoted
  | longLiteral
deriving DecidableEq, Repr

/-- The most characters `q` in a row. -/
def longestRun (q : Char) (cs : List Char) : Nat :=
  (cs.foldl (fun (longest, run) c =>
    if c = q then (max longest (run + 1), run + 1) else (longest, 0)) (0, 0)).1

/-- The form that shows a string best.  The forms are tried from the plainest on, and the first in
which every character stands for itself is taken; a string that none of them holds so is written
with escapes, over several lines if it has line breaks. -/
def bestForm (cs : List Char) : StringForm :=
  let visible := cs.all fun c => isPlain c || c = '\n'
  let backslash := cs.contains '\\'
  let breaks := cs.contains '\n'
  let doubles := longestRun '"' cs
  let singles := longestRun '\'' cs
  if visible && !backslash && !breaks && doubles = 0 then .quoted
  else if visible && !breaks && singles = 0 then .literal
  else if visible && !backslash && doubles ≤ 2 then .longQuoted
  else if visible && singles ≤ 2 then .longLiteral
  else if breaks then .longQuoted
  else .quoted

/-- A character other than a double quote in a string in double quotes; a line break stays in a long
string. -/
def escape (long : Bool) (c : Char) : List Char :=
  match c with
  | '\x08' => ['\\', 'b']
  | '\t' => ['\\', 't']
  | '\n' => if long then ['\n'] else ['\\', 'n']
  | '\x0c' => ['\\', 'f']
  | '\r' => ['\\', 'r']
  | '\\' => ['\\', '\\']
  | c =>
    if isPlain c then [c]
    else ['\\', 'u', '0', '0', Nat.digitChar (c.toNat / 16), (Nat.digitChar (c.toNat % 16)).toUpper]

/-- The inside of a string in double quotes, after `run` double quotes in a row that stand as they
are.  A long string may hold two of them, and the next one is escaped. -/
def escapeAll (long : Bool) : (run : Nat) → List Char → List Char
  | _, [] => []
  | run, c :: cs =>
    if c = '"' then
      if long && run < 2 then '"' :: escapeAll long (run + 1) cs
      else '\\' :: '"' :: escapeAll long 0 cs
    else escape long c ++ escapeAll long 0 cs

/-- A string in the form that shows it best.  In a long form the text begins on a line of its own if
it has line breaks. -/
def writeString (s : String) : String :=
  let cs := s.toList
  let start := if cs.contains '\n' then "\n" else ""
  match bestForm cs with
  | .quoted => "\"" ++ String.ofList (escapeAll false 0 cs) ++ "\""
  | .literal => "'" ++ s ++ "'"
  | .longQuoted => "\"\"\"" ++ start ++ String.ofList (escapeAll true 0 cs) ++ "\"\"\""
  | .longLiteral => "'''" ++ start ++ s ++ "'''"

end SlotStore.Toml

import SlotStore.Toml.Node
import SlotStore.Toml.Number

/-!
# TOML

Reading of TOML texts.

* `Toml.value?` : one value;
* `Toml.read?` : the members of the outermost table of a text.
-/

namespace SlotStore.Toml

/-! ## Values -/

/-- A word that stands for a value. -/
def word? (cs : List Char) : Option (Node × List Char) :=
  match cs with
  | 't' :: 'r' :: 'u' :: 'e' :: cs => some (.boolean true, cs)
  | 'f' :: 'a' :: 'l' :: 's' :: 'e' :: cs => some (.boolean false, cs)
  | cs => (specialFloat? false cs).map fun (x, rest) => (.float x, rest)

/-- A number or moment. -/
def numeral? (cs : List Char) : Option (Node × List Char) := do
  match ← moment? cs with
  | some ((), rest) => return (.moment, rest)
  | none =>
    match ← float? cs with
    | some (x, rest) => return (.float x, rest)
    | none =>
      let (n, rest) ← integer? cs
      return (.integer n, rest)

mutual

/-- A value.  Each step takes at least one character, so the number of characters is enough fuel. -/
def valueWith? : (fuel depth : Nat) → List Char → Option (Node × List Char)
  | 0, _, _ => none
  | fuel + 1, depth, cs =>
    match cs with
    | '"' :: _ => (string? cs).map fun (s, rest) => (.text s, rest)
    | '\'' :: _ => (string? cs).map fun (s, rest) => (.text s, rest)
    | '[' :: rest =>
      if depth + 1 < nestingLimit then do
        let (items, rest) ← items? fuel (depth + 1) rest
        return (.array items, rest)
      else none
    | '\x7b' :: rest =>
      if depth + 1 < nestingLimit then do
        match skipBlanks rest with
        | '\x7d' :: rest => return (.inlineTable [], rest)
        | _ =>
          let (members, rest) ← members? fuel (depth + 1) [] rest
          return (.inlineTable members, rest)
      else none
    | c :: _ => if c.isDigit || c = '+' || c = '-' then numeral? cs else word? cs
    | [] => none

/-- The items of an array after its bracket or a comma, up to the closing bracket. -/
def items? : (fuel depth : Nat) → List Char → Option (List Node × List Char)
  | 0, _, _ => none
  | fuel + 1, depth, cs => do
    match ← blankLines? false cs with
    | ']' :: rest => return ([], rest)
    | cs =>
      let (item, rest) ← valueWith? fuel depth cs
      match ← blankLines? false rest with
      | ',' :: rest =>
        let (items, rest) ← items? fuel depth rest
        return (item :: items, rest)
      | ']' :: rest => return ([item], rest)
      | _ => none

/-- The members of an inline table after its brace or a comma, up to the closing brace. -/
def members? : (fuel depth : Nat) → Members → List Char → Option (Members × List Char)
  | 0, _, _, _ => none
  | fuel + 1, depth, done, cs => do
    let (path, rest) ← keyPath? cs
    let rest ← expect? '=' rest
    let (node, rest) ← valueWith? fuel depth (skipBlanks rest)
    let done ← done.define path.dropLast (path.getLast?.getD "") node
    match skipBlanks rest with
    | ',' :: rest => members? fuel depth done rest
    | '\x7d' :: rest => return (done, rest)
    | _ => none

end

/-- A value at the front of a text. -/
def value? (cs : List Char) : Option (Node × List Char) := valueWith? (2 * cs.length + 2) 0 cs

/-! ## Documents -/

/-- Where the keys of the lines to come belong. -/
inductive Place
  | outermost
  | table (path : List String) (name : String)
  | item (path : List String) (name : String)

/-- A text read so far: the finished tables, and the open one with its place. -/
structure Draft where
  done : Members
  current : Members
  place : Place

namespace Draft

/-- Nothing was read. -/
def start : Draft := ⟨[], [], .outermost⟩

/-- Puts the open table to its place. -/
def finish? (d : Draft) : Option Members :=
  match d.place with
  | .outermost => some d.current
  | .table path name => Members.closeTable? path name d.current d.done
  | .item path name => Members.closeItem? path name d.current d.done

/-- A key with its value. -/
def define? (path : List String) (node : Node) (d : Draft) : Option Draft := do
  let members ← d.current.define path.dropLast (path.getLast?.getD "") node
  return { d with current := members }

/-- A header of a table. -/
def openTable? (path : List String) (d : Draft) : Option Draft := do
  let done ← d.finish?
  let name := path.getLast?.getD ""
  let (members, done) ← Members.openTable? path.dropLast name done
  return ⟨done, members, .table path.dropLast name⟩

/-- A header of a list of tables. -/
def openItem? (path : List String) (d : Draft) : Option Draft := do
  let done ← d.finish?
  let name := path.getLast?.getD ""
  let done ← Members.openItem? path.dropLast name done
  return ⟨done, [], .item path.dropLast name⟩

end Draft

/-- One line that is not blank, and what is left after it. -/
def line? (d : Draft) : List Char → Option (Draft × List Char)
  | '[' :: '[' :: cs => do
    let (path, rest) ← keyPath? cs
    let rest ← expect? ']' (← expect? ']' rest)
    return (← d.openItem? path, ← lineEnd? rest)
  | '[' :: cs => do
    let (path, rest) ← keyPath? cs
    let rest ← lineEnd? (← expect? ']' rest)
    return (← d.openTable? path, rest)
  | cs => do
    let (path, rest) ← keyPath? cs
    let rest ← expect? '=' rest
    let (node, rest) ← value? (skipBlanks rest)
    let rest ← lineEnd? rest
    return (← d.define? path node, rest)

/-- The lines of a text.  Each is longer than nothing, so the number of characters is enough
fuel. -/
def lines? : (fuel : Nat) → Draft → List Char → Option Draft
  | 0, _, _ => none
  | fuel + 1, d, cs =>
    match skipBlanks cs with
    | [] => some d
    | '#' :: cs => (lineEnd? ('#' :: cs)).bind (lines? fuel d)
    | '\n' :: cs => lines? fuel d cs
    | '\r' :: cs => (newline? ('\r' :: cs)).bind (lines? fuel d)
    | cs => (line? d cs).bind fun (d, rest) => lines? fuel d rest

/-- The members of the outermost table of a text, which may begin with a byte order mark. -/
def read? (s : String) : Option Members := do
  let cs := match s.toList with
    | '\ufeff' :: cs => cs
    | cs => cs
  let d ← lines? (cs.length + 1) .start cs
  d.finish?

end SlotStore.Toml

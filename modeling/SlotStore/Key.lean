import SlotStore.Bytes

/-!
# Entity keys

An entity is addressed by a key of sixteen bytes.  The all-zero key is reserved: it marks slots that
hold no entity.

* `Key.ofBytes?` : a key from sixteen bytes;
* `Key.text`, `Key.parse?` : the hyphenated form, and the four forms that are read;
* `Key.compare` : the order of keys, byte by byte.
-/

namespace SlotStore

/-- The address of an entity. -/
structure Key where
  bytes : Bytes
  length_bytes : bytes.length = 16
deriving DecidableEq, Repr

namespace Key

/-- The key of slots that hold no entity. -/
def reserved : Key := ⟨List.replicate 16 0, by simp⟩

instance : Inhabited Key := ⟨reserved⟩

def isReserved (k : Key) : Bool := decide (k = reserved)

/-- The key with these bytes, if there are sixteen of them. -/
def ofBytes? (bs : Bytes) : Option Key :=
  if h : bs.length = 16 then some ⟨bs, h⟩ else none

/-- The key that the first sixteen bytes of a longer run spell. -/
def ofPrefix (bs : Bytes) (h : 16 ≤ bs.length) : Key :=
  ⟨bs.take 16, by simp [h]⟩

/-- The bytes read as one number, most significant first. -/
def number (k : Key) : Nat := Bytes.ofBigEndian k.bytes

/-- Keys are ordered byte by byte, which is the order of their numbers. -/
def compare (a b : Key) : Ordering := Ord.compare a.number b.number

theorem ofBytes?_bytes (k : Key) : ofBytes? k.bytes = some k := by
  simp [ofBytes?, k.length_bytes]

/-! ## Text -/

/-- A byte as two lower-case hexadecimal digits. -/
def hexByte (b : UInt8) : List Char :=
  [Nat.digitChar (b.toNat / 16), Nat.digitChar (b.toNat % 16)]

/-- The value of a hexadecimal digit of either case. -/
def hexDigit? (c : Char) : Option Nat :=
  if '0' ≤ c ∧ c ≤ '9' then some (c.toNat - '0'.toNat)
  else if 'a' ≤ c ∧ c ≤ 'f' then some (c.toNat - 'a'.toNat + 10)
  else if 'A' ≤ c ∧ c ≤ 'F' then some (c.toNat - 'A'.toNat + 10)
  else none

/-- The bytes that pairs of hexadecimal digits spell. -/
def hexBytes? : List Char → Option Bytes
  | [] => some []
  | [_] => none
  | a :: b :: rest => do
    let high ← hexDigit? a
    let low ← hexDigit? b
    let bytes ← hexBytes? rest
    return UInt8.ofNat (16 * high + low) :: bytes

/-- Lengths of the groups of digits in the hyphenated form. -/
def groups : List Nat := [8, 4, 4, 4, 12]

/-- Digits with hyphens between the groups. -/
def hyphenate (digits : List Char) : List Nat → List Char
  | [] => digits
  | [_] => digits
  | n :: ns => digits.take n ++ '-' :: hyphenate (digits.drop n) ns

/-- The digits of the hyphenated form, or nothing if a hyphen is missing or misplaced. -/
def unhyphenate? (cs : List Char) : List Nat → Option (List Char)
  | [] => if cs = [] then some [] else none
  | [n] => if cs.length = n then some cs else none
  | n :: ns =>
    match cs.drop n with
    | '-' :: rest => (unhyphenate? rest ns).map (cs.take n ++ ·)
    | _ => none

/-- The hyphenated form of a key. -/
def text (k : Key) : String :=
  String.ofList (hyphenate (k.bytes.flatMap hexByte) groups)

/-- What introduces the name form, matched in either case. -/
def namePrefix : List Char := "urn:uuid:".toList

/-- A key from the hyphenated form. -/
def parseHyphenated? (cs : List Char) : Option Key := do
  let digits ← unhyphenate? cs groups
  let bytes ← hexBytes? digits
  ofBytes? bytes

/-- A key from any of its text forms: bare digits, hyphenated, hyphenated in braces, hyphenated
after `urn:uuid:`. -/
def parse? (s : String) : Option Key :=
  let cs := s.toList
  if cs.length = 32 then (hexBytes? cs).bind ofBytes?
  else if cs.length = 36 then parseHyphenated? cs
  else if cs.length = 38 then
    match cs with
    | '\x7b' :: rest => if rest.getLast? = some '\x7d' then parseHyphenated? rest.dropLast else none
    | _ => none
  else if cs.length = 45 then
    if (cs.take 9).map Char.toLower = namePrefix then parseHyphenated? (cs.drop 9) else none
  else none

end Key

end SlotStore

/-!
# Numbers in decimal

* `Text.natural`, `Text.integer` : whole numbers in decimal digits.
-/

namespace SlotStore.Text

/-- A natural number in decimal. -/
def natural (n : Nat) : String := String.ofList (Nat.toDigits 10 n)

/-- An integer in decimal, with a minus sign if it is negative. -/
def integer (n : Int) : String :=
  if n < 0 then "-" ++ natural n.natAbs else natural n.natAbs

end SlotStore.Text

/-!
# Hexadecimal digits

## Main definitions

* `Text.hexDigit`, `Text.hexValue?` — a lower-case digit, and the value of one of either case.
* `Text.writeHex` — a number in a fixed count of digits.
* `Text.readHex?` — the number that digits spell.

## Main statements

* `Text.readHex?_writeHex` — reading gives back what was written.
-/

namespace Abacus.Text

/-- The lower-case digit of a value below 16. -/
def hexDigit (n : Nat) : Char := Nat.digitChar n

/-- The value of a digit of either case. -/
def hexValue? (c : Char) : Option Nat :=
  if '0' ≤ c ∧ c ≤ '9' then some (c.toNat - '0'.toNat)
  else if 'a' ≤ c ∧ c ≤ 'f' then some (c.toNat - 'a'.toNat + 10)
  else if 'A' ≤ c ∧ c ≤ 'F' then some (c.toNat - 'A'.toNat + 10)
  else none

/-- The last `count` hexadecimal digits of a number. -/
def writeHex : Nat → Nat → List Char
  | 0, _ => []
  | count + 1, n => writeHex count (n / 16) ++ [hexDigit (n % 16)]

/-- The number that digits spell; none if a character is no digit. -/
def readHex? (cs : List Char) : Option Nat :=
  cs.foldlM (fun n c => (hexValue? c).map (16 * n + ·)) 0

@[simp]
theorem length_writeHex (count n : Nat) : (writeHex count n).length = count := by
  induction count generalizing n with
  | zero => rfl
  | succ count ih => simp [writeHex, ih]

theorem hexValue?_hexDigit {n : Nat} (h : n < 16) : hexValue? (hexDigit n) = some n := by
  revert n
  decide +kernel

theorem readHex?_append_singleton (cs : List Char) (c : Char) :
    readHex? (cs ++ [c]) = (readHex? cs).bind fun n => (hexValue? c).map (16 * n + ·) := by
  simp [readHex?, List.foldlM_append]

/-- A number that fits its digits is read back. -/
theorem readHex?_writeHex {count n : Nat} (h : n < Nat.pow 16 count) :
    readHex? (writeHex count n) = some n := by
  induction count generalizing n with
  | zero => simp_all [writeHex, readHex?]
  | succ count ih =>
    have hquotient : n / 16 < Nat.pow 16 count :=
      Nat.div_lt_of_lt_mul (by rwa [Nat.mul_comm])
    simp [writeHex, readHex?_append_singleton, ih hquotient,
      hexValue?_hexDigit (Nat.mod_lt n (by decide)), Nat.div_add_mod]

end Abacus.Text

import IkgtUsage.Common.Policy

/-!
# The kernel's text functions

`strcasecmp` compares names and `kstrtoul` reads the numbers the user stores. Both belong to the
kernel; they are defined here as the kernel documents them. A C string is the list of its characters
up to the terminating zero.
-/

namespace IkgtUsage

/-- `strcasecmp(s, t) == 0`. -/
def strcasecmp (s t : List Char) : Bool := s.map Char.toLower = t.map Char.toLower

/-- The value of a digit, up to base 16. -/
def digitValue (c : Char) : Option Nat :=
  let lc := c.toLower
  if '0' ≤ c ∧ c ≤ '9' then some (c.toNat - '0'.toNat)
  else if 'a' ≤ lc ∧ lc ≤ 'f' then some (lc.toNat - 'a'.toNat + 10)
  else none

/-- `_parse_integer_fixup_radix`: the base, and the text after the mark of base 16. -/
def parseIntegerFixupRadix (s : List Char) (base : Nat) : Nat × List Char :=
  let base :=
    if base = 0 then
      match s with
      | '0' :: x :: d :: _ => if x.toLower = 'x' ∧ (digitValue d).isSome then 16 else 8
      | '0' :: _ => 8
      | _ => 10
    else base
  match s with
  | '0' :: x :: rest => if base = 16 ∧ x.toLower = 'x' then (base, rest) else (base, s)
  | _ => (base, s)

/-- `_parse_integer`: the value read after `value`, the number of digits, and the rest. -/
def parseInteger (base : Nat) : List Char → Nat → Nat × Nat × List Char
  | [], value => (value, 0, [])
  | c :: s, value =>
    match digitValue c with
    | some d =>
      if d < base then
        let (value, digits, rest) := parseInteger base s (value * base + d)
        (value, digits + 1, rest)
      else (value, 0, c :: s)
    | none => (value, 0, c :: s)

/-- `kstrtoul(s, base, &value)`: `none` where it returns an error. One newline may follow the
digits. -/
def kstrtoul (s : List Char) (base : Nat) : Option U64 :=
  let s := match s with
    | '+' :: rest => rest
    | _ => s
  let (base, s) := parseIntegerFixupRadix s base
  let (value, digits, rest) := parseInteger base s 0
  if 2 ^ 64 ≤ value then none
  else if digits = 0 then none
  else
    match rest with
    | [] | ['\n'] => some (BitVec.ofNat 64 value)
    | _ => none

example : kstrtoul "0x83\n".toList 0 = some 0x83 := by decide
example : kstrtoul "-1".toList 0 = none := by decide
example : kstrtoul "0x10000000000000000".toList 0 = none := by decide

end IkgtUsage

/-!
# Base 64

Octets written with 64 characters, three octets in four of them. **The reading is forgiving**: what
is no character of the alphabet is passed over, and padding ends the text once the group is full;
only a group that is left open is refused.
-/

namespace ProjectSurvey.Base64

/-- The value of a character of the alphabet. -/
def sextet? (c : Char) : Option Nat :=
  let n := c.toNat
  if 65 ≤ n ∧ n ≤ 90 then some (n - 65)
  else if 97 ≤ n ∧ n ≤ 122 then some (n - 71)
  else if 48 ≤ n ∧ n ≤ 57 then some (n + 4)
  else if c = '+' then some 62
  else if c = '/' then some 63
  else none

/-- The octets of a text: `acc` are those read, last one first, `group` holds the sextets of the
open group, last one first, and `pads` counts the padding in it. -/
def decodeFrom (acc : List UInt8) (group : List Nat) (pads : Nat) :
    List Char → Option (List UInt8)
  | [] => if group.isEmpty then some acc.reverse else none
  | c :: cs =>
    if c = '=' then
      if 2 ≤ group.length then
        if 4 ≤ group.length + pads + 1 then some acc.reverse
        else decodeFrom acc group (pads + 1) cs
      else decodeFrom acc group pads cs
    else
      match sextet? c, group with
      | none, _ => decodeFrom acc group pads cs
      | some s, [] => decodeFrom acc [s] 0 cs
      | some s, [a] => decodeFrom (UInt8.ofNat (a * 4 + s / 16) :: acc) [s, a] 0 cs
      | some s, [b, a] => decodeFrom (UInt8.ofNat (b % 16 * 16 + s / 4) :: acc) [s, b, a] 0 cs
      | some s, c' :: _ => decodeFrom (UInt8.ofNat (c' % 4 * 64 + s) :: acc) [] 0 cs

/-- The octets of a text. -/
def decodeForgiving? (cs : List Char) : Option (List UInt8) := decodeFrom [] [] 0 cs

end ProjectSurvey.Base64

/-!
# UTF-8

Reading octets as characters, one octet at a time. **One reading serves the strict and the
forgiving user**: it drops every ill-formed stretch as soon as an octet rules it out and
remembers that it did, so `decode?` (no fault allowed) and `decodeForgiving` (faults dropped)
agree on every well-formed text (`decodeForgiving_of_decode?`).
-/

namespace ProjectSurvey.Text.Utf8

/-- What is owed after the first octet of a character. -/
structure Owed where
  /-- How many octets are still to come. -/
  count : Nat
  /-- The least value of the next one. -/
  low : Nat
  /-- The greatest value of the next one. -/
  high : Nat
  /-- The bits read so far. -/
  bits : Nat

/-- A reading in progress. -/
structure Reading where
  /-- The characters read, last one first. -/
  chars : List Char
  /-- The character begun. -/
  owed : Option Owed
  /-- Whether nothing was dropped. -/
  sound : Bool

/-- What the first octet `b` of a character promises; `none` for an octet that begins none. -/
def Owed.ofFirst? (b : Nat) : Option Owed :=
  if b < 0xc2 then none
  else if b < 0xe0 then some ⟨1, 0x80, 0xbf, b - 0xc0⟩
  else if b < 0xf0 then
    some ⟨2, if b = 0xe0 then 0xa0 else 0x80, if b = 0xed then 0x9f else 0xbf, b - 0xe0⟩
  else if b < 0xf5 then
    some ⟨3, if b = 0xf0 then 0x90 else 0x80, if b = 0xf4 then 0x8f else 0xbf, b - 0xf0⟩
  else none

/-- Reads the first octet of a character. -/
def Reading.first (r : Reading) (b : Nat) : Reading :=
  if b < 0x80 then { r with chars := Char.ofNat b :: r.chars, owed := none }
  else
    match Owed.ofFirst? b with
    | some o => { r with owed := some o }
    | none => { r with owed := none, sound := false }

/-- Reads one octet. -/
def Reading.step (r : Reading) (octet : UInt8) : Reading :=
  let b := octet.toNat
  match r.owed with
  | none => r.first b
  | some o =>
    if o.low ≤ b ∧ b ≤ o.high then
      let bits := o.bits * 64 + (b - 0x80)
      if o.count ≤ 1 then { r with chars := Char.ofNat bits :: r.chars, owed := none }
      else { r with owed := some ⟨o.count - 1, 0x80, 0xbf, bits⟩ }
    else Reading.first { r with owed := none, sound := false } b

/-- The reading of all octets. -/
def reading (octets : List UInt8) : Reading := octets.foldl Reading.step ⟨[], none, true⟩

/-- The text of well-formed octets; `none` if any octet does not fit. -/
def decode? (octets : List UInt8) : Option (List Char) :=
  let r := reading octets
  if r.sound && r.owed.isNone then some r.chars.reverse else none

/-- What is wrong with octets that are no UTF-8. -/
inductive Flaw where
  /-- An octet begins no character. -/
  | strayStart
  /-- A character is not continued. -/
  | broken
  /-- The octets end within a character. -/
  | endsEarly
  deriving DecidableEq

/-- Where octets are no UTF-8. -/
structure Fault where
  /-- The position of the first octet at fault. -/
  position : Nat
  /-- The first octet at fault. -/
  octet : Nat
  /-- How many octets are at fault. -/
  count : Nat
  /-- What is wrong with them. -/
  flaw : Flaw
  deriving DecidableEq

/-- The first fault from a position on, `begun` being the character begun, where and with which
octet it began. -/
def faultFrom (position : Nat) (begun : Option (Owed × Nat × Nat)) : List UInt8 → Fault
  | [] =>
    match begun with
    | some (_, start, first) => ⟨start, first, position - start, .endsEarly⟩
    | none => ⟨position, 0, 0, .endsEarly⟩
  | octet :: rest =>
    let b := octet.toNat
    match begun with
    | none =>
      if b < 0x80 then faultFrom (position + 1) none rest
      else
        match Owed.ofFirst? b with
        | some o => faultFrom (position + 1) (some (o, position, b)) rest
        | none => ⟨position, b, 1, .strayStart⟩
    | some (o, start, first) =>
      if b < o.low ∨ o.high < b then ⟨start, first, position - start, .broken⟩
      else if o.count ≤ 1 then faultFrom (position + 1) none rest
      else faultFrom (position + 1) (some (⟨o.count - 1, 0x80, 0xbf, o.bits⟩, start, first)) rest

/-- The first fault of octets that are no UTF-8. -/
def fault (octets : List UInt8) : Fault := faultFrom 0 none octets

/-- The text of all octets that fit. -/
def decodeForgiving (octets : List UInt8) : List Char := (reading octets).chars.reverse

/-- The octets of a text. -/
def encode (cs : List Char) : List UInt8 := cs.flatMap String.utf8EncodeChar

/-- The two readings agree where the strict one answers. -/
theorem decodeForgiving_of_decode? {octets : List UInt8} {cs : List Char}
    (h : decode? octets = some cs) : decodeForgiving octets = cs := by
  simp only [decode?] at h
  split at h
  · exact Option.some.inj h
  · contradiction

end ProjectSurvey.Text.Utf8

import ProjectSurvey.Text.Utf8
import ProjectSurvey.Text.Classes

/-!
# Addresses

What an address of the service asks for: the path in it, without the scheme and the server in front
and what follows behind. **Dots as segments are taken out before escapes are read**, so that an
escaped dot is no segment of its own; escapes are read twice, once as part of the address and once
as part of the request.
-/

namespace ProjectSurvey.Service.Address

/-- What follows a scheme, if there is one. -/
def withoutScheme (cs : List Char) : List Char :=
  let isSchemeChar (c : Char) : Bool := Text.isAsciiAlnum c || "+.-".toList.contains c
  match cs.head?.map Text.isAsciiLetter, cs.dropWhile isSchemeChar with
  | some true, ':' :: rest => rest
  | _, _ => cs

/-- What follows the name of a server, if there is one. -/
def withoutServer : List Char → List Char
  | '/' :: '/' :: rest => rest.dropWhile fun c => !"/?#".toList.contains c
  | cs => cs

/-- The segments without dots; two dots take the segment before away, but never the first one.
`done` are the segments so far, the last one first. -/
def plainSegments (done : List (List Char)) : List (List Char) → List (List Char)
  | [] => done.reverse
  | ['.'] :: rest => plainSegments done rest
  | ['.', '.'] :: rest =>
    plainSegments (if done = [[]] then done else done.drop 1) rest
  | s :: rest => plainSegments (s :: done) rest

/-- The octets of a text in which some are escaped. -/
def octets : List Char → List UInt8
  | [] => []
  | '%' :: a :: b :: rest =>
    match Text.number? 16 [a, b] with
    | some n => UInt8.ofNat n :: octets rest
    | none => String.utf8EncodeChar '%' ++ octets (a :: b :: rest)
  | c :: rest => String.utf8EncodeChar c ++ octets rest

/-- A text with its escapes read; nothing if they are no text. -/
def unescaped? (cs : List Char) : Option (List Char) := Text.Utf8.decode? (octets cs)

/-- The path of an address without slashes at its end; nothing if it is no text. A path is taken
from the root of the server, however many slashes are in front of it. -/
def path? (address : String) : Option String := do
  let rest := withoutScheme address.toList
  let behind := withoutServer rest
  let named := behind.takeWhile fun c => c ≠ '?' && c ≠ '#'
  let isWhole := rest.length < address.length && behind.length < rest.length
  let cs := if isWhole then named else '/' :: named.dropWhile (· == '/')
  let plain := Text.join ['/'] (plainSegments [] (Text.pieces '/' cs))
  let path ← unescaped? (← unescaped? plain)
  some (String.ofList (if path = ['/'] then path else Text.trimRight (· == '/') path))

end ProjectSurvey.Service.Address

import ProjectSurvey.Configuration
import ProjectSurvey.Document
import ProjectSurvey.Snapshot.Reader

/-!
# Failures

Why an operation on a project ends without its result. **The causes keep apart what this library
refuses, what the system refuses, and what breaks down**: the first two have a text for the user,
the last leaves the operation as it is.
-/

namespace ProjectSurvey

/-- Why an operation ends without its result. -/
inductive Failure where
  /-- A project or a file is not there. -/
  | notFound (text : String)
  /-- What should be a project is no directory. -/
  | notDirectory (text : String)
  /-- What should be a file is a directory. -/
  | isDirectory (text : String)
  /-- Access to a project is not granted. -/
  | notGranted (text : String)
  /-- A value is out of the question. -/
  | invalid (text : String)
  /-- The system refuses something about a path. -/
  | refused (f : AccessFault) (path : String)
  /-- Links lead in a circle. -/
  | circle (path : String)
  /-- The home directory of a user is not known. -/
  | homeless
  /-- The configuration in a file of the given name was not read. -/
  | configuration (name : String) (cause : Configuration.Fault)
  /-- The directory for output has no name. -/
  | namelessOutput
  /-- The text of a file that is kept between runs is no UTF-8. -/
  | undecodable (f : Text.Utf8.Fault)
  /-- The text of a file that is kept between runs gives no value. -/
  | unread (f : ReadFault)
  /-- A value that should be a snapshot is none. -/
  | misfit (m : Snapshot.Misfit)
  /-- Something goes too far down to be gone through. -/
  | tooDeep
  /-- What should name the rule of a finding is a list or a table. -/
  | namelessRule
  /-- A document was not made. -/
  | undocumented (f : Document.Fault)
  deriving DecidableEq

namespace Failure

/-- What the system says about a cause. -/
def systemText : AccessFault → String
  | .missing => "No such file or directory"
  | .noDirectory => "Not a directory"
  | .tooManyLinks => "Too many levels of symbolic links"
  | .longName => "File name too long"
  | .denied => "Permission denied"
  | .isDirectory => "Is a directory"
  | .occupied => "File exists"
  | .zero => "embedded null byte"

/-- The text of a refusal by the system. -/
def refusalText (f : AccessFault) (path : String) : String :=
  if f = .zero then systemText f
  else
    "[Errno " ++ String.ofList (Text.decimal f.number) ++ "] " ++ systemText f ++ ": " ++
      String.ofList (Text.quoted path.toList)

/-- What the system refuses and for which path, if that is the cause. A path that the system never
gets to see is refused by no system. -/
def refusal? : Failure → Option (AccessFault × String)
  | refused .zero _ => none
  | refused f path => some (f, path)
  | _ => none

/-- The failure to find out for which location a path stands. -/
def ofUnresolved : Entry.Unresolved → Failure
  | .circle path => .circle path
  | .zero path => .refused .zero path

/-- The text of a home directory that is not known. -/
def homelessText : String := "Could not determine home directory."

/-- The text of the failure to find out where an operation was called, which is gone. -/
def lostDirectoryText : String :=
  "[Errno " ++ String.ofList (Text.decimal AccessFault.missing.number) ++ "] " ++
    systemText .missing

/-- The text of links that lead in a circle. -/
def circleText (path : String) : String :=
  "Symlink loop from " ++ String.ofList (Text.quoted path.toList)

/-- The text of a depth that is out of the question. -/
def depthText : String := "max_depth must be at least 1"

/-- The text of the failure to show an integer. -/
def unshowableText : String :=
  "Exceeds the limit (4300 digits) for integer string conversion; " ++
    "use sys.set_int_max_str_digits() to increase the limit"

/-- The text of the failure to read an integer of so many digits. -/
def longIntegerText (digits : Nat) : String :=
  "Exceeds the limit (4300 digits) for integer string conversion: value has " ++
    String.ofList (Text.decimal digits) ++
    " digits; use sys.set_int_max_str_digits() to increase the limit"

/-- What is wrong with octets that are no UTF-8. -/
def flawText : Text.Utf8.Flaw → String
  | .strayStart => "invalid start byte"
  | .broken => "invalid continuation byte"
  | .endsEarly => "unexpected end of data"

/-- The text of the failure to read octets as UTF-8. -/
def undecodableText (f : Text.Utf8.Fault) : String :=
  let position (n : Nat) : String := String.ofList (Text.decimal n)
  let octets : String :=
    if f.count = 1 then
      "byte 0x" ++ String.ofList (Text.hexadecimal 2 f.octet) ++ " in position " ++
        position f.position
    else
      "bytes in position " ++ position f.position ++ "-" ++ position (f.position + f.count - 1)
  "'utf-8' codec can't decode " ++ octets ++ ": " ++ flawText f.flaw

/-- The text of a fault of a moment. -/
def momentText : MomentFault → String
  | .year n => "year " ++ String.ofList (Text.decimal n) ++ " is out of range"
  | .month => "month must be in 1..12"
  | .day => "day is out of range for month"
  | .hour => "hour must be in 0..23"
  | .minute => "minute must be in 0..59"
  | .second => "second must be in 0..59"
  | .offset d =>
    "offset must be a timedelta strictly between -timedelta(hours=24) and " ++
      "timedelta(hours=24), not " ++ d.literal ++ "."
  | .shape text => "Invalid isoformat string: " ++ String.ofList (Text.quoted text.toList)

/-- The text of a value that is out of the question, if that is what a fault of YAML is. -/
def yamlText? : Yaml.Fault → Option String
  | .noCharacter n => if n < 2147483648 then some "chr() arg not in range(0x110000)" else none
  | .noInteger base text =>
    some ("invalid literal for int() with base " ++ String.ofList (Text.decimal base) ++ ": " ++
      String.ofList ((Text.quoted text.toList).take 200))
  | .longInteger n => some (longIntegerText n)
  | .noReal text =>
    some ("could not convert string to float: " ++ String.ofList (Text.quoted text.toList))
  | .badMoment f => some (momentText f)
  | _ => none

/-- The text of a fault of the configuration that is to blame on its file. -/
def configurationText (name : String) : Configuration.Fault → Option String
  | .refused f path => some ("Failed to read " ++ name ++ ": " ++ refusalText f path)
  | .unread .malformed => some ("Failed to parse " ++ name ++ ": not well formed")
  | .noMapping => some (Configuration.fileName ++ " must contain a mapping at the root")
  | _ => none

/-- The text of a value that is out of the question, if that is the cause. -/
def invalidText? : Failure → Option String
  | invalid text => some text
  | refused .zero path => some (refusalText .zero path)
  | undecodable f => some (undecodableText f)
  | unread (.longInteger n) => some (longIntegerText n)
  | configuration _ (.undecodable f) => some (undecodableText f)
  | configuration _ (.unread f) => yamlText? f
  | configuration _ .unshowable => some unshowableText
  | _ => none

end Failure

end ProjectSurvey

import ProjectSurvey.Data.ReadFault

/-!
# Why a manifest was not read

The causes for which the reader of a manifest gives up: its format, its shape, or a value that
cannot be shown as a text.
-/

namespace ProjectSurvey

/-- Why a manifest was not read. -/
inductive ManifestFault where
  /-- Its text is not the JSON it should be. -/
  | json (fault : ReadFault)
  /-- Its text is not the TOML it should be. -/
  | toml (fault : ReadFault)
  /-- Its text is not the XML it should be. -/
  | xml
  /-- Its text is JSON, but no object. -/
  | noObject (name : String)
  /-- A value in it has more digits than can be shown. -/
  | unshowable
  deriving DecidableEq

end ProjectSurvey

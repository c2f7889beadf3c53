import ReliableQueue.Text.Quoted

/-!
Failures of reading a configuration.
-/

namespace ReliableQueue.Config

inductive Error where
  /-- No source sets the property. -/
  | notFound (property : String)
  | message (text : String)
  /-- A value of another type than its field's; `place` says which value of which source. -/
  | type (found expected place : String)
  /-- A source that is not well formed. -/
  | fileParse (file : String)
  | missingFile (path : String)
  | unknownFormat (path : String)
  | frozen
deriving DecidableEq, Repr

namespace Error

def text : Error → String
  | .notFound property => "configuration property " ++ Text.quoted property ++ " not found"
  | .message text => text
  | .type found expected place => "invalid type: " ++ found ++ ", expected " ++ expected ++ place
  | .fileParse file => "cannot read " ++ file
  | .missingFile path => "configuration file " ++ Text.quoted path ++ " not found"
  | .unknownFormat path =>
      "configuration file " ++ Text.quoted path ++ " is not of a registered file format"
  | .frozen => "configuration is frozen"

end Error

end ReliableQueue.Config

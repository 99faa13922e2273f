import ClientBoundary.Glob.Pattern
import ClientBoundary.Json.Printer

/-!
# What can fail

The failures of configuring and of reading files, each with its cause. `Failure.message` words
them. The analysis of a program that could be read never fails.
-/

namespace ClientBoundary
namespace Rules

open Json (Value)

/-- Why options are refused. -/
inductive OptionsFault where
  | tooMany (count : Nat)
  | notAnObject (found : Value)
  | unknownField (key : String)
  | badIgnorePath
  | rulesNotAnObject (found : Value)
  deriving Repr

/-- The name that stands for a whole configuration in place of a rule. -/
def anyRule : String := "*"

inductive Failure where
  | options (rule : String) (fault : OptionsFault)
  | unknownRule (name : String)
  | badGlob (pattern : String) (fault : Glob.Fault)
  | unparsable (path : String)
  | notADirectory (path : String)
  /-- What the system says when a file cannot be read. -/
  | unreadable (reason : String)
  | notText
  | badDocument
  deriving Repr

def OptionsFault.message : OptionsFault → String
  | .tooMany count =>
      "expected at most 1 options object, got " ++ String.ofList (Json.decimal count)
  | .notAnObject found => "expected an options object, got " ++ found.render
  | .unknownField key => "unknown field `" ++ key ++ "`, expected `ignorePath`"
  | .badIgnorePath => "data did not match any variant of untagged enum IgnorePath"
  | .rulesNotAnObject found => "\"rules\" must be an object, got " ++ found.render

/-- A text without one leading `./`. -/
def stripDotSlash (text : String) : String :=
  match text.toList with
  | '.' :: '/' :: rest => String.ofList rest
  | _ => text

/-- The wording of a failure. That of a text that is no program or no JSON ends where the details
of the syntax would begin. -/
def Failure.message : Failure → String
  | .options rule fault => "invalid options for rule '" ++ rule ++ "': " ++ fault.message
  | .unknownRule name => "unknown rule '" ++ name ++ "'"
  | .badGlob pattern fault =>
      "invalid ignorePath pattern '" ++ pattern ++ "': error parsing glob '" ++
        stripDotSlash pattern ++ "': " ++ fault.message
  | .unparsable path => "failed to parse " ++ path ++ ": "
  | .notADirectory path => "io error: not a directory: " ++ path
  | .unreadable reason => "io error: " ++ reason
  | .notText => "io error: stream did not contain valid UTF-8"
  | .badDocument => "json error: "

end Rules
end ClientBoundary

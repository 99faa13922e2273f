import ClientBoundary.Glob.Matching
import ClientBoundary.Rules.Failure

/-!
# Options of a rule

A rule takes one optional object whose only field, `ignorePath`, is a glob or a list of globs for
the files in which the rule is off.

- `Options.ofValue`: the options that a JSON value describes;
- `IgnoreMatcher`: the compiled globs; `IgnoreMatcher.ofPatterns` names the first that is none;
- `optionsSchema`: the accepted values as a schema.
-/

namespace ClientBoundary
namespace Rules

open Json (Value)

/-- One glob, or a list of them, as it was written. -/
inductive IgnorePath where
  | single (pattern : String)
  | multiple (patterns : List String)
  deriving DecidableEq, Repr

def IgnorePath.patterns : IgnorePath → List String
  | .single p => [p]
  | .multiple ps => ps

structure Options where
  ignorePath : IgnorePath
  deriving DecidableEq, Repr

namespace Options

def default : Options := ⟨.multiple []⟩

def ignoring (patterns : List String) : Options :=
  ⟨.multiple patterns⟩

def patterns (o : Options) : List String :=
  o.ignorePath.patterns

/-! ## JSON -/

/-- The glob or the globs that a JSON value gives. -/
def ignorePathOf? : Value → Option IgnorePath
  | .string s => some (.single s)
  | .array items => (items.mapM Value.asString?).map .multiple
  | _ => none

/-- The options of an object, whose members are looked at in their order. -/
def ofMembers (o : Options) : List (String × Value) → Except OptionsFault Options
  | [] => .ok o
  | (key, v) :: more =>
      if key = "ignorePath" then
        match ignorePathOf? v with
        | some i => ofMembers ⟨i⟩ more
        | none => .error .badIgnorePath
      else
        .error (.unknownField key)

/-- The options that a value describes: none, an object, or an array with at most one such value.
Objects are read as maps. -/
def ofSorted : Value → Except OptionsFault Options
  | .null => .ok default
  | .array [] => .ok default
  | .array [v] => ofSorted v
  | .array (v :: w :: more) => .error (.tooMany (v :: w :: more).length)
  | .object members => ofMembers default members
  | v => .error (.notAnObject v)

/-- The options of a rule. -/
def ofValue (rule : String) (v : Value) : Except Failure Options :=
  match ofSorted v.sorted with
  | .ok o => .ok o
  | .error e => .error (.options rule e)

def ignorePathValue : IgnorePath → Value
  | .single p => .string p
  | .multiple ps => .ofStrings ps

/-- The object that describes the options. -/
def toValue (o : Options) : Value :=
  .object [("ignorePath", ignorePathValue o.ignorePath)]

end Options

/-- The values that describe options. -/
def optionsSchema : Value :=
  let text := Value.object [("type", .string "string")]
  let ignorePath := Value.object [("anyOf", .array [text,
    .object [("items", text), ("type", .string "array")]])]
  .array [.object [
    ("additionalProperties", .bool false),
    ("properties", .object [("ignorePath", ignorePath)]),
    ("type", .string "object")]]

/-! ## Matching -/

/-- The globs of a rule, compiled. -/
structure IgnoreMatcher where
  globs : List (List Glob.Token)

namespace IgnoreMatcher

def empty : IgnoreMatcher := ⟨[]⟩

/-- Compile one pattern. -/
def compile (pattern : String) : Except Failure (List Glob.Token) :=
  match Glob.parse (stripDotSlash pattern).toList with
  | .ok tokens => .ok tokens
  | .error fault => .error (.badGlob pattern fault)

/-- Compile patterns up to the first that is none. -/
def compileAll : List String → Except Failure (List (List Glob.Token))
  | [] => .ok []
  | p :: more =>
      match compile p with
      | .error e => .error e
      | .ok tokens =>
          match compileAll more with
          | .error e => .error e
          | .ok globs => .ok (tokens :: globs)

def ofPatterns (patterns : List String) : Except Failure IgnoreMatcher :=
  match compileAll patterns with
  | .ok globs => .ok ⟨globs⟩
  | .error e => .error e

/-- Whether a relative path leaves the root. -/
def leavesRoot (path : String) : Bool :=
  match path.toList with
  | ['.', '.'] => true
  | '.' :: '.' :: '/' :: _ => true
  | _ => false

/-- Whether a file is ignored, by its path relative to the root. -/
def ignores (m : IgnoreMatcher) (relativePath : String) : Bool :=
  let path := stripDotSlash relativePath
  !leavesRoot path && m.globs.any fun g => Glob.accepts g (Text.utf8Bytes path)

end IgnoreMatcher

def Options.matcher (o : Options) : Except Failure IgnoreMatcher :=
  IgnoreMatcher.ofPatterns o.patterns

end Rules
end ClientBoundary

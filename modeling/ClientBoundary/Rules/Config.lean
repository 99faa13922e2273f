import ClientBoundary.Json.Reader
import ClientBoundary.Path.Relative
import ClientBoundary.Rules.Options
import ClientBoundary.Rules.Rule

/-!
# Configurations

A configuration has a root and the names of the rules that are on, with their options. A name that
is turned on has to be that of a rule. When a file is linted, the rules are made from the names.

- `Config.set`: turn a rule on; a failure leaves no trace;
- `Config.activeRules`: the rules for a file;
- `Config.ofJson`: a whole configuration from a document, or its first fault;
- `Config.fingerprint`: the rules that are on and their options as text.
-/

namespace ClientBoundary
namespace Rules

open Json (Value)

/-- The options of a rule and its compiled globs. -/
structure Settings where
  options : Options
  ignore : IgnoreMatcher

structure Config where
  root : String
  /-- The settings of the rules that are on, under their names. -/
  rules : Json.Map Settings

namespace Config

/-- No rule is on. -/
def new (root : String) : Config :=
  ⟨root, .empty⟩

/-- The settings under a name. -/
def rule? (c : Config) (name : String) : Option Settings :=
  c.rules.get? name

/-- Put settings under a name. -/
def put (c : Config) (name : String) (s : Settings) : Config :=
  { c with rules := c.rules.insert name s }

/-- All rules are on. -/
def recommended (root : String) : Config :=
  Rule.listed.foldl (fun c r => c.put r.name ⟨.default, .empty⟩) (new root)

/-- Turn the rule of a name on. -/
def set (c : Config) (name : String) (options : Options) : Except Failure Config :=
  match Rule.ofName? name with
  | none => .error (.unknownRule name)
  | some _ =>
      -- the globs are compiled here once, not for every file
      match options.matcher with
      | .error e => .error e
      | .ok ignore => .ok (c.put name ⟨options, ignore⟩)

/-- The names that are on, in their order, with their settings. -/
def enabled (c : Config) : List (String × Settings) :=
  c.rules.members

/-- The rules for a file: what the names make whose globs do not ignore it. -/
def activeRules (c : Config) (path : String) : List Rule :=
  let relative := Path.relative c.root path
  c.enabled.filterMap fun (name, s) =>
    if s.ignore.ignores relative then none else Rule.create? name

/-- The settings of a rule. -/
def settings (c : Config) (r : Rule) : Option Settings :=
  c.rule? r.name

/-! ## Documents -/

/-- Turn on rules by the members of an object, up to the first fault. -/
def setAll (c : Config) : List (String × Value) → Except Failure Config
  | [] => .ok c
  | (name, v) :: more =>
      match Options.ofValue name v with
      | .error e => .error e
      | .ok options =>
          match c.set name options with
          | .error e => .error e
          | .ok next => setAll next more

/-- The configuration of a document that is read as a map. A root in the document comes before the
default one. -/
def ofSorted (document : Value) (defaultRoot : String) : Except Failure Config :=
  let root := ((document.member? "root").bind Value.asString?).getD defaultRoot
  match document.member? "rules" with
  | none => .ok (new root)
  | some .null => .ok (new root)
  | some (.object rules) => (new root).setAll rules
  | some other => .error (.options anyRule (.rulesNotAnObject other))

/-- The configuration of a JSON text. -/
def ofJson (text defaultRoot : String) : Except Failure Config :=
  match Value.parse? text with
  | none => .error .badDocument
  | some v => ofSorted v.sorted defaultRoot

/-- The rules that are on with their options, as a JSON object. -/
def toValue (c : Config) : Value :=
  .object (c.enabled.map fun (name, s) => (name, s.options.toValue))

/-- The rules that are on with their options, as text. -/
def fingerprint (c : Config) : String :=
  c.toValue.render

end Config
end Rules
end ClientBoundary

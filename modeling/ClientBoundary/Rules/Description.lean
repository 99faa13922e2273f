import ClientBoundary.Rules.Options
import ClientBoundary.Rules.Rule

/-!
# What a host is told

The description of a rule, and that of all of them under the name and the version of the plugin.
-/

namespace ClientBoundary
namespace Rules

open Json (Value)

def pluginName : String := "use-client-native"

def pluginVersion : String := "0.1.0"

/-- The kind of every rule. -/
def ruleKind : String := "suggestion"

def describeRule (r : Rule) : Value :=
  .object [
    ("docs", .object [("description", .string r.description)]),
    ("fixable", if r.fixable then .string "code" else .null),
    ("schema", optionsSchema),
    ("type", .string ruleKind)]

def describePlugin : Value :=
  .object [
    ("meta", .object [("name", .string pluginName), ("version", .string pluginVersion)]),
    ("rules", .object (Rule.all.map fun r => (r.name, .object [("meta", describeRule r)])))]

end Rules
end ClientBoundary

import ClientBoundary.Rules.BrowserGlobals
import ClientBoundary.Rules.Callee
import ClientBoundary.Rules.Causes

/-!
# The rules

Each rule finds causes in the events of a walk:

- browser globals that are read and that no scope declares;
- event handlers on native elements;
- hooks that are called inside a component.

`Rule.run` is one rule on one program, `runAll` all given rules on the same walk.
-/

namespace ClientBoundary
namespace Rules

open Script (Program)

inductive Rule where
  | browserApi
  | eventHandler
  | clientHook
  deriving DecidableEq, Repr

namespace Rule

def name : Rule → String
  | .browserApi => "browser-api"
  | .eventHandler => "event-handler"
  | .clientHook => "use-client-hook"

def description : Rule → String
  | .browserApi => "Add 'use client' directive if browser api is used in a React file"
  | .eventHandler => "Add 'use client' directive if event handlers are used in a React file"
  | .clientHook => "Add 'use client' directive if client side hooks are used in a React file"

/-- What a rule looks for, as its message puts it. -/
def subject : Rule → String
  | .browserApi => "browser api"
  | .eventHandler => "HTML elements with event handler"
  | .clientHook => "client-side React Hooks"

def message (r : Rule) (causes : String) : String :=
  missingDirective r.subject causes

/-- Every rule offers the fix. -/
def fixable : Rule → Bool := fun _ => true

def reporting (r : Rule) : Reporting :=
  ⟨r.name, r.fixable, r.message⟩

/-- All rules in the order of their names. -/
def all : List Rule := [.browserApi, .eventHandler, .clientHook]

/-- All rules in the order in which they are listed to a host. -/
def listed : List Rule := [.eventHandler, .clientHook, .browserApi]

/-- The rule that is listed under a name. -/
def ofName? (name : String) : Option Rule :=
  listed.find? fun r => r.name = name

/-- The rule that a name makes, whether it is listed or not. -/
def create? (name : String) : Option Rule :=
  if name = browserApi.name then some .browserApi
  else if name = eventHandler.name then some .eventHandler
  else if name = clientHook.name then some .clientHook
  else none

theorem mem_all (r : Rule) : r ∈ all := by
  cases r <;> decide

/-! ## Causes -/

/-- The causes that a rule finds in an event. -/
def causes : Rule → Event → List String
  | .browserApi, .reference name position isGlobal =>
      if isBrowserGlobal name && position.isSome && isGlobal then [name] else []
  | .eventHandler, .opening (some tag) props =>
      if isNativeTag tag then props.filter isEventHandlerName else []
  | .clientHook, .call callee frames =>
      if isHookCallee callee && (enclosingComponent? frames).isSome then
        [(calleeName? callee).getD ""]
      else
        []
  | _, _ => []

/-- The collector of a rule after an event. -/
def onEvent (r : Rule) (program : Program) (c : Collector) (e : Event) : Collector :=
  match e with
  | .enter => Collector.enter program
  | _ => c.addAll (r.causes e)

end Rule

/-! ## Running rules -/

/-- Send an event to every rule. -/
def sendAll (program : Program) (states : List (Rule × Collector)) (e : Event) :
    List (Rule × Collector) :=
  states.map fun (r, c) => (r, r.onEvent program c e)

/-- Run rules over one walk of a program: their findings, in the order of the rules. -/
def runAll (file : FileInfo) (program : Program) (rules : List Rule) : List Finding :=
  let states := (programEvents program).foldl (sendAll program) (rules.map fun r => (r, .empty))
  states.filterMap fun (r, c) => (c.finish r.reporting file).2

end Rules
end ClientBoundary

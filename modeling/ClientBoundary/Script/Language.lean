import ClientBoundary.Path.Components

/-!
# The language of a file

What a file may contain is read off the extension of its name: type annotations, markup, and
whether it is a module. A plain script file becomes a module by an import or an export.
-/

namespace ClientBoundary
namespace Script

/-- How the top level of a file is read. -/
inductive Goal where
  /-- A module if it has an import or an export, and a script otherwise. -/
  | either
  | module
  /-- A function body: the top level may return. -/
  | commonjs
  deriving DecidableEq, Repr

structure Language where
  typescript : Bool
  jsx : Bool
  goal : Goal
  /-- Whether the file holds declarations only. -/
  declarations : Bool
  deriving DecidableEq, Repr

namespace Language

/-- The language of an extension. -/
def ofExtension? (extension : String) : Option Language :=
  match extension with
  | "js" => some ⟨false, false, .either, false⟩
  | "jsx" => some ⟨false, true, .either, false⟩
  | "ts" => some ⟨true, false, .either, false⟩
  | "tsx" => some ⟨true, true, .either, false⟩
  | "mjs" => some ⟨false, false, .module, false⟩
  | "mts" => some ⟨true, false, .module, false⟩
  | "cjs" => some ⟨false, false, .commonjs, false⟩
  | "cts" => some ⟨true, false, .commonjs, false⟩
  | _ => none

/-- Modules with types and markup: the language of a file whose name does not tell. -/
def unknown : Language := ⟨true, true, .module, false⟩

/-- Whether the name before the extension ends in `.d`. -/
def isDeclarationStem (stem : String) : Bool :=
  match stem.toList.reverse with
  | 'd' :: '.' :: _ => true
  | _ => false

/-- The language of the file at a path. -/
def ofPath (path : String) : Language :=
  match (Path.fileName? path).bind Path.splitExtension? with
  | none => unknown
  | some (stem, extension) =>
      match ofExtension? extension with
      | none => unknown
      | some l => { l with declarations := l.typescript && isDeclarationStem stem }

/-- A component file, for a text that stands alone. -/
def component : Language := ⟨true, true, .either, false⟩

end Language
end Script
end ClientBoundary

import ClientBoundary.Proofs.Rules.Documents
import ClientBoundary.Proofs.Rules.Fingerprint

/-!
# Fingerprints that are read back

The fingerprint of a configuration, put under `rules` into a document, is read as the configuration
it was made of.

- `Config.document`, `parse?_document`: the document of a fingerprint;
- `Config.ofJson_document`: the configuration that is read from it, under any root;
- `Config.reachable_iff`: the configurations that can be built.
-/

namespace ClientBoundary
namespace Rules

open Json

/-! ## Options -/

theorem Options.sorted_toValue (o : Options) : o.toValue.sorted = o.toValue := by
  cases path : o.ignorePath with
  | single p =>
      simp only [toValue, path, ignorePathValue, Value.sorted, Value.sortedMembers]
      rfl
  | multiple ps =>
      simp only [toValue, path, ignorePathValue, Value.ofStrings, Value.sorted, Value.sortedMembers,
        Value.sortedItems_ofStrings]
      rfl

theorem Options.ofValue_toValue (rule : String) (o : Options) :
    Options.ofValue rule o.toValue = .ok o := by
  rw [Options.ofValue, Options.sorted_toValue, Options.ofSorted_toValue]

namespace Config

/-! ## Documents -/

/-- The document that turns on the rules of a fingerprint. -/
def document (c : Config) : String :=
  "\x7b\"rules\": " ++ c.fingerprint ++ "\x7d"

theorem parse?_document (c : Config) :
    Value.parse? c.document = some (.object [("rules", c.toValue)]) := by
  -- one more bracket than in a fingerprint, and a blank behind the colon
  let write (m : String × Value) : List Char := quote m.1 ++ ':' :: ([' '] ++ m.2.chars)
  have writable := c.writable_toValue 123
  have back : ∀ m ∈ [("rules", c.toValue)],
      ReadsBack (member? string? fun _ => value? (123 + 3)) write m := by
    intro m mem
    rw [List.mem_singleton.1 mem]
    exact readsBack_spacedMember [' '] (by simp [isBlank]) writable.readsBack
  have text : c.document.toList =
      '{' :: (commaSeparated write [("rules", c.toValue)] ++ ['}']) := by
    have opening : "\x7b\"rules\": ".toList = '{' :: (quote "rules" ++ [':', ' ']) := by decide
    have closing : "\x7d".toList = ['}'] := by decide
    have inner : c.fingerprint.toList = c.toValue.chars := String.toList_ofList
    rw [document, String.toList_append, String.toList_append, opening, closing, inner]
    simp [commaSeparated, write]
  have read := bracketed?_commaSeparated (.inr rfl) [] back
  have depth : maxDepth = 123 + 3 + 1 := rfl
  have solid : skipBlanks c.document.toList = c.document.toList := by
    rw [text]
    rfl
  rw [Value.parse?, document?, solid, text, depth, value?, read]
  rfl

/-- The rules of a configuration with their options, as members of an object. -/
theorem sorted_toValue (c : Config) : c.toValue.sorted = c.toValue := by
  have along (rules : List (String × Settings)) :
      Value.sortedMembers (rules.map fun p => (p.1, p.2.options.toValue)) =
        rules.map fun p => (p.1, p.2.options.toValue) := by
    induction rules with
    | nil => rfl
    | cons p more ih => rw [List.map_cons, Value.sortedMembers, ih, Options.sorted_toValue]
  have increasing : Increasing (c.enabled.map fun p => (p.1, p.2.options.toValue)) :=
    c.rules.increasing.mapValues fun s => s.options.toValue
  rw [toValue, Value.sorted]
  exact congrArg Value.object ((congrArg _ (along c.enabled)).trans
    (sortMembers_of_increasing increasing))

theorem entrySetting_toValue {c : Config} (sound : c.Sound) {name : String} {s : Settings}
    (on : c.rule? name = some s) : entrySetting name s.options.toValue = .ok s :=
  entrySetting_eq_ok_iff.2
    ⟨Options.ofValue_toValue name s.options, sound.registered on, sound.compiled on⟩

/-- Turning on the rules of a configuration by their members gives this configuration. -/
theorem setAll_enabled {c : Config} (sound : c.Sound) (root : String) :
    (new root).setAll (c.enabled.map fun p => (p.1, p.2.options.toValue)) =
      .ok { c with root } := by
  have increasing : Increasing (c.enabled.map fun p => (p.1, p.2.options.toValue)) :=
    c.rules.increasing.mapValues fun s => s.options.toValue
  have faultless : fault?
      ((new root).setAll (c.enabled.map fun p => (p.1, p.2.options.toValue))) = none := by
    rw [fault?_setAll, List.findSome?_eq_none_iff]
    intro m mem
    rcases List.mem_map.1 mem with ⟨p, here, rfl⟩
    exact fault?_eq_none.2 ⟨_, entrySetting_toValue sound (mem_enabled_iff.1 here)⟩
  rcases fault?_eq_none.1 faultless with ⟨d, done⟩
  rw [done]
  have same_root : d.root = root := root_setAll done
  refine congrArg Except.ok (eq_of_rule? same_root fun name => ?_)
  rw [rule?_setAll increasing done, rule?_new, Option.or_none,
    Json.lookup_mapValues (fun s : Settings => s.options.toValue)]
  show ((c.rule? name).map _).bind _ = c.rule? name
  cases on : c.rule? name with
  | none => rfl
  | some s =>
      rw [Option.map_some, Option.bind_some, entrySetting_toValue sound on]
      rfl

/-- A configuration is read from the document of its fingerprint, whatever the default root. -/
theorem ofJson_document {c : Config} (sound : c.Sound) (root : String) :
    Config.ofJson c.document root = .ok { c with root } := by
  have read := setAll_enabled sound root
  have sorted : (Value.object [("rules", c.toValue)]).sorted = .object [("rules", c.toValue)] := by
    simp only [Value.sorted, Value.sortedMembers, c.sorted_toValue]
    rfl
  rw [Config.ofJson, parse?_document]
  simp only [sorted]
  exact read

/-- The configurations that can be built are those with registered names and compiled globs,
whatever their root. -/
theorem reachable_iff {c : Config} : c.Reachable ↔ c.Sound :=
  ⟨Reachable.sound, fun sound => .ofJson (ofJson_document sound c.root)⟩

/-- A configuration that can be built is read back from the document of its fingerprint under its
own root, so another one has its fingerprint if and only if the same rules are on in it with the
same options. -/
theorem ofJson_document_self (c : Config) (h : c.Reachable) :
    Config.ofJson c.document c.root = .ok c ∧
      ∀ d : Config, d.Reachable → (c.fingerprint = d.fingerprint ↔
        ∀ r, (c.settings r).map Settings.options = (d.settings r).map Settings.options) := by
  refine ⟨ofJson_document h.sound c.root, ?_⟩
  intro d hd
  constructor
  · intro same r
    -- one document is read as both of them, apart from the roots
    have documents : c.document = d.document := by rw [document, same, document]
    have read := ofJson_document h.sound d.root
    rw [documents, ofJson_document hd.sound d.root] at read
    have equal : d = { c with root := d.root } := Except.ok.inj read
    rw [equal]
    rfl
  · intro options
    rw [fingerprint_eq_iff h.sound hd.sound]
    funext r
    exact h.sound.settings_eq hd.sound (options r)

/-- A glob with a quote, a backslash, a control character and a letter beyond ASCII, alone and in a
list. -/
theorem ofJson_document_escapes :
    ∃ c d, (new "p").set "browser-api" ⟨.single "a\"\\\\\x01é"⟩ = .ok c ∧
      (new "q").set "browser-api" ⟨.multiple ["a\"\\\\\x01é"]⟩ = .ok d ∧
      Config.ofJson c.document "p" = .ok c ∧ Config.ofJson d.document "q" = .ok d ∧
      c.fingerprint ≠ d.fingerprint := by
  let one : Options := ⟨.single "a\"\\\\\x01é"⟩
  let list : Options := ⟨.multiple ["a\"\\\\\x01é"]⟩
  have matched : one.matcher.toOption.isSome = true := by decide +kernel
  have same : list.matcher = one.matcher := rfl
  cases globs : one.matcher with
  | error e => simp [globs, Except.toOption] at matched
  | ok ignore =>
      let c := (new "p").put "browser-api" ⟨one, ignore⟩
      let d := (new "q").put "browser-api" ⟨list, ignore⟩
      have left : (new "p").set "browser-api" one = .ok c := set_name (r := .browserApi) globs
      have right : (new "q").set "browser-api" list = .ok d :=
        set_name (r := .browserApi) (same.trans globs)
      have hc : c.Reachable := .set (.new "p") left
      have hd : d.Reachable := .set (.new "q") right
      rcases ofJson_document_self c hc with ⟨read, told⟩
      refine ⟨c, d, left, right, read, (ofJson_document_self d hd).1, ?_⟩
      -- a single glob and a list of it are different options
      intro equal
      have options : one = list := Option.some.inj ((told d hd).1 equal .browserApi)
      exact absurd options (by decide)

end Config
end Rules
end ClientBoundary

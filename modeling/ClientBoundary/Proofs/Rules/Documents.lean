import ClientBoundary.Proofs.Json.Sorting
import ClientBoundary.Proofs.Rules.IgnoreLists
import ClientBoundary.Proofs.Text.ByteOrder

/-!
# Documents that are configurations

The entries of a document are looked at in the order of their names. In each of them the options are
read first, then the name is looked up, and then the globs are compiled. A document with a fault in
one of them is no configuration at all.

- `ValidEntry`, `EntryFault`: an entry that turns its rule on, and what is wrong with another one;
- `entrySetting`: what an entry sets, apart from the other entries;
- `Config.fault?_setAll`, `Config.rule?_setAll`: all entries, one after the other;
- `Config.ofJson_first_fault`: which documents are configurations, and which ones, and what is said
  of the others.
-/

namespace ClientBoundary
namespace Rules

open Json (Increasing Value lastMember? sortMembers)
open IgnoreMatcher (Compiles ofPatterns)
open Text (utf8Bytes)

/-! ## One entry -/

/-- An entry that turns a rule on. -/
structure ValidEntry (name : String) (v : Value) (o : Options) : Prop where
  options : Options.ofValue name v = .ok o
  registered : ∃ r, Rule.ofName? name = some r
  globs : ∀ p ∈ o.patterns, Compiles [p]

/-- What is wrong with an entry: its options, or else its name, or else the first glob that does not
compile. -/
inductive EntryFault (name : String) (v : Value) : Failure → Prop where
  | options {fault : OptionsFault}
      (malformed : Options.ofValue name v = .error (.options name fault)) :
      EntryFault name v (.options name fault)
  | name {o : Options} (options : Options.ofValue name v = .ok o)
      (unknown : Rule.ofName? name = none) : EntryFault name v (.unknownRule name)
  | glob {o : Options} {r : Rule} {before after : List String} {p : String} {fault : Glob.Fault}
      (options : Options.ofValue name v = .ok o) (registered : Rule.ofName? name = some r)
      (patterns : o.patterns = before ++ p :: after) (compile : ∀ q ∈ before, Compiles [q])
      (failed : ofPatterns [p] = .error (.badGlob p fault)) : EntryFault name v (.badGlob p fault)

/-- What an entry sets, or what is wrong with it. -/
def entrySetting (name : String) (v : Value) : Except Failure Settings :=
  match Options.ofValue name v with
  | .error e => .error e
  | .ok options =>
      match Rule.ofName? name with
      | none => .error (.unknownRule name)
      | some _ =>
          match options.matcher with
          | .error e => .error e
          | .ok ignore => .ok ⟨options, ignore⟩

theorem Options.ofValue_sorted (rule : String) (v : Value) :
    Options.ofValue rule v.sorted = Options.ofValue rule v := by
  rw [Options.ofValue, Options.ofValue, v.sorted_sorted]

theorem Options.ofValue_error {rule : String} {v : Value} {e : Failure}
    (failed : Options.ofValue rule v = .error e) : ∃ fault, e = .options rule fault := by
  unfold Options.ofValue at failed
  split at failed
  · cases failed
  · exact ⟨_, (Except.error.inj failed).symm⟩

theorem entrySetting_sorted (name : String) (v : Value) :
    entrySetting name v.sorted = entrySetting name v := by
  rw [entrySetting, entrySetting, Options.ofValue_sorted]

theorem entrySetting_eq_ok_iff {name : String} {v : Value} {s : Settings} :
    entrySetting name v = .ok s ↔
      Options.ofValue name v = .ok s.options ∧ (∃ r, Rule.ofName? name = some r) ∧
        s.options.matcher = .ok s.ignore := by
  constructor
  · intro set
    unfold entrySetting at set
    split at set
    · cases set
    · rename_i options read
      split at set
      · cases set
      · rename_i r named
        split at set
        · cases set
        · rename_i ignore globs
          cases set
          exact ⟨read, ⟨r, named⟩, globs⟩
  · rintro ⟨read, ⟨r, named⟩, globs⟩
    simp [entrySetting, read, named, globs]

/-- An entry sets something exactly if nothing is wrong with it. -/
theorem exists_entrySetting_iff {name : String} {v : Value} :
    (∃ set, entrySetting name v = .ok set) ↔ ∃ o, ValidEntry name v o := by
  constructor
  · rintro ⟨s, set⟩
    rcases entrySetting_eq_ok_iff.1 set with ⟨read, named, globs⟩
    exact ⟨s.options, read, named, IgnoreMatcher.compiles_iff.1 ⟨s.ignore, globs⟩⟩
  · rintro ⟨o, read, named, globs⟩
    rcases IgnoreMatcher.compiles_iff.2 globs with ⟨m, compiled⟩
    exact ⟨⟨o, m⟩, entrySetting_eq_ok_iff.2 ⟨read, named, compiled⟩⟩

/-- What is said of an entry is what is wrong with it first. -/
theorem entrySetting_eq_error_iff {name : String} {v : Value} {e : Failure} :
    entrySetting name v = .error e ↔ EntryFault name v e := by
  constructor
  · -- one case for each check, in the order in which they are made
    intro failed
    unfold entrySetting at failed
    split at failed
    · rename_i malformed
      rw [Except.error.inj failed] at malformed
      rcases Options.ofValue_error malformed with ⟨fault, rfl⟩
      exact .options malformed
    · rename_i options read
      split at failed
      · rename_i unknown
        rw [← Except.error.inj failed]
        exact .name read unknown
      · rename_i r named
        split at failed
        · rename_i globs
          rw [Except.error.inj failed] at globs
          rcases IgnoreMatcher.ofPatterns_eq_error_iff.1 globs with
            ⟨before, p, after, patterns, compile, alone⟩
          rcases IgnoreMatcher.exists_badGlob alone with ⟨fault, rfl⟩
          exact .glob read named patterns compile alone
        · cases failed
  · intro fault
    cases fault with
    | options malformed => simp [entrySetting, malformed]
    | name options unknown => simp [entrySetting, options, unknown]
    | glob options registered patterns compile failed =>
        have globs := IgnoreMatcher.ofPatterns_eq_error_iff.2 ⟨_, _, _, patterns, compile, failed⟩
        simp [entrySetting, options, registered, Options.matcher, globs]

namespace Config

/-! ## All entries -/

theorem setAll_cons (c : Config) (name : String) (v : Value) (more : List (String × Value)) :
    c.setAll ((name, v) :: more) =
      match entrySetting name v with
      | .error e => .error e
      | .ok s => (c.put name s).setAll more := by
  rw [setAll, entrySetting]
  cases Options.ofValue name v with
  | error e => rfl
  | ok options =>
      simp only [set]
      cases Rule.ofName? name with
      | none => rfl
      | some r => cases options.matcher <;> rfl

/-- The fault of a document is that of the first entry with one. -/
theorem fault?_setAll (c : Config) (members : List (String × Value)) :
    fault? (c.setAll members) = members.findSome? fun m => fault? (entrySetting m.1 m.2) := by
  induction members generalizing c with
  | nil => rfl
  | cons m more ih =>
      rcases m with ⟨name, v⟩
      rw [setAll_cons, List.findSome?_cons]
      cases entrySetting name v with
      | error e => rfl
      | ok set => exact ih _

theorem root_setAll {c d : Config} {members : List (String × Value)}
    (done : c.setAll members = .ok d) : d.root = c.root := by
  induction members generalizing c with
  | nil => rw [← Except.ok.inj done]
  | cons m more ih =>
      rcases m with ⟨name, v⟩
      rw [setAll_cons] at done
      split at done
      · cases done
      · have kept := ih done
        exact kept

/-- What is set under a name is what the entry with this name sets. -/
theorem rule?_setAll {c d : Config} {members : List (String × Value)}
    (increasing : Increasing members) (done : c.setAll members = .ok d) (name : String) :
    d.rule? name =
      ((members.lookup name).bind fun v => (entrySetting name v).toOption).or
        (c.rule? name) := by
  induction members generalizing c with
  | nil =>
      rw [← Except.ok.inj done]
      rfl
  | cons m more ih =>
      rcases m with ⟨k, v⟩
      have rest : Increasing more := (Json.increasing_cons.1 increasing).2
      rw [setAll_cons] at done
      split at done
      · cases done
      · rename_i s set
        rw [ih rest done, Json.lookup_member, rule?_put]
        by_cases here : name = k
        · -- no further entry has the name
          subst here
          simp [increasing.lookup_behind, set, Except.toOption]
        · simp [here]

/-! ## Documents -/

/-- The value of a name in the rules of a document. -/
def ruleValue? (document : Value) (name : String) : Option Value :=
  (document.field? "rules").bind fun rules => rules.field? name

/-- The root that a document gives, or else the default one. -/
def rootOf (document : Value) (defaultRoot : String) : String :=
  match document.field? "root" with
  | some (.string root) => root
  | _ => defaultRoot

/-- A configuration is read from the last members `root` and `rules` of a document. -/
theorem ofJson_eq {text : String} {document : Value} (read : Value.parse? text = some document)
    (defaultRoot : String) :
    ofJson text defaultRoot =
      match document.field? "rules" with
      | none => .ok (new (rootOf document defaultRoot))
      | some .null => .ok (new (rootOf document defaultRoot))
      | some (.object entries) =>
          (new (rootOf document defaultRoot)).setAll (sortMembers (Value.sortedMembers entries))
      | some other => .error (.options anyRule (.rulesNotAnObject other.sorted)) := by
  have root : ((document.sorted.member? "root").bind Value.asString?).getD defaultRoot =
      rootOf document defaultRoot := by
    rw [Value.member?_sorted, rootOf]
    cases document.field? "root" with
    | none => rfl
    | some v => cases v <;> rfl
  rw [ofJson, read]
  simp only [ofSorted, root]
  rw [Value.member?_sorted]
  cases document.field? "rules" with
  | none => rfl
  | some rules => cases rules <;> rfl

/-- The fault of an object of rules. -/
theorem setAll_entries_eq_error_iff {c : Config} {entries : List (String × Value)} {e : Failure} :
    c.setAll (sortMembers (Value.sortedMembers entries)) = .error e ↔
      ∃ name v, lastMember? name entries = some v ∧ EntryFault name v e ∧
        ∀ earlier w, utf8Bytes earlier < utf8Bytes name → lastMember? earlier entries = some w →
          ∃ o, ValidEntry earlier w o := by
  rw [← fault?_eq_some, fault?_setAll,
    Increasing.findSome?_eq_some_iff (Json.increasing_sortMembers _), Value.exists_members_iff]
  simp only [Value.forall_members_iff, fault?_eq_some, fault?_eq_none, entrySetting_sorted]
  simp only [entrySetting_eq_error_iff, exists_entrySetting_iff, Text.utf8Bytes_lt_iff]
  refine exists_congr fun name => exists_congr fun v => and_congr_right fun _ =>
    and_congr_right fun _ => ?_
  exact forall₂_congr fun earlier w => Imp.swap

/-- An object of rules is read if and only if all its entries are valid. -/
theorem exists_setAll_entries_iff {c : Config} {entries : List (String × Value)} :
    (∃ d, c.setAll (sortMembers (Value.sortedMembers entries)) = .ok d) ↔
      ∀ name v, lastMember? name entries = some v → ∃ o, ValidEntry name v o := by
  rw [← fault?_eq_none, fault?_setAll, List.findSome?_eq_none_iff, Value.forall_members_iff]
  simp only [fault?_eq_none, entrySetting_sorted]
  simp only [exists_entrySetting_iff]

/-- What an object of rules sets. -/
theorem rule?_setAll_entries {root : String} {d : Config} {entries : List (String × Value)}
    (done : (new root).setAll (sortMembers (Value.sortedMembers entries)) = .ok d) {name : String}
    {s : Settings} :
    d.rule? name = some s ↔
      ∃ v, lastMember? name entries = some v ∧ Options.ofValue name v = .ok s.options ∧
        s.options.matcher = .ok s.ignore := by
  rw [rule?_setAll (Json.increasing_sortMembers _) done, Value.lookup_sortedMembers, rule?_new,
    Option.or_none]
  cases last : lastMember? name entries with
  | none => simp
  | some v =>
      simp only [Option.map_some, Option.bind_some, entrySetting_sorted, Option.some.injEq,
        exists_eq_left']
      constructor
      · intro found
        cases result : entrySetting name v with
        | error e => simp [result, Except.toOption] at found
        | ok s' =>
            rw [result] at found
            rcases Option.some.inj found with rfl
            rcases entrySetting_eq_ok_iff.1 result with ⟨read, -, globs⟩
            exact ⟨read, globs⟩
      · rintro ⟨read, globs⟩
        -- as all entries are valid, the name is that of a rule
        rcases exists_setAll_entries_iff.1 ⟨d, done⟩ name v last with ⟨-, -, named, -⟩
        rw [entrySetting_eq_ok_iff.2 ⟨read, named, globs⟩]
        rfl

/-- Exactly the names with an entry are on. -/
theorem exists_mem_enabled_iff {root : String} {c : Config} {entries : List (String × Value)}
    (done : (new root).setAll (sortMembers (Value.sortedMembers entries)) = .ok c) {name : String} :
    (∃ p ∈ c.enabled, p.1 = name) ↔ ∃ v, lastMember? name entries = some v := by
  constructor
  · rintro ⟨p, mem, rfl⟩
    rcases (rule?_setAll_entries done).1 (mem_enabled_iff.1 mem) with ⟨v, last, -⟩
    exact ⟨v, last⟩
  · rintro ⟨v, last⟩
    rcases exists_setAll_entries_iff.1 ⟨c, done⟩ name v last with ⟨o, options, -, globs⟩
    rcases IgnoreMatcher.compiles_iff.2 globs with ⟨m, compiled⟩
    have set : c.rule? name = some ⟨o, m⟩ :=
      (rule?_setAll_entries done).2 ⟨v, last, options, compiled⟩
    exact ⟨(name, ⟨o, m⟩), mem_enabled_iff.2 set, rfl⟩

/-- A document is a configuration if and only if its rules are absent, null, or an object without a
faulty entry. Then exactly the rules with an entry are on, with the options of the entry. What is
said of an object with faults is what is wrong with the first faulty entry in the order of the bytes
of the names. -/
theorem ofJson_first_fault (text defaultRoot : String) (document : Value)
    (read : Value.parse? text = some document) :
    ((∃ c, ofJson text defaultRoot = .ok c) ↔
      (document.field? "rules" = none ∨ document.field? "rules" = some .null ∨
        ∃ entries, document.field? "rules" = some (.object entries)) ∧
      ∀ name v, ruleValue? document name = some v → ∃ o, ValidEntry name v o) ∧
    (∀ c, ofJson text defaultRoot = .ok c →
      c.root = rootOf document defaultRoot ∧
      (∀ name, (∃ p ∈ c.enabled, p.1 = name) ↔ ∃ v, ruleValue? document name = some v) ∧
      ∀ p ∈ c.enabled, ∃ v, ruleValue? document p.1 = some v ∧
        Options.ofValue p.1 v = .ok p.2.options ∧ p.2.options.matcher = .ok p.2.ignore) ∧
    ∀ e, ofJson text defaultRoot = .error e ↔
      (∃ other, document.field? "rules" = some other ∧ other ≠ .null ∧
        (∀ entries, other ≠ .object entries) ∧
        e = .options anyRule (.rulesNotAnObject other.sorted)) ∨
      ∃ name v, ruleValue? document name = some v ∧ EntryFault name v e ∧
        ∀ earlier w, utf8Bytes earlier < utf8Bytes name → ruleValue? document earlier = some w →
          ∃ o, ValidEntry earlier w o := by
  rw [ofJson_eq read]
  have entry {rules : Value} (shape : document.field? "rules" = some rules) (name : String) :
      ruleValue? document name = rules.field? name := by
    rw [ruleValue?, shape, Option.bind_some]
  cases shape : document.field? "rules" with
  | none =>
      have bare (name : String) : ruleValue? document name = none := by rw [ruleValue?, shape]; rfl
      simp [bare, new, enabled, Json.Map.empty]
  | some rules =>
      cases rules with
      | object entries =>
          have entries_ (name : String) : ruleValue? document name = lastMember? name entries :=
            entry shape name
          simp only [entries_]
          refine ⟨?_, ?_, ?_⟩
          · simpa using exists_setAll_entries_iff
          · intro c done
            refine ⟨root_setAll done, fun name => exists_mem_enabled_iff done, ?_⟩
            intro p mem
            exact (rule?_setAll_entries done).1 (mem_enabled_iff.1 mem)
          · intro e
            simpa using setAll_entries_eq_error_iff
      | null =>
          have bare (name : String) : ruleValue? document name = none := entry shape name
          simp [bare, new, enabled, Json.Map.empty]
      | bool _ | number _ | string _ | array _ =>
          have bare (name : String) : ruleValue? document name = none := entry shape name
          simp [bare, eq_comm]

/-- Of two faulty entries the one with the smaller name is reported, though it was written behind
the other. Of two entries with one name the second one counts. -/
theorem ofJson_first_fault_sorted :
    ofJson "\x7b\"rules\":\x7b\"b\":1,\"a\":null\x7d\x7d" "p" = .error (.unknownRule "a") ∧
    ∃ c, ofJson "\x7b\"rules\":\x7b\"browser-api\":1,\"browser-api\":null\x7d\x7d" "p" = .ok c ∧
      c.root = "p" ∧ ∃ p ∈ c.enabled, p.1 = "browser-api" ∧ p.2.options = .default := by
  constructor
  · let document := Value.object
      [("rules", .object [("b", .number (.integer 1)), ("a", .null)])]
    have read : Value.parse? "\x7b\"rules\":\x7b\"b\":1,\"a\":null\x7d\x7d" = some document := rfl
    rcases ofJson_first_fault _ "p" document read with ⟨-, -, faults⟩
    have unknown : EntryFault "a" .null (.unknownRule "a") :=
      .name (o := .default) rfl (by decide)
    refine (faults _).2 (.inr ⟨"a", .null, rfl, unknown, ?_⟩)
    -- there is one other name, and it is greater
    intro earlier w less found
    have names : earlier = "a" ∨ earlier = "b" := by
      by_contra other
      simp [not_or] at other
      simp [document, ruleValue?, Value.field?, lastMember?, Json.lookup_member, other] at found
    rcases names with rfl | rfl
    · exact absurd less (by decide)
    · exact absurd less (by decide)
  · let document := Value.object
      [("rules", .object [("browser-api", .number (.integer 1)), ("browser-api", .null)])]
    have read : Value.parse? "\x7b\"rules\":\x7b\"browser-api\":1,\"browser-api\":null\x7d\x7d" =
      some document := rfl
    rcases ofJson_first_fault _ "p" document read with ⟨accepted, told, -⟩
    have valid : ValidEntry "browser-api" .null .default :=
      ⟨rfl, ⟨.browserApi, rfl⟩, by simp [Options.default, Options.patterns, IgnorePath.patterns]⟩
    have entry (name : String) (v : Value) (found : ruleValue? document name = some v) :
        name = "browser-api" ∧ v = .null := by
      by_cases here : name = "browser-api"
      · subst here
        exact ⟨rfl, (Option.some.inj found).symm⟩
      · simp [document, ruleValue?, Value.field?, lastMember?, Json.lookup_member, here] at found
    rcases accepted.2 ⟨.inr (.inr ⟨_, rfl⟩), fun name v found => by
      rcases entry name v found with ⟨rfl, rfl⟩
      exact ⟨_, valid⟩⟩ with ⟨c, done⟩
    rcases told c done with ⟨root, names, options⟩
    rcases (names "browser-api").2 ⟨.null, rfl⟩ with ⟨p, mem, name⟩
    refine ⟨c, done, root, p, mem, name, ?_⟩
    rcases options p mem with ⟨v, found, readOptions, -⟩
    rw [name] at found readOptions
    rcases entry _ v found with ⟨-, rfl⟩
    exact (Except.ok.inj readOptions).symm

end Config
end Rules
end ClientBoundary

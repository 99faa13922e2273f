import ClientBoundary.Json.Value
import Mathlib.Data.List.Sort
import Mathlib.Data.String.Basic

/-!
# Objects as maps

An object may be written with its members in any order, and with a key more than once. Read as a
map it has the last value of each key, in the order of the keys.

- `lastMember?`, `Value.field?`: the last value of a key in an object as it is written;
- `increasing_sortMembers`, `lookup_sortMembers`: the order of a map, and what is in it;
- `Increasing.eq_of_lookup`, `Map.eq_of_get?`: nothing else is in a map;
- `sortMembers_of_increasing`: members in the order of their keys are read as they stand;
- `Value.lookup_sortedMembers`, `Value.sorted_sorted`: values that are read as maps.
-/

namespace ClientBoundary
namespace Json

section Members

variable {α β : Type}

/-! ## The order of the keys -/

/-- The keys of a map come in increasing order. -/
theorem increasing_sortMembers (members : List (String × α)) :
    Increasing (sortMembers members) := by
  have along (front : List (String × α)) (h : Increasing front) : Increasing
      (members.foldl (fun sorted m => insertMember m.1 m.2 sorted) front) := by
    induction members generalizing front with
    | nil => exact h
    | cons m more ih => exact ih _ (h.insertMember m.1 m.2)
  exact along [] List.Pairwise.nil

/-! ## The values of the keys -/

/-- The last value of a key. -/
def lastMember? (key : String) (members : List (String × α)) : Option α :=
  members.reverse.lookup key

theorem lookup_member (key k : String) (value : α) (more : List (String × α)) :
    List.lookup key ((k, value) :: more) = if key = k then some value else more.lookup key := by
  by_cases here : key = k
  · simp [here]
  · have other : (key == k) = false := by simpa using here
    rw [List.lookup_cons, other, if_neg here]

theorem lastMember?_cons (key k : String) (value : α) (more : List (String × α)) :
    lastMember? key ((k, value) :: more) =
      (lastMember? key more).or (if key = k then some value else none) := by
  rw [lastMember?, List.reverse_cons, List.lookup_append, lookup_member]
  rfl

theorem lookup_insertMember (key : String) (value : α) (members : List (String × α)) (k : String) :
    (insertMember key value members).lookup k =
      if k = key then some value else members.lookup k := by
  induction members with
  | nil => exact lookup_member k key value []
  | cons m more ih =>
      rcases m with ⟨k', v⟩
      rw [insertMember]
      split
      · exact lookup_member k key value _
      · split
        · rename_i same
          rw [← same, lookup_member, lookup_member]
          split <;> rfl
        · rename_i other
          rw [lookup_member, lookup_member, ih]
          by_cases here : k = key
          · simp [here, other]
          · simp [here]

/-- A map has the last value of a key. -/
theorem lookup_sortMembers (members : List (String × α)) (key : String) :
    (sortMembers members).lookup key = lastMember? key members := by
  -- what is put in later takes the place of what was there
  have along (front : List (String × α)) :
      (members.foldl (fun sorted m => insertMember m.1 m.2 sorted) front).lookup key =
        (lastMember? key members).or (front.lookup key) := by
    induction members generalizing front with
    | nil => rfl
    | cons m more ih =>
        rw [List.foldl_cons, ih, lookup_insertMember, lastMember?_cons]
        by_cases here : key = m.1 <;> simp [here]
  calc (sortMembers members).lookup key
      = (lastMember? key members).or (List.lookup key []) := along []
    _ = lastMember? key members := Option.or_none

/-- A key does not come again behind itself. -/
theorem Increasing.lookup_behind {key : String} {value : α} {more : List (String × α)}
    (h : Increasing ((key, value) :: more)) : more.lookup key = none := by
  rw [List.lookup_eq_none_iff]
  intro m mem
  simpa using ne_of_lt ((increasing_cons.1 h).1 m mem)

/-- Where no key comes twice, the values are those that are written. -/
theorem Increasing.lookup_eq_some_iff {members : List (String × α)} (h : Increasing members)
    {key : String} {value : α} :
    members.lookup key = some value ↔ (key, value) ∈ members := by
  induction members with
  | nil => simp
  | cons m more ih =>
      rcases m with ⟨k, v⟩
      rw [lookup_member, List.mem_cons, Prod.mk.injEq, ← ih (increasing_cons.1 h).2]
      by_cases here : key = k
      · subst here
        simp [h.lookup_behind, eq_comm]
      · simp [here]

/-- Members in the order of their keys are told by the values of the keys. -/
theorem Increasing.eq_of_lookup {ms ns : List (String × α)} (hm : Increasing ms)
    (hn : Increasing ns) (same : ∀ key, ms.lookup key = ns.lookup key) : ms = ns := by
  let before (m n : String × α) : Prop := m.1 < n.1
  have irrefl : Std.Irrefl before := ⟨fun m => lt_irrefl m.1⟩
  have antisymm : Std.Antisymm before := ⟨fun m n less more => absurd more (lt_asymm less)⟩
  refine List.Pairwise.eq_of_mem_iff (r := before) (List.pairwise_map.1 hm)
    (List.pairwise_map.1 hn) ?_
  rintro ⟨key, value⟩
  rw [← hm.lookup_eq_some_iff, ← hn.lookup_eq_some_iff, same]

namespace Map

theorem get?_insert (m : Map α) (key : String) (value : α) (k : String) :
    (m.insert key value).get? k = if k = key then some value else m.get? k :=
  lookup_insertMember key value m.members k

theorem get?_eq_some_iff {m : Map α} {key : String} {value : α} :
    m.get? key = some value ↔ (key, value) ∈ m.members :=
  m.increasing.lookup_eq_some_iff

/-- A map is told by the values of its keys. -/
theorem eq_of_get? {m n : Map α} (same : ∀ key, m.get? key = n.get? key) : m = n := by
  rcases m with ⟨ms, hm⟩
  rcases n with ⟨ns, hn⟩
  have members : ms = ns := hm.eq_of_lookup hn same
  subst members
  rfl

end Map

/-- Where no key comes twice, the last value of a key is its only one. -/
theorem Increasing.lastMember?_eq {members : List (String × α)} (h : Increasing members)
    (key : String) : lastMember? key members = members.lookup key := by
  induction members with
  | nil => rfl
  | cons m more ih =>
      rcases m with ⟨k, v⟩
      rw [lastMember?_cons, lookup_member, ih (increasing_cons.1 h).2]
      by_cases here : key = k
      · subst here
        simp [h.lookup_behind]
      · simp [here]

/-- Members in the order of their keys are read as they stand. -/
theorem sortMembers_of_increasing {members : List (String × α)} (h : Increasing members) :
    sortMembers members = members :=
  (increasing_sortMembers members).eq_of_lookup h fun key => by
    rw [lookup_sortMembers, h.lastMember?_eq]

/-- The first member at which something is found is the one with the least key. -/
theorem Increasing.findSome?_eq_some_iff {members : List (String × α)} (h : Increasing members)
    {f : String × α → Option β} {b : β} :
    members.findSome? f = some b ↔
      ∃ m ∈ members, f m = some b ∧ ∀ n ∈ members, n.1 < m.1 → f n = none := by
  rw [List.findSome?_eq_some_iff]
  constructor
  · rintro ⟨before, m, after, rfl, found, bare⟩
    refine ⟨m, by simp, found, ?_⟩
    intro n mem less
    rw [Increasing, List.map_append, List.map_cons, List.pairwise_append, List.pairwise_cons] at h
    rcases List.mem_append.1 mem with mem | mem
    · exact bare n mem
    · rcases List.mem_cons.1 mem with rfl | mem
      · exact absurd less (lt_irrefl _)
      · exact absurd less (lt_asymm (h.2.1.1 n.1 (List.mem_map.2 ⟨n, mem, rfl⟩)))
  · rintro ⟨m, mem, found, bare⟩
    rcases List.append_of_mem mem with ⟨before, after, rfl⟩
    refine ⟨before, m, after, rfl, found, ?_⟩
    intro n mem'
    rw [Increasing, List.map_append, List.map_cons, List.pairwise_append] at h
    have less : n.1 < m.1 := h.2.2 n.1 (List.mem_map.2 ⟨n, mem', rfl⟩) m.1 List.mem_cons_self
    exact bare n (List.mem_append_left _ mem') less

/-! ## Values one by one -/

theorem lookup_mapValues (f : α → β) (members : List (String × α)) (key : String) :
    (members.map fun m => (m.1, f m.2)).lookup key = (members.lookup key).map f := by
  induction members with
  | nil => rfl
  | cons m more ih =>
      rcases m with ⟨k, v⟩
      rw [List.map_cons, lookup_member, lookup_member, ih]
      split <;> rfl

theorem lastMember?_mapValues (f : α → β) (members : List (String × α)) (key : String) :
    lastMember? key (members.map fun m => (m.1, f m.2)) = (lastMember? key members).map f := by
  rw [lastMember?, ← List.map_reverse, lookup_mapValues, lastMember?]

theorem Increasing.mapValues {members : List (String × α)} (h : Increasing members) (f : α → β) :
    Increasing (members.map fun m => (m.1, f m.2)) := by
  rw [Increasing, List.map_map]
  exact h

/-- It makes no difference whether values are changed before or after they are put in order. -/
theorem sortMembers_mapValues (f : α → β) (members : List (String × α)) :
    sortMembers (members.map fun m => (m.1, f m.2)) =
      (sortMembers members).map fun m => (m.1, f m.2) := by
  refine (increasing_sortMembers _).eq_of_lookup ((increasing_sortMembers _).mapValues f) ?_
  intro key
  rw [lookup_sortMembers, lastMember?_mapValues, lookup_mapValues, lookup_sortMembers]

end Members

/-! ## Values -/

namespace Value

/-- The last value of a key in an object as it is written. -/
def field? (v : Value) (key : String) : Option Value :=
  match v with
  | .object members => lastMember? key members
  | _ => none

theorem sortedItems_eq_map (items : List Value) : sortedItems items = items.map sorted := by
  induction items with
  | nil => rfl
  | cons v more ih => rw [sortedItems, ih, List.map_cons]

theorem sortedMembers_eq_map (members : List (String × Value)) :
    sortedMembers members = members.map fun m => (m.1, m.2.sorted) := by
  induction members with
  | nil => rfl
  | cons m more ih => rw [sortedMembers, ih, List.map_cons]

theorem sortedItems_ofStrings (texts : List String) :
    sortedItems (texts.map .string) = texts.map .string := by
  induction texts with
  | nil => rfl
  | cons text more ih => simp [sortedItems, sorted, ih]

/-- The values of an object that is read as a map. -/
theorem lookup_sortedMembers (members : List (String × Value)) (key : String) :
    (sortMembers (sortedMembers members)).lookup key = (lastMember? key members).map sorted := by
  rw [lookup_sortMembers, sortedMembers_eq_map, lastMember?_mapValues]

theorem mem_sortedMembers {members : List (String × Value)} {key : String} {v : Value} :
    (key, v) ∈ sortMembers (sortedMembers members) ↔
      ∃ w, lastMember? key members = some w ∧ w.sorted = v := by
  rw [← (increasing_sortMembers _).lookup_eq_some_iff, lookup_sortedMembers, Option.map_eq_some_iff]

theorem forall_members_iff {members : List (String × Value)} {p : String × Value → Prop} :
    (∀ m ∈ sortMembers (sortedMembers members), p m) ↔
      ∀ key v, lastMember? key members = some v → p (key, v.sorted) := by
  constructor
  · intro all key v last
    exact all (key, v.sorted) (mem_sortedMembers.2 ⟨v, last, rfl⟩)
  · rintro all ⟨key, v⟩ mem
    rcases mem_sortedMembers.1 mem with ⟨w, last, rfl⟩
    exact all key w last

theorem exists_members_iff {members : List (String × Value)} {p : String × Value → Prop} :
    (∃ m ∈ sortMembers (sortedMembers members), p m) ↔
      ∃ key v, lastMember? key members = some v ∧ p (key, v.sorted) := by
  constructor
  · rintro ⟨⟨key, v⟩, mem, holds⟩
    rcases mem_sortedMembers.1 mem with ⟨w, last, rfl⟩
    exact ⟨key, w, last, holds⟩
  · rintro ⟨key, v, last, holds⟩
    exact ⟨(key, v.sorted), mem_sortedMembers.2 ⟨v, last, rfl⟩, holds⟩

theorem asString?_sorted (v : Value) : v.sorted.asString? = v.asString? := by
  cases v <;> rfl

theorem member?_sorted (v : Value) (key : String) :
    v.sorted.member? key = (v.field? key).map sorted := by
  cases v with
  | object members =>
      rw [sorted, member?, lookup_sortedMembers, field?]
  | null => rfl
  | bool b => rfl
  | number n => rfl
  | string s => rfl
  | array items => rfl

mutual

/-- A value that was read as a map stays as it is. -/
theorem sorted_sorted : ∀ v : Value, v.sorted.sorted = v.sorted
  | .null => rfl
  | .bool _ => rfl
  | .number _ => rfl
  | .string _ => rfl
  | .array items => by
      rw [sorted, sorted, sortedItems_sortedItems items]
  | .object members => by
      -- the values are maps already, and the keys are in order
      have values : sortedMembers (sortMembers (sortedMembers members)) =
          sortMembers (sortedMembers members) :=
        calc sortedMembers (sortMembers (sortedMembers members))
            = sortMembers (sortedMembers (sortedMembers members)) := by
                rw [sortedMembers_eq_map (sortMembers _), ← sortMembers_mapValues,
                  ← sortedMembers_eq_map]
          _ = sortMembers (sortedMembers members) := by
                rw [sortedMembers_sortedMembers members]
      rw [sorted, sorted, values, sortMembers_of_increasing (increasing_sortMembers _)]

theorem sortedItems_sortedItems : ∀ items : List Value,
    sortedItems (sortedItems items) = sortedItems items
  | [] => rfl
  | v :: more => by
      rw [sortedItems, sortedItems, sorted_sorted v, sortedItems_sortedItems more]

theorem sortedMembers_sortedMembers : ∀ members : List (String × Value),
    sortedMembers (sortedMembers members) = sortedMembers members
  | [] => rfl
  | (key, v) :: more => by
      rw [sortedMembers, sortedMembers, sorted_sorted v, sortedMembers_sortedMembers more]

end

end Value

end Json
end ClientBoundary

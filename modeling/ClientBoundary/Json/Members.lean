/-!
# Members in the order of their keys

An object that is read as a map has its members in increasing order of their keys, each key once.

- `insertMember`, `sortMembers`: members put in order;
- `Increasing`: members that are in order;
- `Map`: a map from texts, by such members.
-/

namespace ClientBoundary
namespace Json

variable {α : Type}

/-- Put a member into a list sorted by key, in place of one with the same key. -/
def insertMember (key : String) (value : α) : List (String × α) → List (String × α)
  | [] => [(key, value)]
  | (k, v) :: more =>
      if key < k then (key, value) :: (k, v) :: more
      else if key = k then (key, value) :: more
      else (k, v) :: insertMember key value more

/-- The members of an object as a map: sorted by key, the last one of a repeated key. -/
def sortMembers (members : List (String × α)) : List (String × α) :=
  members.foldl (fun sorted (key, value) => insertMember key value sorted) []

/-! ## The order of the keys -/

/-- The keys of members come in increasing order, each once. -/
def Increasing (members : List (String × α)) : Prop :=
  (members.map (·.1)).Pairwise (· < ·)

theorem increasing_cons {m : String × α} {more : List (String × α)} :
    Increasing (m :: more) ↔ (∀ n ∈ more, m.1 < n.1) ∧ Increasing more := by
  simp [Increasing]

theorem mem_insertMember {key : String} {value : α} {members : List (String × α)}
    {m : String × α} (mem : m ∈ insertMember key value members) :
    m = (key, value) ∨ m ∈ members := by
  induction members with
  | nil => exact .inl (List.mem_singleton.1 mem)
  | cons n more ih =>
      rw [insertMember] at mem
      split at mem
      · exact List.mem_cons.1 mem
      · split at mem
        · exact (List.mem_cons.1 mem).imp_right (List.mem_cons_of_mem _)
        · rcases List.mem_cons.1 mem with rfl | mem
          · exact .inr List.mem_cons_self
          · exact (ih mem).imp_right (List.mem_cons_of_mem _)

/-- A member is put between those with smaller and those with greater keys. -/
theorem Increasing.insertMember {members : List (String × α)} (h : Increasing members)
    (key : String) (value : α) : Increasing (insertMember key value members) := by
  induction members with
  | nil => exact List.pairwise_singleton _ _
  | cons m more ih =>
      rcases increasing_cons.1 h with ⟨first, rest⟩
      rw [Json.insertMember]
      split
      · rename_i before
        refine increasing_cons.2 ⟨?_, h⟩
        intro n mem
        rcases List.mem_cons.1 mem with rfl | mem
        · exact before
        · exact String.lt_trans before (first n mem)
      · rename_i notBefore
        split
        · rename_i same
          exact increasing_cons.2 ⟨fun n mem => same ▸ first n mem, rest⟩
        · rename_i other
          refine increasing_cons.2 ⟨?_, ih rest⟩
          intro n mem
          rcases mem_insertMember mem with rfl | mem
          · have behind : m.1 ≤ key := String.not_lt.1 notBefore
            exact Decidable.byContradiction fun front =>
              other (String.le_antisymm (String.not_lt.1 front) behind)
          · exact first n mem

/-! ## Maps -/

/-- A map from texts. -/
structure Map (α : Type) where
  members : List (String × α)
  increasing : Increasing members

namespace Map

def empty : Map α :=
  ⟨[], List.Pairwise.nil⟩

/-- The map with a value under a key, in place of what was there. -/
def insert (m : Map α) (key : String) (value : α) : Map α :=
  ⟨insertMember key value m.members, m.increasing.insertMember key value⟩

def get? (m : Map α) (key : String) : Option α :=
  m.members.lookup key

end Map

end Json
end ClientBoundary

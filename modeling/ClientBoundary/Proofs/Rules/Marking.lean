import ClientBoundary.Proofs.Rules.Callbacks
import ClientBoundary.Rules.Marks
import Mathlib.Data.List.Perm.Basic

/-!
# Marks find the positions

A walk with marks tells of the same events as one that hands the positions down, if names are told
apart by their spans, and so are statements. What is marked around a part of the tree stays marked
while the part is visited, and nothing that is visited in it takes such a mark.

- `IsNameAt`, `IsStatementAt`, `TellsApart`: what has a span that is looked at;
- `Clear`: the marks that concern nothing in a part of the tree;
- `Tells`: what a visit tells of, and which marks it leaves;
- `visitProgram_eq`: the two walks.
-/

namespace ClientBoundary
namespace Rules

open Script (Node Binding Address Program)

/-! ## Lists of marks -/

section lists

variable {α : Type} {p : α → Bool} {l : List α} {i : Nat}

theorem lastIndex?_eq_none : lastIndex? p l = none ↔ ∀ x ∈ l, p x = false := by
  simp [lastIndex?]

/-- The last entry of a kind is in the list, and of that kind. -/
theorem of_lastIndex?_eq_some (h : lastIndex? p l = some i) : ∃ x, l[i]? = some x ∧ p x = true := by
  rcases Option.map_eq_some_iff.1 h with ⟨j, found, rfl⟩
  rcases List.findIdx?_eq_some_iff_getElem.1 found with ⟨inside, holds, -⟩
  refine ⟨l.reverse[j], ?_, holds⟩
  rw [← List.getElem?_reverse (by simpa using inside), List.getElem?_eq_getElem inside]

/-- Nothing but the entry is lost. -/
theorem cons_swapRemove_perm {x : α} (h : l[i]? = some x) : (x :: swapRemove l i).Perm l := by
  rcases List.eq_nil_or_concat' l with rfl | ⟨front, last, rfl⟩
  · simp at h
  have removed : swapRemove (front ++ [last]) i = ((front ++ [last]).set i last).dropLast := by
    simp [swapRemove]
  rcases Nat.lt_or_ge i front.length with inside | outside
  · rw [List.getElem?_append_left inside, List.getElem?_eq_getElem inside] at h
    rcases Option.some.inj h with rfl
    rw [removed, List.set_append_left _ _ inside, List.dropLast_concat]
    calc (front[i] :: front.set i last).Perm (front[i] :: last :: front.eraseIdx i) :=
          (List.set_perm_cons_eraseIdx inside last).cons _
      _ |>.Perm (last :: front[i] :: front.eraseIdx i) := .swap _ _ _
      _ |>.Perm (last :: front) := (List.getElem_cons_eraseIdx_perm inside).cons last
      _ |>.Perm (front ++ [last]) := (List.perm_append_singleton last front).symm
  · have here : i = front.length := by
      have := (List.getElem?_eq_some_iff.1 h).1
      simp only [List.length_append, List.length_singleton] at this
      omega
    subst here
    rw [List.getElem?_concat_length] at h
    rcases Option.some.inj h with rfl
    rw [removed, List.set_append_right _ _ outside, Nat.sub_self, List.set_cons_zero,
      List.dropLast_concat]
    exact (List.perm_append_singleton last front).symm

end lists

/-! ## What has a span -/

/-- A name is used at an address. -/
def IsNameAt (root : Node) (a : Address) : Prop :=
  ∃ name use, root.at? a = some (.reference name use)

/-- A statement stands at an address, or the body of a function that is met as one. -/
inductive IsStatementAt (root : Node) : Address → Prop
  | expression {a : Address} {e : Node} (here : root.at? a = some (.statement e)) :
      IsStatementAt root a
  | body {a : Address} {parts : List Node} {i : Nat}
      (here : root.at? a = some (.arrow [.scope .function parts]))
      (body : conciseBody? parts = some i) : IsStatementAt root (a ++ [0] ++ [i])

variable {σ : Type}

/-- No two names have the same span, and no two statements. -/
structure TellsApart (span : Address → σ) (root : Node) : Prop where
  names : ∀ {a b}, IsNameAt root a → IsNameAt root b → span a = span b → a = b
  statements : ∀ {a b}, IsStatementAt root a → IsStatementAt root b → span a = span b → a = b

/-- No mark is of a name at an address or inside, and no announced body is a statement there. -/
structure Clear (span : Address → σ) (root : Node) (a : Address) (m : Marks σ) : Prop where
  names : ∀ b, IsNameAt root (a ++ b) → ∀ r ∈ m.reads, r.1 ≠ span (a ++ b)
  statements : ∀ b, IsStatementAt root (a ++ b) → span (a ++ b) ∉ m.bodies

/-- The name that an expression is stands inside it. -/
theorem isNameAt_of_nameAddress? {root : Node} {a b : Address} {e : Node}
    (here : root.at? a = some e) (name : nameAddress? a e = some b) :
    IsNameAt root b ∧ a <+: b := by
  fun_induction nameAddress? a e with
  | case1 a inner ih =>
      have inside : root.at? (a ++ [0]) = some inner := Node.at?_child here rfl
      rcases ih inside name with ⟨found, below⟩
      exact ⟨found, (List.prefix_append a [0]).trans below⟩
  | case2 a text use =>
      rcases Option.some.inj name with rfl
      exact ⟨⟨text, use, here⟩, List.prefix_rfl⟩
  | case3 => cases name

/-- The body of a function is the last one of its parts. -/
theorem conciseBody?_cons (part next : Node) (more : List Node) :
    conciseBody? (part :: next :: more) = (conciseBody? (next :: more)).map (· + 1) := by
  unfold conciseBody?
  rw [List.getLast?_cons_cons]
  split
  · rename_i body last
    by_cases block : isBlock body <;> simp [block]
  · rfl

/-! ## Marks around a part of the tree -/

namespace Marks

/-- The marks with one for an expression that stands in a position, if it is a name. -/
def marked (m : Marks σ) (span : Address → σ) (a : Address) (e : Node)
    (position : Option ReadPosition) : Marks σ :=
  match nameAddress? a e, position with
  | some b, some q => { m with reads := m.reads ++ [(span b, q)] }
  | _, _ => m

/-- The marks with the body among the parts of a function, from a number on, announced. -/
def announced (m : Marks σ) (span : Address → σ) (a : Address) (i : Nat) (parts : List Node) :
    Marks σ :=
  match conciseBody? parts with
  | some k => { m with bodies := span (a ++ [i + k]) :: m.bodies }
  | Option.none => m

variable {m : Marks σ} {span : Address → σ} {a : Address} {e : Node}

theorem marked_none : m.marked span a e Option.none = m := by
  unfold marked
  cases nameAddress? a e <;> rfl

theorem marked_some {q : ReadPosition} : m.marked span a e (some q) = m.mark span q a e := by
  unfold marked mark
  cases nameAddress? a e <;> rfl

theorem announced_none {i : Nat} {parts : List Node} (body : conciseBody? parts = Option.none) :
    m.announced span a i parts = m := by
  rw [announced, body]

theorem announced_some {i k : Nat} {parts : List Node} (body : conciseBody? parts = some k) :
    m.announced span a i parts = { m with bodies := span (a ++ [i + k]) :: m.bodies } := by
  rw [announced, body]

theorem announced_stack {i : Nat} {parts : List Node} :
    (m.announced span a i parts).stack = m.stack := by
  unfold announced
  split <;> rfl

theorem announced_cons {i : Nat} {part next : Node} {more : List Node} :
    m.announced span a i (part :: next :: more) = m.announced span a (i + 1) (next :: more) := by
  rw [announced, announced, conciseBody?_cons]
  cases conciseBody? (next :: more) with
  | none => rfl
  | some k =>
      have same : i + (k + 1) = i + 1 + k := by omega
      rw [Option.map_some]
      simp only [same]

end Marks

/-- What is inside one child is not inside another. -/
theorem not_below_beside {a : Address} {i j : Nat} (other : i ≠ j) (b : Address)
    (below : a ++ [i] <+: b) : ¬ a ++ [j] <+: b := by
  rintro ⟨c, rfl⟩
  rw [List.append_assoc, List.prefix_append_right_inj] at below
  exact other (List.cons_prefix_cons.1 below).1

section clear

variable {span : Address → σ} {root : Node} {a : Address} {m : Marks σ}

/-- A mark of a name elsewhere concerns nothing here. -/
theorem Clear.mark (apart : TellsApart span root) {c : Address} {e : Node} {q : ReadPosition}
    (clear : Clear span root a m) (here : root.at? c = some e)
    (outside : ∀ b, c <+: b → ¬ a <+: b) : Clear span root a (m.mark span q c e) := by
  unfold Marks.mark
  split
  · rename_i b name
    rcases isNameAt_of_nameAddress? here name with ⟨found, below⟩
    refine ⟨?_, clear.statements⟩
    intro d inside r mem
    rcases List.mem_append.1 mem with mem | mem
    · exact clear.names d inside r mem
    · -- the new mark has the span of a name elsewhere
      rcases List.mem_singleton.1 mem with rfl
      intro same
      rcases apart.names found inside same with rfl
      exact outside _ below (List.prefix_append a d)
  · exact clear

/-- A body elsewhere is no statement here. -/
theorem Clear.announce (apart : TellsApart span root) {c : Address}
    (clear : Clear span root a m) (here : IsStatementAt root c) (outside : ¬ a <+: c) :
    Clear span root a { m with bodies := span c :: m.bodies } := by
  refine ⟨clear.names, ?_⟩
  intro d inside mem
  rcases List.mem_cons.1 mem with same | mem
  · rcases apart.statements inside here same with rfl
    exact outside (List.prefix_append a d)
  · exact clear.statements d inside mem

/-- The body of a function does not matter to the parts in front of it. -/
theorem Clear.announced (apart : TellsApart span root) {i j : Nat} {parts : List Node}
    (clear : Clear span root (a ++ [i]) m)
    (body : ∀ k, conciseBody? parts = some k → IsStatementAt root (a ++ [j + k])) (before : i < j) :
    Clear span root (a ++ [i]) (m.announced span a j parts) := by
  unfold Marks.announced
  split
  · rename_i k here
    exact clear.announce apart (body k here) (not_below_beside (by omega) _ List.prefix_rfl)
  · exact clear

theorem Clear.name_here (clear : Clear span root a m) (here : IsNameAt root a) :
    ∀ r ∈ m.reads, r.1 ≠ span a := by
  have names := clear.names []
  rw [List.append_nil] at names
  exact names here

theorem Clear.statement_here (clear : Clear span root a m) (here : IsStatementAt root a) :
    span a ∉ m.bodies := by
  have statements := clear.statements []
  rw [List.append_nil] at statements
  exact statements here

/-- What is on the stack is no mark. -/
theorem Clear.withStack (clear : Clear span root a m) (stack : Stack) :
    Clear span root a { m with stack := stack } :=
  ⟨clear.names, clear.statements⟩

theorem Clear.below (clear : Clear span root a m) (b : Address) : Clear span root (a ++ b) m where
  names c := by
    rw [List.append_assoc]
    exact clear.names (b ++ c)
  statements c := by
    rw [List.append_assoc]
    exact clear.statements (b ++ c)

end clear

/-! ## Visits -/

/-- The same marks, in any order, and the same stack. -/
structure Marks.Same (m k : Marks σ) : Prop where
  reads : m.reads.Perm k.reads
  bodies : m.bodies = k.bodies
  stack : m.stack = k.stack

theorem Marks.Same.eq_none {m : Marks σ} (same : m.Same .none) : m = .none := by
  rcases m with ⟨reads, bodies, stack⟩
  have reads : reads = [] := same.reads.eq_nil
  have bodies : bodies = [] := same.bodies
  have stack : stack = [] := same.stack
  rw [reads, bodies, stack, Marks.none]

/-- From some marks a visit tells of events and leaves other marks. -/
def Tells (v : Visit (Marks σ)) (m : Marks σ) (events : List Event) (left : Marks σ) : Prop :=
  ∀ k : Marks σ, k.Same m → (v k).1 = events ∧ (v k).2.Same left

theorem Marks.same_rfl (m : Marks σ) : m.Same m :=
  ⟨.refl _, rfl, rfl⟩

section onStack

variable {span : Address → σ} {q : ReadPosition} {a : Address} {e : Node} {m : Marks σ}

theorem Marks.mark_stack : (m.mark span q a e).stack = m.stack := by
  unfold Marks.mark
  split <;> rfl

theorem Marks.mark_withStack (stack : Stack) :
    { m with stack := stack }.mark span q a e = { m.mark span q a e with stack := stack } := by
  unfold Marks.mark
  split <;> rfl

end onStack

namespace Tells

variable {m left : Marks σ}

theorem nothing : Tells .nothing m [] m :=
  fun _ same => ⟨rfl, same⟩

theorem tell (e : Event) : Tells (.tell e) m [e] m :=
  fun _ same => ⟨rfl, same⟩

theorem append {v w : Visit (Marks σ)} {between : Marks σ} {events more : List Event}
    (first : Tells v m events between) (second : Tells w between more left) :
    Tells (v ++ w) m (events ++ more) left := by
  intro k same
  rcases first k same with ⟨told, reached⟩
  rcases second _ reached with ⟨told', reached'⟩
  exact ⟨congrArg₂ (· ++ ·) told told', reached'⟩

theorem mark (span : Address → σ) (q : ReadPosition) (a : Address) (e : Node) :
    Tells (.mark span q a e) m [] (m.mark span q a e) := by
  intro k same
  refine ⟨rfl, ?_⟩
  show (Marks.mark span q a e k).Same _
  unfold Marks.mark
  split
  · exact ⟨same.reads.append_right _, same.bodies, same.stack⟩
  · exact same

theorem announce (s : σ) : Tells (.announce s) m [] { m with bodies := s :: m.bodies } :=
  fun _ same => ⟨rfl, same.reads, congrArg (s :: ·) same.bodies, same.stack⟩

theorem onStack {v : Visit Stack} {events : List Event} {stack : Stack}
    (h : v m.stack = (events, stack)) : Tells (.onStack v) m events { m with stack := stack } := by
  intro k same
  have here : v k.stack = (events, stack) := by rw [same.stack, h]
  rw [Visit.onStack, here]
  exact ⟨rfl, same.reads, same.bodies, rfl⟩

theorem push (f : Frame) : Tells (.onStack (.push f)) m [] { m with stack := m.stack.push f } :=
  onStack rfl

theorem pop (f : Frame) : Tells (.onStack .pop) { m with stack := m.stack.push f } [] m :=
  onStack (Visit.pop_push f m.stack)

theorem append_nil {v w : Visit (Marks σ)} {between : Marks σ} {events : List Event}
    (first : Tells v m events between) (second : Tells w between [] left) :
    Tells (v ++ w) m events left := by
  have all := first.append second
  rwa [List.append_nil] at all

variable [DecidableEq σ] {span : Address → σ}

/-- A statement that was not announced reads its expression. -/
theorem meet {s a : Address} {e : Node} (other : span s ∉ m.bodies) :
    Tells (.meet span s a e) m [] (m.mark span .bare a e) := by
  intro k same
  have here : k.bodies.head? ≠ some (span s) := by
    intro head
    rw [same.bodies] at head
    exact other (List.mem_of_head? head)
  refine ⟨rfl, ?_⟩
  show (Marks.meet span (span s) a e k).Same _
  rw [Marks.meet, if_neg here]
  exact ((mark span .bare a e) k same).2

/-- A statement that was announced last reads nothing, and is not announced any more. -/
theorem meet_announced (s a : Address) (e : Node) :
    Tells (.meet span s a e) { m with bodies := span s :: m.bodies } [] m := by
  intro k same
  have here : k.bodies.head? = some (span s) := by rw [same.bodies, List.head?_cons]
  refine ⟨rfl, ?_⟩
  show (Marks.meet span (span s) a e k).Same _
  rw [Marks.meet, if_pos here]
  exact ⟨same.reads, congrArg List.tail same.bodies, same.stack⟩

/-- A name without a mark takes none. -/
theorem name_unmarked {s : σ} {text : String} {isGlobal : Bool} (other : ∀ r ∈ m.reads, r.1 ≠ s) :
    Tells (.name s text isGlobal) m [.reference text none isGlobal] m := by
  intro k same
  have none : lastIndex? (fun r => decide (r.1 = s)) k.reads = none := by
    rw [lastIndex?_eq_none]
    intro r mem
    exact decide_eq_false (other r (same.reads.mem_iff.1 mem))
  have taken : k.take s = (.none, k) := by rw [Marks.take, none]
  show [Event.reference text (k.take s).1 isGlobal] = _ ∧ (k.take s).2.Same m
  rw [taken]
  exact ⟨rfl, same⟩

/-- A name with a mark takes it, and leaves the other marks. -/
theorem name_marked {s : σ} {text : String} {isGlobal : Bool} {q : ReadPosition}
    (other : ∀ r ∈ m.reads, r.1 ≠ s) :
    Tells (.name s text isGlobal) { m with reads := m.reads ++ [(s, q)] }
      [.reference text (some q) isGlobal] m := by
  intro k same
  have reads : k.reads.Perm (m.reads ++ [(s, q)]) := same.reads
  show [Event.reference text (k.take s).1 isGlobal] = _ ∧ (k.take s).2.Same m
  cases found : lastIndex? (fun r => decide (r.1 = s)) k.reads with
  | none =>
      have mem : (s, q) ∈ k.reads := reads.mem_iff.2 (by simp)
      have := lastIndex?_eq_none.1 found (s, q) mem
      simp at this
  | some i =>
      rcases of_lastIndex?_eq_some found with ⟨r, here, holds⟩
      -- the order of the marks is not known, but only the new one has this span
      have mem : r ∈ m.reads ++ [(s, q)] := reads.mem_iff.1 (List.mem_of_getElem? here)
      have latest : r = (s, q) := by
        rcases List.mem_append.1 mem with mem | mem
        · exact absurd (of_decide_eq_true holds) (other r mem)
        · exact List.mem_singleton.1 mem
      subst latest
      have taken : k.take s = (some q, { k with reads := swapRemove k.reads i }) := by
        rw [Marks.take, found]
        simp [here]
      rw [taken]
      refine ⟨rfl, ?_, same.bodies, same.stack⟩
      have all : ((s, q) :: swapRemove k.reads i).Perm ((s, q) :: m.reads) :=
        calc ((s, q) :: swapRemove k.reads i).Perm k.reads := cons_swapRemove_perm here
          _ |>.Perm (m.reads ++ [(s, q)]) := reads
          _ |>.Perm ((s, q) :: m.reads) := List.perm_append_singleton _ _
      exact all.cons_inv

end Tells

/-! ## The parts of a node -/

/-- The parts stand side by side at an address, from a number on. -/
def PartsAt (root : Node) (a : Address) (i : Nat) (parts : List Node) : Prop :=
  ∀ k part, parts[k]? = some part → root.at? (a ++ [i + k]) = some part

section parts

variable {root part : Node} {a : Address} {i : Nat} {more : List Node}

theorem PartsAt.head (here : PartsAt root a i (part :: more)) : root.at? (a ++ [i]) = some part :=
  here 0 part rfl

theorem PartsAt.tail (here : PartsAt root a i (part :: more)) : PartsAt root a (i + 1) more := by
  intro k next found
  rw [Nat.add_right_comm]
  exact here (k + 1) next found

/-- Parts among the children of a node are at its address. -/
theorem partsAt_children {n : Node} {parts : List Node} (here : root.at? a = some n)
    (children : Node.asParts parts <+: n.children.drop i) : PartsAt root a i parts := by
  intro k part found
  rcases children with ⟨back, children⟩
  have child : (Node.asParts parts)[k]? = some (.part, part) := by
    rw [Node.asParts, List.getElem?_map, found, Option.map_some]
  have inside : n.children[i + k]? = some (.part, part) := by
    rw [← List.getElem?_drop, ← children,
      List.getElem?_append_left (List.getElem?_eq_some_iff.1 child).1, child]
  exact Node.at?_child here inside

end parts

/-! ## The walk -/

section walk

variable [DecidableEq σ] {span : Address → σ} {root : Node}

variable {scopes : List (List Binding)}

/-- An expression that its parent reads is marked first. -/
theorem tells_read {events : List Event} {q : ReadPosition} {c : Address} {e : Node} {m : Marks σ}
    (inside : Tells (visit span scopes c e) (m.marked span c e (some q)) events m) :
    Tells (.mark span q c e ++ visit span scopes c e) m events m := by
  rw [Marks.marked_some] at inside
  exact (Tells.mark span q c e).append inside

mutual

/-- A visit takes the mark of a node, if there is one, and leaves the marks around the node. -/
theorem tells_visit (apart : TellsApart span root) : ∀ (n : Node) (scopes : List (List Binding))
    (position : Option ReadPosition) {a : Address} {m : Marks σ}, root.at? a = some n →
    Clear span root a m →
    Tells (visit span scopes a n) (m.marked span a n position)
      (nodeEvents ⟨m.stack, scopes⟩ position n) m
  | .reference text use, scopes, position, a, m, here, clear => by
      have other := clear.name_here ⟨text, use, here⟩
      rw [visit, nodeEvents]
      cases position with
      | none => exact .name_unmarked other
      | some q => exact .name_marked other
  | .binding _, scopes, position, a, m, here, clear => by
      rw [visit, nodeEvents]
      exact .nothing
  | .this, scopes, position, a, m, here, clear => by
      rw [visit, nodeEvents]
      exact .nothing
  | .super, scopes, position, a, m, here, clear => by
      rw [visit, nodeEvents]
      exact .nothing
  | .string _, scopes, position, a, m, here, clear => by
      rw [visit, nodeEvents]
      exact .nothing
  | .paren inner, scopes, position, a, m, here, clear => by
      rw [visit, nodeEvents]
      exact tells_visit apart inner scopes position (Node.at?_child here rfl) (clear.below [0])
  | .member object property, scopes, position, a, m, here, clear => by
      rw [visit, nodeEvents]
      exact tells_read
        (tells_visit apart object scopes _ (Node.at?_child here rfl) (clear.below [0]))
  | .privateMember object name, scopes, position, a, m, here, clear => by
      rw [visit, nodeEvents]
      exact tells_read
        (tells_visit apart object scopes _ (Node.at?_child here rfl) (clear.below [0]))
  | .index object key, scopes, position, a, m, here, clear => by
      have read := tells_visit apart object scopes (some .member) (Node.at?_child here rfl)
        (clear.below [0])
      have other := tells_visit apart key scopes none (Node.at?_child here rfl) (clear.below [1])
      rw [Marks.marked_none] at other
      rw [visit, nodeEvents]
      exact (tells_read read).append other
  | .call callee arguments, scopes, position, a, m, here, clear => by
      have told : Tells (.onStack (.call callee)) m [.call callee m.stack] m := .onStack rfl
      have read := tells_visit apart callee scopes (some .callee) (Node.at?_child here rfl)
        (clear.below [0])
      have others := tells_visitAll apart arguments scopes
        (partsAt_children (i := 1) here List.prefix_rfl) fun k _ => clear.below _
      rw [Marks.marked_some] at read
      rw [visit, nodeEvents]
      exact ((told.append (Tells.mark _ _ _ _)).append read).append others
  | .chain link, scopes, position, a, m, here, clear => by
      have inside := tells_visit apart link scopes none (Node.at?_child here rfl) (clear.below [0])
      rw [Marks.marked_none] at inside
      rw [visit, nodeEvents]
      exact inside
  | .function name isDeclaration parts, scopes, position, a, m, here, clear => by
      let f := Frame.function name isDeclaration
      have inside := tells_visitAll apart parts scopes (m := { m with stack := m.stack.push f })
        (partsAt_children (i := 0) here List.prefix_rfl) fun k _ => (clear.below _).withStack _
      rw [visit, nodeEvents]
      exact ((Tells.push f).append inside).append_nil (.pop f)
  | .arrow parts, scopes, position, a, m, here, clear => by
      by_cases shape : ∃ inner, parts = [.scope .function inner]
      · rcases shape with ⟨inner, rfl⟩
        have scope : root.at? (a ++ [0]) = some (.scope .function inner) := Node.at?_child here rfl
        have inside := tells_visitArrow apart inner (Node.declared inner :: scopes)
          (partsAt_children scope List.prefix_rfl) (clear.below [0]) fun k body => by
            rw [Nat.zero_add]
            exact .body here body
        rw [visit, nodeEvents, listEvents, nodeEvents, listEvents, List.append_nil]
        -- an expression that is the body is announced, then the parts of the scope are visited
        cases body : conciseBody? inner with
        | none =>
            rw [Marks.announced_none body] at inside
            exact inside
        | some k =>
            rw [Marks.announced_some body, Nat.zero_add] at inside
            exact (Tells.announce _).append inside
      · have others := tells_visitAll apart parts scopes
          (partsAt_children (i := 0) here List.prefix_rfl) fun k _ => clear.below _
        rw [visit, nodeEvents]
        · exact others
        · intro inner same
          exact shape ⟨inner, same⟩
  | .declarator name target none, scopes, position, a, m, here, clear => by
      let f := declaratorFrame name none
      have inside := tells_visitAll apart target scopes (m := { m with stack := m.stack.push f })
        (partsAt_children (i := 0) here (List.prefix_append _ _))
        fun k _ => (clear.below _).withStack _
      rw [visit, nodeEvents, initEvents, List.append_nil]
      exact ((Tells.push f).append inside).append_nil (.pop f)
  | .declarator name target (some init), scopes, position, a, m, here, clear => by
      let f := declaratorFrame name (some init)
      let inner : Marks σ := { m with stack := m.stack.push f }
      have last : (Node.declarator name target (some init)).children[target.length]? =
          some (.initializer, init) := by
        simp [Node.children, Node.asParts]
      have value := Node.at?_child here last
      -- the value stays marked while the target is visited
      have others := tells_visitAll apart target scopes
        (m := inner.mark span .init (a ++ [target.length]) init)
        (partsAt_children (i := 0) here (List.prefix_append _ _)) fun k before =>
          ((clear.below [0 + k]).withStack _).mark apart value (not_below_beside (by omega))
      have read := tells_visit apart init scopes (some .init) value
        ((clear.below _).withStack (m.stack.push f))
      rw [Marks.marked_some] at read
      rw [Marks.mark_withStack] at others read
      have pushed := Tells.push (m := m.mark span .init (a ++ [target.length]) init) f
      rw [Marks.mark_stack] at pushed
      rw [visit, nodeEvents, initEvents]
      exact ((((Tells.mark _ _ _ _).append pushed).append others).append read).append_nil (.pop f)
  | .opening tag parts, scopes, position, a, m, here, clear => by
      rw [visit, nodeEvents]
      exact (Tells.tell _).append (tells_visitAll apart parts _
        (partsAt_children here List.prefix_rfl) fun k _ => clear.below _)
  | .prop name value, scopes, position, a, m, here, clear => by
      rw [visit, nodeEvents]
      exact tells_visitAll apart value _ (partsAt_children here List.prefix_rfl)
        fun k _ => clear.below _
  | .statement expression, scopes, position, a, m, here, clear => by
      have read := tells_visit apart expression scopes (some .bare) (Node.at?_child here rfl)
        (clear.below [0])
      rw [Marks.marked_some] at read
      rw [visit, nodeEvents]
      exact (Tells.meet (clear.statement_here (.expression here))).append read
  | .scope kind parts, scopes, position, a, m, here, clear => by
      rw [visit, nodeEvents]
      exact tells_visitAll apart parts _ (partsAt_children here List.prefix_rfl)
        fun k _ => clear.below _
  | .group parts, scopes, position, a, m, here, clear => by
      rw [visit, nodeEvents]
      exact tells_visitAll apart parts _ (partsAt_children here List.prefix_rfl)
        fun k _ => clear.below _
termination_by n => sizeOf n

theorem tells_visitAll (apart : TellsApart span root) : ∀ (parts : List Node)
    (scopes : List (List Binding)) {a : Address} {i : Nat} {m : Marks σ},
    PartsAt root a i parts → (∀ k < parts.length, Clear span root (a ++ [i + k]) m) →
    Tells (visitAll span scopes a i parts) m (listEvents ⟨m.stack, scopes⟩ parts) m
  | [], scopes, a, i, m, here, clear => by
      rw [visitAll, listEvents]
      exact .nothing
  | part :: more, scopes, a, i, m, here, clear => by
      have first := tells_visit apart part scopes none here.head (clear 0 (by simp))
      rw [Marks.marked_none] at first
      rw [visitAll, listEvents]
      refine first.append (tells_visitAll apart more scopes here.tail ?_)
      intro k inside
      rw [Nat.add_right_comm]
      exact clear (k + 1) (by simpa using inside)
termination_by parts => sizeOf parts

/-- The body stays announced while the parts in front of it are visited. -/
theorem tells_visitArrow (apart : TellsApart span root) : ∀ (parts : List Node)
    (scopes : List (List Binding)) {a : Address} {i : Nat} {m : Marks σ},
    PartsAt root a i parts → Clear span root a m →
    (∀ k, conciseBody? parts = some k → IsStatementAt root (a ++ [i + k])) →
    Tells (visitArrow span scopes a i parts) (m.announced span a i parts)
      (listEvents ⟨m.stack, scopes⟩ parts) m
  | [], scopes, a, i, m, here, clear, body => by
      rw [visitArrow, listEvents]
      exact .nothing
  | [body], scopes, a, i, m, here, clear, announced => by
      -- the body takes back its own announcement before anything inside it is visited
      have inside := tells_visit apart body scopes none here.head (clear.below [i])
      rw [Marks.marked_none] at inside
      rw [visitArrow, listEvents, listEvents, List.append_nil]
      by_cases block : isBlock body
      · rw [if_pos block, Marks.announced_none (by simp [conciseBody?, block])]
        exact inside
      · rw [if_neg block, Marks.announced_some (k := 0) (by simp [conciseBody?, block])]
        exact (Tells.meet_announced _ _ _).append inside
  | part :: next :: more, scopes, a, i, m, here, clear, body => by
      have body : ∀ k, conciseBody? (next :: more) = some k →
          IsStatementAt root (a ++ [i + 1 + k]) := by
        intro k later
        rw [Nat.add_assoc, Nat.add_comm 1 k]
        exact body (k + 1) (by rw [conciseBody?_cons, later, Option.map_some])
      have first := tells_visit apart part scopes none here.head
        ((clear.below [i]).announced apart body (Nat.lt_succ_self i))
      rw [Marks.marked_none, Marks.announced_stack] at first
      rw [visitArrow, listEvents, Marks.announced_cons]
      exact first.append (tells_visitArrow apart (next :: more) scopes here.tail clear body)
termination_by parts => sizeOf parts

end

/-- A walk with marks tells of what a walk that hands down the positions tells of. In the end no
name is marked, no body announced, and nothing on the stack. -/
theorem visitProgram_eq {program : Program} (apart : TellsApart span (rootOf program)) :
    visitProgram span program = (programEvents program, .none) := by
  have clear : Clear span (rootOf program) [] .none :=
    ⟨fun _ _ _ mem => absurd mem List.not_mem_nil, fun _ _ => List.not_mem_nil⟩
  have here : (rootOf program).at? [] = some (.group program.parts) := rfl
  have walk : Tells (visitAll span (topScopes program) [] 0 program.parts) .none
      (listEvents (topPlace program) program.parts) .none :=
    tells_visitAll apart program.parts _ (partsAt_children here List.prefix_rfl)
      fun k _ => clear.below _
  rcases walk .none (Marks.same_rfl _) with ⟨told, left⟩
  have empty : (visitAll span (topScopes program) [] 0 program.parts .none).2 = .none :=
    left.eq_none
  rw [visitProgram, programEvents_eq_listEvents]
  show (_ :: (visitAll span (topScopes program) [] 0 program.parts .none).1 ++
    [.exit (visitAll span (topScopes program) [] 0 program.parts .none).2.stack.length],
    (visitAll span (topScopes program) [] 0 program.parts .none).2) = _
  rw [told, empty]
  rfl

end walk

end Rules
end ClientBoundary

import ClientBoundary.Proofs.Rules.Collecting
import Mathlib.Data.List.Induction

/-!
# Runs of a collector

A collector may be entered, added to and finished in any order. What it holds, and whether finishing
it yields a finding, can be told from the operations since the last program was entered.

- `Collector.Operation`, `Collector.after`, `Collector.findings`: runs of operations;
- `lastEntered?`, `added`, `finished`: what a run has done to the file that it is in;
- `Collector.Tracks`: a collector is in the state that a run leads to;
- `Collector.Guarantees`, `Collector.guarantees`: what holds after every run.
-/

namespace ClientBoundary
namespace Rules
namespace Collector

open Script (Program)

/-! ## Operations -/

inductive Operation where
  | enter (program : Program)
  | add (cause : String)
  | finish (r : Reporting) (file : FileInfo)

/-- The collector after an operation, and what the operation yields. -/
def step (c : Collector) : Operation → Collector × Option Finding
  | .enter program => (enter program, none)
  | .add cause => (c.add cause, none)
  | .finish r file => c.finish r file

/-- A fresh collector after operations. -/
def after (ops : List Operation) : Collector :=
  ops.foldl (fun c o => (c.step o).1) empty

/-- The findings that operations yield. -/
def findings (c : Collector) : List Operation → List Finding
  | [] => []
  | o :: more => (c.step o).2.toList ++ (c.step o).1.findings more

theorem after_snoc (ops : List Operation) (o : Operation) :
    after (ops ++ [o]) = ((after ops).step o).1 := by
  rw [after, after, List.foldl_append]
  rfl

/-- A program that is entered makes a collector forget all operations before. -/
theorem after_enter (before : List Operation) (program : Program) (more : List Operation) :
    after (before ++ .enter program :: more) = after (.enter program :: more) := by
  rw [after, after, List.foldl_append]
  rfl

/-! ## The file of a run -/

def Operation.program? : Operation → Option Program
  | .enter program => some program
  | _ => none

def Operation.cause? : Operation → Option String
  | .add cause => some cause
  | _ => none

def Operation.finishes : Operation → Bool
  | .finish _ _ => true
  | _ => false

/-- The last program that was entered. -/
def lastEntered? (ops : List Operation) : Option Program :=
  (ops.filterMap Operation.program?).getLast?

/-- The operations since a program was entered, or since the start. -/
def sinceEntered (ops : List Operation) : List Operation :=
  (ops.reverse.takeWhile fun o => o.program?.isNone).reverse

/-- The strings that were added since then. -/
def added (ops : List Operation) : List String :=
  (sinceEntered ops).filterMap Operation.cause?

/-- Whether the file was finished since then. -/
def finished (ops : List Operation) : Bool :=
  (sinceEntered ops).any Operation.finishes

/-- The last program that was entered, if any, has no directive. -/
def Undirected (ops : List Operation) : Prop :=
  ∀ program, lastEntered? ops = some program → Bare program

theorem sinceEntered_enter (ops : List Operation) (program : Program) :
    sinceEntered (ops ++ [.enter program]) = [] := by
  simp [sinceEntered, Operation.program?]

theorem sinceEntered_snoc (ops : List Operation) {o : Operation} (inside : o.program? = none) :
    sinceEntered (ops ++ [o]) = sinceEntered ops ++ [o] := by
  simp [sinceEntered, inside]

theorem undirected_enter_iff (ops : List Operation) (program : Program) :
    Undirected (ops ++ [.enter program]) ↔ Bare program := by
  simp [Undirected, lastEntered?, Operation.program?]

theorem undirected_snoc_iff (ops : List Operation) {o : Operation} (inside : o.program? = none) :
    Undirected (ops ++ [o]) ↔ Undirected ops := by
  simp [Undirected, lastEntered?, inside]

theorem finish_phase (c : Collector) (r : Reporting) (file : FileInfo) :
    (c.finish r file).1.phase = .done := by
  unfold finish
  split <;> rfl

theorem finish_directives (c : Collector) (r : Reporting) (file : FileInfo) :
    (c.finish r file).1.directives = c.directives := by
  unfold finish
  split <;> rfl

/-! ## The state after a run -/

/-- A collector is in the state that operations lead to. -/
structure Tracks (ops : List Operation) (c : Collector) : Prop where
  directives : c.directives.any = false ↔ Undirected ops
  phase : c.phase =
    if finished ops then .done else if c.directives.any then .directiveFound else .scanning
  causes : c.causes = if c.isScanning then (added ops).eraseDups else []

section State

variable {ops : List Operation} {c : Collector}

theorem Tracks.isScanning_iff (h : Tracks ops c) :
    c.isScanning = true ↔ finished ops = false ∧ Undirected ops := by
  rw [← h.directives, isScanning, decide_eq_true_eq, h.phase]
  cases finished ops with
  | true => simp
  | false => cases c.directives.any <;> simp

theorem Tracks.finished_of_done (h : Tracks ops c) (done : c.phase = .done) :
    finished ops = true := by
  rw [h.phase] at done
  by_contra going
  rw [if_neg going] at done
  split at done <;> cases done

theorem Tracks.nodup (h : Tracks ops c) : c.causes.Nodup := by
  rw [h.causes]
  split
  · exact nodup_eraseDups _
  · exact List.nodup_nil

theorem Tracks.causes_eq_nil (h : Tracks ops c) (closed : finished ops = true ∨ ¬Undirected ops) :
    c.causes = [] := by
  have silent : ¬c.isScanning = true := by
    rw [h.isScanning_iff]
    rintro ⟨going, bare⟩
    rcases closed with ended | directive
    · exact Bool.false_ne_true (going.symm.trans ended)
    · exact directive bare
  rw [h.causes, if_neg silent]

/-- There are causes as long as the file goes on, has no directive and something was added. -/
theorem Tracks.causes_ne_nil_iff (h : Tracks ops c) :
    c.causes ≠ [] ↔ finished ops = false ∧ Undirected ops ∧ added ops ≠ [] := by
  constructor
  · intro filled
    have going : c.isScanning = true := by
      by_contra silent
      exact filled (h.causes.trans (if_neg silent))
    rw [h.causes, if_pos going] at filled
    refine ⟨(h.isScanning_iff.1 going).1, (h.isScanning_iff.1 going).2, ?_⟩
    intro nothing
    exact filled (by rw [nothing]; rfl)
  · rintro ⟨going, bare, filled⟩
    rcases List.exists_mem_of_ne_nil _ filled with ⟨cause, mem⟩
    rw [h.causes, if_pos (h.isScanning_iff.2 ⟨going, bare⟩)]
    exact List.ne_nil_of_mem (List.mem_eraseDups.2 mem)

/-- Finishing yields the causes, if there are any. -/
theorem Tracks.finish_eq (h : Tracks ops c) (r : Reporting) (file : FileInfo) :
    (c.finish r file).1.causes = [] ∧
      (c.finish r file).2.map (·.causes) =
        if c.causes = [] then none else some (added ops).eraseDups := by
  by_cases nothing : c.causes = []
  · simp [Collector.finish, nothing]
  · -- causes are kept only where no directive stands
    rcases h.causes_ne_nil_iff.1 nothing with ⟨going, bare, -⟩
    have any := h.directives.2 bare
    rw [DirectiveState.any, Bool.or_eq_false_iff] at any
    have causes : c.causes = (added ops).eraseDups := by
      rw [h.causes, if_pos (h.isScanning_iff.2 ⟨going, bare⟩)]
    rw [if_neg nothing, ← causes]
    simp [Collector.finish, any.1, nothing]

end State

/-! ## Steps -/

theorem tracks_empty : Tracks [] empty where
  directives := by simp [empty, DirectiveState.none, DirectiveState.any, Undirected, lastEntered?]
  phase := rfl
  causes := rfl

theorem tracks_enter (ops : List Operation) (program : Program) :
    Tracks (ops ++ [.enter program]) (enter program) where
  directives := by
    rw [undirected_enter_iff, bare_iff]
    rfl
  phase := by
    rw [finished, sinceEntered_enter]
    rfl
  causes := by
    have nothing : added (ops ++ [.enter program]) = [] := by rw [added, sinceEntered_enter]; rfl
    rw [nothing]
    split <;> rfl

section Steps

variable {ops : List Operation} {c : Collector}

theorem Tracks.add (h : Tracks ops c) (cause : String) :
    Tracks (ops ++ [.add cause]) (c.add cause) := by
  have since : sinceEntered (ops ++ [.add cause]) = sinceEntered ops ++ [.add cause] :=
    sinceEntered_snoc ops rfl
  have strings : added (ops ++ [.add cause]) = added ops ++ [cause] := by
    simp [added, since, Operation.cause?]
  have ended : finished (ops ++ [.add cause]) = finished ops := by
    simp [finished, since, Operation.finishes]
  have scanning : (c.add cause).isScanning = c.isScanning := by
    rw [isScanning, isScanning, add_phase]
  refine ⟨?_, ?_, ?_⟩
  · rw [add_directives, undirected_snoc_iff ops rfl]
    exact h.directives
  · rw [add_phase, add_directives, ended]
    exact h.phase
  · have causes := h.causes
    cases open_ : c.isScanning with
    | true =>
        rw [open_, if_pos rfl] at causes
        rw [scanning, open_, if_pos rfl, strings]
        exact add_causes open_ causes cause
    | false =>
        rw [open_, if_neg Bool.false_ne_true] at causes
        rw [scanning, open_, if_neg Bool.false_ne_true]
        simpa [Collector.add, open_] using causes

theorem Tracks.finish (h : Tracks ops c) (r : Reporting) (file : FileInfo) :
    Tracks (ops ++ [.finish r file]) (c.finish r file).1 := by
  have since : sinceEntered (ops ++ [.finish r file]) = sinceEntered ops ++ [.finish r file] :=
    sinceEntered_snoc ops rfl
  have ended : finished (ops ++ [.finish r file]) = true := by
    simp [finished, since, Operation.finishes]
  have phase : (c.finish r file).1.phase = .done := finish_phase c r file
  refine ⟨?_, ?_, ?_⟩
  · rw [finish_directives, undirected_snoc_iff ops rfl]
    exact h.directives
  · rw [phase, ended, if_pos rfl]
  · have closed : (c.finish r file).1.isScanning = false := by simp [isScanning, phase]
    rw [closed, if_neg Bool.false_ne_true]
    exact (h.finish_eq r file).1

end Steps

theorem Tracks.step {ops : List Operation} {c : Collector} (h : Tracks ops c) (o : Operation) :
    Tracks (ops ++ [o]) (c.step o).1 := by
  cases o with
  | enter program => exact tracks_enter ops program
  | add cause => exact h.add cause
  | finish r file => exact h.finish r file

/-- A fresh collector is, after any operations, in the state that they lead to. -/
theorem tracks_after (ops : List Operation) : Tracks ops (after ops) := by
  induction ops using List.reverseRecOn with
  | nil => exact tracks_empty
  | append_singleton ops o ih =>
      rw [after_snoc]
      exact ih.step o

/-! ## Findings of a run -/

section Findings

variable {ops segment : List Operation} {c : Collector}

/-- What is finished yields nothing until the next program. -/
theorem Tracks.findings_of_finished (h : Tracks ops c) (ended : finished ops = true)
    (inside : ∀ o ∈ segment, o.program? = none) : c.findings segment = [] := by
  induction segment generalizing ops c with
  | nil => rfl
  | cons o more ih =>
      have here : o.program? = none := inside o List.mem_cons_self
      have still : finished (ops ++ [o]) = true := by
        rw [finished, sinceEntered_snoc ops here, List.any_append, Bool.or_eq_true]
        exact .inl ended
      have rest := ih (h.step o) still fun o ho => inside o (List.mem_cons_of_mem _ ho)
      rw [findings, rest, List.append_nil]
      cases o with
      | enter program => rfl
      | add cause => rfl
      | finish r file =>
          have causes := (h.finish_eq r file).2
          rw [if_pos (h.causes_eq_nil (.inl ended))] at causes
          rw [Collector.step, Option.map_eq_none_iff.1 causes]
          rfl

/-- Between two programs there is at most one finding. -/
theorem Tracks.length_findings_le (h : Tracks ops c) (inside : ∀ o ∈ segment, o.program? = none) :
    (c.findings segment).length ≤ 1 := by
  induction segment generalizing ops c with
  | nil => exact Nat.zero_le 1
  | cons o more ih =>
      have here : o.program? = none := inside o List.mem_cons_self
      have others : ∀ p ∈ more, p.program? = none := fun p hp =>
        inside p (List.mem_cons_of_mem o hp)
      cases o with
      | enter program => simp [Operation.program?] at here
      | add cause => exact ih (h.add cause) others
      | finish r file =>
          -- the first finish is the only one that can yield a finding
          have ended : finished (ops ++ [.finish r file]) = true := by
            simp [finished, sinceEntered_snoc ops here, Operation.finishes]
          have rest := (h.finish r file).findings_of_finished ended others
          rw [findings, Collector.step, rest, List.append_nil]
          cases (c.finish r file).2 <;> simp

end Findings

/-! ## Runs -/

/-- What holds of a fresh collector after operations. -/
structure Guarantees (ops : List Operation) : Prop where
  nodup : (after ops).causes.Nodup
  silent : (after ops).phase = .done ∨ ¬Undirected ops → (after ops).causes = []
  add : ∀ cause, (after (ops ++ [.add cause])).causes = (after ops).causes ∨
    (after ops).phase = .scanning ∧
      (after (ops ++ [.add cause])).causes = (after ops).causes ++ [cause]
  enter : ∀ program, (after (ops ++ [.enter program])).causes = []
  finish : ∀ r file, (after (ops ++ [.finish r file])).phase = .done ∧
    (after (ops ++ [.finish r file])).causes = []
  finding_iff : ∀ r file, ((after ops).finish r file).2.isSome = true ↔
    finished ops = false ∧ Undirected ops ∧ added ops ≠ []
  finding_causes : ∀ r file f, ((after ops).finish r file).2 = some f →
    f.causes = (added ops).eraseDups
  once : ∀ segment : List Operation, (∀ o ∈ segment, o.program? = none) →
    ((after ops).findings segment).length ≤ 1
  fresh : ∀ program more, after (ops ++ .enter program :: more) = after (.enter program :: more)

/-- Whatever is done to a collector, in whatever order. -/
theorem guarantees (ops : List Operation) : Guarantees ops := by
  have tracks := tracks_after ops
  refine ⟨tracks.nodup, ?_, ?_, ?_, ?_, ?_, ?_, ?_, after_enter ops⟩
  · rintro (done | directive)
    · exact tracks.causes_eq_nil (.inl (tracks.finished_of_done done))
    · exact tracks.causes_eq_nil (.inr directive)
  · intro cause
    rw [after_snoc, Collector.step, Collector.add]
    split
    · rename_i recorded
      rw [Bool.and_eq_true] at recorded
      exact .inr ⟨of_decide_eq_true recorded.1, rfl⟩
    · exact .inl rfl
  · intro program
    rw [after_snoc]
    rfl
  · intro r file
    rw [after_snoc]
    exact ⟨finish_phase _ r file, (tracks.finish_eq r file).1⟩
  · intro r file
    have yields := congrArg Option.isSome (tracks.finish_eq r file).2
    rw [Option.isSome_map] at yields
    rw [yields, ← tracks.causes_ne_nil_iff]
    by_cases nothing : (after ops).causes = [] <;> simp [nothing]
  · intro r file f found
    have yields := (tracks.finish_eq r file).2
    rw [found, Option.map_some] at yields
    by_cases nothing : (after ops).causes = []
    · simp [nothing] at yields
    · rw [if_neg nothing] at yields
      exact Option.some.inj yields
  · intro segment inside
    exact tracks.length_findings_le inside

/-- Causes that are added again stay where they are, and a second finish yields nothing. -/
theorem guarantees_window :
    ∃ f : Finding, (after [.add "window", .add "document", .add "window"]).findings
        [.finish Rule.browserApi.reporting ⟨"a.tsx", 0, ⟨1, 1⟩⟩,
          .finish Rule.browserApi.reporting ⟨"a.tsx", 0, ⟨1, 1⟩⟩] = [f] ∧
      f.causes = ["window", "document"] := by
  let ops : List Operation := [.add "window", .add "document", .add "window"]
  let finish : Operation := .finish Rule.browserApi.reporting ⟨"a.tsx", 0, ⟨1, 1⟩⟩
  have added_eq : added ops = ["window", "document", "window"] := by decide
  have bare : Undirected ops := by
    have never : lastEntered? ops = none := rfl
    simp [Undirected, never]
  have first : ((after ops).finish Rule.browserApi.reporting ⟨"a.tsx", 0, ⟨1, 1⟩⟩).2.isSome := by
    rw [(guarantees ops).finding_iff, added_eq]
    exact ⟨by decide, bare, by simp⟩
  rcases Option.isSome_iff_exists.1 first with ⟨f, found⟩
  have causes := (guarantees ops).finding_causes _ _ f found
  have once := (guarantees ops).once [finish, finish] (by simp [finish, Operation.program?])
  have shape : (after ops).findings [finish, finish] =
      f :: ((after ops).step finish).1.findings [finish] := by
    rw [findings, Collector.step, found]
    rfl
  rw [shape, List.length_cons] at once
  have rest := List.length_eq_zero_iff.1 (Nat.le_zero.1 (Nat.le_of_succ_le_succ once))
  refine ⟨f, ?_, ?_⟩
  · rw [← rest]
    exact shape
  · rw [causes, added_eq]
    decide

/-- Entering a program takes the causes of the one before away. -/
theorem causes_change_by_enter :
    ¬∀ ops o, (after (ops ++ [o])).causes ≠ (after ops).causes →
      (∃ cause, o = .add cause) ∧ (after ops).phase = .scanning := by
  intro only
  have changed : (after ([.add "window"] ++ [.enter ⟨[], []⟩])).causes ≠
      (after [.add "window"]).causes := by decide
  rcases only _ _ changed with ⟨⟨cause, same⟩, -⟩
  cases same

end Collector
end Rules
end ClientBoundary

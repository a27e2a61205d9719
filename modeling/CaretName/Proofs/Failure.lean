import CaretName.Failure
import Mathlib.Algebra.GroupWithZero.Nat
import Mathlib.Data.List.Infix

/-!
# Failures in contexts

A failure in a context says what it comes from, and the report of a trouble goes on to everything
that it comes from. So a cause is told again by every context around it, while the activities that a
trouble interrupted are each told once. `report_inContexts` gives the whole report.
-/
namespace CaretName

namespace Failure

/-- A failure in several contexts, the outermost first. -/
def inContexts (contexts : List String) (leaf : Failure) : Failure :=
  contexts.foldr inContext leaf

variable {contexts front back : List String} {leaf : Failure}

/-! ## Messages on one line -/

/-- Two chains that are not empty are joined on one line. -/
theorem onOneLine_append (some : front ≠ []) (some' : back ≠ []) :
    onOneLine (front ++ back) = onOneLine front ++ ": " ++ onOneLine back :=
  String.intercalate_append_of_ne_nil some some'

/-- Several chains on one line each are all of them on one line. -/
theorem onOneLine_map_append {chains : List (List String)} (some : ∀ chain ∈ chains, chain ≠ []) :
    onOneLine (chains.map onOneLine ++ back) = onOneLine (chains.flatten ++ back) := by
  induction chains with
  | nil => rfl
  | cons chain rest ih =>
    obtain ⟨here, later⟩ := List.forall_mem_cons.mp some
    have empty : rest.map onOneLine ++ back = [] ↔ rest.flatten ++ back = [] := by
      cases rest with
      | nil => exact Iff.rfl
      | cons next rest => simp [later next List.mem_cons_self]
    rw [List.map_cons, List.cons_append, List.flatten_cons, List.append_assoc]
    by_cases last : rest.flatten ++ back = []
    · rw [last, empty.mpr last, List.append_nil]
      exact String.intercalate_singleton
    · rw [onOneLine_append here last, ← ih later, onOneLine,
        String.intercalate_cons_of_ne_nil (mt empty.mp last)]
      rfl

/-- The same behind other messages. -/
theorem onOneLine_append_map_append {chains : List (List String)}
    (some : ∀ chain ∈ chains, chain ≠ []) :
    onOneLine (front ++ (chains.map onOneLine ++ back)) =
      onOneLine (front ++ (chains.flatten ++ back)) := by
  induction front with
  | nil => exact onOneLine_map_append some
  | cons message rest ih =>
    have empty : rest ++ (chains.map onOneLine ++ back) = [] ↔
        rest ++ (chains.flatten ++ back) = [] := by
      cases chains with
      | nil => exact Iff.rfl
      | cons chain chains => simp [some chain List.mem_cons_self]
    rw [List.cons_append, List.cons_append]
    by_cases last : rest ++ (chains.flatten ++ back) = []
    · rw [last, empty.mpr last]
    · rw [onOneLine, onOneLine, String.intercalate_cons_of_ne_nil last,
        String.intercalate_cons_of_ne_nil (mt empty.mp last)]
      exact congrArg (message ++ ": " ++ ·) ih

/-- A chain on one line has the length of its messages, each with a colon and a blank, but for the
last one. -/
theorem length_onOneLine (some : front ≠ []) :
    (onOneLine front).length + 2 = (front.map fun message => message.length + 2).sum := by
  induction front with
  | nil => contradiction
  | cons message rest ih =>
    by_cases last : rest = []
    · rw [last, onOneLine, String.intercalate_singleton]
      rfl
    · have later := ih last
      have joined : onOneLine (message :: rest) = message ++ ": " ++ onOneLine rest :=
        String.intercalate_cons_of_ne_nil last
      rw [joined, List.map_cons, List.sum_cons, String.length_append, String.length_append]
      have colon : ": ".length = 2 := rfl
      omega

/-! ## Contexts -/

/-- A failure in contexts says them all, and then what it comes from. -/
theorem message_inContexts (contexts : List String) (leaf : Failure) :
    (leaf.inContexts contexts).message = onOneLine (contexts ++ [leaf.message]) := by
  induction contexts with
  | nil => exact String.intercalate_singleton.symm
  | cons context rest ih =>
    rw [List.cons_append, onOneLine, String.intercalate_cons_of_ne_nil (by simp)]
    exact congrArg (context ++ ": " ++ ·) ih

/-- Every chain starts with what the failure says. -/
theorem chain_eq_cons (failure : Failure) :
    failure.chain = failure.message :: failure.chain.tail := by
  cases failure <;> rfl

/-- In the chain of a failure in contexts every context starts a message, which goes through all the
contexts inside it to what they are about. -/
theorem chain_inContexts (contexts : List String) (leaf : Failure) :
    (leaf.inContexts contexts).chain =
      (contexts.tails.map fun inner => onOneLine (inner ++ [leaf.message])) ++ leaf.chain.tail := by
  induction contexts with
  | nil =>
    rw [List.tails, List.map_singleton, List.nil_append, onOneLine, String.intercalate_singleton,
      List.singleton_append]
    exact chain_eq_cons leaf
  | cons context rest ih =>
    rw [List.tails_cons, List.map_cons, List.cons_append, ← ih, ← message_inContexts]
    rfl

end Failure

namespace Trouble

open Failure

variable {activities contexts : List String} {leaf : Failure}

/-- Each activity is told once, in front of the rest. -/
theorem chain_during (activities : List String) (trouble : Trouble) :
    (activities.foldr during trouble).chain = activities ++ trouble.chain := by
  induction activities with
  | nil => rfl
  | cons activity rest ih => exact congrArg (activity :: ·) ih

/-- The report of a failure in contexts, under the activities that it interrupted: the activities,
then all contexts and what they are about, then the same without the outermost context, and so on to
the failure alone, and last what that comes from. So the cause is told once more than there are
contexts, and everything is told just once only if there are none. -/
theorem report_inContexts (activities contexts : List String) (leaf : Failure) :
    (activities.foldr during (failed (leaf.inContexts contexts))).report =
        onOneLine (activities ++ (contexts.tails.flatMap fun inner => inner ++ [leaf.message]) ++
          leaf.chain.tail) ∧
      ((activities.foldr during (failed (leaf.inContexts contexts))).report =
          onOneLine (activities ++ contexts ++ leaf.chain) ↔ contexts = []) := by
  have whole : (activities.foldr during (failed (leaf.inContexts contexts))).report =
      onOneLine (activities ++ (contexts.tails.flatMap fun inner => inner ++ [leaf.message]) ++
        leaf.chain.tail) := by
    have some : ∀ chain ∈ contexts.tails.map fun inner => inner ++ [leaf.message], chain ≠ [] := by
      simp
    have joined := @onOneLine_append_map_append activities leaf.chain.tail _ some
    rw [List.map_map, ← List.flatMap_def] at joined
    rw [report, chain_during, chain, chain_inContexts, List.append_assoc]
    exact joined
  refine ⟨whole, fun once => ?_, fun none => ?_⟩
  · -- Were there a context, what lies inside the outermost one would make the line longer.
    cases contexts with
    | nil => rfl
    | cons context rest =>
      have again : leaf.message ∈ rest.tails.flatMap fun inner => inner ++ [leaf.message] :=
        List.mem_flatMap.mpr
          ⟨[], (List.mem_tails [] rest).mpr List.nil_suffix, List.mem_singleton_self _⟩
      obtain ⟨before, after, others⟩ := List.append_of_mem again
      have told : activities ++ ((context :: rest).tails.flatMap fun inner =>
          inner ++ [leaf.message]) ++ leaf.chain.tail ≠ [] := by simp
      have expected : activities ++ context :: rest ++ (leaf.message :: leaf.chain.tail) ≠ [] := by
        simp
      rw [whole, chain_eq_cons leaf, List.tail_cons] at once
      have lengths := congrArg (fun line : String => line.length + 2) once
      rw [length_onOneLine told, length_onOneLine expected] at lengths
      simp only [List.tails_cons, List.flatMap_cons, others, List.map_append, List.sum_append,
        List.map_cons, List.sum_cons, List.map_nil, List.sum_nil] at lengths
      omega
  · rw [whole, none, chain_eq_cons leaf, List.append_assoc, List.append_assoc]
    rfl

/-- With one context around it a cause is told twice. -/
theorem report_repeats_cause :
    (failed ((clipboard "bad").inContexts ["Foo.java"])).report =
        "Foo.java: Clipboard error: bad: Clipboard error: bad" ∧
      (failed ((clipboard "bad").inContexts ["Foo.java"])).report ≠
        onOneLine ["Foo.java", (clipboard "bad").message] := by
  decide +kernel

end Trouble

end CaretName

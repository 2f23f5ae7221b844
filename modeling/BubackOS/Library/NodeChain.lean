import Mathlib.Data.List.Nodup
import Mathlib.Logic.Function.Basic

/-!
# Chains of nodes

A linked list in memory is a pointer and a function that gives every node its
successor.  `Segment null next p nodes q` says that following the links from `p`
meets exactly `nodes` and arrives at `q`; a chain arrives at the null pointer.
-/

namespace BubackOS.Library

variable {α : Type} {null : α} {next next' : α → α} {p q : α} {nodes : List α}

/-- Following the links from `p` meets `nodes`, none of them null, and arrives at `q`. -/
def Segment (null : α) (next : α → α) : α → List α → α → Prop
  | p, [], q => p = q
  | p, node :: rest, q => p = node ∧ node ≠ null ∧ Segment null next (next node) rest q

/-- A segment that ends. -/
def Chain (null : α) (next : α → α) (p : α) (nodes : List α) : Prop := Segment null next p nodes null

namespace Segment

theorem cons_iff {node : α} :
    Segment null next p (node :: nodes) q ↔ p = node ∧ node ≠ null ∧ Segment null next (next node) nodes q :=
  Iff.rfl

theorem append_iff {first second : List α} :
    Segment null next p (first ++ second) q ↔
      ∃ middle, Segment null next p first middle ∧ Segment null next middle second q := by
  induction first generalizing p with
  | nil => simp [Segment]
  | cons node rest ih =>
      rw [List.cons_append, cons_iff, ih]
      constructor
      · rintro ⟨start, present, middle, before, after⟩
        exact ⟨middle, ⟨start, present, before⟩, after⟩
      · rintro ⟨middle, ⟨start, present, before⟩, after⟩
        exact ⟨start, present, middle, before, after⟩

/-- Only the links of the nodes met matter. -/
theorem congr (segment : Segment null next p nodes q) (same : ∀ node ∈ nodes, next' node = next node) :
    Segment null next' p nodes q := by
  induction nodes generalizing p with
  | nil => exact segment
  | cons node rest ih =>
      obtain ⟨start, present, after⟩ := segment
      refine ⟨start, present, ?_⟩
      rw [same node List.mem_cons_self]
      exact ih after fun other member => same other (List.mem_cons_of_mem node member)

theorem ne_null (segment : Segment null next p nodes q) : ∀ node ∈ nodes, node ≠ null := by
  induction nodes generalizing p with
  | nil => exact fun node member => absurd member List.not_mem_nil
  | cons node rest ih =>
      obtain ⟨-, present, after⟩ := segment
      intro other member
      rcases List.mem_cons.mp member with rfl | inRest
      · exact present
      · exact ih after other inRest

end Segment

namespace Chain

theorem nil_iff : Chain null next p [] ↔ p = null := Iff.rfl

theorem eq_nil_iff (chain : Chain null next p nodes) : nodes = [] ↔ p = null := by
  cases nodes with
  | nil => exact ⟨fun _ => chain, fun _ => rfl⟩
  | cons node rest =>
      obtain ⟨start, present, -⟩ := chain
      exact ⟨fun empty => absurd empty (List.cons_ne_nil _ _), fun isNull => absurd (start ▸ isNull) present⟩

/-- The links determine the nodes. -/
theorem unique {nodes' : List α} (chain : Chain null next p nodes) (chain' : Chain null next p nodes') :
    nodes = nodes' := by
  induction nodes generalizing p nodes' with
  | nil => exact ((eq_nil_iff chain').mpr chain).symm
  | cons node rest ih =>
      obtain ⟨start, present, after⟩ := chain
      cases nodes' with
      | nil => exact absurd (start.symm.trans chain') present
      | cons node' rest' =>
          obtain ⟨start', -, after'⟩ := chain'
          obtain rfl : node = node' := start.symm.trans start'
          rw [ih after after']

/-- No node is met twice: from a second meeting on the chain would not end. -/
theorem nodup (chain : Chain null next p nodes) : nodes.Nodup := by
  induction nodes generalizing p with
  | nil => exact List.nodup_nil
  | cons node rest ih =>
      obtain ⟨-, present, after⟩ := chain
      refine List.nodup_cons.mpr ⟨fun again => ?_, ih after⟩
      obtain ⟨before, later, split⟩ := List.append_of_mem again
      have fromNode : Chain null next node (node :: rest) := ⟨rfl, present, after⟩
      have tail : Chain null next node (node :: later) := by
        rw [split, Segment.append_iff] at after
        obtain ⟨middle, -, fromMiddle⟩ := after
        exact ⟨rfl, fromMiddle.2.1, fromMiddle.2.2⟩
      have lengths := congrArg List.length (unique fromNode tail)
      have shorter := congrArg List.length split
      simp only [List.length_cons, List.length_append] at lengths shorter
      omega

variable [DecidableEq α]

/-- Linking a new last node behind the old one. -/
theorem snoc {last node : α} {rest : List α} (chain : Chain null next p (rest ++ [last]))
    (present : node ≠ null) (new : node ∉ rest ++ [last]) :
    Chain null (Function.update (Function.update next node null) last node) p (rest ++ [last] ++ [node]) := by
  have distinct := nodup chain
  have notLast : node ≠ last := fun same => new (by simp [same])
  have lastNew : last ∉ rest := fun member =>
    (List.nodup_append.mp distinct).2.2 last member last (List.mem_singleton_self last) rfl
  rw [Chain, Segment.append_iff] at chain
  obtain ⟨middle, before, start, lastPresent, -⟩ := chain
  rw [Chain, Segment.append_iff]
  refine ⟨node, ?_, rfl, present, ?_⟩
  · rw [Segment.append_iff]
    refine ⟨middle, before.congr fun other member => ?_, start, lastPresent, ?_⟩
    · have different : other ≠ last := fun same => lastNew (same ▸ member)
      have different' : other ≠ node := fun same => new (List.mem_append_left _ (same ▸ member))
      rw [Function.update_of_ne different, Function.update_of_ne different']
    · exact Function.update_self _ _ _
  · rw [Function.update_of_ne notLast]
    exact Function.update_self _ _ _

/-- Taking a node out behind its predecessor. -/
theorem unlink {previous node : α} {before after : List α}
    (chain : Chain null next p (before ++ previous :: node :: after)) :
    Chain null (Function.update next previous (next node)) p (before ++ previous :: after) := by
  have distinct := nodup chain
  rw [Chain, Segment.append_iff] at chain
  obtain ⟨middle, first, start, present, -, -, second⟩ := chain
  rw [List.nodup_append, List.nodup_cons] at distinct
  obtain ⟨-, ⟨notLater, -⟩, apart⟩ := distinct
  rw [Chain, Segment.append_iff]
  refine ⟨middle, first.congr fun other member => ?_, start, present, ?_⟩
  · exact Function.update_of_ne (apart other member previous List.mem_cons_self) _ _
  · rw [Function.update_self]
    refine second.congr fun other member => Function.update_of_ne (fun same => ?_) _ _
    exact notLater (List.mem_cons_of_mem node (same ▸ member))

end Chain
end BubackOS.Library

import Mathlib.Data.List.Chain

/-!
# Runs

Pieces arrive one at a time.  A piece that continues the open run is joined to it;
any other piece ends that run and opens the next.  Where joining loses nothing, the
runs hold exactly the pieces in the order they came; where what may stand before a
run depends on its beginning only, no run continues the one before it.
-/

namespace BubackOS.Library

/-- The runs that have ended, the earliest first, and the open one. -/
structure Runs (ρ : Type) where
  ended : List ρ
  current : Option ρ

namespace Runs

variable {ρ β : Type}

def empty : Runs ρ where
  ended := []
  current := none

/-- Every run, the open one last. -/
def all (runs : Runs ρ) : List ρ := runs.ended ++ runs.current.toList

theorem empty_all : (empty : Runs ρ).all = [] := rfl

section Pieces

variable (joins : ρ → ρ → Prop) [DecidableRel joins] (join : ρ → ρ → ρ)

def push (runs : Runs ρ) (piece : ρ) : Runs ρ :=
  match runs.current with
  | none => { runs with current := some piece }
  | some run =>
      if joins run piece then { runs with current := some (join run piece) }
      else { ended := runs.ended ++ [run], current := some piece }

/-- What joining has to respect, for runs that are `sound`: nothing is lost, and a run
continues a joined one exactly if it continues its first part. -/
structure Lawful (sound : ρ → Prop) (expand : ρ → List β) : Prop where
  keeps : ∀ run piece, sound run → sound piece → joins run piece → sound (join run piece)
  whole : ∀ run piece, sound run → sound piece → joins run piece →
    expand (join run piece) = expand run ++ expand piece
  first : ∀ before run piece, joins before (join run piece) ↔ joins before run

end Pieces

section Laws

variable {joins : ρ → ρ → Prop} [DecidableRel joins] {join : ρ → ρ → ρ} {sound : ρ → Prop}
  {expand : ρ → List β} {runs : Runs ρ} {piece : ρ}

/-- Runs that were built from sound pieces. -/
structure Maximal (joins : ρ → ρ → Prop) (sound : ρ → Prop) (runs : Runs ρ) : Prop where
  opened : runs.current = none → runs.ended = []
  each : ∀ run ∈ runs.all, sound run
  apart : runs.all.IsChain fun run next => ¬ joins run next

theorem Maximal.empty (joins : ρ → ρ → Prop) (sound : ρ → Prop) :
    (Runs.empty : Runs ρ).Maximal joins sound where
  opened _ := rfl
  each _ isRun := nomatch isRun
  apart := .nil

theorem push_expand (lawful : Lawful joins join sound expand) (maximal : runs.Maximal joins sound)
    (isSound : sound piece) :
    (runs.push joins join piece).all.flatMap expand = runs.all.flatMap expand ++ expand piece := by
  have each := maximal.each
  unfold all at each
  unfold push all
  cases isOpen : runs.current with
  | none => simp
  | some run =>
      rw [isOpen] at each
      by_cases continues : joins run piece
      · simp [continues, lawful.whole run piece (each run (by simp)) isSound continues]
      · simp [continues]

theorem Maximal.push (lawful : Lawful joins join sound expand) (maximal : runs.Maximal joins sound)
    (isSound : sound piece) : (runs.push joins join piece).Maximal joins sound := by
  obtain ⟨opened, each, apart⟩ := maximal
  unfold Runs.push
  unfold all at each apart
  cases isOpen : runs.current with
  | none =>
      refine ⟨nofun, ?_, ?_⟩ <;> simp [all, opened isOpen, isSound]
  | some run =>
      simp only [isOpen, Option.toList_some, List.forall_mem_append, List.forall_mem_singleton]
        at each apart
      by_cases continues : joins run piece
      · simp only [continues, if_true]
        refine ⟨nofun, ?_, ?_⟩
        · simp only [all, Option.toList_some, List.forall_mem_append, List.forall_mem_singleton]
          exact ⟨each.1, lawful.keeps run piece each.2 isSound continues⟩
        · -- what stands before the run looks at its beginning, which has not moved
          simp only [all, Option.toList_some]
          rw [List.isChain_append] at apart ⊢
          refine ⟨apart.1, .singleton _, fun before isLast next isNext => ?_⟩
          obtain rfl : join run piece = next := by simpa using isNext
          exact fun joined => apart.2.2 before isLast run rfl ((lawful.first before run piece).1 joined)
      · simp only [continues, if_false]
        refine ⟨nofun, ?_, ?_⟩
        · simp only [all, Option.toList_some, List.forall_mem_append, List.forall_mem_singleton]
          exact ⟨each, isSound⟩
        · simp only [all, Option.toList_some, List.append_assoc, List.singleton_append,
            List.isChain_append_cons_cons]
          exact ⟨apart, continues, .singleton _⟩

theorem foldl_push (lawful : Lawful joins join sound expand) :
    ∀ (pieces : List ρ) (runs : Runs ρ), runs.Maximal joins sound → (∀ piece ∈ pieces, sound piece) →
      (pieces.foldl (push joins join) runs).Maximal joins sound ∧
      (pieces.foldl (push joins join) runs).all.flatMap expand =
        runs.all.flatMap expand ++ pieces.flatMap expand
  | [], runs, maximal, _ => ⟨maximal, by simp⟩
  | piece :: pieces, runs, maximal, each => by
      have isSound := each piece List.mem_cons_self
      obtain ⟨rest, expanded⟩ := foldl_push lawful pieces (runs.push joins join piece)
        (maximal.push lawful isSound) fun later isLater => each later (List.mem_cons_of_mem _ isLater)
      refine ⟨rest, ?_⟩
      rw [List.foldl_cons, expanded, push_expand lawful maximal isSound, List.flatMap_cons,
        List.append_assoc]

end Laws

end Runs

end BubackOS.Library

import Mathlib.Data.List.Infix

/-!
# Walks through tables

A family of tables is given by the partial function `next`: the entry `i` of the
table `a` leads to another table.  `follow` walks a path of indices.  A walk
depends on the entries it passes and on nothing else.  In a layered family, where
every entry leads one layer down and no two entries lead to the same table, two
different paths pass different entries, so changing the entries of one path leaves
the paths that branch off at its start as they are.
-/

namespace BubackOS.Library

variable {α ι : Type}

/-- Walk a path of indices from a table. -/
def follow (next : α → ι → Option α) : α → List ι → Option α
  | a, [] => some a
  | a, i :: rest => (next a i).bind fun b => follow next b rest

/-- The walk along `p` from `a` comes to the entry `i` of the table `b`. -/
def Passes (next : α → ι → Option α) (a : α) (p : List ι) (b : α) (i : ι) : Prop :=
  ∃ d rest, p = d ++ i :: rest ∧ follow next a d = some b

section Walks

variable {next next' : α → ι → Option α} {a b c : α} {i j : ι} {p q : List ι}

theorem follow_cons_of_some (step : next a i = some b) : follow next a (i :: p) = follow next b p := by
  rw [follow, step]
  rfl

theorem follow_cons_of_none (step : next a i = none) : follow next a (i :: p) = none := by
  rw [follow, step]
  rfl

theorem follow_append (next : α → ι → Option α) (a : α) (p q : List ι) :
    follow next a (p ++ q) = (follow next a p).bind fun b => follow next b q := by
  induction p generalizing a with
  | nil => rfl
  | cons i rest ih =>
      simp only [List.cons_append, follow]
      cases next a i with
      | none => rfl
      | some b => exact ih b

/-- The start of a successful walk, and its last step. -/
theorem follow_concat_eq_some (reached : follow next a (p ++ [i]) = some c) :
    ∃ b, follow next a p = some b ∧ next b i = some c := by
  rw [follow_append] at reached
  cases found : follow next a p with
  | none =>
      rw [found] at reached
      cases reached
  | some b =>
      refine ⟨b, rfl, ?_⟩
      rw [found] at reached
      cases step : next b i with
      | none => simp [follow, step] at reached
      | some c' => simpa [follow, step] using reached

theorem passes_head : Passes next a (i :: p) a i := ⟨[], p, rfl, rfl⟩

theorem Passes.cons (step : next a j = some c) (passes : Passes next c p b i) :
    Passes next a (j :: p) b i := by
  obtain ⟨d, rest, split, reached⟩ := passes
  refine ⟨j :: d, rest, by rw [split]; rfl, ?_⟩
  rw [follow_cons_of_some step]
  exact reached

/-- Two families that agree on the entries a walk passes give the same walk. -/
theorem follow_congr (agree : ∀ b i, Passes next a q b i → next' b i = next b i) :
    follow next' a q = follow next a q := by
  induction q generalizing a with
  | nil => rfl
  | cons j rest ih =>
      simp only [follow, agree a j passes_head]
      cases step : next a j with
      | none => rfl
      | some c => exact ih fun b i passes => agree b i (passes.cons step)

end Walks

/-- Entries with valid indices lead one layer down, and no two of them to the same table. -/
structure Layered (next : α → ι → Option α) (valid : ι → Prop) (layer : Nat → α → Prop) : Prop where
  step : ∀ n a i b, layer (n + 2) a → valid i → next a i = some b → layer (n + 1) b
  unique : ∀ m n a, layer m a → layer n a → m = n
  parent : ∀ m n a b i j c, layer (m + 2) a → layer (n + 2) b → valid i → valid j →
    next a i = some c → next b j = some c → a = b ∧ i = j

namespace Layered

variable {next next' : α → ι → Option α} {valid : ι → Prop} {layer : Nat → α → Prop} {a b c : α}
  {i j : ι} {n : Nat} {p q d e : List ι}

theorem follow_layer (layered : Layered next valid layer) (start : layer (n + 1) a)
    (short : d.length ≤ n) (good : ∀ i ∈ d, valid i) (reached : follow next a d = some b) :
    layer (n + 1 - d.length) b := by
  induction d generalizing a n with
  | nil =>
      cases reached
      exact start
  | cons i rest ih =>
      cases step : next a i with
      | none =>
          rw [follow_cons_of_none step] at reached
          cases reached
      | some c =>
          rw [follow_cons_of_some step] at reached
          cases n with
          | zero => simp at short
          | succ n =>
              have down := layered.step n a i c start (good i List.mem_cons_self) step
              have deep := ih down (by simpa using short)
                (fun i' member => good i' (List.mem_cons_of_mem _ member)) reached
              simpa using deep

/-- Two paths from one table to another are the same. -/
theorem follow_injective (layered : Layered next valid layer) (start : layer (n + 1) a)
    (shortD : d.length ≤ n) (shortE : e.length ≤ n) (goodD : ∀ i ∈ d, valid i)
    (goodE : ∀ i ∈ e, valid i) (reachedD : follow next a d = some b)
    (reachedE : follow next a e = some b) : d = e := by
  have lengths : d.length = e.length := by
    have same := layered.unique _ _ _ (layered.follow_layer start shortD goodD reachedD)
      (layered.follow_layer start shortE goodE reachedE)
    omega
  -- from the end: equal tables have equal parents and indices
  induction d using List.reverseRecOn generalizing e b with
  | nil =>
      symm
      exact List.eq_nil_of_length_eq_zero lengths.symm
  | append_singleton d i ih =>
      obtain rfl | ⟨e, j, rfl⟩ := List.eq_nil_or_concat' e
      · simp at lengths
      · obtain ⟨b', beforeD, stepD⟩ := follow_concat_eq_some reachedD
        obtain ⟨c', beforeE, stepE⟩ := follow_concat_eq_some reachedE
        simp only [List.length_append, List.length_singleton] at shortD shortE lengths
        have layerD := layered.follow_layer start (by omega)
          (fun i' member => goodD i' (List.mem_append_left _ member)) beforeD
        have layerE := layered.follow_layer start (by omega)
          (fun i' member => goodE i' (List.mem_append_left _ member)) beforeE
        obtain ⟨m, depth⟩ : ∃ m, n + 1 - d.length = m + 2 := ⟨n + 1 - d.length - 2, by omega⟩
        obtain ⟨m', depth'⟩ : ∃ m', n + 1 - e.length = m' + 2 := ⟨n + 1 - e.length - 2, by omega⟩
        rw [depth] at layerD
        rw [depth'] at layerE
        obtain ⟨rfl, rfl⟩ := layered.parent _ _ _ _ _ _ _ layerD layerE
          (goodD i (by simp)) (goodE j (by simp)) stepD stepE
        have same : d = e := ih (by omega) (by omega)
          (fun i' member => goodD i' (List.mem_append_left _ member))
          (fun i' member => goodE i' (List.mem_append_left _ member)) beforeD beforeE (by omega)
        rw [same]

/-- Changing entries on one path leaves the paths that branch off at its first entry. -/
theorem follow_of_branch (layered : Layered next valid layer) (start : layer (n + 1) a)
    (lengthP : p.length = n) (lengthQ : q.length = n) (goodP : ∀ i' ∈ i :: p, valid i')
    (goodQ : ∀ i' ∈ j :: q, valid i') (branch : j ≠ i)
    (frame : ∀ m b index, layer m b → valid index → ¬ Passes next a (i :: p) b index →
      next' b index = next b index) :
    follow next' a (j :: q) = follow next a (j :: q) := by
  refine follow_congr fun b index passes => ?_
  obtain ⟨d, rest, split, reached⟩ := passes
  have shortD : d.length ≤ n := by
    have total := congrArg List.length split
    simp only [List.length_cons, List.length_append] at total
    omega
  have goodD : ∀ i ∈ d, valid i := fun i' member => goodQ i' (by rw [split]; simp [member])
  have good : valid index := goodQ index (by rw [split]; simp)
  refine frame _ b index (layered.follow_layer start shortD goodD reached) good ?_
  rintro ⟨e, rest', split', reached'⟩
  have shortE : e.length ≤ n := by
    have total := congrArg List.length split'
    simp only [List.length_cons, List.length_append] at total
    omega
  have goodE : ∀ i ∈ e, valid i := fun i' member => goodP i' (by rw [split']; simp [member])
  obtain rfl := layered.follow_injective start shortD shortE goodD goodE reached reached'
  -- both paths begin with the common part and the entry that was passed
  cases d with
  | nil =>
      obtain ⟨rfl, -⟩ := List.cons.inj split
      obtain ⟨rfl, -⟩ := List.cons.inj split'
      exact branch rfl
  | cons head d =>
      obtain ⟨rfl, -⟩ := List.cons.inj split
      obtain ⟨rfl, -⟩ := List.cons.inj split'
      exact branch rfl

end Layered
end BubackOS.Library

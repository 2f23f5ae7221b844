import BubackOS.Libutils.LinkedNodes

/-!
# Releasing a list

`linkedlist_destroy` walks the chain one node behind its iterator.  It calls the iterator
twice before the loop and keeps only the first node, so the node of the second call is
released by nobody; on the empty list the null pointer is released in place of a node.
-/

namespace BubackOS.Nodes

open Library

section Release

-- `MEM_FREE`, with whatever it records.
variable {σ : Type} (memFree : Nat → σ → σ)

/-- The loop of `linkedlist_destroy`: the node that is released last, and the record so far. -/
def destroyLoop (h : Heap) : Nat → LinkedlistIter → Nat → σ → Option (Nat × σ)
  | 0, _, _, _ => none
  | rounds + 1, iter, last, record =>
      let next := linkedlistIterNextNode iter h
      if next.1 = 0 then some (last, record)
      else destroyLoop h rounds next.2 next.1 (memFree last record)

/-- `linkedlist_destroy`. -/
def linkedlistDestroy (rounds ll : Nat) (h : Heap) (record : σ) : Option σ :=
  if ll = 0 then some record
  else
    let last := linkedlistIterNextNode (linkedlistIterInitialize ll h) h
    let next := linkedlistIterNextNode last.2 h
    (destroyLoop memFree h rounds next.2 last.1 record).map fun latest => memFree ll (memFree latest.1 latest.2)

/-- The calls of `MEM_FREE` for some addresses, in their order. -/
def freeAll (addresses : List Nat) (record : σ) : σ :=
  addresses.foldl (fun record address => memFree address record) record

/-- The loop and the calls behind it release the node in hand, all later ones and the list. -/
theorem destroyLoop_eq {h : Heap} (ll : Nat) (nodes : List Nat) : ∀ {rounds p : Nat} (last : Nat) (record : σ),
    Chain 0 h.next p nodes → nodes.length < rounds →
    (destroyLoop memFree h rounds { nextNode := p } last record).map
        (fun latest => memFree ll (memFree latest.1 latest.2)) =
      some (freeAll memFree (last :: nodes ++ [ll]) record) := by
  induction nodes with
  | nil =>
      intro rounds p last record chain enough
      obtain ⟨rounds, rfl⟩ := Nat.exists_eq_succ_of_ne_zero (Nat.ne_of_gt enough)
      rw [destroyLoop, iterNextNode_nil chain]
      rfl
  | cons node rest ih =>
      intro rounds p last record chain enough
      obtain ⟨rounds, rfl⟩ := Nat.exists_eq_succ_of_ne_zero (Nat.ne_of_gt (Nat.zero_lt_of_lt enough))
      obtain ⟨step, present, after⟩ := iterNextNode_cons chain
      rw [destroyLoop, step]
      dsimp only
      rw [if_neg present, ih node (memFree last record) after (Nat.lt_of_succ_lt_succ enough)]
      rfl

end Release

/-- What is released of a chain: the node behind the first one is left out. -/
def released : List Nat → List Nat
  | [] => [0]
  | first :: rest => first :: rest.tail

section Chains

variable {σ : Type} {ll rounds : Nat} {nodes values : List Nat} {h : Heap}

theorem linkedlistDestroy_eq (memFree : Nat → σ → σ) (record : σ) (valid : ll ≠ 0) (holds : Holds ll nodes values h)
    (enough : nodes.length < rounds) :
    linkedlistDestroy memFree rounds ll h record = some (freeAll memFree (released nodes ++ [ll]) record) := by
  have chain := holds.chain
  rw [linkedlistDestroy, if_neg valid, linkedlistIterInitialize]
  cases nodes with
  | nil =>
      rw [iterNextNode_nil chain]
      dsimp only
      rw [iterNextNode_nil chain]
      exact destroyLoop_eq memFree ll [] 0 record chain enough
  | cons node later =>
      obtain ⟨step, -, after⟩ := iterNextNode_cons chain
      rw [step]
      dsimp only
      cases later with
      | nil =>
          rw [iterNextNode_nil after]
          exact destroyLoop_eq memFree ll [] node record after (Nat.zero_lt_of_lt enough)
      | cons second rest =>
          obtain ⟨step', -, after'⟩ := iterNextNode_cons after
          rw [step']
          refine destroyLoop_eq memFree ll rest node record after' ?_
          rw [List.length_cons, List.length_cons] at enough
          omega

/-- The nodes released are those of the chain exactly if there is one. -/
theorem released_perm_iff (nodes : List Nat) : (released nodes).Perm nodes ↔ nodes.length = 1 := by
  match nodes with
  | [] => simp [released]
  | [node] => simp [released]
  | node :: second :: rest =>
      refine ⟨fun perm => ?_, fun one => ?_⟩
      · have same := perm.length_eq
        simp [released] at same
      · simp at one

/-- Whatever `MEM_FREE` records: it is called for certain addresses, in order, and these are the nodes of the
list and the list itself, each once, if and only if the list has one element. -/
theorem linkedlistDestroy_releases_iff (valid : ll ≠ 0) (holds : Holds ll nodes values h)
    (enough : nodes.length < rounds) :
    ∃ addresses, (∀ (σ : Type) (memFree : Nat → σ → σ) (record : σ),
        linkedlistDestroy memFree rounds ll h record = some (freeAll memFree addresses record)) ∧
      (addresses.Perm (nodes ++ [ll]) ↔ values.length = 1) := by
  refine ⟨released nodes ++ [ll], fun σ memFree record => linkedlistDestroy_eq memFree record valid holds enough, ?_⟩
  rw [List.perm_append_right_iff, holds.length]
  exact released_perm_iff nodes

end Chains

/-- A list at address `1` with one element. -/
def oneNode : Heap where
  nodes := Function.update (fun _ => ⟨0, 0⟩) 100 ⟨10, 0⟩
  lists := Function.update (fun _ => ⟨0, 0⟩) 1 ⟨100, 1⟩

/-- It is released. -/
theorem linkedlistDestroy_releases_one :
    ∃ addresses, (∀ (σ : Type) (memFree : Nat → σ → σ) (record : σ),
        linkedlistDestroy memFree 2 1 oneNode record = some (freeAll memFree addresses record)) ∧
      addresses.Perm [100, 1] := by
  have holds : Holds 1 [100] [10] oneNode := ⟨⟨rfl, by decide, rfl⟩, rfl, rfl⟩
  obtain ⟨addresses, calls, all⟩ := linkedlistDestroy_releases_iff (by decide) holds (by decide : [100].length < 2)
  exact ⟨addresses, calls, all.mpr rfl⟩

/-- An empty list at address `1`. -/
def emptyHeap : Heap := (linkedlistCreate 1 ⟨fun _ => ⟨0, 0⟩, fun _ => ⟨0, 0⟩⟩).2

/-- The second node of a list is not released, and the null pointer is released for the empty list. -/
theorem second_node_leaks :
    (Holds 1 [100, 200, 300] [10, 20, 30] threeNodes ∧
      linkedlistDestroy (fun address freed => freed ++ [address]) 4 1 threeNodes [] = some [100, 300, 1]) ∧
    (Holds 1 [] [] emptyHeap ∧
      linkedlistDestroy (fun address freed => freed ++ [address]) 4 1 emptyHeap [] = some [0, 1]) := by
  exact ⟨⟨threeNodes_holds, rfl⟩, linkedlistCreate_holds (by decide) _, rfl⟩

end BubackOS.Nodes

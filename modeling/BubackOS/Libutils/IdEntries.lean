import BubackOS.Libutils.IdMapper
import BubackOS.Libutils.IterActions

/-!
# The id mapper in memory

`id_mapper_del` of `libutils/id_mapper.c` on the nodes of its list.  The elements are pointers to
entries; `entry` gives the id and the value behind a pointer.
-/

namespace BubackOS.Nodes

open Library

variable {entry : Nat → Nat × Nat} {id : Nat}

/-- The entry behind a pointer has the id. -/
def hasId (entry : Nat → Nat × Nat) (id pointer : Nat) : Bool := (entry pointer).1 = id

/-- `_find_id`. -/
def findId (entry : Nat → Nat × Nat) (id pointer : Nat) : IterAction × Nat :=
  if hasId entry id pointer then (.removeAndReturn, id) else (.goNext, id)

/-- `id_mapper_del`. -/
def idMapperDel (rounds ll : Nat) (entry : Nat → Nat × Nat) (id : Nat) (h : Heap) : Option (Bool × Heap) :=
  if id = 0 then some (false, h)
  else (linkedlistIterWithAction rounds ll (findId entry) id h).map fun result => (result.1 ≠ 0, result.2.2)

/-- The iteration with `_find_id` takes out the first entry with the id. -/
theorem iterateSequence_findId (values : List Nat) : iterateSequence (findId entry) id values =
    ((values.find? (hasId entry id)).getD 0, id, values.eraseP (hasId entry id)) := by
  induction values with
  | nil => rfl
  | cons value rest ih =>
      by_cases here : hasId entry id value = true
      · have chosen : findId entry id value = (.removeAndReturn, id) := if_pos here
        rw [iterateSequence, chosen, List.find?_cons_of_pos here,
          List.eraseP_cons_of_pos here]
        rfl
      · have chosen : findId entry id value = (.goNext, id) := if_neg here
        rw [iterateSequence, chosen, ih, List.find?_cons_of_neg here,
          List.eraseP_cons_of_neg here]

/-- It ends with its first removal, so that no two removals meet. -/
theorem separateFrom_findId (values : List Nat) : ∀ kept,
    separateFrom kept false (answers (findId entry) id values) = true := by
  induction values with
  | nil => exact fun _ => rfl
  | cons value rest ih =>
      intro kept
      by_cases here : hasId entry id value = true
      · have chosen : findId entry id value = (.removeAndReturn, id) := if_pos here
        rw [answers, chosen]
        exact (Bool.and_true _).trans (by rw [Bool.and_false]; rfl)
      · have chosen : findId entry id value = (.goNext, id) := if_neg here
        rw [answers, chosen]
        exact ih true

/-- On a list that stands for the entries of a mapper, `id_mapper_del` answers as the mapper does and leaves a
list that stands for the mapper without the entry. -/
theorem id_mapper_del_on_nodes {ll rounds : Nat} {nodes values : List Nat} {h : Heap} {m : IdMapper}
    (holds : Holds ll nodes values h) (words : ∀ node ∈ nodes, node < 2 ^ 64) (pointers : 0 ∉ values)
    (stands : m.list = some (values.map entry)) (enough : values.length < rounds) :
    ∃ h' nodes' values', idMapperDel rounds ll entry id h = some ((m.del id).1, h') ∧
      Holds ll nodes' values' h' ∧ (m.del id).2.list = some (values'.map entry) := by
  unfold idMapperDel IdMapper.del
  by_cases null : id = 0
  · rw [if_pos null, if_pos null]
    exact ⟨h, nodes, values, rfl, holds, stands⟩
  · rw [if_neg null, if_neg null]
    have valid : ∀ data value, (findId entry data value).1 ≠ .invalid := fun data value => by
      unfold findId
      split <;> simp
    have follows : Follows false [] nodes 0 := rfl
    rw [holds.length] at enough
    obtain ⟨h', left, result, size, ended⟩ :=
      iterWithActionLoop_ends valid nodes rounds id false (holds.walk words) follows enough
    rw [holds.values, iterateSequence_findId] at result size ended
    have remaining : left.map h.val = values.eraseP (hasId entry id) :=
      ended.exact (separateFrom_findId values _)
    refine ⟨h', left, values.eraseP (hasId entry id), ?_, ⟨ended.chain, ?_, ended.val ▸ remaining⟩, ?_⟩
    · have found : decide ((values.find? (hasId entry id)).getD 0 ≠ 0) = (values.find? (hasId entry id)).isSome := by
        cases isFound : values.find? (hasId entry id) with
        | none => rfl
        | some pointer =>
            have present : pointer ≠ 0 := fun zero => pointers (zero ▸ List.mem_of_find?_eq_some isFound)
            exact decide_eq_true present
      have listed : ((values.map entry).find? (·.1 = id)).isSome = (values.find? (hasId entry id)).isSome := by
        rw [List.find?_map, Option.isSome_map]
        rfl
      rw [show linkedlistIterWithAction rounds ll (findId entry) id h = _ from result, stands]
      exact congrArg (fun answer => some (answer, h')) (found.trans listed.symm)
    · have count := holds.size
      have length := congrArg List.length remaining
      rw [List.length_map] at length
      dsimp only at size
      omega
    · rw [stands, Option.map_some, List.eraseP_map]
      rfl

theorem id_mapper_del_on_nodes_threeNodes :
    ∃ h' nodes' values', idMapperDel 4 1 (fun pointer => (pointer / 10, 7)) 2 threeNodes = some (true, h') ∧
      Holds 1 nodes' values' h' ∧ some [(1, 7), (3, 7)] = some (values'.map fun pointer => (pointer / 10, 7)) :=
  id_mapper_del_on_nodes (m := { next := 4, list := some [(1, 7), (2, 7), (3, 7)] }) threeNodes_holds (by decide)
    (by decide) rfl (by decide)

end BubackOS.Nodes

import BubackOS.Libutils.LinkedNodes
import Mathlib.Data.List.Chain
import Mathlib.Data.List.Perm.Subperm

/-!
# Removing while iterating

`linkedlist_iter_with_action` remembers the node it visited last as the predecessor of the
next one, also when it has just taken that node out.  A removal right behind a removal
then changes a link of the node that is already out, and its own node stays in the chain
although it is no longer counted.  Only at the head is this harmless: there `first` moves.
-/

namespace BubackOS.Nodes

open Library

variable {σ : Type} {action : σ → Nat → IterAction × σ} {ll previous p node : Nat}
  {live rest nodes values : List Nat} {h h' : Heap}

/-- The answers that take the element out. -/
def IterAction.removes : IterAction → Bool
  | removeAndReturn | removeAndNext => true
  | _ => false

/-- What the iteration is for: the element it returns, the data the calls leave, and the elements
that stay. -/
def iterateSequence (action : σ → Nat → IterAction × σ) : σ → List Nat → Nat × σ × List Nat
  | data, [] => (0, data, [])
  | data, value :: rest =>
      let chosen := action data value
      match chosen.1 with
      | .stopAndReturn => (value, chosen.2, value :: rest)
      | .removeAndReturn => (value, chosen.2, rest)
      | .goNext =>
          let later := iterateSequence action chosen.2 rest
          (later.1, later.2.1, value :: later.2.2)
      | .removeAndNext => iterateSequence action chosen.2 rest
      | .invalid => (0, chosen.2, value :: rest)

/-- The answers of the calls, up to the first one that returns. -/
def answers (action : σ → Nat → IterAction × σ) : σ → List Nat → List IterAction
  | _, [] => []
  | data, value :: rest =>
      let chosen := action data value
      match chosen.1 with
      | .goNext | .removeAndNext => chosen.1 :: answers action chosen.2 rest
      | _ => [chosen.1]

/-- No removal right behind another one, the removals at the head apart. -/
def SeparateRemovals (chosen : List IterAction) : Prop :=
  (chosen.dropWhile IterAction.removes).IsChain fun first second => ¬ (first.removes ∧ second.removes)

instance (chosen : List IterAction) : Decidable (SeparateRemovals chosen) := by
  unfold SeparateRemovals
  infer_instance

/-- The same condition, read along the walk: whether a node stays in front, and whether the node
just visited was taken out. -/
def separateFrom : Bool → Bool → List IterAction → Bool
  | _, _, [] => true
  | kept, gap, chosen :: rest =>
      if chosen.removes then !(kept && gap) && separateFrom kept true rest
      else separateFrom true false rest

theorem separateFrom_kept (chosen : List IterAction) : ∀ gap, separateFrom true gap chosen = true ↔
    (gap = true → ∀ first ∈ chosen.head?, first.removes = false) ∧
      chosen.IsChain fun first second => ¬ (first.removes ∧ second.removes) := by
  induction chosen with
  | nil => simp [separateFrom]
  | cons first rest ih =>
      intro gap
      unfold separateFrom
      cases removes : first.removes with
      | false => simp [ih, List.isChain_cons, removes]
      | true => cases gap <;> simp [ih, List.isChain_cons, removes]

theorem separateFrom_head (chosen : List IterAction) : ∀ gap,
    separateFrom false gap chosen = true ↔ SeparateRemovals chosen := by
  induction chosen with
  | nil => simp [separateFrom, SeparateRemovals]
  | cons first rest ih =>
      intro gap
      cases removes : first.removes with
      | true =>
          have step : separateFrom false gap (first :: rest) = separateFrom false true rest := by
            simp [separateFrom, removes]
          rw [step, ih]
          unfold SeparateRemovals
          rw [List.dropWhile_cons_of_pos removes]
      | false =>
          have step : separateFrom false gap (first :: rest) = separateFrom true false rest := by
            simp [separateFrom, removes]
          rw [step, separateFrom_kept]
          unfold SeparateRemovals
          rw [List.dropWhile_cons_of_neg (by simp [removes]), List.isChain_cons]
          simp [removes]

/-! ## One removal -/

/-- With a predecessor that is not in the chain, a removal does nothing but move the head. -/
theorem unlinkNode_stale (chain : Chain 0 h.next (h.lists ll).first (live ++ node :: rest))
    (outside : previous ∉ live ++ node :: rest) (present : previous ≠ 0) :
    Chain 0 (unlinkNode ll previous node h).next ((unlinkNode ll previous node h).lists ll).first
        (if live = [] then rest else live ++ node :: rest) ∧
      ((unlinkNode ll previous node h).lists ll).size = (h.lists ll).size ∧
      (unlinkNode ll previous node h).val = h.val := by
  have kept : ∀ other ∈ live ++ node :: rest,
      (h.setNext previous (h.next node)).next other = h.next other := by
    intro other member
    rw [Heap.setNext_next]
    refine Function.update_of_ne ?_ _ _
    rintro rfl
    exact outside member
  have chain' := chain.congr kept
  unfold unlinkNode
  rw [if_neg present]
  dsimp only
  rw [Heap.setNext_lists]
  by_cases atHead : live = []
  · subst atHead
    have first : (h.lists ll).first = node := chain.1
    rw [if_pos first, if_pos rfl]
    refine ⟨?_, ?_, ?_⟩
    · rw [Heap.setFirst_next, Heap.setFirst_self]
      exact chain'.2.2
    · rw [Heap.setFirst_self, Heap.setNext_lists]
    · rw [Heap.setFirst_val, Heap.setNext_val]
  · rw [if_neg (first_ne_of_chain chain atHead), if_neg atHead]
    exact ⟨chain', rfl, Heap.setNext_val h _ _⟩

/-- A removal changes no link but the predecessor's. -/
theorem linkedlistRemoveNode_next {other : Nat} (different : other ≠ previous) :
    (linkedlistRemoveNode ll previous node h).next other = h.next other := by
  unfold linkedlistRemoveNode
  split
  · rfl
  · unfold unlinkNode
    dsimp only
    rw [Heap.setSize_next]
    have behind : (if previous = 0 then h else h.setNext previous (h.next node)).next other = h.next other := by
      split
      · rfl
      · rw [Heap.setNext_next, Function.update_of_ne different]
    generalize (if previous = 0 then h else h.setNext previous (h.next node)) = linked at behind ⊢
    split
    · rw [Heap.setFirst_next]
      exact behind
    · exact behind

/-! ## The walk -/

/-- A point of the walk: the nodes that stay, the nodes to come, the predecessor the loop holds. -/
structure Walk (ll : Nat) (live rest : List Nat) (previous p : Nat) (h : Heap) : Prop where
  chain : Chain 0 h.next (h.lists ll).first (live ++ rest)
  here : Chain 0 h.next p rest
  room : rest.length ≤ (h.lists ll).size
  small : (h.lists ll).size < 2 ^ 64

/-- The node the loop holds is out of the chain. -/
def Stale (live rest : List Nat) (previous : Nat) : Prop := previous ≠ 0 ∧ previous ∉ live ++ rest

/-- The next node stays. -/
theorem Walk.keep (walk : Walk ll live (node :: rest) previous p h) :
    Walk ll (live ++ [node]) rest node (h.next node) h where
  chain := by simpa using walk.chain
  here := (iterNextNode_cons walk.here).2.2
  room := Nat.le_of_succ_le walk.room
  small := walk.small

/-- What any removal leaves: one element less is counted, the values are the same, and the iterator
goes on behind the node. -/
theorem Walk.removed (walk : Walk ll live (node :: rest) previous p h) {live' : List Nat}
    (chain : Chain 0 (unlinkNode ll previous node h).next ((unlinkNode ll previous node h).lists ll).first
      (live' ++ rest))
    (size : ((unlinkNode ll previous node h).lists ll).size = (h.lists ll).size)
    (val : (unlinkNode ll previous node h).val = h.val) (outside : previous ∉ rest) :
    Walk ll live' rest node (h.next node) (linkedlistRemoveNode ll previous node h) ∧
      ((linkedlistRemoveNode ll previous node h).lists ll).size + 1 = (h.lists ll).size ∧
      (linkedlistRemoveNode ll previous node h).val = h.val := by
  have present : node ≠ 0 := (iterNextNode_cons walk.here).2.1
  have room := walk.room
  have small := walk.small
  rw [List.length_cons] at room
  have counted : ((linkedlistRemoveNode ll previous node h).lists ll).size + 1 = (h.lists ll).size := by
    rw [linkedlistRemoveNode, if_neg present, Heap.setSize_self, size]
    dsimp only
    rw [wrapSub_of_le (by omega) (by omega)]
    omega
  refine ⟨⟨?_, ?_, by omega, by omega⟩, counted, ?_⟩
  · rw [linkedlistRemoveNode, if_neg present, Heap.setSize_next, Heap.setSize_self]
    exact chain
  · refine (iterNextNode_cons walk.here).2.2.congr fun other member => linkedlistRemoveNode_next ?_
    rintro rfl
    exact outside member
  · rw [linkedlistRemoveNode, if_neg present, Heap.setSize_val, val]

/-- The predecessor is the last of the nodes that stay: the node goes. -/
theorem Walk.remove (walk : Walk ll live (node :: rest) (live.getLastD 0) p h) :
    Walk ll live rest node (h.next node) (linkedlistRemoveNode ll (live.getLastD 0) node h) ∧
      ((linkedlistRemoveNode ll (live.getLastD 0) node h).lists ll).size + 1 = (h.lists ll).size ∧
      (linkedlistRemoveNode ll (live.getLastD 0) node h).val = h.val := by
  obtain ⟨chain, size, val⟩ := unlinkNode_chain walk.chain
  refine walk.removed chain size val ?_
  have distinct := Chain.nodup walk.chain
  rcases List.eq_nil_or_concat live with rfl | ⟨front, last, rfl⟩
  · exact fun member => Segment.ne_null walk.here 0 (List.mem_cons_of_mem node member) rfl
  · rw [List.concat_eq_append] at distinct ⊢
    have isLast : (front ++ [last]).getLastD 0 = last := by simp
    rw [isLast]
    intro member
    exact (List.nodup_append.mp distinct).2.2 last (by simp) last (List.mem_cons_of_mem node member) rfl

/-- The predecessor is out of the chain: the node goes only from the head. -/
theorem Walk.remove_stale (walk : Walk ll live (node :: rest) previous p h)
    (stale : Stale live (node :: rest) previous) :
    Walk ll (if live = [] then [] else live ++ [node]) rest node (h.next node)
        (linkedlistRemoveNode ll previous node h) ∧
      ((linkedlistRemoveNode ll previous node h).lists ll).size + 1 = (h.lists ll).size ∧
      (linkedlistRemoveNode ll previous node h).val = h.val := by
  obtain ⟨chain, size, val⟩ := unlinkNode_stale walk.chain stale.2 stale.1
  refine walk.removed ?_ size val fun member => stale.2 (by simp [member])
  split at chain <;> rename_i atHead
  · simpa [atHead] using chain
  · simpa [atHead] using chain

/-- A node that was taken out. -/
theorem Walk.stale (walk : Walk ll live (node :: rest) previous p h) : Stale live rest node := by
  have distinct := Chain.nodup walk.chain
  refine ⟨(iterNextNode_cons walk.here).2.1, fun member => ?_⟩
  rw [List.nodup_append, List.nodup_cons] at distinct
  rcases List.mem_append.mp member with inLive | inRest
  · exact distinct.2.2 node inLive node List.mem_cons_self rfl
  · exact distinct.2.1.1 inRest

/-- How the predecessor the loop holds relates to the chain. -/
def Follows (gap : Bool) (live rest : List Nat) (previous : Nat) : Prop :=
  if gap then Stale live rest previous else previous = live.getLastD 0

/-- The chain at the end, against the elements that should stay behind the nodes passed so far. -/
structure Ended (ll : Nat) (live left nodes : List Nat) (clean : Bool) (h h' : Heap) : Prop where
  chain : Chain 0 h'.next (h'.lists ll).first nodes
  val : h'.val = h.val
  long : live.length + left.length ≤ nodes.length
  exact : clean = true → nodes.map h.val = live.map h.val ++ left
  lost : clean = false → live.length + left.length < nodes.length

/-- The loop ends here. -/
theorem Ended.now (chain : Chain 0 h'.next (h'.lists ll).first (live ++ rest)) (val : h'.val = h.val) :
    Ended ll live (rest.map h.val) (live ++ rest) true h h' where
  chain := chain
  val := val
  long := by simp
  exact := fun _ => List.map_append
  lost := fun absurdity => absurd absurdity (by simp)

/-- The node was passed and stays, and the loop goes on. -/
theorem Ended.keep {left : List Nat} {clean : Bool} (ended : Ended ll (live ++ [node]) left nodes clean h h') :
    Ended ll live (h.val node :: left) nodes clean h h' where
  chain := ended.chain
  val := ended.val
  long := by
    have long := ended.long
    rw [List.length_append, List.length_singleton] at long
    rw [List.length_cons]
    omega
  exact := fun clean => by
    rw [ended.exact clean]
    simp
  lost := fun unclean => by
    have lost := ended.lost unclean
    rw [List.length_append, List.length_singleton] at lost
    rw [List.length_cons]
    omega

/-- The node went, and the loop goes on. -/
theorem Ended.gone {left : List Nat} {clean : Bool} {before : Heap} (val : h.val = before.val)
    (ended : Ended ll live left nodes clean h h') : Ended ll live left nodes clean before h' where
  chain := ended.chain
  val := ended.val.trans val
  long := ended.long
  exact := fun clean => by
    rw [← val]
    exact ended.exact clean
  lost := ended.lost

/-- The node should have gone and stays. -/
theorem Ended.left_behind {left : List Nat} {clean : Bool} {before : Heap} (val : h'.val = before.val)
    (ended : Ended ll (live ++ [node]) left nodes clean h h') : Ended ll live left nodes false before h' where
  chain := ended.chain
  val := val
  long := by
    have long := ended.long
    rw [List.length_append, List.length_singleton] at long
    omega
  exact := fun absurdity => absurd absurdity (by simp)
  lost := fun _ => by
    have long := ended.long
    rw [List.length_append, List.length_singleton] at long
    omega

/-- A removal in every position: the nodes that stay in front afterwards, how the node taken out
relates to them, and whether the chain lost it. -/
theorem Walk.removal {gap : Bool} (walk : Walk ll live (node :: rest) previous p h)
    (follows : Follows gap live (node :: rest) previous) :
    ∃ live' gap', Walk ll live' rest node (h.next node) (linkedlistRemoveNode ll previous node h) ∧
      Follows gap' live' rest node ∧
      ((linkedlistRemoveNode ll previous node h).lists ll).size + 1 = (h.lists ll).size ∧
      (linkedlistRemoveNode ll previous node h).val = h.val ∧
      if (decide (live ≠ []) && gap) = true then live' = live ++ [node] ∧ gap' = false
      else live' = live ∧ gap' = true := by
  cases gap with
  | false =>
      obtain rfl : previous = live.getLastD 0 := follows
      obtain ⟨after, size, val⟩ := walk.remove
      exact ⟨live, true, after, walk.stale, size, val, by simp⟩
  | true =>
      obtain ⟨after, size, val⟩ := walk.remove_stale follows
      by_cases atHead : live = []
      · rw [if_pos atHead] at after
        have stale := walk.stale
        rw [atHead] at stale
        exact ⟨[], true, after, stale, size, val, by simp [atHead]⟩
      · rw [if_neg atHead] at after
        exact ⟨live ++ [node], false, after, by simp [Follows], size, val, by simp [atHead]⟩

/-- The loop, from any point of the walk: it calls the action on the values to come, and the chain
it leaves is the wanted one exactly if no removal is lost. -/
theorem iterWithActionLoop_ends (valid : ∀ data value, (action data value).1 ≠ .invalid) (rest : List Nat) :
    ∀ (rounds : Nat) (data : σ) (gap : Bool) {live : List Nat} {previous p : Nat} {h : Heap},
      Walk ll live rest previous p h → Follows gap live rest previous → rest.length < rounds →
      ∃ h' nodes, iterWithActionLoop ll action rounds data { nextNode := p } previous h =
          some ((iterateSequence action data (rest.map h.val)).1,
            (iterateSequence action data (rest.map h.val)).2.1, h') ∧
        (h'.lists ll).size + rest.length =
          (h.lists ll).size + (iterateSequence action data (rest.map h.val)).2.2.length ∧
        Ended ll live (iterateSequence action data (rest.map h.val)).2.2 nodes
          (separateFrom (live ≠ []) gap (answers action data (rest.map h.val))) h h' := by
  induction rest with
  | nil =>
      intro rounds data gap live previous p h walk _ enough
      cases rounds with
      | zero => exact absurd enough (Nat.not_lt_zero _)
      | succ rounds =>
          rw [iterWithActionLoop, iterNextNode_nil walk.here]
          exact ⟨h, _, rfl, rfl, .now walk.chain rfl⟩
  | cons node rest ih =>
      intro rounds data gap live previous p h walk follows enough
      cases rounds with
      | zero => exact absurd enough (Nat.not_lt_zero _)
      | succ rounds =>
          obtain ⟨step, present, -⟩ := iterNextNode_cons walk.here
          have fewer := Nat.lt_of_succ_lt_succ enough
          rw [iterWithActionLoop, step, List.map_cons, iterateSequence, answers]
          dsimp only
          rw [if_neg present]
          have answered := valid data (h.val node)
          generalize action data (h.val node) = chosen at answered ⊢
          obtain ⟨answer, later⟩ := chosen
          cases answer with
          | invalid => exact absurd rfl answered
          | stopAndReturn =>
              refine ⟨h, live ++ node :: rest, rfl, by simp, ?_⟩
              exact .now walk.chain rfl
          | goNext =>
              obtain ⟨h', nodes, result, size, ended⟩ := ih rounds later false walk.keep
                (by simp [Follows]) fewer
              refine ⟨h', nodes, result, by simp only [List.length_cons]; omega, ?_⟩
              have flag : separateFrom (decide (live ≠ [])) gap (.goNext :: answers action later (rest.map h.val)) =
                  separateFrom (decide (live ++ [node] ≠ [])) false (answers action later (rest.map h.val)) := by
                simp [separateFrom, IterAction.removes]
              rw [flag]
              exact ended.keep
          | removeAndReturn =>
              obtain ⟨live', gap', after, -, size, val, outcome⟩ := walk.removal follows
              have ended : Ended ll live' (rest.map h.val) (live' ++ rest) true h
                  (linkedlistRemoveNode ll previous node h) := .now after.chain val
              refine ⟨linkedlistRemoveNode ll previous node h, live' ++ rest, rfl,
                by simp only [List.length_cons, List.length_map]; omega, ?_⟩
              have flag : separateFrom (decide (live ≠ [])) gap [.removeAndReturn] =
                  !(decide (live ≠ []) && gap) := by
                simp [separateFrom, IterAction.removes]
              rw [flag]
              cases lost : decide (live ≠ []) && gap with
              | true =>
                  rw [lost, if_pos rfl] at outcome
                  rw [outcome.1] at ended ⊢
                  exact ended.left_behind val
              | false =>
                  rw [lost, if_neg (by simp)] at outcome
                  rw [outcome.1] at ended ⊢
                  exact ended
          | removeAndNext =>
              obtain ⟨live', gap', after, follows', size, val, outcome⟩ := walk.removal follows
              obtain ⟨h', nodes, result, size', ended⟩ := ih rounds later gap' after follows' fewer
              rw [val] at result size' ended
              refine ⟨h', nodes, result, by simp only [List.length_cons]; omega, ?_⟩
              have flag : separateFrom (decide (live ≠ [])) gap
                  (.removeAndNext :: answers action later (rest.map h.val)) =
                  (!(decide (live ≠ []) && gap) &&
                    separateFrom (decide (live ≠ [])) true (answers action later (rest.map h.val))) := by
                simp [separateFrom, IterAction.removes]
              rw [flag]
              cases lost : decide (live ≠ []) && gap with
              | true =>
                  rw [lost, if_pos rfl] at outcome
                  rw [outcome.1] at ended
                  exact ended.left_behind (ended.val.trans val)
              | false =>
                  rw [lost, if_neg (by simp)] at outcome
                  rw [outcome.1, outcome.2] at ended
                  exact ended.gone val

/-! ## The whole iteration -/

/-- Node addresses are words, so a chain has fewer than `2 ^ 64` nodes. -/
theorem Holds.short (holds : Holds ll nodes values h) (words : ∀ node ∈ nodes, node < 2 ^ 64) :
    (h.lists ll).size < 2 ^ 64 := by
  have inside : nodes ⊆ List.range' 1 (2 ^ 64 - 1) := by
    intro node member
    have present := Segment.ne_null holds.chain node member
    have word := words node member
    rw [List.mem_range'_1]
    omega
  have few := (List.subperm_of_subset holds.chain.nodup inside).length_le
  rw [List.length_range'] at few
  rw [holds.size]
  omega

theorem Holds.walk (holds : Holds ll nodes values h) (words : ∀ node ∈ nodes, node < 2 ^ 64) :
    Walk ll [] nodes 0 (h.lists ll).first h where
  chain := holds.chain
  here := holds.chain
  room := by rw [holds.size]
  small := holds.short words

/-- For every list and every action with answers of `iter_action_enum`:
`linkedlist_iter_with_action` calls the action on the elements in order until the first answer
that returns and returns that element; it leaves the list without the removed elements, with their
number as its size, exactly if no element is removed right behind a removed one, those at the head
apart. -/
theorem iterWithAction_removes_iff (holds : Holds ll nodes values h) (words : ∀ node ∈ nodes, node < 2 ^ 64)
    (valid : ∀ data value, (action data value).1 ≠ .invalid) (data : σ) {rounds : Nat}
    (enough : values.length < rounds) :
    ∃ h', linkedlistIterWithAction rounds ll action data h =
        some ((iterateSequence action data values).1, (iterateSequence action data values).2.1, h') ∧
      ((∃ nodes', Holds ll nodes' (iterateSequence action data values).2.2 h') ↔
        SeparateRemovals (answers action data values)) := by
  have follows : Follows false [] nodes 0 := rfl
  rw [holds.length] at enough
  obtain ⟨h', left, result, size, ended⟩ :=
    iterWithActionLoop_ends valid nodes rounds data false (holds.walk words) follows enough
  rw [holds.values] at result size ended
  refine ⟨h', result, ?_⟩
  have count := holds.size
  rw [← separateFrom_head _ false]
  constructor
  · rintro ⟨nodes', held⟩
    have same : nodes' = left := Chain.unique held.chain ended.chain
    have total := held.size
    rw [same] at total
    by_contra unclean
    have lost := ended.lost (by simpa using unclean)
    rw [List.length_nil] at lost
    omega
  · intro clean
    have isExact : left.map h.val = (iterateSequence action data values).2.2 := by
      simpa using ended.exact (by simpa using clean)
    refine ⟨left, ended.chain, ?_, by rw [ended.val]; exact isExact⟩
    have length := congrArg List.length isExact
    rw [List.length_map] at length
    omega

/-- Keep the first element and take out those behind it. -/
def removeAbove (bound : Nat) (_data : Unit) (value : Nat) : IterAction × Unit :=
  (if bound < value then .removeAndNext else .goNext, ())

theorem iterWithAction_removes_iff_threeNodes :
    ∃ h', linkedlistIterWithAction 4 1 (removeAbove 20) () threeNodes = some (0, (), h') ∧
      ∃ nodes, Holds 1 nodes [10, 20] h' := by
  have valid : ∀ data value, (removeAbove 20 data value).1 ≠ .invalid := fun data value => by
    unfold removeAbove
    split <;> simp
  obtain ⟨h', result, iff⟩ := iterWithAction_removes_iff threeNodes_holds (by decide) valid ()
    (by decide : [10, 20, 30].length < 4)
  exact ⟨h', result, iff.mpr (by decide)⟩

/-- Two adjacent removals behind an element that stays: the second node stays in the chain too,
though the size counts one element. -/
theorem adjacent_removal_lost :
    (iterateSequence (removeAbove 10) () [10, 20, 30]).2.2 = [10] ∧
    (linkedlistIterWithAction 4 1 (removeAbove 10) () threeNodes).map (fun result =>
      (linkedlistSize 1 result.2.2, iterValues result.2.2 4 (linkedlistIterInitialize 1 result.2.2))) =
      some (1, some [10, 30]) := by
  decide +kernel

end BubackOS.Nodes

import BubackOS.Library.NodeChain
import BubackOS.Libutils.Words

/-!
# Linked lists in memory

`algorithms/linkedlist.c` with its nodes: a heap holds the `linkedlist_t` and
`linkedlist_node_t` objects by address, and `0` is `NULL`.  What `MEM_ALLOC` returned
is an argument, and `MEM_FREE` leaves the contents of a node alone.  A loop over the
chain ends at the null link, so it is given a number of rounds and has no result
when they do not suffice.
-/

namespace BubackOS.Nodes

open Library

/-- `linkedlist_node_t`. -/
structure LinkedlistNode where
  val : Nat
  next : Nat
  deriving DecidableEq, Repr

/-- `linkedlist_t`. -/
structure Linkedlist where
  first : Nat
  size : Nat
  deriving DecidableEq, Repr

/-- The objects in memory. -/
structure Heap where
  nodes : Nat → LinkedlistNode
  lists : Nat → Linkedlist

/-- `linkedlist_iter_t`. -/
structure LinkedlistIter where
  nextNode : Nat

namespace Heap

def setNode (node : Nat) (object : LinkedlistNode) (h : Heap) : Heap :=
  { h with nodes := Function.update h.nodes node object }

def setNext (node next : Nat) (h : Heap) : Heap :=
  h.setNode node { h.nodes node with next := next }

def setFirst (ll first : Nat) (h : Heap) : Heap :=
  { h with lists := Function.update h.lists ll { h.lists ll with first := first } }

def setSize (ll size : Nat) (h : Heap) : Heap :=
  { h with lists := Function.update h.lists ll { h.lists ll with size := size } }

/-- The link of every node. -/
def next (h : Heap) (node : Nat) : Nat := (h.nodes node).next

/-- The value of every node. -/
def val (h : Heap) (node : Nat) : Nat := (h.nodes node).val

end Heap

/-! ## The functions -/

/-- `linkedlist_create`, with the address `MEM_ALLOC` returned. -/
def linkedlistCreate (ll : Nat) (h : Heap) : Nat × Heap :=
  if ll = 0 then (0, h) else (ll, (h.setFirst ll 0).setSize ll 0)

/-- `linkedlist_size`. -/
def linkedlistSize (ll : Nat) (h : Heap) : Nat := if ll = 0 then 0 else (h.lists ll).size

/-- `linkedlist_iter_initialize` on an iterator of the caller. -/
def linkedlistIterInitialize (ll : Nat) (h : Heap) : LinkedlistIter :=
  { nextNode := (h.lists ll).first }

/-- `linkedlist_iter_next_node`. -/
def linkedlistIterNextNode (iter : LinkedlistIter) (h : Heap) : Nat × LinkedlistIter :=
  if iter.nextNode = 0 then (0, iter) else (iter.nextNode, { nextNode := h.next iter.nextNode })

/-- `linkedlist_iter_next`. -/
def linkedlistIterNext (iter : LinkedlistIter) (h : Heap) : Nat × LinkedlistIter :=
  let current := linkedlistIterNextNode iter h
  if current.1 = 0 then (0, current.2) else (h.val current.1, current.2)

/-- The values a `WHILE_LINKEDLIST_ITER` loop that changes nothing sees. -/
def iterValues (h : Heap) : Nat → LinkedlistIter → Option (List Nat)
  | 0, _ => none
  | rounds + 1, iter =>
      let value := linkedlistIterNext iter h
      if value.1 = 0 then some [] else (iterValues h rounds value.2).map (value.1 :: ·)

/-- The loop of `linkedlist_get`. -/
def getLoop (h : Heap) : Nat → Nat × LinkedlistIter → Nat
  | 0, current => current.1
  | index + 1, current =>
      if current.1 = 0 then 0 else getLoop h index (linkedlistIterNextNode current.2 h)

/-- `linkedlist_get`. -/
def linkedlistGet (ll index : Nat) (h : Heap) : Nat :=
  if ll = 0 ∨ (h.lists ll).size ≤ index then 0
  else
    let node := getLoop h index (linkedlistIterNextNode (linkedlistIterInitialize ll h) h)
    if node = 0 then 0 else h.val node

/-- A counter of type `int`. -/
def toInt (i : Nat) : Int := Int.bmod i 4294967296

/-- The loop of `linkedlist_find`. -/
def findLoop (el : Nat) (h : Heap) : Nat → Nat → LinkedlistIter → Option Int
  | 0, _, _ => none
  | rounds + 1, i, iter =>
      let value := linkedlistIterNext iter h
      if value.1 = 0 then some (-1)
      else if value.1 = el then some (toInt i)
      else findLoop el h rounds (i + 1) value.2

/-- `linkedlist_find`. -/
def linkedlistFind (rounds ll el : Nat) (h : Heap) : Option Int :=
  if ll = 0 then some (-1) else findLoop el h rounds 0 (linkedlistIterInitialize ll h)

/-- The loop of `linkedlist_append`: the last node. -/
def lastNode (h : Heap) : Nat → LinkedlistIter → Nat → Option Nat
  | 0, _, _ => none
  | rounds + 1, iter, last =>
      let next := linkedlistIterNextNode iter h
      if next.1 = 0 then some last else lastNode h rounds next.2 next.1

/-- Put a node at the end of the chain. -/
def linkNode (rounds ll node : Nat) (h : Heap) : Option Heap :=
  if (h.lists ll).size = 0 then some (h.setFirst ll node)
  else (lastNode h rounds (linkedlistIterInitialize ll h) 0).map fun last => h.setNext last node

/-- `linkedlist_append`, with the address `MEM_ALLOC` returned for the node. -/
def linkedlistAppend (rounds ll data node : Nat) (h : Heap) : Option (Bool × Heap) :=
  if ll = 0 then some (false, h)
  else if node = 0 then some (false, h)
  else (linkNode rounds ll node (h.setNode node { val := data, next := 0 })).map fun linked =>
    (true, linked.setSize ll (wrap ((linked.lists ll).size + 1)))

/-- The first assignments of `linkedlist_remove_node`. -/
def unlinkNode (ll previous removed : Nat) (h : Heap) : Heap :=
  let behind := if previous = 0 then h else h.setNext previous (h.next removed)
  if (behind.lists ll).first = removed then behind.setFirst ll (behind.next removed) else behind

/-- `linkedlist_remove_node`. -/
def linkedlistRemoveNode (ll previous removed : Nat) (h : Heap) : Heap :=
  if removed = 0 then h
  else
    let unlinked := unlinkNode ll previous removed h
    unlinked.setSize ll (wrapSub (unlinked.lists ll).size 1)

/-- The loop of `linkedlist_remove_element`. -/
def removeElementLoop (ll addr : Nat) (h : Heap) : Nat → LinkedlistIter → Nat → Option (Bool × Heap)
  | 0, _, _ => none
  | rounds + 1, iter, previous =>
      let next := linkedlistIterNextNode iter h
      if next.1 = 0 then some (false, h)
      else if h.val next.1 = addr then some (true, linkedlistRemoveNode ll previous next.1 h)
      else removeElementLoop ll addr h rounds next.2 next.1

/-- `linkedlist_remove_element`. -/
def linkedlistRemoveElement (rounds ll addr : Nat) (h : Heap) : Option (Bool × Heap) :=
  if ll = 0 then some (false, h)
  else removeElementLoop ll addr h rounds (linkedlistIterInitialize ll h) 0

/-- `enum iter_action_enum`, and any other result of an action. -/
inductive IterAction where
  | goNext
  | stopAndReturn
  | removeAndReturn
  | removeAndNext
  | invalid
  deriving DecidableEq, Repr

/-- The loop of `linkedlist_iter_with_action`; `action` sees and changes the data behind
`data_to_func`, which is part of the result. -/
def iterWithActionLoop {σ : Type} (ll : Nat) (action : σ → Nat → IterAction × σ) :
    Nat → σ → LinkedlistIter → Nat → Heap → Option (Nat × σ × Heap)
  | 0, _, _, _, _ => none
  | rounds + 1, data, iter, previous, h =>
      let next := linkedlistIterNextNode iter h
      if next.1 = 0 then some (0, data, h)
      else
        let chosen := action data (h.val next.1)
        match chosen.1 with
        | .stopAndReturn => some (h.val next.1, chosen.2, h)
        | .goNext => iterWithActionLoop ll action rounds chosen.2 next.2 next.1 h
        | .removeAndNext =>
            iterWithActionLoop ll action rounds chosen.2 next.2 next.1
              (linkedlistRemoveNode ll previous next.1 h)
        | .removeAndReturn => some (h.val next.1, chosen.2, linkedlistRemoveNode ll previous next.1 h)
        | .invalid => some (0, chosen.2, h)

/-- `linkedlist_iter_with_action`. -/
def linkedlistIterWithAction {σ : Type} (rounds ll : Nat) (action : σ → Nat → IterAction × σ) (data : σ)
    (h : Heap) : Option (Nat × σ × Heap) :=
  iterWithActionLoop ll action rounds data (linkedlistIterInitialize ll h) 0 h

/-- `linkedlist_iter_remove_element`: count down to the element. -/
def linkedlistIterRemoveElement (remaining _value : Nat) : IterAction × Nat :=
  if remaining = 0 then (.removeAndReturn, remaining) else (.goNext, remaining - 1)

/-- `linkedlist_remove`. -/
def linkedlistRemove (rounds ll index : Nat) (h : Heap) : Option (Nat × Heap) :=
  if ll = 0 ∨ (h.lists ll).size ≤ index then some (0, h)
  else (linkedlistIterWithAction rounds ll linkedlistIterRemoveElement index h).map fun result =>
    (result.1, result.2.2)

/-- `linkedlist_pop`. -/
def linkedlistPop (rounds ll : Nat) (h : Heap) : Option (Nat × Heap) :=
  if ll = 0 ∨ (h.lists ll).first = 0 then some (0, h)
  else linkedlistRemove rounds ll (wrapSub (linkedlistSize ll h) 1) h

/-! ## Reading an updated heap -/

namespace Heap

variable (h : Heap)

@[simp] theorem setNode_lists (node : Nat) (object : LinkedlistNode) :
    (h.setNode node object).lists = h.lists := rfl

@[simp] theorem setNext_lists (node next : Nat) : (h.setNext node next).lists = h.lists := rfl

@[simp] theorem setFirst_next (ll first : Nat) : (h.setFirst ll first).next = h.next := rfl

@[simp] theorem setSize_next (ll size : Nat) : (h.setSize ll size).next = h.next := rfl

@[simp] theorem setFirst_val (ll first : Nat) : (h.setFirst ll first).val = h.val := rfl

@[simp] theorem setSize_val (ll size : Nat) : (h.setSize ll size).val = h.val := rfl

@[simp] theorem setFirst_self (ll first : Nat) :
    (h.setFirst ll first).lists ll = { h.lists ll with first := first } := Function.update_self _ _ _

@[simp] theorem setSize_self (ll size : Nat) :
    (h.setSize ll size).lists ll = { h.lists ll with size := size } := Function.update_self _ _ _

theorem setNode_next (node : Nat) (object : LinkedlistNode) :
    (h.setNode node object).next = Function.update h.next node object.next := by
  funext other
  by_cases same : other = node <;> simp [next, setNode, same]

theorem setNode_val (node : Nat) (object : LinkedlistNode) :
    (h.setNode node object).val = Function.update h.val node object.val := by
  funext other
  by_cases same : other = node <;> simp [val, setNode, same]

theorem setNext_next (node next' : Nat) :
    (h.setNext node next').next = Function.update h.next node next' := setNode_next h node _

theorem setNext_val (node next' : Nat) : (h.setNext node next').val = h.val := by
  rw [setNext, setNode_val]
  exact Function.update_eq_self node h.val

end Heap

/-! ## The sequence a list stands for -/

/-- The chain of a list has these nodes, as many as its size says, with these values. -/
structure Holds (ll : Nat) (nodes values : List Nat) (h : Heap) : Prop where
  chain : Chain 0 h.next (h.lists ll).first nodes
  size : (h.lists ll).size = nodes.length
  values : nodes.map h.val = values

variable {ll : Nat} {nodes values : List Nat} {h : Heap}

theorem Holds.length (holds : Holds ll nodes values h) : values.length = nodes.length := by
  rw [← holds.values, List.length_map]

theorem linkedlistCreate_holds (valid : ll ≠ 0) (h : Heap) :
    Holds ll [] [] (linkedlistCreate ll h).2 := by
  rw [linkedlistCreate, if_neg valid]
  refine ⟨?_, ?_, rfl⟩
  · rw [Chain.nil_iff]
    simp
  · simp

/-! ### Loops that read -/

theorem iterNextNode_cons {node : Nat} {rest : List Nat} {p : Nat}
    (chain : Chain 0 h.next p (node :: rest)) :
    linkedlistIterNextNode { nextNode := p } h = (node, { nextNode := h.next node }) ∧ node ≠ 0 ∧
      Chain 0 h.next (h.next node) rest := by
  obtain ⟨start, present, after⟩ := chain
  subst start
  exact ⟨if_neg present, present, after⟩

theorem iterNextNode_nil {p : Nat} (chain : Chain 0 h.next p []) :
    linkedlistIterNextNode { nextNode := p } h = (0, { nextNode := p }) :=
  if_pos chain

theorem iterNext_cons {node : Nat} {rest : List Nat} {p : Nat}
    (chain : Chain 0 h.next p (node :: rest)) :
    linkedlistIterNext { nextNode := p } h = (h.val node, { nextNode := h.next node }) := by
  obtain ⟨step, present, -⟩ := iterNextNode_cons chain
  rw [linkedlistIterNext, step]
  exact if_neg present

theorem iterNext_nil {p : Nat} (chain : Chain 0 h.next p []) :
    linkedlistIterNext { nextNode := p } h = (0, { nextNode := p }) := by
  rw [linkedlistIterNext, iterNextNode_nil chain]
  rfl

/-- Iteration visits every element once, in order. -/
theorem iterValues_eq (nodes : List Nat) : ∀ {rounds p : Nat}, Chain 0 h.next p nodes →
    (∀ node ∈ nodes, h.val node ≠ 0) → nodes.length < rounds →
    iterValues h rounds { nextNode := p } = some (nodes.map h.val) := by
  induction nodes with
  | nil =>
      intro rounds p chain _ enough
      cases rounds with
      | zero => exact absurd enough (Nat.not_lt_zero _)
      | succ rounds =>
          rw [iterValues, iterNext_nil chain]
          rfl
  | cons node rest ih =>
      intro rounds p chain nonNull enough
      cases rounds with
      | zero => exact absurd enough (Nat.not_lt_zero _)
      | succ rounds =>
          have after := (iterNextNode_cons chain).2.2
          have later := ih after (fun other member => nonNull other (List.mem_cons_of_mem node member))
            (Nat.lt_of_succ_lt_succ enough)
          rw [iterValues, iterNext_cons chain]
          dsimp only
          rw [if_neg (nonNull node List.mem_cons_self), later]
          rfl

theorem getLoop_eq (nodes : List Nat) : ∀ {index p : Nat}, Chain 0 h.next p nodes →
    getLoop h index (linkedlistIterNextNode { nextNode := p } h) = nodes.getD index 0 := by
  induction nodes with
  | nil =>
      intro index p chain
      rw [iterNextNode_nil chain]
      cases index with
      | zero => rfl
      | succ index => simp [getLoop]
  | cons node rest ih =>
      intro index p chain
      obtain ⟨step, present, after⟩ := iterNextNode_cons chain
      rw [step]
      cases index with
      | zero => rfl
      | succ index =>
          rw [getLoop]
          dsimp only
          rw [if_neg present, ih after, List.getD_cons_succ]

theorem linkedlistGet_eq (valid : ll ≠ 0) (holds : Holds ll nodes values h) (index : Nat) :
    linkedlistGet ll index h = values.getD index 0 := by
  rw [linkedlistGet, holds.size, linkedlistIterInitialize]
  by_cases inside : index < nodes.length
  · rw [if_neg (by omega)]
    dsimp only
    rw [getLoop_eq nodes holds.chain, ← holds.values]
    have member : nodes.getD index 0 ∈ nodes := by
      rw [List.getD_eq_getElem?_getD, List.getElem?_eq_getElem inside, Option.getD_some]
      exact List.getElem_mem inside
    rw [if_neg (Segment.ne_null holds.chain _ member)]
    simp [List.getD_eq_getElem?_getD, List.getElem?_map, List.getElem?_eq_getElem inside]
  · have outside : values.length ≤ index := by
      rw [holds.length]
      omega
    rw [if_pos (Or.inr (by omega)), List.getD_eq_getElem?_getD, List.getElem?_eq_none outside]
    rfl

theorem toInt_of_lt {i : Nat} (short : i < 2 ^ 31) : toInt i = i := by
  unfold toInt
  rw [Int.bmod_def]
  split <;> omega

/-- The first index of a value, or `-1`. -/
def firstIndex (el : Nat) (values : List Nat) : Int :=
  if el ∈ values then (values.findIdx (· = el) : Int) else -1

theorem findLoop_eq {el : Nat} (nodes : List Nat) : ∀ {rounds i p : Nat}, Chain 0 h.next p nodes →
    (∀ node ∈ nodes, h.val node ≠ 0) → nodes.length < rounds → i + nodes.length < 2 ^ 31 →
    findLoop el h rounds i { nextNode := p } =
      some (if el ∈ nodes.map h.val then ((i + (nodes.map h.val).findIdx (· = el) : Nat) : Int)
        else -1) := by
  induction nodes with
  | nil =>
      intro rounds i p chain _ enough _
      cases rounds with
      | zero => exact absurd enough (Nat.not_lt_zero _)
      | succ rounds =>
          rw [findLoop, iterNext_nil chain]
          simp
  | cons node rest ih =>
      intro rounds i p chain nonNull enough short
      cases rounds with
      | zero => exact absurd enough (Nat.not_lt_zero _)
      | succ rounds =>
          have after := (iterNextNode_cons chain).2.2
          rw [List.length_cons] at enough short
          rw [findLoop, iterNext_cons chain]
          dsimp only
          rw [if_neg (nonNull node List.mem_cons_self)]
          by_cases here : h.val node = el
          · rw [if_pos here, toInt_of_lt (by omega)]
            simp [here, List.findIdx_cons]
          · rw [if_neg here, ih after (fun other member => nonNull other (List.mem_cons_of_mem node member))
              (by omega) (by omega)]
            simp only [List.map_cons, List.mem_cons, Ne.symm here, false_or, List.findIdx_cons, here,
              decide_false, cond_false]
            congr 2
            omega

theorem linkedlistFind_eq (valid : ll ≠ 0) (holds : Holds ll nodes values h)
    (nonNull : ∀ value ∈ values, value ≠ 0) {rounds : Nat} (enough : values.length < rounds)
    (short : values.length < 2 ^ 31) (el : Nat) :
    linkedlistFind rounds ll el h = some (firstIndex el values) := by
  rw [holds.length] at enough short
  rw [linkedlistFind, if_neg valid, linkedlistIterInitialize, findLoop_eq nodes holds.chain ?_ enough
    (by omega), holds.values, firstIndex]
  · simp
  · intro node member
    exact nonNull _ (by rw [← holds.values]; exact List.mem_map_of_mem member)

/-! ### Appending -/

theorem lastNode_eq (nodes : List Nat) : ∀ {rounds p last : Nat}, Chain 0 h.next p nodes →
    nodes.length < rounds → lastNode h rounds { nextNode := p } last = some (nodes.getLastD last) := by
  induction nodes with
  | nil =>
      intro rounds p last chain enough
      cases rounds with
      | zero => exact absurd enough (Nat.not_lt_zero _)
      | succ rounds =>
          rw [lastNode, iterNextNode_nil chain]
          rfl
  | cons node rest ih =>
      intro rounds p last chain enough
      cases rounds with
      | zero => exact absurd enough (Nat.not_lt_zero _)
      | succ rounds =>
          obtain ⟨step, present, after⟩ := iterNextNode_cons chain
          rw [lastNode, step]
          dsimp only
          rw [if_neg present, ih after (Nat.lt_of_succ_lt_succ enough), List.getLastD_cons]

/-- The chain with the new node at its end. -/
theorem linkNode_eq {rounds node : Nat} (data : Nat) (holds : Holds ll nodes values h)
    (present : node ≠ 0) (new : node ∉ nodes) (enough : nodes.length < rounds) :
    ∃ linked, linkNode rounds ll node (h.setNode node { val := data, next := 0 }) = some linked ∧
      Chain 0 linked.next (linked.lists ll).first (nodes ++ [node]) ∧
      (linked.lists ll).size = nodes.length ∧ linked.val = Function.update h.val node data := by
  have stored : Chain 0 (h.setNode node { val := data, next := 0 }).next (h.lists ll).first nodes := by
    rw [Heap.setNode_next]
    refine Segment.congr holds.chain fun other member => Function.update_of_ne ?_ _ _
    rintro rfl
    exact new member
  rcases List.eq_nil_or_concat nodes with empty | ⟨rest, last, isNodes⟩
  · subst empty
    refine ⟨_, if_pos holds.size, ?_, ?_, ?_⟩
    · rw [Heap.setFirst_next, Heap.setNode_next, Heap.setFirst_self]
      exact ⟨rfl, present, Function.update_self _ _ _⟩
    · rw [Heap.setFirst_self]
      exact holds.size
    · rw [Heap.setFirst_val, Heap.setNode_val]
  · rw [List.concat_eq_append] at isNodes
    subst isNodes
    have filled : ((h.setNode node { val := data, next := 0 }).lists ll).size ≠ 0 := by
      rw [Heap.setNode_lists, holds.size]
      simp
    have found : lastNode (h.setNode node { val := data, next := 0 }) rounds
        (linkedlistIterInitialize ll (h.setNode node { val := data, next := 0 })) 0 = some last := by
      rw [linkedlistIterInitialize, Heap.setNode_lists, lastNode_eq _ stored enough]
      simp
    refine ⟨_, by rw [linkNode, if_neg filled, found]; rfl, ?_, ?_, ?_⟩
    · rw [Heap.setNext_next, Heap.setNode_next, Heap.setNext_lists, Heap.setNode_lists]
      exact Chain.snoc holds.chain present new
    · rw [Heap.setNext_lists, Heap.setNode_lists]
      exact holds.size
    · rw [Heap.setNext_val, Heap.setNode_val]

theorem linkedlistAppend_eq {rounds node : Nat} (data : Nat) (valid : ll ≠ 0) (holds : Holds ll nodes values h)
    (present : node ≠ 0) (new : node ∉ nodes) (enough : values.length < rounds)
    (short : values.length + 1 < 2 ^ 31) :
    ∃ h', linkedlistAppend rounds ll data node h = some (true, h') ∧
      Holds ll (nodes ++ [node]) (values ++ [data]) h' := by
  rw [holds.length] at enough short
  obtain ⟨linked, result, chain, size, val⟩ := linkNode_eq data holds present new enough
  refine ⟨_, by rw [linkedlistAppend, if_neg valid, if_neg present, result]; rfl, ?_, ?_, ?_⟩
  · rw [Heap.setSize_next, Heap.setSize_self]
    exact chain
  · rw [Heap.setSize_self, size, wrap_of_lt (by omega)]
    simp
  · rw [Heap.setSize_val, val, List.map_append, ← holds.values]
    congr 1
    · refine List.map_congr_left fun other member => Function.update_of_ne ?_ _ _
      rintro rfl
      exact new member
    · simp

/-! ### Removing -/

/-- Only the first node is the head. -/
theorem first_ne_of_chain {first node : Nat} {before after : List Nat}
    (chain : Chain 0 h.next first (before ++ node :: after)) (later : before ≠ []) : first ≠ node := by
  have distinct := Chain.nodup chain
  intro isFirst
  cases before with
  | nil => exact later rfl
  | cons head tail =>
      rw [List.cons_append, List.nodup_cons] at distinct
      have same : node = head := isFirst.symm.trans chain.1
      exact distinct.1 (by rw [same]; simp)

/-- Taking out a node with its predecessor in the chain. -/
theorem unlinkNode_chain {before after : List Nat} {node : Nat}
    (chain : Chain 0 h.next (h.lists ll).first (before ++ node :: after)) :
    Chain 0 (unlinkNode ll (before.getLastD 0) node h).next
        ((unlinkNode ll (before.getLastD 0) node h).lists ll).first (before ++ after) ∧
      ((unlinkNode ll (before.getLastD 0) node h).lists ll).size = (h.lists ll).size ∧
      (unlinkNode ll (before.getLastD 0) node h).val = h.val := by
  rcases List.eq_nil_or_concat before with empty | ⟨front, previous, isBefore⟩
  · subst empty
    obtain ⟨start, -, rest⟩ := chain
    have head : unlinkNode ll (List.getLastD [] 0) node h = h.setFirst ll (h.next node) := if_pos start
    rw [head]
    refine ⟨?_, ?_, rfl⟩
    · rw [Heap.setFirst_next, Heap.setFirst_self]
      exact rest
    · rw [Heap.setFirst_self]
  · rw [List.concat_eq_append] at isBefore
    subst isBefore
    replace chain : Chain 0 h.next (h.lists ll).first (front ++ previous :: node :: after) := by
      simpa using chain
    have previousPresent : previous ≠ 0 := Segment.ne_null chain previous (by simp)
    have notFirst : (h.lists ll).first ≠ node := by
      have split : Chain 0 h.next (h.lists ll).first ((front ++ [previous]) ++ node :: after) := by
        simpa using chain
      exact first_ne_of_chain split (by simp)
    have middle : unlinkNode ll ((front ++ [previous]).getLastD 0) node h =
        h.setNext previous (h.next node) := by
      have last : (front ++ [previous]).getLastD 0 = previous := by simp
      rw [unlinkNode, last, if_neg previousPresent]
      exact if_neg notFirst
    rw [middle]
    refine ⟨?_, rfl, Heap.setNext_val h _ _⟩
    rw [Heap.setNext_next, Heap.setNext_lists]
    simpa using Chain.unlink chain

/-- Taking out a node with the predecessor the loops remember. -/
theorem linkedlistRemoveNode_holds {before after : List Nat} {node : Nat}
    (holds : Holds ll (before ++ node :: after) values h) (short : values.length < 2 ^ 64) :
    Holds ll (before ++ after) (before.map h.val ++ after.map h.val)
      (linkedlistRemoveNode ll (before.getLastD 0) node h) := by
  have present : node ≠ 0 := Segment.ne_null holds.chain node (by simp)
  have size : wrapSub (h.lists ll).size 1 = (before ++ after).length := by
    have total := holds.size
    have bound := holds.length
    rw [List.length_append, List.length_cons] at total bound
    rw [wrapSub_of_le (by omega) (by omega), total, List.length_append]
    omega
  rw [linkedlistRemoveNode, if_neg present]
  obtain ⟨chain, sameSize, sameVal⟩ := unlinkNode_chain holds.chain
  refine ⟨?_, ?_, ?_⟩
  · rw [Heap.setSize_next, Heap.setSize_self]
    exact chain
  · rw [Heap.setSize_self, sameSize]
    exact size
  · rw [Heap.setSize_val, sameVal, List.map_append]

/-- The loop of `linkedlist_remove_element` stops at the first occurrence. -/
theorem removeElementLoop_hit {addr node : Nat} {after : List Nat} (before : List Nat) :
    ∀ {rounds p previous : Nat}, Chain 0 h.next p (before ++ node :: after) →
      (∀ other ∈ before, h.val other ≠ addr) → h.val node = addr → before.length < rounds →
      removeElementLoop ll addr h rounds { nextNode := p } previous =
        some (true, linkedlistRemoveNode ll (before.getLastD previous) node h) := by
  induction before with
  | nil =>
      intro rounds p previous chain _ here enough
      cases rounds with
      | zero => exact absurd enough (Nat.not_lt_zero _)
      | succ rounds =>
          obtain ⟨step, present, -⟩ := iterNextNode_cons chain
          rw [removeElementLoop, step]
          dsimp only
          rw [if_neg present, if_pos here]
          rfl
  | cons other rest ih =>
      intro rounds p previous chain misses here enough
      cases rounds with
      | zero => exact absurd enough (Nat.not_lt_zero _)
      | succ rounds =>
          obtain ⟨step, present, later⟩ := iterNextNode_cons chain
          rw [removeElementLoop, step]
          dsimp only
          rw [if_neg present, if_neg (misses other List.mem_cons_self), ih later
            (fun node member => misses node (List.mem_cons_of_mem other member)) here
            (Nat.lt_of_succ_lt_succ enough), List.getLastD_cons]

theorem removeElementLoop_miss {addr : Nat} (nodes : List Nat) :
    ∀ {rounds p previous : Nat}, Chain 0 h.next p nodes → (∀ node ∈ nodes, h.val node ≠ addr) →
      nodes.length < rounds →
      removeElementLoop ll addr h rounds { nextNode := p } previous = some (false, h) := by
  induction nodes with
  | nil =>
      intro rounds p previous chain _ enough
      cases rounds with
      | zero => exact absurd enough (Nat.not_lt_zero _)
      | succ rounds =>
          rw [removeElementLoop, iterNextNode_nil chain]
          rfl
  | cons node rest ih =>
      intro rounds p previous chain misses enough
      cases rounds with
      | zero => exact absurd enough (Nat.not_lt_zero _)
      | succ rounds =>
          obtain ⟨step, present, later⟩ := iterNextNode_cons chain
          rw [removeElementLoop, step]
          dsimp only
          rw [if_neg present, if_neg (misses node List.mem_cons_self), ih later
            (fun other member => misses other (List.mem_cons_of_mem node member))
            (Nat.lt_of_succ_lt_succ enough)]

/-- The first node with a value. -/
theorem split_first {addr : Nat} (member : addr ∈ nodes.map h.val) :
    ∃ before node after, nodes = before ++ node :: after ∧ (∀ other ∈ before, h.val other ≠ addr) ∧
      h.val node = addr := by
  induction nodes with
  | nil => exact absurd member List.not_mem_nil
  | cons node rest ih =>
      by_cases here : h.val node = addr
      · exact ⟨[], node, rest, rfl, fun _ none => absurd none List.not_mem_nil, here⟩
      · have later : addr ∈ rest.map h.val := by
          rcases List.mem_cons.mp member with now | later
          · exact absurd now.symm here
          · exact later
        obtain ⟨before, found, after, split, misses, value⟩ := ih later
        refine ⟨node :: before, found, after, by rw [split]; rfl, ?_, value⟩
        intro other inBefore
        rcases List.mem_cons.mp inBefore with rfl | earlier
        · exact here
        · exact misses other earlier

theorem erase_split {before after : List Nat} {node addr : Nat}
    (misses : ∀ other ∈ before, h.val other ≠ addr) (here : h.val node = addr) :
    ((before ++ node :: after).map h.val).erase addr = before.map h.val ++ after.map h.val := by
  have absent : addr ∉ before.map h.val := by
    intro member
    obtain ⟨other, inBefore, value⟩ := List.mem_map.mp member
    exact misses other inBefore value
  rw [List.map_append, List.erase_append_right _ absent, List.map_cons, here, List.erase_cons_head]

theorem linkedlistRemoveElement_eq {rounds : Nat} (addr : Nat) (valid : ll ≠ 0)
    (holds : Holds ll nodes values h) (enough : values.length < rounds) (short : values.length < 2 ^ 64) :
    ∃ h' nodes', linkedlistRemoveElement rounds ll addr h = some (decide (addr ∈ values), h') ∧
      Holds ll nodes' (values.erase addr) h' := by
  have total := holds.length
  rw [linkedlistRemoveElement, if_neg valid, linkedlistIterInitialize]
  by_cases member : addr ∈ values
  · have inNodes : addr ∈ nodes.map h.val := by rw [holds.values]; exact member
    obtain ⟨before, node, after, split, misses, value⟩ := split_first inNodes
    subst split
    rw [List.length_append, List.length_cons] at total
    have removed := linkedlistRemoveNode_holds holds short
    rw [← erase_split misses value, holds.values] at removed
    refine ⟨_, before ++ after, ?_, removed⟩
    rw [removeElementLoop_hit before holds.chain misses value (by omega), decide_eq_true member]
  · refine ⟨h, nodes, ?_, ?_⟩
    · rw [removeElementLoop_miss nodes holds.chain ?_ (by omega), decide_eq_false member]
      intro node inNodes value
      exact member (by rw [← holds.values, ← value]; exact List.mem_map_of_mem inNodes)
    · rw [List.erase_of_not_mem member]
      exact holds

/-- The generic loop stops at the element it counts down to. -/
theorem iterWithAction_remove (ll : Nat) {node : Nat} {after : List Nat} (before : List Nat) :
    ∀ (rounds : Nat) {p : Nat} (previous : Nat), Chain 0 h.next p (before ++ node :: after) → before.length < rounds →
      iterWithActionLoop ll linkedlistIterRemoveElement rounds before.length { nextNode := p } previous h =
        some (h.val node, 0, linkedlistRemoveNode ll (before.getLastD previous) node h) := by
  induction before with
  | nil =>
      intro rounds p previous chain enough
      cases rounds with
      | zero => exact absurd enough (Nat.not_lt_zero _)
      | succ rounds =>
          obtain ⟨step, present, -⟩ := iterNextNode_cons chain
          rw [iterWithActionLoop, step]
          dsimp only
          rw [if_neg present]
          rfl
  | cons other rest ih =>
      intro rounds p previous chain enough
      cases rounds with
      | zero => exact absurd enough (Nat.not_lt_zero _)
      | succ rounds =>
          obtain ⟨step, present, later⟩ := iterNextNode_cons chain
          rw [iterWithActionLoop, step]
          dsimp only
          rw [if_neg present]
          have counted : linkedlistIterRemoveElement (other :: rest).length (h.val other) =
              (.goNext, rest.length) := if_neg (Nat.succ_ne_zero _)
          rw [counted]
          dsimp only
          rw [ih rounds other later (Nat.lt_of_succ_lt_succ enough), List.getLastD_cons]

theorem linkedlistRemove_eq {rounds : Nat} (index : Nat) (valid : ll ≠ 0) (holds : Holds ll nodes values h)
    (enough : values.length < rounds) (short : values.length < 2 ^ 64) :
    ∃ h' nodes', linkedlistRemove rounds ll index h = some (values.getD index 0, h') ∧
      Holds ll nodes' (values.eraseIdx index) h' := by
  have total := holds.length
  rw [linkedlistRemove, holds.size]
  by_cases inside : index < nodes.length
  · rw [if_neg (by omega), linkedlistIterWithAction, linkedlistIterInitialize]
    have split : nodes = nodes.take index ++ nodes[index] :: nodes.drop (index + 1) := by
      rw [List.getElem_cons_drop, List.take_append_drop]
    have counted : (nodes.take index).length = index := by
      rw [List.length_take]
      omega
    have chain := holds.chain
    rw [split] at chain
    have loop := iterWithAction_remove ll (nodes.take index) rounds 0 chain (by omega)
    rw [counted] at loop
    have whole : Holds ll (nodes.take index ++ nodes[index] :: nodes.drop (index + 1)) values h := by
      rw [← split]
      exact holds
    have removed := linkedlistRemoveNode_holds whole short
    have rest : (nodes.take index).map h.val ++ (nodes.drop (index + 1)).map h.val =
        values.eraseIdx index := by
      rw [← holds.values, List.eraseIdx_eq_take_drop_succ, List.map_take, List.map_drop]
    rw [rest] at removed
    refine ⟨_, _, ?_, removed⟩
    rw [loop, Option.map_some, ← holds.values]
    simp [List.getD_eq_getElem?_getD, List.getElem?_map, List.getElem?_eq_getElem inside]
  · have outside : values.length ≤ index := by omega
    rw [if_pos (Or.inr (by omega)), List.getD_eq_getElem?_getD, List.getElem?_eq_none outside,
      List.eraseIdx_of_length_le outside]
    exact ⟨h, nodes, rfl, holds⟩

theorem linkedlistPop_eq {rounds : Nat} (valid : ll ≠ 0) (holds : Holds ll nodes values h)
    (enough : values.length < rounds) (short : values.length < 2 ^ 64) :
    ∃ h' nodes', linkedlistPop rounds ll h = some (values.getLastD 0, h') ∧
      Holds ll nodes' values.dropLast h' := by
  have total := holds.length
  rw [linkedlistPop]
  by_cases empty : values = []
  · subst empty
    have noNodes : nodes = [] := List.eq_nil_of_length_eq_zero total.symm
    rw [if_pos (Or.inr ((Chain.eq_nil_iff holds.chain).mp noNodes))]
    exact ⟨h, nodes, rfl, holds⟩
  · have some : nodes ≠ [] := fun none => empty (List.eq_nil_of_length_eq_zero (by rw [total, none]; rfl))
    have positive : 0 < values.length := List.length_pos_iff.mpr empty
    rw [if_neg (by
      rintro (null | first)
      · exact valid null
      · exact some ((Chain.eq_nil_iff holds.chain).mpr first)), linkedlistSize, if_neg valid, holds.size,
      ← total, wrapSub_of_le positive short]
    obtain ⟨h', nodes', result, held⟩ := linkedlistRemove_eq (values.length - 1) valid holds enough short
    refine ⟨h', nodes', ?_, ?_⟩
    · rw [result, List.getLastD_eq_getLast?, List.getLast?_eq_getElem?, List.getD_eq_getElem?_getD]
    · have last : values.length - 1 + 1 = values.length := by omega
      rw [List.dropLast_eq_eraseIdx last]
      exact held

/-! ## Runs -/

/-- A call that changes the list; an append carries the address `MEM_ALLOC` returns. -/
inductive ListOp where
  | append (data node : Nat)
  | remove (index : Nat)
  | removeElement (addr : Nat)
  | pop

/-- What a call returns. -/
inductive ListResult where
  | flag (value : Bool)
  | value (value : Nat)
  deriving DecidableEq, Repr

/-- A call, with a bound on the rounds of its loop. -/
def ListOp.run (rounds ll : Nat) (h : Heap) : ListOp → Option (ListResult × Heap)
  | append data node => (linkedlistAppend rounds ll data node h).map fun r => (.flag r.1, r.2)
  | remove index => (linkedlistRemove rounds ll index h).map fun r => (.value r.1, r.2)
  | removeElement addr => (linkedlistRemoveElement rounds ll addr h).map fun r => (.flag r.1, r.2)
  | pop => (linkedlistPop rounds ll h).map fun r => (.value r.1, r.2)

/-- The call on the mathematical sequence. -/
def ListOp.onSequence (values : List Nat) : ListOp → ListResult × List Nat
  | append data node => if node = 0 then (.flag false, values) else (.flag true, values ++ [data])
  | remove index => (.value (values.getD index 0), values.eraseIdx index)
  | removeElement addr => (.flag (decide (addr ∈ values)), values.erase addr)
  | pop => (.value (values.getLastD 0), values.dropLast)

/-- Appended values are not `NULL`, and memory returned by `MEM_ALLOC` is not in use. -/
def ListOp.Allowed (ll : Nat) (h : Heap) : ListOp → Prop
  | append data node => data ≠ 0 ∧
      ∀ nodes, Chain 0 h.next (h.lists ll).first nodes → node ∉ nodes
  | _ => True

/-- The states of a list from its creation on, with the sequences they should stand for. -/
inductive ListReached (ll : Nat) : List Nat → Heap → Prop where
  | create (h : Heap) : ListReached ll [] (linkedlistCreate ll h).2
  | step {values : List Nat} {h h' : Heap} {op : ListOp} {result : ListResult} {rounds : Nat}
      (reached : ListReached ll values h) (allowed : op.Allowed ll h)
      (short : (op.onSequence values).2.length < 2 ^ 31)
      (runs : op.run rounds ll h = some (result, h')) : ListReached ll (op.onSequence values).2 h'

/-- A call on a list that stands for a sequence, given enough rounds. -/
theorem ListOp.run_eq {op : ListOp} {rounds : Nat} (valid : ll ≠ 0) (holds : Holds ll nodes values h)
    (allowed : op.Allowed ll h) (before : values.length < 2 ^ 31)
    (short : (op.onSequence values).2.length < 2 ^ 31) (enough : values.length < rounds) :
    ∃ h' nodes', op.run rounds ll h = some ((op.onSequence values).1, h') ∧
      Holds ll nodes' (op.onSequence values).2 h' := by
  cases op with
  | append data node =>
      by_cases null : node = 0
      · subst null
        refine ⟨h, nodes, ?_, holds⟩
        simp [ListOp.run, linkedlistAppend, onSequence]
      · rw [onSequence, if_neg null] at short ⊢
        rw [List.length_append, List.length_singleton] at short
        obtain ⟨h', result, held⟩ := linkedlistAppend_eq data valid holds null
          (allowed.2 nodes holds.chain) enough short
        exact ⟨h', _, by rw [ListOp.run, result]; rfl, held⟩
  | remove index =>
      obtain ⟨h', nodes', result, held⟩ := linkedlistRemove_eq index valid holds enough (by omega)
      exact ⟨h', nodes', by rw [ListOp.run, result]; rfl, held⟩
  | removeElement addr =>
      obtain ⟨h', nodes', result, held⟩ :=
        linkedlistRemoveElement_eq addr valid holds enough (by omega)
      exact ⟨h', nodes', by rw [ListOp.run, result]; rfl, held⟩
  | pop =>
      obtain ⟨h', nodes', result, held⟩ := linkedlistPop_eq valid holds enough (by omega)
      exact ⟨h', nodes', by rw [ListOp.run, result]; rfl, held⟩

/-! ### More rounds change nothing -/

/-- A branch that needs rounds may be replaced by one that finds the same. -/
theorem ite_eq_some {α : Type} {c : Prop} [Decidable c] {now later later' : Option α} {result : α}
    (found : (if c then now else later) = some result) (more : later = some result → later' = some result) :
    (if c then now else later') = some result := by
  by_cases here : c
  · rw [if_pos here] at found ⊢
    exact found
  · rw [if_neg here] at found ⊢
    exact more found

theorem lastNode_mono {result : Nat} (rounds : Nat) : ∀ {iter : LinkedlistIter} {last : Nat},
    lastNode h rounds iter last = some result → lastNode h (rounds + 1) iter last = some result := by
  induction rounds with
  | zero => exact fun none => absurd none (by simp [lastNode])
  | succ rounds ih => exact fun found => ite_eq_some found ih

theorem removeElementLoop_mono {addr : Nat} {result : Bool × Heap} (rounds : Nat) :
    ∀ {iter : LinkedlistIter} {previous : Nat},
      removeElementLoop ll addr h rounds iter previous = some result →
      removeElementLoop ll addr h (rounds + 1) iter previous = some result := by
  induction rounds with
  | zero => exact fun none => absurd none (by simp [removeElementLoop])
  | succ rounds ih => exact fun found => ite_eq_some found fun found => ite_eq_some found ih

theorem iterWithActionLoop_mono {σ : Type} {action : σ → Nat → IterAction × σ} {result : Nat × σ × Heap}
    (rounds : Nat) : ∀ {data : σ} {iter : LinkedlistIter} {previous : Nat} {h : Heap},
      iterWithActionLoop ll action rounds data iter previous h = some result →
      iterWithActionLoop ll action (rounds + 1) data iter previous h = some result := by
  induction rounds with
  | zero => exact fun none => absurd none (by simp [iterWithActionLoop])
  | succ rounds ih =>
      intro data iter previous h found
      refine ite_eq_some found fun found => ?_
      cases chosen : (action data (h.val (linkedlistIterNextNode iter h).1)).1 with
      | goNext =>
          rw [chosen] at found
          exact ih found
      | removeAndNext =>
          rw [chosen] at found
          exact ih found
      | stopAndReturn =>
          rw [chosen] at found
          exact found
      | removeAndReturn =>
          rw [chosen] at found
          exact found
      | invalid =>
          rw [chosen] at found
          exact found

theorem linkedlistAppend_mono {rounds data node : Nat} {result : Bool × Heap}
    (found : linkedlistAppend rounds ll data node h = some result) :
    linkedlistAppend (rounds + 1) ll data node h = some result := by
  refine ite_eq_some found fun found => ite_eq_some found fun found => ?_
  obtain ⟨linked, isLinked, rfl⟩ := Option.map_eq_some_iff.mp found
  refine Option.map_eq_some_iff.mpr ⟨linked, ite_eq_some isLinked fun isLinked => ?_, rfl⟩
  obtain ⟨last, isLast, rfl⟩ := Option.map_eq_some_iff.mp isLinked
  exact Option.map_eq_some_iff.mpr ⟨last, lastNode_mono rounds isLast, rfl⟩

theorem linkedlistRemove_mono {rounds index : Nat} {result : Nat × Heap}
    (found : linkedlistRemove rounds ll index h = some result) :
    linkedlistRemove (rounds + 1) ll index h = some result := by
  refine ite_eq_some found fun found => ?_
  obtain ⟨removed, isRemoved, rfl⟩ := Option.map_eq_some_iff.mp found
  exact Option.map_eq_some_iff.mpr ⟨removed, iterWithActionLoop_mono rounds isRemoved, rfl⟩

theorem ListOp.run_succ {op : ListOp} {rounds : Nat} {result : ListResult × Heap}
    (runs : op.run rounds ll h = some result) : op.run (rounds + 1) ll h = some result := by
  cases op with
  | append data node =>
      obtain ⟨r, found, rfl⟩ := Option.map_eq_some_iff.mp runs
      exact Option.map_eq_some_iff.mpr ⟨r, linkedlistAppend_mono found, rfl⟩
  | remove index =>
      obtain ⟨r, found, rfl⟩ := Option.map_eq_some_iff.mp runs
      exact Option.map_eq_some_iff.mpr ⟨r, linkedlistRemove_mono found, rfl⟩
  | removeElement addr =>
      obtain ⟨r, found, rfl⟩ := Option.map_eq_some_iff.mp runs
      exact Option.map_eq_some_iff.mpr ⟨r, ite_eq_some found (removeElementLoop_mono rounds), rfl⟩
  | pop =>
      obtain ⟨r, found, rfl⟩ := Option.map_eq_some_iff.mp runs
      exact Option.map_eq_some_iff.mpr ⟨r, ite_eq_some found linkedlistRemove_mono, rfl⟩

theorem ListOp.run_mono {op : ListOp} {rounds : Nat} {result : ListResult × Heap}
    (runs : op.run rounds ll h = some result) (more : Nat) : op.run (rounds + more) ll h = some result := by
  induction more with
  | zero => exact runs
  | succ more ih => exact ListOp.run_succ ih

/-! ### Whole runs -/

theorem mem_onSequence {op : ListOp} (allowed : op.Allowed ll h) (nonNull : ∀ value ∈ values, value ≠ 0) :
    ∀ value ∈ (op.onSequence values).2, value ≠ 0 := by
  cases op with
  | append data node =>
      by_cases null : node = 0
      · rw [ListOp.onSequence, if_pos null]
        exact nonNull
      · rw [ListOp.onSequence, if_neg null]
        intro value member
        rcases List.mem_append.mp member with old | new
        · exact nonNull value old
        · rw [List.mem_singleton.mp new]
          exact allowed.1
  | remove index => exact fun value member => nonNull value (List.mem_of_mem_eraseIdx member)
  | removeElement addr => exact fun value member => nonNull value (List.mem_of_mem_erase member)
  | pop => exact fun value member => nonNull value ((List.dropLast_sublist values).subset member)

/-- What holds in every state of a list: its chain stands for the sequence. -/
structure Stands (ll : Nat) (values : List Nat) (h : Heap) : Prop where
  holds : ∃ nodes, Holds ll nodes values h
  nonNull : ∀ value ∈ values, value ≠ 0
  short : values.length < 2 ^ 31

theorem ListReached.stands (valid : ll ≠ 0) (reached : ListReached ll values h) : Stands ll values h := by
  induction reached with
  | create h =>
      exact ⟨⟨[], linkedlistCreate_holds valid h⟩, fun _ none => absurd none List.not_mem_nil, by decide⟩
  | @step values h h' op result rounds reached allowed short runs ih =>
      obtain ⟨⟨nodes, holds⟩, nonNull, before⟩ := ih
      obtain ⟨h'', nodes', result', held⟩ := ListOp.run_eq valid holds allowed before short
        (show values.length < rounds + (values.length + 1) by omega)
      have same := (ListOp.run_mono runs (values.length + 1)).symm.trans result'
      obtain ⟨-, rfl⟩ := Prod.mk.inj (Option.some.inj same)
      exact ⟨⟨nodes', held⟩, mem_onSequence allowed nonNull, short⟩

/-- In every state of a list its chain is finite, without repetition and as long as its size
says, and every function returns what it returns on the sequence. -/
theorem linkedlist_is_sequence (valid : ll ≠ 0) (reached : ListReached ll values h) :
    (∃ nodes, Chain 0 h.next (h.lists ll).first nodes ∧ nodes.Nodup ∧
      nodes.length = (h.lists ll).size ∧ nodes.map h.val = values) ∧
    (∀ (op : ListOp) (rounds : Nat), op.Allowed ll h → (op.onSequence values).2.length < 2 ^ 31 →
      values.length < rounds → ∃ h', op.run rounds ll h = some ((op.onSequence values).1, h') ∧
        ListReached ll (op.onSequence values).2 h') ∧
    (∀ rounds data, linkedlistAppend rounds ll data 0 h = some (false, h)) ∧
    (∀ index, linkedlistGet ll index h = values.getD index 0) ∧
    linkedlistSize ll h = values.length ∧
    ∀ rounds, values.length < rounds →
      (∀ el, linkedlistFind rounds ll el h = some (firstIndex el values)) ∧
      iterValues h rounds (linkedlistIterInitialize ll h) = some values := by
  obtain ⟨⟨nodes, holds⟩, nonNull, short⟩ := reached.stands valid
  refine ⟨⟨nodes, holds.chain, holds.chain.nodup, holds.size.symm, holds.values⟩, ?_, ?_,
    linkedlistGet_eq valid holds, ?_, ?_⟩
  · intro op rounds allowed fits enough
    obtain ⟨h', -, result, -⟩ := ListOp.run_eq valid holds allowed short fits enough
    exact ⟨h', result, .step reached allowed fits result⟩
  · intro rounds data
    rw [linkedlistAppend, if_neg valid, if_pos rfl]
  · rw [linkedlistSize, if_neg valid, holds.size, holds.length]
  · intro rounds enough
    refine ⟨linkedlistFind_eq valid holds nonNull enough short, ?_⟩
    rw [linkedlistIterInitialize, iterValues_eq nodes holds.chain ?_ (by rw [← holds.length]; exact enough),
      holds.values]
    intro node member
    exact nonNull _ (by rw [← holds.values]; exact List.mem_map_of_mem member)

/-- The heap after a call on the list at address `1`. -/
def ListOp.after (op : ListOp) (h : Heap) : Heap := ((op.run 4 1 h).map Prod.snd).getD h

theorem ListReached.after {op : ListOp} (reached : ListReached 1 values h) (allowed : op.Allowed 1 h)
    (short : (op.onSequence values).2.length < 2 ^ 31) (returns : (op.run 4 1 h).isSome) :
    ListReached 1 (op.onSequence values).2 (op.after h) := by
  obtain ⟨result, isResult⟩ := Option.isSome_iff_exists.mp returns
  have runs : op.run 4 1 h = some (result.1, op.after h) := by
    unfold ListOp.after
    rw [isResult]
    rfl
  exact .step reached allowed short runs

/-- A new node is not in the chain that is there. -/
theorem append_allowed (nodes : List Nat) (chain : Chain 0 h.next (h.lists 1).first nodes) {data node : Nat}
    (present : data ≠ 0) (fresh : node ∉ nodes) : (ListOp.append data node).Allowed 1 h :=
  ⟨present, fun _ other => chain.unique other ▸ fresh⟩

/-- Three elements. -/
def threeNodes : Heap :=
  (ListOp.append 30 300).after ((ListOp.append 20 200).after ((ListOp.append 10 100).after
    (linkedlistCreate 1 ⟨fun _ => ⟨0, 0⟩, fun _ => ⟨0, 0⟩⟩).2))

theorem threeNodes_holds : Holds 1 [100, 200, 300] [10, 20, 30] threeNodes :=
  ⟨⟨rfl, by decide, rfl, by decide, rfl, by decide, rfl⟩, rfl, rfl⟩

theorem threeNodes_reached : ListReached 1 [10, 20, 30] threeNodes := by
  change ListReached 1 ((ListOp.append 30 300).onSequence ((ListOp.append 20 200).onSequence
    ((ListOp.append 10 100).onSequence []).2).2).2 threeNodes
  refine .after (.after (.after (.create _) ?_ (by decide) rfl) ?_ (by decide) rfl) ?_ (by decide) rfl
  · refine append_allowed [] ?_ (by decide) (by decide)
    exact Chain.nil_iff.mpr rfl
  · refine append_allowed [100] ?_ (by decide) (by decide)
    exact ⟨rfl, by decide, rfl⟩
  · refine append_allowed [100, 200] ?_ (by decide) (by decide)
    exact ⟨rfl, by decide, rfl, by decide, rfl⟩

/-- The one in the middle is taken out. -/
theorem linkedlist_is_sequence_threeNodes : ∃ h, (ListOp.remove 1).run 4 1 threeNodes = some (.value 20, h) ∧
    linkedlistGet 1 1 h = 30 ∧ linkedlistSize 1 h = 2 ∧
      iterValues h 3 (linkedlistIterInitialize 1 h) = some [10, 30] := by
  obtain ⟨h, removed, reached⟩ := (linkedlist_is_sequence (by decide) threeNodes_reached).2.1 (.remove 1) 4 trivial
    (by decide) (by decide)
  obtain ⟨-, -, -, get, size, walks⟩ := linkedlist_is_sequence (by decide) reached
  exact ⟨h, removed, get 1, size, (walks 3 (by decide)).2⟩

end BubackOS.Nodes

import BubackOS.Core.State

/-!
# Linked lists and id mappers

`algorithms/linkedlist.c` and `libutils/id_mapper.c` as their callers see them.
A list is a field of some object of the state.  `linkedlist_append` allocates its
node before it touches the chain, so a list that changed during that allocation
is appended to as it is afterwards.
-/

namespace BubackOS

/-- A field of the state that holds a list. -/
structure ListField (α : Type) where
  get : Kernel → LinkedList α
  modify : (List α → List α) → Kernel → Kernel

/-- `sizeof(linkedlist_t)`. -/
def sizeofLinkedlist : Nat := 16

/-- `sizeof(linkedlist_node_t)`. -/
def sizeofLinkedlistNode : Nat := 16

/-- `sizeof(id_mapper_entry_t)`. -/
def sizeofIdMapperEntry : Nat := 16

/-- `linkedlist_create`. -/
def linkedlistCreate (kalloc : Kalloc) {α : Type} (k : Kernel) : LinkedList α × Kernel :=
  let list := kalloc sizeofLinkedlist k
  if list.1 = 0 then (none, list.2) else (some [], list.2)

/-- `linkedlist_append`. -/
def linkedlistAppend (kalloc : Kalloc) {α : Type} (ll : ListField α) (data : α) (k : Kernel) :
    Bool × Kernel :=
  if (ll.get k).isNone then (false, k)
  else
    let node := kalloc sizeofLinkedlistNode k
    if node.1 = 0 then (false, node.2) else (true, ll.modify (· ++ [data]) node.2)

/-- `linkedlist_find`: the first index, or `-1`. -/
def linkedlistFind {α : Type} [DecidableEq α] (list : LinkedList α) (el : α) : Int :=
  if el ∈ list.items then (list.items.findIdx (· = el) : Int) else -1

/-- `linkedlist_remove_element`: the first occurrence goes, if there is one. -/
def linkedlistRemoveElement {α : Type} [BEq α] (ll : ListField α) (el : α) (k : Kernel) : Kernel :=
  ll.modify (·.erase el) k

/-- `kfree`: not implemented, so nothing is reclaimed. -/
def kfree (k : Kernel) : Kernel := k

/-- The loop of `linkedlist_destroy` over the nodes from the third one on. -/
def destroyNodes {α : Type} : List α → Kernel → Kernel
  | [], k => k
  | _ :: rest, k => destroyNodes rest (kfree k)

/-- `linkedlist_destroy`; the second node is skipped. -/
def linkedlistDestroy {α : Type} (list : LinkedList α) (k : Kernel) : Kernel :=
  match list with
  | none => k
  | some items => kfree (kfree (destroyNodes (items.drop 2) k))

theorem items_append {α : Type} {list : LinkedList α} {data : α} (some : list.isSome) :
    LinkedList.items (list.map (· ++ [data])) = list.items ++ [data] := by
  obtain ⟨items, rfl⟩ := Option.isSome_iff_exists.mp some
  rfl

theorem items_erase (list : LinkedList Nat) (el : Nat) :
    LinkedList.items (list.map (·.erase el)) = list.items.erase el := by
  cases list with
  | none => rfl
  | some items => rfl

theorem linkedlistAppend_of_some {kalloc : Kalloc} {k : Kernel} {α : Type} {ll : ListField α} {data : α}
    (some : (ll.get k).isSome) :
    linkedlistAppend kalloc ll data k =
      if (kalloc sizeofLinkedlistNode k).1 = 0 then (false, (kalloc sizeofLinkedlistNode k).2)
      else (true, ll.modify (· ++ [data]) (kalloc sizeofLinkedlistNode k).2) := by
  have found : (ll.get k).isNone = false := by
    rw [← Option.not_isSome, some]
    rfl
  rw [linkedlistAppend, found]
  rfl

/-- A static `id_mapper_t` of the state. -/
structure MapperField where
  get : Kernel → IdMapper
  modify : (IdMapper → IdMapper) → Kernel → Kernel

/-- The list of a mapper. -/
def MapperField.list (mapper : MapperField) : ListField (Nat × Nat) where
  get k := (mapper.get k).list
  modify change := mapper.modify fun m => { m with list := m.list.map change }

/-- `id_mapper_create` on a static mapper. -/
def idMapperCreate (kalloc : Kalloc) (mapper : MapperField) (k : Kernel) : Kernel :=
  let list := linkedlistCreate kalloc k
  mapper.modify (fun _ => { next := 1, list := list.1 }) list.2

/-- `id_mapper_add` for a non-`NULL` value. -/
def idMapperAdd (kalloc : Kalloc) (mapper : MapperField) (val : Nat) (k : Kernel) : Nat × Kernel :=
  let entry := kalloc sizeofIdMapperEntry k
  if entry.1 = 0 then (0, entry.2)
  else
    let id := (mapper.get entry.2).next
    let drawn := mapper.modify (fun m => { m with next := wrap (m.next + 1) }) entry.2
    let added := linkedlistAppend kalloc mapper.list (id, val) drawn
    if added.1 then (id, added.2) else (0, added.2)

end BubackOS

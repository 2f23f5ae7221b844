import BubackOS.Hal.FreshTable

/-!
# The page tables mirror the maps

An address space keeps its mappings twice: in the list `map` and in its page
tables.  The tables follow the list if the walk of every page ends at the physical
page of the last entry for it; of the addresses in the list they keep 48 bits.
-/

namespace BubackOS

open Library

/-- The physical page of the last entry for a page. -/
def lastMapped (map : List VmemMap) (page : Nat) : Option Nat :=
  (map.reverse.find? (·.virtualAddr = page)).map (·.physicalAddr)

theorem lastMapped_concat (map : List VmemMap) (entry : VmemMap) (page : Nat) :
    lastMapped (map ++ [entry]) page =
      if entry.virtualAddr = page then some entry.physicalAddr else lastMapped map page := by
  unfold lastMapped
  rw [List.reverse_append, List.reverse_singleton, List.singleton_append, List.find?_cons]
  by_cases same : entry.virtualAddr = page <;> simp [same]

/-- An entry as the page tables hold it. -/
def VmemMap.cut (entry : VmemMap) : VmemMap :=
  { entry with virtualAddr := entry.virtualAddr % 2 ^ 48, physicalAddr := entry.physicalAddr % 2 ^ 48 }

/-- Below `2 ^ 48` the page tables hold the entries as they are. -/
theorem map_cut_eq {map : List VmemMap}
    (low : ∀ entry ∈ map, entry.virtualAddr < 2 ^ 48 ∧ entry.physicalAddr < 2 ^ 48) :
    map.map VmemMap.cut = map := by
  refine (List.map_congr_left fun entry member => ?_).trans (List.map_id _)
  rw [VmemMap.cut, Nat.mod_eq_of_lt (low entry member).1, Nat.mod_eq_of_lt (low entry member).2]
  rfl

/-- The tables of the address spaces `S` are in order and follow their maps. -/
structure MirrorOn (S : Set Nat) (k : Kernel) : Prop where
  intact : Intact S ∅ k
  rooted : ∀ v ∈ S, Rooted v k
  walks : ∀ v ∈ S, ∀ a, a < 2 ^ 48 →
    walk k v a = lastMapped ((k.vmem v).map.items.map VmemMap.cut) (memAlign a)

/-- An entry from page to page. -/
structure VmemMap.Aligned (entry : VmemMap) : Prop where
  virtual : entry.virtualAddr % 4096 = 0
  physical : entry.physicalAddr % 4096 = 0

variable {S : Set Nat} {P : Allocator → Prop} {kalloc : Kalloc} {k k' : Kernel} {v : Nat}

/-- Without regions to watch, the invariant of the tables reads memory, the log and the page
tables only. -/
theorem Intact.of_same_native (intact : Intact S ∅ k) (mem : k'.mem = k.mem) (alloc : k'.alloc = k.alloc)
    (native : ∀ w ∈ S, k'.native w = k.native w) : Intact S ∅ k' := by
  constructor
  case wired => exact fun r member => absurd member (Set.notMem_empty r)
  · intro v member
    rw [native v member]
    exact intact.aligned v member
  · intro v member
    rw [native v member]
    exact intact.spareAligned v member
  · intro v member w member'
    rw [native v member, native w member']
    exact intact.distinct v member w member'
  · intro v member w member'
    rw [native v member, native w member']
    exact intact.apart v member w member'
  · intro v member w member'
    rw [native v member, native w member']
    exact intact.sparesApart v member w member'
  · rintro a ⟨v, member, own⟩
    rw [native v member] at own
    rw [alloc]
    exact intact.inLog a ⟨v, member, own⟩
  · intro v member
    rw [native v member, mem]
    exact intact.zero v member
  · intro v member
    rw [native v member, mem]
    exact intact.children v member
  · intro v member
    rw [native v member, mem]
    exact intact.parents v member

namespace MirrorOn

/-- Nothing the mirror reads has changed. -/
theorem of_same (mirror : MirrorOn S k) (mem : k'.mem = k.mem) (alloc : k'.alloc = k.alloc)
    (native : ∀ w ∈ S, k'.native w = k.native w)
    (map : ∀ w ∈ S, (k'.vmem w).map.items = (k.vmem w).map.items) : MirrorOn S k' := by
  constructor
  · exact mirror.intact.of_same_native mem alloc native
  · intro w member
    rw [Rooted, native w member]
    exact mirror.rooted w member
  · intro w member a low
    rw [map w member, walk, native w member, mem]
    exact mirror.walks w member a low

/-- A quiet allocation changes no table. -/
theorem call (mirror : MirrorOn S k) (quiet : Quiet P kalloc) (mode : P k.alloc) {size : Nat}
    (sound : Sound (kalloc size k).2.alloc.blocks) : MirrorOn S (kalloc size k).2 := by
  have native := quiet.native mode size
  have owned : ∀ a, Owned S k a → (kalloc size k).2.mem a = k.mem a := fun a own =>
    quiet.same_owned mode sound (mirror.intact.inLog a own)
  constructor
  · exact mirror.intact.of_same_owned (quiet.core size k mode) (quiet.log mode) owned
  · intro w member
    rw [Rooted, native]
    exact mirror.rooted w member
  · intro w member a low
    rw [walk_of_same_owned mirror.intact member (mirror.rooted w member) (by rw [native]) owned a,
      mirror.walks w member a low, quiet.vmem mode]

end MirrorOn

/-! ## One page -/

theorem mapOf_native (change : List VmemMap → List VmemMap) (k : Kernel) (v w : Nat) :
    ((mapOf v).modify change k).native w = k.native w := by
  by_cases same : w = v
  · subst same
    simp [mapOf, Kernel.native]
  · simp [mapOf, Kernel.native, Kernel.vmem_modifyVmem_of_ne same]

theorem mapOf_items {change : List VmemMap → List VmemMap} (ready : (k.vmem v).map.isSome) :
    (((mapOf v).modify change k).vmem v).map.items = change (k.vmem v).map.items := by
  obtain ⟨list, found⟩ := Option.isSome_iff_exists.mp ready
  simp [mapOf, LinkedList.items, found]

theorem mapOf_vmem_of_ne {w : Nat} {change : List VmemMap → List VmemMap} (other : w ≠ v) :
    ((mapOf v).modify change k).vmem w = k.vmem w :=
  Kernel.vmem_modifyVmem_of_ne other

theorem OnlyNative.map (only : OnlyNative v k k') (w : Nat) : (k'.vmem w).map = (k.vmem w).map := by
  obtain ⟨pt, core⟩ := only
  rw [Kernel.vmem, core]
  by_cases same : w = v
  · subst same
    simp [Kernel.vmem]
  · simp [Kernel.vmem, Store.modify_get_of_ne same]

/-- The page-map entry `vmem_notify_change` makes of a map entry. -/
def VmemMap.pageMapEntry (entry : VmemMap) (permission : Permission) : PageMapEntry where
  virtualAddr := entry.virtualAddr
  physicalAddr := entry.physicalAddr
  size := systemPageSize
  permission := permission

theorem VmemMap.Aligned.whole {entry : VmemMap} (aligned : entry.Aligned) (permission : Permission) :
    (entry.pageMapEntry permission).Whole :=
  ⟨rfl, aligned.virtual, aligned.physical⟩

/-- Noting an entry and setting its page keep the mirror. -/
theorem MirrorOn.mapPage (mirror : MirrorOn S k) (quiet : Quiet P kalloc) (mode : P k.alloc)
    (member : v ∈ S) (ready : (k.vmem v).map.isSome) {entry : VmemMap} (aligned : entry.Aligned)
    (permission : Permission)
    (sound : Sound (nativeVmemSet kalloc v (entry.pageMapEntry permission)
      ((mapOf v).modify (· ++ [entry]) k)).2.alloc.blocks) :
    MirrorOn S (nativeVmemSet kalloc v (entry.pageMapEntry permission)
      ((mapOf v).modify (· ++ [entry]) k)).2 := by
  obtain ⟨noted, isNoted⟩ : ∃ noted, noted = (mapOf v).modify (· ++ [entry]) k := ⟨_, rfl⟩
  have native : ∀ w, noted.native w = k.native w := fun w => by rw [isNoted, mapOf_native]
  have mem : noted.mem = k.mem := by rw [isNoted]; rfl
  have alloc : noted.alloc = k.alloc := by rw [isNoted]; rfl
  have rooted : ∀ w ∈ S, Rooted w noted := by
    intro w member'
    rw [Rooted, native]
    exact mirror.rooted w member'
  have intact : Intact S ∅ noted :=
    mirror.intact.of_same_native mem alloc fun w _ => native w
  rw [← isNoted] at sound ⊢
  have mode' : P noted.alloc := by rw [alloc]; exact mode
  have keeps := nativeVmemSet_keeps (quiet.apart S ∅) mode' member (entry.pageMapEntry permission)
  obtain ⟨intact', extends'⟩ := keeps.kept sound intact (rooted v member)
  have only := nativeVmemSet_onlyNative (v := v) quiet mode' (entry.pageMapEntry permission)
  refine ⟨intact', fun w member' => extends'.rooted member' (rooted w member'), ?_⟩
  intro w member' a lowA
  have walks := mirror.walks w member' a lowA
  have before : walk noted w a = walk k w a := by rw [walk, walk, mem, native]
  rw [nativeVmemSet_walk_cut quiet mode' intact member (rooted v member) (aligned.whole permission) sound
    member' (rooted w member') lowA, only.map, before, walks]
  by_cases same : w = v
  · subst same
    rw [isNoted, mapOf_items ready, List.map_append, List.map_singleton, lastMapped_concat]
    by_cases page : entry.cut.virtualAddr = memAlign a
    · rw [if_pos ⟨rfl, page.symm⟩, if_pos page]
      rfl
    · rw [if_neg fun both => page both.2.symm, if_neg page]
  · rw [isNoted, mapOf_vmem_of_ne same]
    simp [same]

end BubackOS

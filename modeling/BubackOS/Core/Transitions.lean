import BubackOS.Core.FreePages
import BubackOS.Core.Vmem
import Mathlib.Logic.Relation

/-!
# The services as sequences of transitions

Every service of the vmem modules is a sequence of calls of `kalloc` and of single
changes of the state, whatever `kalloc` does in between.  `Transition` lists these
changes; a property that each of them keeps is kept by every service.
-/

namespace BubackOS

open Library

/-- A change the page-table code makes. -/
inductive TableStep (kalloc : Kalloc) : Kernel → Kernel → Prop where
  | call (size : Nat) (k : Kernel) : TableStep kalloc k (kalloc size k).2
  | write (entries index : Nat) (entry : PageEntry) (k : Kernel) :
      TableStep kalloc k (k.writeEntry entries index entry)
  | native (v : Nat) (change : NativePageTable → NativePageTable) (k : Kernel) :
      TableStep kalloc k (k.modifyNative v change)

/-- A change made while a page is mapped: no address space gets another root. -/
inductive MapStep (kalloc : Kalloc) : Kernel → Kernel → Prop where
  | call (size : Nat) (k : Kernel) : MapStep kalloc k (kalloc size k).2
  | write (entries index : Nat) (entry : PageEntry) (k : Kernel) :
      MapStep kalloc k (k.writeEntry entries index entry)
  | native (v : Nat) (change : NativePageTable → NativePageTable)
      (root : ∀ pt, (change pt).entries = pt.entries) (k : Kernel) :
      MapStep kalloc k (k.modifyNative v change)

/-- The first lines of `vmem_region_assoc_physical_address`: the allocated size moves past the
new page before anything is allocated. -/
def Kernel.beginAssociate (r paddr : Nat) (k : Kernel) : Kernel :=
  (k.record (.associate r paddr k.alloc.currentMemPtr (k.region r).allocatedSize)).modifyRegion r
    fun region => { region with allocatedSize := wrap (region.allocatedSize + systemPageSize) }

/-- A change of the notes kept beside the source's own data: how associations ended, and whether a
recursion was cut off. -/
def Kernel.annotate (associations : List Association) (diverged : Bool) (k : Kernel) : Kernel :=
  { k with core := { k.core with associations := associations, diverged := diverged } }

/-- A change the vmem services make.  Lists are replaced only in objects that are new, with a
reference from `N` or `M` on, and only regions of `T` get pages. -/
inductive Transition (kalloc : Kalloc) (N M : Nat) (T : Set Nat) : Kernel → Kernel → Prop where
  | table {k k' : Kernel} (step : TableStep kalloc k k') : Transition kalloc N M T k k'
  | appendMap (v : Nat) (entry : VmemMap) (k : Kernel) :
      Transition kalloc N M T k ((mapOf v).modify (· ++ [entry]) k)
  | appendRegion (v r : Nat) (k : Kernel) :
      Transition kalloc N M T k ((regionsOf v).modify (· ++ [r]) k)
  | appendAttached (r v : Nat) (k : Kernel) :
      Transition kalloc N M T k ((attachedOf r).modify (· ++ [v]) k)
  | appendPage (r page : Nat) (k : Kernel) :
      Transition kalloc N M T k ((pagesOf r).modify (· ++ [page]) k)
  | detach (v r : Nat) (k : Kernel) : Transition kalloc N M T k (detach v r k)
  | associate {k : Kernel} {r : Nat} (paddr : Nat) (target : r ∈ T) :
      Transition kalloc N M T k (k.beginAssociate r paddr)
  | grow {k : Kernel} {r : Nat} (found : (pmemAllocate k).1 ≠ 0) (target : r ∈ T) :
      Transition kalloc N M T k ((pmemAllocate k).2.beginAssociate r (pmemAllocate k).1)
  | exhaust {k : Kernel} (failed : (pmemAllocate k).1 = 0) : Transition kalloc N M T k (pmemAllocate k).2
  | declare (r : Nat) (size : VmemRegion → Nat) (k : Kernel) :
      Transition kalloc N M T k (k.modifyRegion r fun region => { region with size := size region })
  | nextStart (v : Nat) (k : Kernel) : Transition kalloc N M T k (findNextMemoryAddress v k).2
  | newVmem (k : Kernel) :
      Transition kalloc N M T k (k.newVmem { Vmem.zero with nextStartAddress := regionAddressIncrement })
  | newRegion (name : String) (start : Nat) (user writable executable : Bool) (k : Kernel) :
      Transition kalloc N M T k (k.newRegion
        { VmemRegion.zero with
          name := name, start := start, user := user, writable := writable, executable := executable })
  | setRegions {v : Nat} (fresh : N ≤ v) (list : LinkedList Nat) (k : Kernel) :
      Transition kalloc N M T k (k.modifyVmem v fun vmem => { vmem with regions := list })
  | setMap {v : Nat} (fresh : N ≤ v) (list : LinkedList VmemMap) (k : Kernel) :
      Transition kalloc N M T k (k.modifyVmem v fun vmem => { vmem with map := list })
  | setPages {r : Nat} (fresh : M ≤ r) (list : LinkedList Nat) (k : Kernel) :
      Transition kalloc N M T k (k.modifyRegion r fun region => { region with pages := list })
  | setAttached {r : Nat} (fresh : M ≤ r) (list : LinkedList Nat) (k : Kernel) :
      Transition kalloc N M T k (k.modifyRegion r fun region => { region with attached := list })
  | setVmemId (v id : Nat) (k : Kernel) :
      Transition kalloc N M T k (k.modifyVmem v fun vmem => { vmem with vmemId := id })
  | setRegionId (r id : Nat) (k : Kernel) :
      Transition kalloc N M T k (k.modifyRegion r fun region => { region with vmemRegionId := id })
  | vmemIds (change : IdMapper → IdMapper) (k : Kernel) :
      Transition kalloc N M T k (vmemIdMapper.modify change k)
  | regionIds (change : IdMapper → IdMapper) (k : Kernel) :
      Transition kalloc N M T k (vmemRegionMapper.modify change k)
  | annotate (associations : List Association) (diverged : Bool) (k : Kernel) :
      Transition kalloc N M T k (k.annotate associations diverged)

/-- A change made while pages are announced to address spaces. -/
inductive NotifyStep (kalloc : Kalloc) : Kernel → Kernel → Prop where
  | table {k k' : Kernel} (step : MapStep kalloc k k') : NotifyStep kalloc k k'
  | appendMap (v : Nat) (entry : VmemMap) (k : Kernel) :
      NotifyStep kalloc k ((mapOf v).modify (· ++ [entry]) k)
  | annotate (associations : List Association) (diverged : Bool) (k : Kernel) :
      NotifyStep kalloc k (k.annotate associations diverged)

/-- A change made while a region of `T` gets pages. -/
inductive GrowthStep (kalloc : Kalloc) (T : Set Nat) : Kernel → Kernel → Prop where
  | notify {k k' : Kernel} (step : NotifyStep kalloc k k') : GrowthStep kalloc T k k'
  | appendPage {r : Nat} (target : r ∈ T) (page : Nat) (k : Kernel) :
      GrowthStep kalloc T k ((pagesOf r).modify (· ++ [page]) k)
  | associate {k : Kernel} {r : Nat} (paddr : Nat) (target : r ∈ T) :
      GrowthStep kalloc T k (k.beginAssociate r paddr)
  | grow {k : Kernel} {r : Nat} (found : (pmemAllocate k).1 ≠ 0) (target : r ∈ T) :
      GrowthStep kalloc T k ((pmemAllocate k).2.beginAssociate r (pmemAllocate k).1)
  | exhaust {k : Kernel} (failed : (pmemAllocate k).1 = 0) : GrowthStep kalloc T k (pmemAllocate k).2
  | declare {r : Nat} (target : r ∈ T) (size : VmemRegion → Nat) (k : Kernel) :
      GrowthStep kalloc T k (k.modifyRegion r fun region => { region with size := size region })

/-- A change of records, links and identifiers: no list of pages and no map gets an entry. -/
inductive RecordStep (kalloc : Kalloc) (N M : Nat) : Kernel → Kernel → Prop where
  | table {k k' : Kernel} (step : MapStep kalloc k k') : RecordStep kalloc N M k k'
  | appendRegion (v r : Nat) (k : Kernel) : RecordStep kalloc N M k ((regionsOf v).modify (· ++ [r]) k)
  | appendAttached (r v : Nat) (k : Kernel) : RecordStep kalloc N M k ((attachedOf r).modify (· ++ [v]) k)
  | detach (v r : Nat) (k : Kernel) : RecordStep kalloc N M k (detach v r k)
  | nextStart (v : Nat) (k : Kernel) : RecordStep kalloc N M k (findNextMemoryAddress v k).2
  | newVmem (k : Kernel) :
      RecordStep kalloc N M k (k.newVmem { Vmem.zero with nextStartAddress := regionAddressIncrement })
  | newRegion (name : String) (start : Nat) (user writable executable : Bool) (k : Kernel) :
      RecordStep kalloc N M k (k.newRegion
        { VmemRegion.zero with
          name := name, start := start, user := user, writable := writable, executable := executable })
  | setRegions {v : Nat} (fresh : N ≤ v) (list : LinkedList Nat) (k : Kernel) :
      RecordStep kalloc N M k (k.modifyVmem v fun vmem => { vmem with regions := list })
  | setMap {v : Nat} (fresh : N ≤ v) {list : LinkedList VmemMap} (empty : list.items = []) (k : Kernel) :
      RecordStep kalloc N M k (k.modifyVmem v fun vmem => { vmem with map := list })
  | setPages {r : Nat} (fresh : M ≤ r) {list : LinkedList Nat} (empty : list.items = []) (k : Kernel) :
      RecordStep kalloc N M k (k.modifyRegion r fun region => { region with pages := list })
  | setAttached {r : Nat} (fresh : M ≤ r) (list : LinkedList Nat) (k : Kernel) :
      RecordStep kalloc N M k (k.modifyRegion r fun region => { region with attached := list })
  | setVmemId (v id : Nat) (k : Kernel) :
      RecordStep kalloc N M k (k.modifyVmem v fun vmem => { vmem with vmemId := id })
  | setRegionId (r id : Nat) (k : Kernel) :
      RecordStep kalloc N M k (k.modifyRegion r fun region => { region with vmemRegionId := id })
  | vmemIds (change : IdMapper → IdMapper) (k : Kernel) :
      RecordStep kalloc N M k (vmemIdMapper.modify change k)
  | regionIds (change : IdMapper → IdMapper) (k : Kernel) :
      RecordStep kalloc N M k (vmemRegionMapper.modify change k)

/-- A sequence of changes of the page-table code. -/
abbrev TablePath (kalloc : Kalloc) : Kernel → Kernel → Prop := Relation.ReflTransGen (TableStep kalloc)

/-- A sequence of changes of mapping pages. -/
abbrev MapPath (kalloc : Kalloc) : Kernel → Kernel → Prop := Relation.ReflTransGen (MapStep kalloc)

/-- A sequence of changes of notifications. -/
abbrev NotifyPath (kalloc : Kalloc) : Kernel → Kernel → Prop := Relation.ReflTransGen (NotifyStep kalloc)

/-- A sequence of changes of growing regions. -/
abbrev GrowthPath (kalloc : Kalloc) (T : Set Nat) : Kernel → Kernel → Prop :=
  Relation.ReflTransGen (GrowthStep kalloc T)

/-- A sequence of changes of records, links and identifiers. -/
abbrev RecordPath (kalloc : Kalloc) (N M : Nat) : Kernel → Kernel → Prop :=
  Relation.ReflTransGen (RecordStep kalloc N M)

/-- A sequence of changes of the vmem services. -/
abbrev Path (kalloc : Kalloc) (N M : Nat) (T : Set Nat) : Kernel → Kernel → Prop :=
  Relation.ReflTransGen (Transition kalloc N M T)

/-- A path without conditions on the objects it changes. -/
abbrev AnyPath (kalloc : Kalloc) : Kernel → Kernel → Prop := Path kalloc 0 0 Set.univ

variable {kalloc : Kalloc} {N M : Nat} {T : Set Nat} {k k' : Kernel} {v r : Nat}

/-! ## The page-table code -/

theorem MapStep.table (step : MapStep kalloc k k') : TableStep kalloc k k' := by
  cases step with
  | call size => exact .call size k
  | write entries index entry => exact .write entries index entry k
  | native v change _ => exact .native v change k

theorem MapPath.table (path : MapPath kalloc k k') : TablePath kalloc k k' :=
  Relation.ReflTransGen.mono (fun _ _ step => step.table) _ _ path

theorem MapPath.call (size : Nat) (k : Kernel) : MapPath kalloc k (kalloc size k).2 :=
  .single (.call size k)

theorem TablePath.call (size : Nat) (k : Kernel) : TablePath kalloc k (kalloc size k).2 :=
  .single (.call size k)

/-- An append is a call, and an edit of the list unless it failed. -/
theorem linkedlistAppend_cases {α : Type} (kalloc : Kalloc) (ll : ListField α) (data : α) (k : Kernel) :
    linkedlistAppend kalloc ll data k = (false, k) ∨
    linkedlistAppend kalloc ll data k = (false, (kalloc sizeofLinkedlistNode k).2) ∨
    linkedlistAppend kalloc ll data k =
      (true, ll.modify (· ++ [data]) (kalloc sizeofLinkedlistNode k).2) := by
  unfold linkedlistAppend
  by_cases null : (ll.get k).isNone = true
  · exact Or.inl (if_pos null)
  · rw [if_neg null]
    by_cases failed : (kalloc sizeofLinkedlistNode k).1 = 0
    · exact Or.inr (Or.inl (if_pos failed))
    · exact Or.inr (Or.inr (if_neg failed))

/-- What holds before, after the call and after the edit holds after an append. -/
theorem linkedlistAppend_snd {α : Type} {ll : ListField α} {data : α} {P : Kernel → Prop} (before : P k)
    (called : P (kalloc sizeofLinkedlistNode k).2)
    (edited : P (ll.modify (· ++ [data]) (kalloc sizeofLinkedlistNode k).2)) :
    P (linkedlistAppend kalloc ll data k).2 := by
  rcases linkedlistAppend_cases kalloc ll data k with failed | failed | done
  · rw [failed]
    exact before
  · rw [failed]
    exact called
  · rw [done]
    exact edited

theorem NativePageTable.useBlock_entries (newBlock : Nat) (pt : NativePageTable) :
    (pt.useBlock newBlock).entries = pt.entries := by
  unfold NativePageTable.useBlock
  dsimp only
  split <;> rfl

theorem NativePageTable.take_entries (size : Nat) (pt : NativePageTable) :
    (pt.take size).entries = pt.entries := rfl

theorem NativePageTable.install_entries (level addr : Nat) (pt : NativePageTable) :
    (pt.install level addr).entries = pt.entries := rfl

theorem createEntries_mapPath (v : Nat) (k : Kernel) :
    MapPath kalloc k (createEntries kalloc v k).2 := by
  unfold createEntries allocatedAlignedMemory
  refine Relation.ReflTransGen.tail ?_ (.native v _ (NativePageTable.take_entries _) _)
  split
  · refine Relation.ReflTransGen.tail ?_ (.native v _ (NativePageTable.useBlock_entries _) _)
    refine (MapPath.call nativePagetableMemBufferSize k).trans ?_
    refine linkedlistAppend_snd Relation.ReflTransGen.refl (MapPath.call _ _)
      (Relation.ReflTransGen.tail (MapPath.call sizeofLinkedlistNode _) ?_)
    exact .native v (fun pt => { pt with allocatedMemory := pt.allocatedMemory.map _ }) (fun pt => rfl) _
  · exact Relation.ReflTransGen.refl

theorem setEntry_mapPath (v level : Nat) :
    ∀ (entries virtualAddr physicalAddr : Nat) (user code writable : Bool) (k : Kernel),
      MapPath kalloc k (setEntry kalloc v level entries virtualAddr physicalAddr user code writable k) := by
  induction level with
  | zero =>
      intro entries virtualAddr physicalAddr user code writable k
      exact Relation.ReflTransGen.refl
  | succ level ih =>
      intro entries virtualAddr physicalAddr user code writable k
      cases level with
      | zero => exact .single (.write _ _ _ k)
      | succ level =>
          rw [setEntry]
          dsimp only
          split
          · exact ih _ _ _ _ _ _ k
          · refine Relation.ReflTransGen.trans ?_ (ih _ _ _ _ _ _ _)
            exact ((createEntries_mapPath v k).tail (.write _ _ _ _)).tail
              (.native v _ (NativePageTable.install_entries _ _) _)

theorem nativeVmemSetLoop_mapPath (v : Nat) (entry : PageMapEntry) (count : Nat) :
    ∀ k, MapPath kalloc k (nativeVmemSetLoop kalloc v entry count k) := by
  induction count with
  | zero => exact fun k => Relation.ReflTransGen.refl
  | succ count ih => exact fun k => (setEntry_mapPath v 4 _ _ _ _ _ _ k).trans (ih _)

theorem nativeVmemSet_mapPath (v : Nat) (entry : PageMapEntry) (k : Kernel) :
    MapPath kalloc k (nativeVmemSet kalloc v entry k).2 := by
  unfold nativeVmemSet
  split
  · exact Relation.ReflTransGen.refl
  · exact nativeVmemSetLoop_mapPath v entry _ k

theorem linkedlistCreate_mapPath {α : Type} (k : Kernel) :
    MapPath kalloc k (linkedlistCreate (α := α) kalloc k).2 := by
  unfold linkedlistCreate
  dsimp only
  split <;> exact MapPath.call _ k

theorem createEntries_tablePath (v : Nat) (k : Kernel) :
    TablePath kalloc k (createEntries kalloc v k).2 :=
  (createEntries_mapPath v k).table

theorem nativeVmemSet_tablePath (v : Nat) (entry : PageMapEntry) (k : Kernel) :
    TablePath kalloc k (nativeVmemSet kalloc v entry k).2 :=
  (nativeVmemSet_mapPath v entry k).table

theorem linkedlistCreate_tablePath {α : Type} (k : Kernel) :
    TablePath kalloc k (linkedlistCreate (α := α) kalloc k).2 :=
  (linkedlistCreate_mapPath k).table

theorem nativeVmemCreate_tablePath (v : Nat) (k : Kernel) :
    TablePath kalloc k (nativeVmemCreate kalloc v k).2 := by
  unfold nativeVmemCreate
  dsimp only
  have called : TablePath kalloc k (kalloc sizeofNativePageTable k).2 := TablePath.call _ k
  split
  · exact called
  · have listed := called.trans (linkedlistCreate_tablePath (α := Nat) (kalloc sizeofNativePageTable k).2)
    split
    · exact listed
    · refine ((Relation.ReflTransGen.trans ?_ (createEntries_tablePath v _)).tail
        (.native v _ _)).tail (.native v _ _)
      exact listed.tail (.native v _ _)

theorem TablePath.path (path : TablePath kalloc k k') : Path kalloc N M T k k' :=
  Relation.ReflTransGen.mono (fun _ _ step => Transition.table step) _ _ path

theorem MapPath.notify (path : MapPath kalloc k k') : NotifyPath kalloc k k' :=
  Relation.ReflTransGen.mono (fun _ _ step => NotifyStep.table step) _ _ path

theorem NotifyStep.transition (step : NotifyStep kalloc k k') : Transition kalloc N M T k k' := by
  cases step with
  | table step => exact .table step.table
  | appendMap v entry => exact .appendMap v entry k
  | annotate associations diverged => exact .annotate associations diverged k

theorem NotifyPath.path (path : NotifyPath kalloc k k') : Path kalloc N M T k k' :=
  Relation.ReflTransGen.mono (fun _ _ step => step.transition) _ _ path

theorem NotifyPath.growth (path : NotifyPath kalloc k k') : GrowthPath kalloc T k k' :=
  Relation.ReflTransGen.mono (fun _ _ step => GrowthStep.notify step) _ _ path

theorem GrowthStep.mono {S : Set Nat} (step : GrowthStep kalloc T k k') (more : T ⊆ S) :
    GrowthStep kalloc S k k' := by
  cases step with
  | notify step => exact .notify step
  | appendPage target page => exact .appendPage (more target) page k
  | associate paddr target => exact .associate paddr (more target)
  | grow found target => exact .grow found (more target)
  | exhaust failed => exact .exhaust failed
  | declare target size => exact .declare (more target) size k

theorem GrowthPath.mono {S : Set Nat} (path : GrowthPath kalloc T k k') (more : T ⊆ S) : GrowthPath kalloc S k k' :=
  Relation.ReflTransGen.mono (fun _ _ step => step.mono more) _ _ path

theorem GrowthStep.transition (step : GrowthStep kalloc T k k') : Transition kalloc N M T k k' := by
  cases step with
  | notify step => exact step.transition
  | appendPage target page => exact .appendPage _ page k
  | associate paddr target => exact .associate paddr target
  | grow found target => exact .grow found target
  | exhaust failed => exact .exhaust failed
  | declare target size => exact .declare _ size k

theorem GrowthPath.path (path : GrowthPath kalloc T k k') : Path kalloc N M T k k' :=
  Relation.ReflTransGen.mono (fun _ _ step => step.transition) _ _ path

/-! ## Lists and mappers -/

section Steps

variable {S : Kernel → Kernel → Prop}

/-- An append is a call and an edit. -/
theorem linkedlistAppend_steps {α : Type} (call : ∀ size k, S k (kalloc size k).2) (ll : ListField α) (data : α)
    (edit : ∀ k, S k (ll.modify (· ++ [data]) k)) (k : Kernel) :
    Relation.ReflTransGen S k (linkedlistAppend kalloc ll data k).2 :=
  linkedlistAppend_snd Relation.ReflTransGen.refl (.single (call _ k))
    ((Relation.ReflTransGen.single (call _ k)).tail (edit _))

/-- `id_mapper_add` is made of calls and edits of the mapper. -/
theorem idMapperAdd_steps {mapper : MapperField} (call : ∀ size k, S k (kalloc size k).2)
    (edit : ∀ change k, S k (mapper.modify change k)) (val : Nat) (k : Kernel) :
    Relation.ReflTransGen S k (idMapperAdd kalloc mapper val k).2 := by
  unfold idMapperAdd
  dsimp only
  have called : Relation.ReflTransGen S k (kalloc sizeofIdMapperEntry k).2 := .single (call _ k)
  split
  · exact called
  · have drawn := called.tail (edit (fun m => { m with next := wrap (m.next + 1) }) _)
    have added := drawn.trans (linkedlistAppend_steps call mapper.list
      ((mapper.get (kalloc sizeofIdMapperEntry k).2).next, val) (fun k => edit _ k) _)
    split <;> exact added

end Steps

namespace Path

theorem call (size : Nat) (k : Kernel) : Path kalloc N M T k (kalloc size k).2 :=
  (TablePath.call size k).path

/-- An append to a list whose edit is a transition. -/
theorem append {α : Type} (ll : ListField α) (data : α)
    (edit : ∀ k, Transition kalloc N M T k (ll.modify (· ++ [data]) k)) (k : Kernel) :
    Path kalloc N M T k (linkedlistAppend kalloc ll data k).2 :=
  linkedlistAppend_steps (fun size k => .table (.call size k)) ll data edit k

/-- `id_mapper_add` on a mapper whose edits are transitions. -/
theorem idMapperAdd {mapper : MapperField}
    (edit : ∀ change k, Transition kalloc N M T k (mapper.modify change k)) (val : Nat) (k : Kernel) :
    Path kalloc N M T k (idMapperAdd kalloc mapper val k).2 :=
  idMapperAdd_steps (fun size k => .table (.call size k)) edit val k

end Path

theorem MapPath.record (path : MapPath kalloc k k') : RecordPath kalloc N M k k' :=
  Relation.ReflTransGen.mono (fun _ _ step => RecordStep.table step) _ _ path

theorem RecordStep.transition (step : RecordStep kalloc N M k k') : Transition kalloc N M T k k' := by
  cases step with
  | table step => exact .table step.table
  | appendRegion v r => exact .appendRegion v r k
  | appendAttached r v => exact .appendAttached r v k
  | detach v r => exact .detach v r k
  | nextStart v => exact .nextStart v k
  | newVmem => exact .newVmem k
  | newRegion name start user writable executable => exact .newRegion name start user writable executable k
  | setRegions fresh list => exact .setRegions fresh list k
  | setMap fresh _ => exact .setMap fresh _ k
  | setPages fresh _ => exact .setPages fresh _ k
  | setAttached fresh list => exact .setAttached fresh list k
  | setVmemId v id => exact .setVmemId v id k
  | setRegionId r id => exact .setRegionId r id k
  | vmemIds change => exact .vmemIds change k
  | regionIds change => exact .regionIds change k

theorem RecordPath.path (path : RecordPath kalloc N M k k') : Path kalloc N M T k k' :=
  Relation.ReflTransGen.mono (fun _ _ step => step.transition) _ _ path

theorem RecordPath.idMapperAdd {mapper : MapperField}
    (edit : ∀ change k, RecordStep kalloc N M k (mapper.modify change k)) (val : Nat) (k : Kernel) :
    RecordPath kalloc N M k (idMapperAdd kalloc mapper val k).2 :=
  idMapperAdd_steps (fun size k => .table (.call size k)) edit val k

/-! ## Mapping and growing -/

/-- Appends made while regions grow. -/
theorem GrowthPath.append {α : Type} (ll : ListField α) (data : α)
    (edit : ∀ k, GrowthStep kalloc T k (ll.modify (· ++ [data]) k)) (k : Kernel) :
    GrowthPath kalloc T k (linkedlistAppend kalloc ll data k).2 :=
  linkedlistAppend_steps (fun size k => .notify (.table (.call size k))) ll data edit k

theorem vmemNotifyChange_notifyPath (v r paddr vaddr : Nat) (k : Kernel) :
    NotifyPath kalloc k (vmemNotifyChange kalloc v r paddr vaddr k).2 := by
  unfold vmemNotifyChange
  dsimp only
  have called : NotifyPath kalloc k (kalloc sizeofVmemMap k).2 := (MapPath.call _ k).notify
  generalize kalloc sizeofVmemMap k = map at called ⊢
  split
  · exact called
  · have listed : NotifyPath kalloc k (linkedlistAppend kalloc (mapOf v)
        { virtualAddr := vaddr, physicalAddr := paddr, region := r } map.2).2 := by
      have node : NotifyPath kalloc k (kalloc sizeofLinkedlistNode map.2).2 :=
        called.trans (MapPath.call _ _).notify
      exact linkedlistAppend_snd called node (node.tail (.appendMap v _ _))
    split
    · exact listed.trans (nativeVmemSet_mapPath v _ _).notify
    · exact listed

theorem vmemNotifyChange_path (v r paddr vaddr : Nat) (k : Kernel) :
    Path kalloc N M T k (vmemNotifyChange kalloc v r paddr vaddr k).2 :=
  (vmemNotifyChange_notifyPath v r paddr vaddr k).path

theorem notifyAttached_notifyPath (r paddr vaddr : Nat) (vs : List Nat) :
    ∀ k, NotifyPath kalloc k (notifyAttached kalloc r paddr vaddr vs k).2 := by
  induction vs with
  | nil => exact fun k => Relation.ReflTransGen.refl
  | cons v rest ih =>
      intro k
      have notified : NotifyPath kalloc k (vmemNotifyChange kalloc v r paddr vaddr k).2 :=
        vmemNotifyChange_notifyPath v r paddr vaddr k
      unfold notifyAttached
      dsimp only
      split
      · exact notified.trans (ih _)
      · exact notified

theorem notifyAttached_path (r paddr vaddr : Nat) (vs : List Nat) (k : Kernel) :
    Path kalloc N M T k (notifyAttached kalloc r paddr vaddr vs k).2 :=
  (notifyAttached_notifyPath r paddr vaddr vs k).path

/-- The loop that announces the page, in the state with the page stored, and the note of how it ended. -/
def notifyPage (kalloc : Kalloc) (r paddr : Nat) (k : Kernel) : Bool × Kernel :=
  let stored := linkedlistAppend kalloc (pagesOf r) paddr (k.beginAssociate r paddr)
  let notified := notifyAttached kalloc r paddr (wrap ((k.region r).start + (k.region r).allocatedSize))
    (stored.2.region r).attached.items stored.2
  (notified.1, notified.2.conclude { region := r, listed := stored.1, mapped := notified.1 })

theorem notifyPage_notifyPath (r paddr : Nat) (k : Kernel) :
    NotifyPath kalloc (linkedlistAppend kalloc (pagesOf r) paddr (k.beginAssociate r paddr)).2
      (notifyPage kalloc r paddr k).2 :=
  (notifyAttached_notifyPath _ _ _ _ _).tail (.annotate _ _ _)

theorem vmemRegionAssocPhysicalAddress_eq (paddr : Nat) (k : Kernel) :
    vmemRegionAssocPhysicalAddress kalloc r paddr k =
      if (notifyPage kalloc r paddr k).1 then
        (wrap ((k.region r).start + (k.region r).allocatedSize), (notifyPage kalloc r paddr k).2)
      else (0, (notifyPage kalloc r paddr k).2) := rfl

theorem vmemRegionAssocPhysicalAddress_snd (paddr : Nat) (k : Kernel) :
    (vmemRegionAssocPhysicalAddress kalloc r paddr k).2 = (notifyPage kalloc r paddr k).2 := by
  rw [vmemRegionAssocPhysicalAddress_eq]
  split <;> rfl

/-- What follows the first lines of `vmem_region_assoc_physical_address`. -/
theorem associate_rest_growthPath (r paddr : Nat) (target : r ∈ T) (k : Kernel) :
    GrowthPath kalloc T (k.beginAssociate r paddr) (vmemRegionAssocPhysicalAddress kalloc r paddr k).2 := by
  rw [vmemRegionAssocPhysicalAddress_snd]
  exact (GrowthPath.append (pagesOf r) paddr (fun k => .appendPage target paddr k) _).trans
    (notifyPage_notifyPath r paddr k).growth

theorem associate_rest_path (r paddr : Nat) (k : Kernel) :
    AnyPath kalloc (k.beginAssociate r paddr) (vmemRegionAssocPhysicalAddress kalloc r paddr k).2 :=
  (associate_rest_growthPath r paddr (Set.mem_univ r) k).path

theorem associate_path (r paddr : Nat) (k : Kernel) :
    AnyPath kalloc k (vmemRegionAssocPhysicalAddress kalloc r paddr k).2 :=
  (associate_rest_path r paddr k).head (.associate paddr (Set.mem_univ r))

theorem mapPhysicalLoop_growthPath (r physicalStartAddr count : Nat) (target : r ∈ T) :
    ∀ paddr returningAddr k,
      GrowthPath kalloc T k (mapPhysicalLoop kalloc r physicalStartAddr count paddr returningAddr k).2 := by
  induction count with
  | zero => exact fun _ _ k => Relation.ReflTransGen.refl
  | succ count ih =>
      intro paddr returningAddr k
      have associated : GrowthPath kalloc T k (vmemRegionAssocPhysicalAddress kalloc r paddr k).2 :=
        (associate_rest_growthPath r paddr target k).head (.associate paddr target)
      unfold mapPhysicalLoop
      dsimp only
      split
      · exact associated
      · exact (associated.tail (.declare target (·.allocatedSize) _)).trans (ih _ _ _)

theorem mapPhysicalLoop_path (r physicalStartAddr count : Nat) (target : r ∈ T) (paddr returningAddr : Nat)
    (k : Kernel) :
    Path kalloc N M T k (mapPhysicalLoop kalloc r physicalStartAddr count paddr returningAddr k).2 :=
  (mapPhysicalLoop_growthPath r physicalStartAddr count target paddr returningAddr k).path

theorem vmemRegionMapPhysicalAddress_growthPath (region : Option Nat) (target : ∀ r ∈ region, r ∈ T)
    (physicalStartAddr size : Nat) (k : Kernel) :
    GrowthPath kalloc T k (vmemRegionMapPhysicalAddress kalloc region physicalStartAddr size k).2 := by
  cases region with
  | none => exact Relation.ReflTransGen.refl
  | some r =>
      unfold vmemRegionMapPhysicalAddress
      dsimp only
      split
      · exact Relation.ReflTransGen.refl
      · exact mapPhysicalLoop_growthPath r physicalStartAddr _ (target r rfl) _ _ k

theorem vmemRegionMapPhysicalAddress_path (region : Option Nat) (target : ∀ r ∈ region, r ∈ T)
    (physicalStartAddr size : Nat) (k : Kernel) :
    Path kalloc N M T k (vmemRegionMapPhysicalAddress kalloc region physicalStartAddr size k).2 :=
  (vmemRegionMapPhysicalAddress_growthPath region target physicalStartAddr size k).path

theorem adoptSize_eq (newSize : Nat) : adoptSize newSize = fun region => { region with
    size := if newSize ≤ region.allocatedSize then newSize else region.size } := by
  funext region
  unfold adoptSize
  split <;> rfl

/-- A relation kept by every round of `vmem_region_resize` and by its changes of the size. -/
structure Resizing (kalloc : Kalloc) (r : Nat) (R : Kernel → Kernel → Prop) : Prop where
  refl : ∀ k, R k k
  trans : ∀ {k k' k''}, R k k' → R k' k'' → R k k''
  exhaust : ∀ {k}, (pmemAllocate k).1 = 0 → R k (pmemAllocate k).2
  grow : ∀ {k}, (pmemAllocate k).1 ≠ 0 →
    R k (vmemRegionAssocPhysicalAddress kalloc r (pmemAllocate k).1 (pmemAllocate k).2).2
  declare : ∀ (size : VmemRegion → Nat) (k : Kernel),
    R k (k.modifyRegion r fun region => { region with size := size region })

theorem Resizing.loop {R : Kernel → Kernel → Prop} (resizing : Resizing kalloc r R) (count : Nat) :
    ∀ k, R k (resizeLoop kalloc r count k).2 := by
  induction count with
  | zero => exact resizing.refl
  | succ count ih =>
      intro k
      unfold resizeLoop
      dsimp only
      split
      · rename_i failed
        exact resizing.exhaust failed
      · rename_i found
        exact resizing.trans (resizing.grow found) (ih _)

theorem Resizing.resize {R : Kernel → Kernel → Prop} (resizing : Resizing kalloc r R) (newSize : Nat) (k : Kernel) :
    R k (vmemRegionResize kalloc (some r) newSize k).2 := by
  unfold vmemRegionResize
  dsimp only
  rw [adoptSize_eq]
  refine resizing.trans ?_ (resizing.declare _ _)
  split
  · exact resizing.declare (fun _ => newSize) k
  · exact resizing.loop _ k

theorem growthPath_resizing (target : r ∈ T) : Resizing kalloc r (GrowthPath kalloc T) where
  refl := fun _ => Relation.ReflTransGen.refl
  trans := Relation.ReflTransGen.trans
  exhaust := fun failed => .single (.exhaust failed)
  grow := fun found => (associate_rest_growthPath r _ target _).head (.grow found target)
  declare := fun size k => .single (.declare target size k)

theorem resizeLoop_growthPath (r count : Nat) (target : r ∈ T) (k : Kernel) :
    GrowthPath kalloc T k (resizeLoop kalloc r count k).2 := (growthPath_resizing target).loop count k

theorem resizeLoop_path (r count : Nat) (target : r ∈ T) (k : Kernel) :
    Path kalloc N M T k (resizeLoop kalloc r count k).2 := (resizeLoop_growthPath r count target k).path

theorem vmemRegionResize_growthPath (region : Option Nat) (target : ∀ r ∈ region, r ∈ T)
    (newSize : Nat) (k : Kernel) : GrowthPath kalloc T k (vmemRegionResize kalloc region newSize k).2 := by
  cases region with
  | none => exact Relation.ReflTransGen.refl
  | some r => exact (growthPath_resizing (target r rfl)).resize newSize k

theorem vmemRegionResize_path (region : Option Nat) (target : ∀ r ∈ region, r ∈ T)
    (newSize : Nat) (k : Kernel) : Path kalloc N M T k (vmemRegionResize kalloc region newSize k).2 :=
  (vmemRegionResize_growthPath region target newSize k).path

/-! ## Attaching -/

theorem attachPages_notifyPath (v r fuel : Nat) :
    ∀ node vaddr k, NotifyPath kalloc k (attachPages kalloc v r fuel node vaddr k).2 := by
  induction fuel with
  | zero =>
      intro node vaddr k
      cases node with
      | none => exact Relation.ReflTransGen.refl
      | some node => exact .single (.annotate k.core.associations true k)
  | succ fuel ih =>
      intro node vaddr k
      cases node with
      | none => exact Relation.ReflTransGen.refl
      | some node =>
          unfold attachPages
          dsimp only
          split
          · exact Relation.ReflTransGen.refl
          · have notified : NotifyPath kalloc k (vmemNotifyChange kalloc v r
                ((k.region r).pages.items.getD node 0) vaddr k).2 := vmemNotifyChange_notifyPath _ _ _ _ k
            split
            · exact notified.trans (ih _ _ _)
            · exact notified

theorem attachPages_path (v r fuel : Nat) (node : Option Nat) (vaddr : Nat) (k : Kernel) :
    Path kalloc N M T k (attachPages kalloc v r fuel node vaddr k).2 :=
  (attachPages_notifyPath v r fuel node vaddr k).path

theorem replayPages_notifyPath (v r : Nat) (k : Kernel) :
    NotifyPath kalloc k (replayPages kalloc v r k).2 := attachPages_notifyPath v r _ _ _ k

theorem replayPages_path (v r : Nat) (k : Kernel) :
    Path kalloc N M T k (replayPages kalloc v r k).2 := (replayPages_notifyPath v r k).path

/-! ## Creation -/

theorem linkedlistCreate_items {α : Type} (kalloc : Kalloc) (k : Kernel) :
    (linkedlistCreate (α := α) kalloc k).1.items = [] := by
  unfold linkedlistCreate
  dsimp only
  split <;> rfl

theorem vmemRecord_recordPath (k : Kernel) (fresh : N ≤ k.core.vmems.count) :
    RecordPath kalloc N M k (vmemRecord kalloc k) := by
  unfold vmemRecord
  dsimp only
  refine Relation.ReflTransGen.tail ?_ (.setMap fresh (linkedlistCreate_items kalloc _) _)
  refine Relation.ReflTransGen.trans ?_ (linkedlistCreate_mapPath _).record
  refine Relation.ReflTransGen.tail ?_ (.setRegions fresh _ _)
  refine Relation.ReflTransGen.trans ?_ (linkedlistCreate_mapPath _).record
  exact .single (.newVmem k)

theorem regionRecord_recordPath (name : String) (start : Nat) (user writable executable : Bool) (k : Kernel)
    (fresh : M ≤ k.core.vmemRegions.count) :
    RecordPath kalloc N M k (regionRecord kalloc name start user writable executable k) := by
  unfold regionRecord
  dsimp only
  refine Relation.ReflTransGen.tail ?_ (.setAttached fresh _ _)
  refine Relation.ReflTransGen.trans ?_ (linkedlistCreate_mapPath _).record
  refine Relation.ReflTransGen.tail ?_ (.setPages fresh (linkedlistCreate_items kalloc _) _)
  refine Relation.ReflTransGen.trans ?_ (linkedlistCreate_mapPath _).record
  exact .single (.newRegion name start user writable executable k)

theorem placeRegion_recordPath (v start : Nat) (k : Kernel) :
    RecordPath kalloc N M k (placeRegion v start k).2 := by
  unfold placeRegion
  split
  · exact .single (.nextStart v k)
  · exact Relation.ReflTransGen.refl

theorem placeRegion_vmemRegions (v start : Nat) (k : Kernel) :
    (placeRegion v start k).2.core.vmemRegions = k.core.vmemRegions := by
  unfold placeRegion
  split <;> rfl

/-- `vmem_region_create` up to the attachment, for an address that is aligned; the region if it is attached. -/
def openRegion (kalloc : Kalloc) (v : Nat) (name : String) (start : Nat) (user writable executable : Bool)
    (k : Kernel) : Option Nat × Kernel :=
  let object := kalloc sizeofVmemRegion k
  let r := object.2.core.vmemRegions.count
  let linked := vmemAttach kalloc (some v) (some r) (regionRecord kalloc name start user writable executable object.2)
  if object.1 = 0 then (none, object.2) else if linked.1 then (some r, linked.2) else (none, linked.2)

/-- What `vmem_region_create` does with a region that is attached. -/
def finishRegion (kalloc : Kalloc) (r size : Nat) (k : Kernel) : Option Nat × Kernel :=
  let resized := vmemRegionResize kalloc (some r) size k
  if resized.1 then
    let id := idMapperAdd kalloc vmemRegionMapper r resized.2
    let named := id.2.modifyRegion r fun region => { region with vmemRegionId := id.1 }
    if id.1 = 0 then (none, named) else (some r, named)
  else (none, resized.2)

section Create

variable {name : String} {start size : Nat} {user writable executable : Bool}

/-- The ends of `vmem_region_create`: the address is refused, the region is not attached, or the rest is done
with it. -/
theorem vmemRegionCreate_cases {placed : Nat × Kernel} (isPlaced : placed = placeRegion v start k)
    {opened : Option Nat × Kernel}
    (isOpened : opened = openRegion kalloc v name placed.1 user writable executable placed.2) :
    memAlign placed.1 ≠ placed.1 ∧
      vmemRegionCreate kalloc (some v) (some name) start size user writable executable k = (none, placed.2) ∨
    memAlign placed.1 = placed.1 ∧
      (opened.1 = none ∧
        vmemRegionCreate kalloc (some v) (some name) start size user writable executable k = (none, opened.2) ∨
      ∃ r, opened.1 = some r ∧
        vmemRegionCreate kalloc (some v) (some name) start size user writable executable k =
          finishRegion kalloc r size opened.2) := by
  unfold vmemRegionCreate
  dsimp only
  rw [← isPlaced]
  by_cases aligned : memAlign placed.1 = placed.1
  · refine Or.inr ⟨aligned, ?_⟩
    rw [if_neg (not_not.mpr aligned), isOpened]
    unfold openRegion
    dsimp only
    split
    · exact Or.inl ⟨rfl, rfl⟩
    · split
      · exact Or.inr ⟨_, rfl, rfl⟩
      · exact Or.inl ⟨rfl, rfl⟩
  · exact Or.inl ⟨aligned, if_pos aligned⟩

/-- The ends of its first part: there is no memory for the record, or the region is attached or not. -/
theorem openRegion_cases {object : Nat × Kernel} (isObject : object = kalloc sizeofVmemRegion k)
    {linked : Bool × Kernel} (isLinked : linked = vmemAttach kalloc (some v) (some object.2.core.vmemRegions.count)
      (regionRecord kalloc name start user writable executable object.2)) :
    object.1 = 0 ∧ openRegion kalloc v name start user writable executable k = (none, object.2) ∨
    object.1 ≠ 0 ∧
      (linked.1 = false ∧ openRegion kalloc v name start user writable executable k = (none, linked.2) ∨
        linked.1 = true ∧ openRegion kalloc v name start user writable executable k =
          (some object.2.core.vmemRegions.count, linked.2)) := by
  unfold openRegion
  dsimp only
  rw [← isObject, ← isLinked]
  by_cases failed : object.1 = 0
  · exact Or.inl ⟨failed, if_pos failed⟩
  · rw [if_neg failed]
    cases linked.1 with
    | false => exact Or.inr ⟨failed, Or.inl ⟨rfl, rfl⟩⟩
    | true => exact Or.inr ⟨failed, Or.inr ⟨rfl, rfl⟩⟩

theorem openRegion_some (isOpened : (openRegion kalloc v name start user writable executable k).1 = some r) :
    r = (kalloc sizeofVmemRegion k).2.core.vmemRegions.count := by
  rcases @openRegion_cases kalloc k v name start user writable executable _ rfl _ rfl with
    ⟨-, result⟩ | ⟨-, ⟨-, result⟩ | ⟨-, result⟩⟩
  · rw [result] at isOpened
    cases isOpened
  · rw [result] at isOpened
    cases isOpened
  · rw [result] at isOpened
    exact (Option.some.inj isOpened).symm

theorem finishRegion_some {s : Nat} (isRegion : (finishRegion kalloc r size k).1 = some s) : s = r := by
  unfold finishRegion at isRegion
  dsimp only at isRegion
  split at isRegion
  · split at isRegion
    · cases isRegion
    · exact (Option.some.inj isRegion).symm
  · cases isRegion

/-- A region that is returned was attached. -/
theorem vmemRegionCreate_some {placed : Nat × Kernel} (isPlaced : placed = placeRegion v start k)
    {opened : Option Nat × Kernel}
    (isOpened : opened = openRegion kalloc v name placed.1 user writable executable placed.2)
    (isRegion : (vmemRegionCreate kalloc (some v) (some name) start size user writable executable k).1 = some r) :
    memAlign placed.1 = placed.1 ∧ opened.1 = some r ∧
      vmemRegionCreate kalloc (some v) (some name) start size user writable executable k =
        finishRegion kalloc r size opened.2 := by
  rcases vmemRegionCreate_cases isPlaced isOpened with ⟨-, result⟩ | ⟨aligned, ⟨-, result⟩ | ⟨s, isS, result⟩⟩
  · rw [result] at isRegion
    cases isRegion
  · rw [result] at isRegion
    cases isRegion
  · obtain rfl := finishRegion_some (result ▸ isRegion)
    exact ⟨aligned, isS, result⟩

theorem finishRegion_path (r size : Nat) (k : Kernel) : AnyPath kalloc k (finishRegion kalloc r size k).2 := by
  have resized : AnyPath kalloc k (vmemRegionResize kalloc (some r) size k).2 :=
    vmemRegionResize_path (some r) (fun s _ => Set.mem_univ s) size k
  unfold finishRegion
  dsimp only
  split
  · have identified : RecordPath kalloc 0 0 _ _ :=
      .idMapperAdd (fun change k => .regionIds change k) r (vmemRegionResize kalloc (some r) size k).2
    have named := (resized.trans identified.path).tail
      (.setRegionId r (idMapperAdd kalloc vmemRegionMapper r (vmemRegionResize kalloc (some r) size k).2).1 _)
    split <;> exact named
  · exact resized

end Create

/-! ## Composition

What holds for changes of records, for the replay of a region and for resizes holds for the
services that are made of them. -/

/-- A relation that chains and holds for the parts of attaching a region. -/
structure Attaching (kalloc : Kalloc) (R : Kernel → Kernel → Prop) : Prop where
  refl : ∀ k, R k k
  trans : ∀ {k k' k''}, R k k' → R k' k'' → R k k''
  call : ∀ size k, R k (kalloc size k).2
  appendRegion : ∀ v r k, R k ((regionsOf v).modify (· ++ [r]) k)
  appendAttached : ∀ r v k, R k ((attachedOf r).modify (· ++ [v]) k)
  detach : ∀ v r k, R k (detach v r k)
  replay : ∀ v r k, R k (replayPages kalloc v r k).2

namespace Attaching

variable {R : Kernel → Kernel → Prop}

theorem append {α : Type} (attaching : Attaching kalloc R) (ll : ListField α) (data : α)
    (edit : ∀ k, R k (ll.modify (· ++ [data]) k)) (k : Kernel) : R k (linkedlistAppend kalloc ll data k).2 :=
  linkedlistAppend_snd (attaching.refl k) (attaching.call _ k) (attaching.trans (attaching.call _ k) (edit _))

theorem attach (attaching : Attaching kalloc R) (vmem region : Option Nat) (k : Kernel) :
    R k (vmemAttach kalloc vmem region k).2 := by
  cases vmem with
  | none => exact attaching.refl k
  | some v =>
      cases region with
      | none => exact attaching.refl k
      | some r =>
          have detached : ∀ {k k'}, R k k' → R k (BubackOS.detach v r k') := fun before =>
            attaching.trans before (attaching.detach v r _)
          unfold vmemAttach
          dsimp only
          split
          · exact attaching.refl k
          · have listed := attaching.append (regionsOf v) r (attaching.appendRegion v r) k
            split
            · have linked := attaching.trans listed
                (attaching.append (attachedOf r) v (attaching.appendAttached r v) _)
              split
              · have mapped := attaching.trans linked (attaching.replay v r _)
                split
                · exact mapped
                · exact detached mapped
              · exact detached linked
            · exact detached listed

theorem attachRegions (attaching : Attaching kalloc R) (v : Nat) (rs : List Nat) :
    ∀ k, R k (attachRegions kalloc v rs k).2 := by
  induction rs with
  | nil => exact attaching.refl
  | cons r rest ih =>
      intro k
      have attached := attaching.attach (some v) (some r) k
      unfold BubackOS.attachRegions
      dsimp only
      split
      · exact attaching.trans attached (ih _)
      · exact attached

end Attaching

/-- A relation that chains and holds for the parts of the services. -/
structure Composed (kalloc : Kalloc) (N M : Nat) (T : Set Nat) (R : Kernel → Kernel → Prop) : Prop where
  refl : ∀ k, R k k
  trans : ∀ {k k' k''}, R k k' → R k' k'' → R k k''
  record : ∀ {k k'}, RecordStep kalloc N M k k' → R k k'
  replay : ∀ v r k, R k (replayPages kalloc v r k).2
  resize : ∀ {r}, r ∈ T → ∀ newSize k, R k (vmemRegionResize kalloc (some r) newSize k).2

namespace Composed

variable {R : Kernel → Kernel → Prop}

theorem records (composed : Composed kalloc N M T R) (path : RecordPath kalloc N M k k') : R k k' := by
  induction path with
  | refl => exact composed.refl k
  | tail _ step ih => exact composed.trans ih (composed.record step)

theorem call (composed : Composed kalloc N M T R) (size : Nat) (k : Kernel) : R k (kalloc size k).2 :=
  composed.record (.table (.call size k))

/-- Attaching changes links and replays pages. -/
theorem attaching (composed : Composed kalloc N M T R) : Attaching kalloc R where
  refl := composed.refl
  trans := composed.trans
  call := composed.call
  appendRegion := fun v r k => composed.record (.appendRegion v r k)
  appendAttached := fun r v k => composed.record (.appendAttached r v k)
  detach := fun v r k => composed.record (.detach v r k)
  replay := composed.replay

theorem attach (composed : Composed kalloc N M T R) (vmem region : Option Nat) (k : Kernel) :
    R k (vmemAttach kalloc vmem region k).2 := composed.attaching.attach vmem region k

theorem attachRegions (composed : Composed kalloc N M T R) (v : Nat) (rs : List Nat) (k : Kernel) :
    R k (attachRegions kalloc v rs k).2 := composed.attaching.attachRegions v rs k

/-- A new address space has a reference no older one has. -/
theorem create (composed : Composed kalloc N M T R) (k : Kernel)
    (fresh : N ≤ (kalloc sizeofVmem k).2.core.vmems.count)
    (native : ∀ k', R k' (nativeVmemCreate kalloc (kalloc sizeofVmem k).2.core.vmems.count k').2) :
    R k (vmemCreate kalloc k).2 := by
  unfold vmemCreate
  dsimp only
  have called := composed.call sizeofVmem k
  split
  · exact called
  · have made := composed.trans (composed.trans called (composed.records (vmemRecord_recordPath _ fresh)))
      (native _)
    generalize (kalloc sizeofVmem k).2.core.vmems.count = v at made ⊢
    generalize nativeVmemCreate kalloc v (vmemRecord kalloc (kalloc sizeofVmem k).2) = native at made ⊢
    split
    · have attached := composed.trans made (composed.attachRegions v native.2.kernelRegions native.2)
      generalize BubackOS.attachRegions kalloc v native.2.kernelRegions native.2 = mapped at attached ⊢
      split
      · have named := composed.trans attached (composed.records ((RecordPath.idMapperAdd
          (fun change k => .vmemIds change k) v mapped.2).tail
          (.setVmemId v (idMapperAdd kalloc vmemIdMapper v mapped.2).1 _)))
        split <;> exact named
      · exact attached
    · exact made

theorem finishRegion (composed : Composed kalloc N M T R) (target : r ∈ T) (size : Nat) (k : Kernel) :
    R k (finishRegion kalloc r size k).2 := by
  unfold BubackOS.finishRegion
  dsimp only
  have resized := composed.resize target size k
  generalize vmemRegionResize kalloc (some r) size k = grown at resized ⊢
  split
  · have named := composed.trans resized (composed.records ((RecordPath.idMapperAdd
      (fun change k => .regionIds change k) r grown.2).tail
      (.setRegionId r (idMapperAdd kalloc vmemRegionMapper r grown.2).1 _)))
    split <;> exact named
  · exact resized

/-- A new region has a reference no older one has. -/
theorem openRegion (composed : Composed kalloc N M T R) (v : Nat) (name : String) (start : Nat)
    (user writable executable : Bool) (k : Kernel)
    (fresh : M ≤ (kalloc sizeofVmemRegion k).2.core.vmemRegions.count) :
    R k (openRegion kalloc v name start user writable executable k).2 := by
  unfold BubackOS.openRegion
  dsimp only
  have called := composed.call sizeofVmemRegion k
  split
  · exact called
  · have listed := composed.trans called (composed.records
      (regionRecord_recordPath name start user writable executable _ fresh))
    split <;> exact composed.trans listed (composed.attach (some v) (some _) _)

theorem createRegion (composed : Composed kalloc N M T R) (vmem : Option Nat) (name : Option String)
    (start size : Nat) (user writable executable : Bool) (k : Kernel)
    (fresh : ∀ k', k'.core.vmemRegions = k.core.vmemRegions →
      M ≤ (kalloc sizeofVmemRegion k').2.core.vmemRegions.count ∧
        (kalloc sizeofVmemRegion k').2.core.vmemRegions.count ∈ T) :
    R k (vmemRegionCreate kalloc vmem name start size user writable executable k).2 := by
  cases vmem with
  | none => exact composed.refl k
  | some v =>
      cases name with
      | none => exact composed.refl k
      | some name =>
          obtain ⟨bound, target⟩ := fresh _ (placeRegion_vmemRegions v start k)
          have placed := composed.records (placeRegion_recordPath v start k)
          have opened := composed.trans placed (composed.openRegion v name (placeRegion v start k).1 user writable
            executable _ bound)
          rcases @vmemRegionCreate_cases kalloc k v name start size user writable executable _ rfl _ rfl with
            ⟨-, result⟩ | ⟨-, ⟨-, result⟩ | ⟨r, isOpened, result⟩⟩
          · rw [result]
            exact placed
          · rw [result]
            exact opened
          · rw [result]
            exact composed.trans opened (composed.finishRegion (openRegion_some isOpened ▸ target) size _)

end Composed

theorem path_composed : Composed kalloc N M T (Path kalloc N M T) where
  refl := fun _ => .refl
  trans := fun first second => first.trans second
  record := fun step => .single step.transition
  replay := replayPages_path
  resize := fun target newSize k =>
    vmemRegionResize_path _ (fun _ isRegion => by cases isRegion; exact target) newSize k

theorem vmemAttach_path (vmem region : Option Nat) (k : Kernel) :
    Path kalloc N M T k (vmemAttach kalloc vmem region k).2 := path_composed.attach vmem region k

theorem attachRegions_path (v : Nat) (rs : List Nat) (k : Kernel) :
    Path kalloc N M T k (attachRegions kalloc v rs k).2 := path_composed.attachRegions v rs k

theorem vmemCreate_path (k : Kernel) (fresh : N ≤ (kalloc sizeofVmem k).2.core.vmems.count) :
    Path kalloc N M T k (vmemCreate kalloc k).2 :=
  path_composed.create k fresh fun k' => (nativeVmemCreate_tablePath _ k').path

theorem vmemRegionCreate_path (vmem : Option Nat) (name : Option String) (start size : Nat)
    (user writable executable : Bool) (k : Kernel)
    (fresh : ∀ k', k'.core.vmemRegions = k.core.vmemRegions →
      M ≤ (kalloc sizeofVmemRegion k').2.core.vmemRegions.count ∧
        (kalloc sizeofVmemRegion k').2.core.vmemRegions.count ∈ T) :
    Path kalloc N M T k
      (vmemRegionCreate kalloc vmem name start size user writable executable k).2 :=
  path_composed.createRegion vmem name start size user writable executable k fresh

theorem openRegion_path (v : Nat) (name : String) (start : Nat) (user writable executable : Bool) (k : Kernel) :
    AnyPath kalloc k (openRegion kalloc v name start user writable executable k).2 := by
  have called : RecordPath kalloc 0 0 k (kalloc sizeofVmemRegion k).2 := .single (.table (.call sizeofVmemRegion k))
  have record : RecordPath kalloc 0 0 _ _ :=
    regionRecord_recordPath name start user writable executable (kalloc sizeofVmemRegion k).2 (Nat.zero_le _)
  have made : RecordPath kalloc 0 0 _ _ := called.trans record
  have linked : AnyPath kalloc _ _ := made.path.trans
    (vmemAttach_path (some v) (some (kalloc sizeofVmemRegion k).2.core.vmemRegions.count) _)
  rcases @openRegion_cases kalloc k v name start user writable executable _ rfl _ rfl with
    ⟨-, result⟩ | ⟨-, ⟨-, result⟩ | ⟨-, result⟩⟩
  · rw [result]
    exact called.path
  all_goals
    rw [result]
    exact linked

end BubackOS

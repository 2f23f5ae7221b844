import BubackOS.Core.RegionGrowth
import Mathlib.Algebra.BigOperators.Group.Finset.Piecewise
import Mathlib.Algebra.Order.BigOperators.Group.Finset
import Mathlib.Data.List.Perm.Subperm

/-!
# The account of a growing region

`vmem_region_resize` looks neither at the node for the list of the pages nor at the entries
for the maps.  Every page it takes for a region moves the allocated size; the page is in the
list unless its node was refused, and in the maps of the address spaces unless an entry was.
The account holds for every region and every allocator, also for the kernel-data region,
which is grown again by the calls made for its own growth.
-/

namespace BubackOS

open Library

variable {kalloc : Kalloc} {k k' k'' : Kernel} {v r s : Nat} {placed more stored later : List Nat} {l e l' e' : Nat}

/-- The pages a region got without a node in its list. -/
def Kernel.unlisted (r : Nat) (k : Kernel) : Nat :=
  k.core.associations.countP fun ended => decide (ended.region = r) && !ended.listed

/-- The pages a region got without an entry in all the maps. -/
def Kernel.unmapped (r : Nat) (k : Kernel) : Nat :=
  k.core.associations.countP fun ended => decide (ended.region = r) && !ended.mapped

theorem Kernel.unlisted_conclude (r : Nat) (ended : Association) (k : Kernel) : (k.conclude ended).unlisted r =
    k.unlisted r + if ended.region = r ∧ ended.listed = false then 1 else 0 := by
  simp [Kernel.unlisted, Kernel.conclude, List.countP_cons]

theorem Kernel.unmapped_conclude (r : Nat) (ended : Association) (k : Kernel) : (k.conclude ended).unmapped r =
    k.unmapped r + if ended.region = r ∧ ended.mapped = false then 1 else 0 := by
  simp [Kernel.unmapped, Kernel.conclude, List.countP_cons]

/-- The entries of a region in the maps of its address spaces. -/
def Kernel.notes (r : Nat) (k : Kernel) : Nat :=
  ∑ v ∈ (k.region r).attached.items.toFinset, (k.vmem v).map.items.countP (·.region = r)

/-- The entry of a map for a page of a region, so far behind its start. -/
def pageEntry (r offset page : Nat) (region : VmemRegion) : VmemMap :=
  { virtualAddr := wrap (region.start + offset), physicalAddr := page, region := r }

/-- A region got the pages of `placed` at the next addresses, and those of `stored` in its list; so many are in the
list or were refused a node, and at most so many entries are in the maps or were refused. -/
structure Gains (r : Nat) (placed stored : List Nat) (listed noted : Nat) (k k' : Kernel) : Prop where
  frame : Frame k k'
  maps : MapsGrow k k'
  free : k'.core.pmem.freePages + placed.length ≤ k.core.pmem.freePages
  size : wrap (k'.region r).allocatedSize = wrap ((k.region r).allocatedSize + 4096 * placed.length)
  word : (k.region r).allocatedSize < 2 ^ 64 → (k'.region r).allocatedSize < 2 ^ 64
  isSome : (k.region r).pages.isSome → (k'.region r).pages.isSome
  unlisted : k.unlisted r ≤ k'.unlisted r
  unmapped : k.unmapped r ≤ k'.unmapped r
  listed : (k'.region r).pages.items.length + k'.unlisted r = (k.region r).pages.items.length + k.unlisted r + listed
  noted : k'.notes r + k'.unmapped r ≤ k.notes r + k.unmapped r + noted
  pages : k'.unlisted r = k.unlisted r → (k'.region r).pages.items.Perm ((k.region r).pages.items ++ stored)
  entries : k'.unmapped r = k.unmapped r → ∀ v ∈ (k.region r).attached.items, ∀ i page, placed[i]? = some page →
    pageEntry r ((k.region r).allocatedSize + 4096 * i) page (k.region r) ∈ (k'.vmem v).map.items

namespace Gains

theorem trans (first : Gains r placed stored l e k k') (second : Gains r more later l' e' k' k'') :
    Gains r (placed ++ more) (stored ++ later) (l + l') (e + e') k k'' := by
  have size := first.size
  have size' := second.size
  have free := first.free
  have free' := second.free
  have listed := first.listed
  have listed' := second.listed
  have noted := first.noted
  have noted' := second.noted
  have unlisted := first.unlisted
  have unlisted' := second.unlisted
  have unmapped := first.unmapped
  have unmapped' := second.unmapped
  refine ⟨first.frame.trans second.frame, first.maps.trans second.maps, ?_, ?_, second.word ∘ first.word,
    second.isSome ∘ first.isSome, unlisted.trans unlisted', unmapped.trans unmapped', ?_, ?_, fun same => ?_,
    fun same v member i page found => ?_⟩
  · rw [List.length_append]
    omega
  · unfold wrap at size size' ⊢
    rw [List.length_append]
    omega
  · omega
  · omega
  · have here := first.pages (by omega)
    exact (second.pages (by omega)).trans (by rw [← List.append_assoc]; exact here.append_right later)
  · by_cases early : i < placed.length
    · rw [List.getElem?_append_left early] at found
      exact second.maps.mem (first.entries (by omega) v member i page found)
    · rw [List.getElem?_append_right (Nat.le_of_not_lt early)] at found
      have entry := second.entries (by omega) v (first.frame.attached r ▸ member) (i - placed.length) page found
      have place : pageEntry r ((k'.region r).allocatedSize + 4096 * (i - placed.length)) page (k'.region r) =
          pageEntry r ((k.region r).allocatedSize + 4096 * i) page (k.region r) := by
        unfold pageEntry
        unfold wrap at size ⊢
        rw [first.frame.start, VmemMap.mk.injEq]
        exact ⟨by omega, rfl, rfl⟩
      rwa [place] at entry

/-- Nothing is added for no page. -/
theorem add_nil_le {value limit : Nat} (bound : value ≤ limit) : value + ([] : List Nat).length ≤ limit := bound

theorem wrap_add_nil (size : Nat) : wrap size = wrap (size + 4096 * ([] : List Nat).length) := by
  rw [List.length_nil, Nat.mul_zero, Nat.add_zero]

/-- A step that changes neither the region nor the maps. -/
theorem still (frame : Frame k k') (map : ∀ v, (k'.vmem v).map = (k.vmem v).map)
    (pages : (k'.region r).pages = (k.region r).pages)
    (size : (k'.region r).allocatedSize = (k.region r).allocatedSize)
    (associations : k'.core.associations = k.core.associations)
    (free : k'.core.pmem.freePages ≤ k.core.pmem.freePages) : Gains r [] [] 0 0 k k' := by
  have unlisted : k'.unlisted r = k.unlisted r := by rw [Kernel.unlisted, associations, Kernel.unlisted]
  have unmapped : k'.unmapped r = k.unmapped r := by rw [Kernel.unmapped, associations, Kernel.unmapped]
  have notes : k'.notes r = k.notes r := by
    unfold Kernel.notes
    rw [frame.attached]
    exact Finset.sum_congr rfl fun v _ => by rw [map]
  refine ⟨frame, .of_map map, add_nil_le free, by rw [size]; exact wrap_add_nil _, by rw [size]; exact id,
    by rw [pages]; exact id, Nat.le_of_eq unlisted.symm, Nat.le_of_eq unmapped.symm, ?_, ?_, fun _ => ?_,
    fun _ v _ i page absent => by cases absent⟩
  · rw [pages, unlisted]
    rfl
  · rw [notes, unmapped]
    rfl
  · rw [pages, List.append_nil]

theorem of_core (core : k'.core = k.core) : Gains r [] [] 0 0 k k' := by
  refine still (.of_core core) (fun v => ?_) ?_ ?_ (by rw [core]) (by rw [core])
  · rw [Kernel.vmem, core, Kernel.vmem]
  · rw [Kernel.region, core, Kernel.region]
  · rw [Kernel.region, core, Kernel.region]

theorem modifyRegion {change : VmemRegion → VmemRegion} (attached : (change (k.region s)).attached = (k.region s).attached)
    (start : (change (k.region s)).start = (k.region s).start)
    (pages : s = r → (change (k.region s)).pages = (k.region s).pages)
    (size : s = r → (change (k.region s)).allocatedSize = (k.region s).allocatedSize) :
    Gains r [] [] 0 0 k (k.modifyRegion s change) := by
  have region : ((k.modifyRegion s change).region r).pages = (k.region r).pages ∧
      ((k.modifyRegion s change).region r).allocatedSize = (k.region r).allocatedSize := by
    by_cases same : s = r
    · subst same
      rw [Kernel.region_modifyRegion_self]
      exact ⟨pages rfl, size rfl⟩
    · rw [Kernel.region_modifyRegion_of_ne (Ne.symm same)]
      exact ⟨rfl, rfl⟩
  exact still (Frame.modifyRegion attached start) (fun _ => rfl) region.1 region.2 rfl (Nat.le_refl _)

theorem associations_pmemAllocate (k : Kernel) : (pmemAllocate k).2.core.associations = k.core.associations :=
  pmemAllocate_cases (P := fun k' => k'.core.associations = k.core.associations) rfl rfl

theorem pmemAllocate (k : Kernel) : Gains r [] [] 0 0 k (pmemAllocate k).2 := by
  refine still (Frame.pmemAllocate k) (fun v => by rw [vmem_pmemAllocate]) (by rw [region_pmemAllocate])
    (by rw [region_pmemAllocate]) (associations_pmemAllocate k) ?_
  · by_cases found : (BubackOS.pmemAllocate k).1 = 0
    · rw [pmemAllocate_pmem_of_failure found]
    · have spent := grow_freePages r 0 found
      exact Nat.le_of_succ_le (Nat.le_of_eq spent)

/-- An entry of a map. -/
theorem note (v : Nat) (entry : VmemMap) (k : Kernel) :
    Gains r [] [] 0 (if entry.region = r then 1 else 0) k ((mapOf v).modify (· ++ [entry]) k) := by
  have each : ∀ w, (((mapOf v).modify (· ++ [entry]) k).vmem w).map.items.countP (·.region = r) ≤
      (k.vmem w).map.items.countP (·.region = r) + if w = v then (if entry.region = r then 1 else 0) else 0 := by
    intro w
    by_cases here : w = v
    · subst here
      rw [if_pos rfl, mapOf, Kernel.vmem_modifyVmem_self]
      cases (k.vmem w).map with
      | none => exact Nat.zero_le _
      | some items => simp [LinkedList.items, List.countP_cons]
    · rw [mapOf_vmem_of_ne here, if_neg here]
      exact Nat.le_refl _
  have notes : ((mapOf v).modify (· ++ [entry]) k).notes r ≤ k.notes r + if entry.region = r then 1 else 0 := by
    refine (Finset.sum_le_sum fun w _ => each w).trans ?_
    rw [Finset.sum_add_distrib, Finset.sum_ite_eq']
    refine Nat.add_le_add_left ?_ _
    split
    · exact Nat.le_refl _
    · exact Nat.zero_le _
  refine ⟨Frame.modifyVmem rfl, .append v entry k, add_nil_le (Nat.le_refl _), wrap_add_nil _, id, id,
    Nat.le_refl _, Nat.le_refl _, rfl, ?_, fun _ => by rw [List.append_nil]; rfl,
    fun _ v _ i page absent => by cases absent⟩
  have same : ((mapOf v).modify (· ++ [entry]) k).unmapped r = k.unmapped r := rfl
  rw [same]
  omega

/-- The note of how an association ended. -/
theorem conclude (ended : Association) (k : Kernel) :
    Gains r [] [] (if ended.region = r ∧ ended.listed = false then 1 else 0)
      (if ended.region = r ∧ ended.mapped = false then 1 else 0) k (k.conclude ended) := by
  have unlisted := k.unlisted_conclude r ended
  have unmapped := k.unmapped_conclude r ended
  have notes : (k.conclude ended).notes r = k.notes r := rfl
  refine ⟨⟨rfl, rfl, rfl, rfl, fun _ => rfl, fun _ => rfl, fun _ => rfl⟩, .of_map fun _ => rfl, add_nil_le (Nat.le_refl _),
    wrap_add_nil _, id, id, by omega, by omega, ?_, by omega, fun _ => by rw [List.append_nil]; rfl,
    fun _ v _ i page absent => by cases absent⟩
  rw [unlisted]
  exact (Nat.add_assoc _ _ _).symm

theorem conclude_of_ne {ended : Association} (other : ended.region ≠ r) (k : Kernel) :
    Gains r [] [] 0 0 k (k.conclude ended) := by
  have gains := @conclude r ended k
  rwa [if_neg fun both => other both.1, if_neg fun both => other both.1] at gains

/-- A page in the list. -/
theorem store (page : Nat) (present : (k.region r).pages.isSome) :
    Gains r [] [page] 1 0 k ((pagesOf r).modify (· ++ [page]) k) := by
  obtain ⟨items, isItems⟩ := Option.isSome_iff_exists.mp present
  have region : ((pagesOf r).modify (· ++ [page]) k).region r = { k.region r with pages := some (items ++ [page]) } := by
    rw [pagesOf, Kernel.region_modifyRegion_self, isItems]
    rfl
  have before : (k.region r).pages.items = items := by rw [isItems]; rfl
  have after : (((pagesOf r).modify (· ++ [page]) k).region r).pages.items = items ++ [page] := by rw [region]; rfl
  refine ⟨Frame.modifyRegion rfl rfl, .of_map fun _ => rfl, add_nil_le (Nat.le_refl _), ?_, ?_, ?_,
    Nat.le_refl _, Nat.le_refl _, ?_, ?_, fun _ => ?_, fun _ v _ i page absent => by cases absent⟩
  · rw [region]
    exact wrap_add_nil _
  · rw [region]
    exact id
  · rw [region]
    exact fun _ => rfl
  · rw [after, before, List.length_append]
    exact Nat.add_right_comm _ 1 _
  · have notes : ((pagesOf r).modify (· ++ [page]) k).notes r = k.notes r := by
      unfold Kernel.notes
      rw [region]
      rfl
    rw [notes]
    exact Nat.le_refl _
  · rw [after, before]

end Gains

/-! ## Calls -/

/-- The address spaces a region is attached to. -/
def Kernel.spaces (r : Nat) (k : Kernel) : Nat := (k.region r).attached.items.length

/-- What a region got in a call: nothing unless it is the kernel-data region, and so many entries more than
the pages account for. -/
def Draws (r extra : Nat) (k k' : Kernel) : Prop :=
  ∃ placed, (k.core.kernelDataVmemRegion ≠ some r → placed = []) ∧
    Gains r placed placed placed.length (k.spaces r * placed.length + extra) k k'

namespace Draws

variable {extra extra' : Nat}

theorem of_gains (gains : Gains r [] [] 0 extra k k') : Draws r extra k k' := by
  refine ⟨[], fun _ => rfl, ?_⟩
  rw [List.length_nil, Nat.mul_zero, Nat.zero_add]
  exact gains

theorem trans (first : Draws r extra k k') (second : Draws r extra' k' k'') : Draws r (extra + extra') k k'' := by
  obtain ⟨placed, none, gains⟩ := first
  obtain ⟨more, none', gains'⟩ := second
  have both := gains.trans gains'
  have spaces : k'.spaces r = k.spaces r := by rw [Kernel.spaces, gains.frame.attached, Kernel.spaces]
  rw [spaces, Nat.add_add_add_comm, ← Nat.mul_add, ← List.length_append] at both
  refine ⟨placed ++ more, fun other => ?_, both⟩
  rw [none other, none' (gains.frame.kernelData ▸ other)]
  rfl

theorem after (first : Draws r extra k k') (second : Draws r 0 k' k'') : Draws r extra k k'' := first.trans second

theorem before (first : Draws r 0 k k') (second : Draws r extra k' k'') : Draws r extra k k'' := by
  have both := first.trans second
  rwa [Nat.zero_add] at both

theorem maps (draws : Draws r extra k k') : MapsGrow k k' := by
  obtain ⟨_, -, gains⟩ := draws
  exact gains.maps

section Calls

variable (calls : ∀ size k, Draws r 0 k (kalloc size k).2)

include calls

theorem mapPath (path : MapPath kalloc k k') : Draws r 0 k k' := by
  induction path with
  | refl => exact of_gains (.of_core rfl)
  | tail _ step ih =>
      refine ih.after ?_
      cases step with
      | call size => exact calls size _
      | write => exact of_gains (.of_core rfl)
      | native v change => exact of_gains (.still (Frame.modifyVmem rfl)
          (fun w => by by_cases here : w = v <;> simp [Kernel.modifyNative, Kernel.vmem_modifyVmem, here]) rfl rfl rfl
          (Nat.le_refl _))

/-- `vmem_notify_change` for any region `s`. -/
theorem notifyChange (v s paddr vaddr : Nat) (k : Kernel) :
    Draws r (if s = r ∧ (vmemNotifyChange kalloc v s paddr vaddr k).1 = true then 1 else 0) k
      (vmemNotifyChange kalloc v s paddr vaddr k).2 := by
  unfold vmemNotifyChange
  dsimp only
  have called := calls sizeofVmemMap k
  generalize kalloc sizeofVmemMap k = map at called ⊢
  split
  · rw [if_neg fun both => Bool.false_ne_true both.2]
    exact called
  · have node := called.after (calls sizeofLinkedlistNode map.2)
    rcases linkedlistAppend_cases kalloc (mapOf v) { virtualAddr := vaddr, physicalAddr := paddr, region := s } map.2 with
      failed | failed | done
    · rw [failed, if_neg Bool.false_ne_true, if_neg fun both => Bool.false_ne_true both.2]
      exact called
    · rw [failed, if_neg Bool.false_ne_true, if_neg fun both => Bool.false_ne_true both.2]
      exact node
    · rw [done, if_pos rfl]
      refine (node.before ?_).after (mapPath calls (nativeVmemSet_mapPath v _ _))
      simp only [and_true]
      exact of_gains (.note v { virtualAddr := vaddr, physicalAddr := paddr, region := s } _)

/-- The entry of a page is in the map once `vmem_notify_change` succeeds. -/
theorem notifyChange_entry {v s paddr vaddr : Nat} (done : (vmemNotifyChange kalloc v s paddr vaddr k).1 = true) :
    { virtualAddr := vaddr, physicalAddr := paddr, region := s } ∈
      ((vmemNotifyChange kalloc v s paddr vaddr k).2.vmem v).map.items := by
  unfold vmemNotifyChange at done ⊢
  dsimp only at done ⊢
  split at done
  · cases done
  · rw [if_neg ‹_›]
    generalize (kalloc sizeofVmemMap k).2 = k₁ at done ⊢
    by_cases null : ((mapOf v).get k₁).isSome
    · rw [linkedlistAppend_of_some null] at done ⊢
      by_cases failed : (kalloc sizeofLinkedlistNode k₁).1 = 0
      · rw [if_pos failed] at done
        cases done
      · rw [if_neg failed, if_pos rfl]
        refine (mapPath calls (nativeVmemSet_mapPath v _ _)).maps.mem ?_
        rw [mapOf_items ((calls _ k₁).maps.isSome null)]
        exact List.mem_append_right _ List.mem_cons_self
    · have absent : linkedlistAppend kalloc (mapOf v)
          { virtualAddr := vaddr, physicalAddr := paddr, region := s } k₁ = (false, k₁) := if_pos (by simpa using null)
      rw [absent] at done
      cases done

/-- The loop over the address spaces. -/
theorem notifyAttached (s paddr vaddr : Nat) (vs : List Nat) : ∀ k : Kernel, ∃ extra,
    Draws r extra k (notifyAttached kalloc s paddr vaddr vs k).2 ∧ (s ≠ r → extra = 0) ∧
      (extra + if (notifyAttached kalloc s paddr vaddr vs k).1 then 0 else 1) ≤ vs.length ∧
      ((notifyAttached kalloc s paddr vaddr vs k).1 = true → ∀ v ∈ vs,
        { virtualAddr := vaddr, physicalAddr := paddr, region := s } ∈
          ((notifyAttached kalloc s paddr vaddr vs k).2.vmem v).map.items) := by
  induction vs with
  | nil =>
      exact fun k => ⟨0, of_gains (.of_core rfl), fun _ => rfl, Nat.le_refl 0,
        fun _ v absent => absurd absent List.not_mem_nil⟩
  | cons v rest ih =>
      intro k
      have here := notifyChange calls v s paddr vaddr k
      have entry := @notifyChange_entry _ k r calls v s paddr vaddr
      obtain ⟨notified, isNotified⟩ : ∃ notified, notified = vmemNotifyChange kalloc v s paddr vaddr k := ⟨_, rfl⟩
      rw [← isNotified] at here entry
      by_cases done : notified.1 = true
      · have unfolded : BubackOS.notifyAttached kalloc s paddr vaddr (v :: rest) k =
            BubackOS.notifyAttached kalloc s paddr vaddr rest notified.2 := by
          rw [isNotified] at done ⊢
          exact if_pos done
        obtain ⟨extra, later, other, few, entries⟩ := ih notified.2
        rw [unfolded]
        refine ⟨_, here.trans later, fun distinct => ?_, ?_, fun all w member => ?_⟩
        · rw [if_neg fun both => distinct both.1, other distinct]
        · rw [List.length_cons]
          split <;> omega
        · rcases List.mem_cons.mp member with rfl | member
          · exact later.maps.mem (entry done)
          · exact entries all w member
      · have unfolded : BubackOS.notifyAttached kalloc s paddr vaddr (v :: rest) k = (false, notified.2) := by
          rw [isNotified] at done ⊢
          exact if_neg done
        rw [if_neg fun both => done both.2] at here
        rw [unfolded]
        exact ⟨0, here, fun _ => rfl, Nat.succ_le_succ (Nat.zero_le _), fun absent => absurd absent Bool.false_ne_true⟩

/-- A page for another region. -/
theorem associate_of_ne (other : s ≠ r) (paddr : Nat) (k : Kernel) :
    Draws r 0 k (vmemRegionAssocPhysicalAddress kalloc s paddr k).2 := by
  have begun : Draws r 0 k (k.beginAssociate s paddr) := by
    refine of_gains (.still (Frame.beginAssociate s paddr k) (fun _ => rfl) ?_ ?_ rfl (Nat.le_refl _))
    all_goals rw [region_beginAssociate_of_ne paddr k (Ne.symm other)]
  have stored : Draws r 0 k (linkedlistAppend kalloc (pagesOf s) paddr (k.beginAssociate s paddr)).2 := by
    have called := begun.after (calls sizeofLinkedlistNode _)
    exact linkedlistAppend_snd begun called (called.after
      (of_gains (.modifyRegion rfl rfl (fun same => absurd same other) fun same => absurd same other)))
  obtain ⟨extra, loop, none, -⟩ := notifyAttached calls s paddr (wrap ((k.region s).start + (k.region s).allocatedSize))
    ((linkedlistAppend kalloc (pagesOf s) paddr (k.beginAssociate s paddr)).2.region s).attached.items
    (linkedlistAppend kalloc (pagesOf s) paddr (k.beginAssociate s paddr)).2
  rw [none other] at loop
  rw [vmemRegionAssocPhysicalAddress_snd]
  exact (stored.after loop).after (of_gains (.conclude_of_ne other _))

end Calls

end Draws

/-! ## A page for the region -/

/-- An append to the list: what the call gives to the region, and the page behind it unless its node was
refused. -/
theorem Draws.store (calls : ∀ size k, Draws r 0 k (kalloc size k).2) (page : Nat) (k : Kernel) :
    ∃ nested, (k.core.kernelDataVmemRegion ≠ some r → nested = []) ∧
      Gains r nested (nested ++ if (linkedlistAppend kalloc (pagesOf r) page k).1 then [page] else [])
        (nested.length + if (linkedlistAppend kalloc (pagesOf r) page k).1 then 1 else 0)
        (k.spaces r * nested.length) k (linkedlistAppend kalloc (pagesOf r) page k).2 := by
  by_cases some : ((pagesOf r).get k).isSome
  · rw [linkedlistAppend_of_some some]
    obtain ⟨nested, none, gains⟩ := calls sizeofLinkedlistNode k
    refine ⟨nested, none, ?_⟩
    by_cases failed : (kalloc sizeofLinkedlistNode k).1 = 0
    · rw [if_pos failed, if_neg Bool.false_ne_true, if_neg Bool.false_ne_true, List.append_nil]
      exact gains
    · rw [if_neg failed, if_pos rfl, if_pos rfl]
      have stored := gains.trans (.store page (gains.isSome some))
      rwa [List.append_nil] at stored
  · have absent : linkedlistAppend kalloc (pagesOf r) page k = (false, k) := if_pos (by simpa using some)
    rw [absent, if_neg Bool.false_ne_true, if_neg Bool.false_ne_true]
    exact ⟨[], fun _ => rfl, .of_core rfl⟩

/-- What follows the first lines of `vmem_region_assoc_physical_address` for the region itself. -/
theorem Gains.rest (calls : ∀ size k, Draws r 0 k (kalloc size k).2) (page : Nat) (k : Kernel) :
    ∃ nested stored noted, (k.core.kernelDataVmemRegion ≠ some r → nested = []) ∧
      noted ≤ k.spaces r * (nested.length + 1) ∧
      Gains r nested stored (nested.length + 1) noted (k.beginAssociate r page)
        (vmemRegionAssocPhysicalAddress kalloc r page k).2 ∧
      ((vmemRegionAssocPhysicalAddress kalloc r page k).2.unlisted r = k.unlisted r → stored.Perm (page :: nested)) ∧
      ((vmemRegionAssocPhysicalAddress kalloc r page k).2.unmapped r = k.unmapped r →
        ∀ v ∈ (k.region r).attached.items, pageEntry r (k.region r).allocatedSize page (k.region r) ∈
          ((vmemRegionAssocPhysicalAddress kalloc r page k).2.vmem v).map.items) := by
  obtain ⟨begun, isBegun⟩ : ∃ begun, begun = k.beginAssociate r page := ⟨_, rfl⟩
  obtain ⟨stored, isStored⟩ : ∃ stored, stored = linkedlistAppend kalloc (pagesOf r) page begun := ⟨_, rfl⟩
  obtain ⟨notified, isNotified⟩ : ∃ notified, notified = notifyAttached kalloc r page
    (wrap ((k.region r).start + (k.region r).allocatedSize)) (stored.2.region r).attached.items stored.2 := ⟨_, rfl⟩
  have result : (vmemRegionAssocPhysicalAddress kalloc r page k).2 =
      notified.2.conclude { region := r, listed := stored.1, mapped := notified.1 } := by
    rw [vmemRegionAssocPhysicalAddress_snd, isNotified, isStored, isBegun]
    rfl
  have frame : Frame k begun := isBegun ▸ Frame.beginAssociate r page k
  obtain ⟨nested, none, first⟩ := Draws.store calls page begun
  obtain ⟨extra, ⟨more, none', second⟩, -, few, entries⟩ := Draws.notifyAttached calls r page
    (wrap ((k.region r).start + (k.region r).allocatedSize)) (stored.2.region r).attached.items stored.2
  rw [← isStored] at first
  rw [← isNotified] at second few entries
  have attached : (stored.2.region r).attached = (k.region r).attached := by
    rw [first.frame.attached, frame.attached]
  have spaces : stored.2.spaces r = k.spaces r ∧ begun.spaces r = k.spaces r := by
    unfold Kernel.spaces
    rw [attached, frame.attached]
    exact ⟨rfl, rfl⟩
  have listed := notified.2.unlisted_conclude r { region := r, listed := stored.1, mapped := notified.1 }
  have mapped := notified.2.unmapped_conclude r { region := r, listed := stored.1, mapped := notified.1 }
  have all := (first.trans second).trans (.conclude { region := r, listed := stored.1, mapped := notified.1 } _)
  have unlisted := (first.trans second).unlisted
  have unmapped := (first.trans second).unmapped
  have same : begun.unlisted r = k.unlisted r ∧ begun.unmapped r = k.unmapped r := by
    rw [isBegun]
    exact ⟨rfl, rfl⟩
  rw [same.1] at unlisted
  rw [same.2] at unmapped
  rw [spaces.1, spaces.2] at all
  simp only [true_and] at all listed mapped
  rw [attached] at few entries
  rw [result, ← isBegun]
  have total : (nested.length + if stored.1 = true then 1 else 0) + more.length + (if stored.1 = false then 1 else 0) =
      (nested ++ more).length + 1 := by
    rw [List.length_append]
    cases stored.1
    all_goals
      simp only [Bool.false_eq_true, if_false, if_true, Bool.true_eq_false]
      omega
  rw [total, List.append_nil, List.append_nil] at all
  refine ⟨nested ++ more, _, _, fun other => ?_, ?_, all, fun kept => ?_, fun kept v member => ?_⟩
  · rw [none (frame.kernelData ▸ other), none' (by rw [first.frame.kernelData, frame.kernelData]; exact other)]
    rfl
  · have room : extra + (if notified.1 = false then 1 else 0) ≤ k.spaces r := by
      cases done : notified.1 <;>
      · rw [done] at few
        exact few
    rw [List.length_append, Nat.mul_add, Nat.mul_add, Nat.mul_one]
    omega
  · have done : stored.1 = true := by
      by_contra refused
      rw [Bool.not_eq_true] at refused
      rw [if_pos refused] at listed
      omega
    rw [done, if_pos rfl, List.append_assoc]
    exact List.perm_middle
  · have done : notified.1 = true := by
      by_contra refused
      rw [Bool.not_eq_true] at refused
      rw [if_pos refused] at mapped
      omega
    exact entries done v member

/-- One page more for the region itself.  The allocated size moves first and the list later; what the calls in
between give to the region is the same for both. -/
theorem Gains.associate (calls : ∀ size k, Draws r 0 k (kalloc size k).2) (found : (BubackOS.pmemAllocate k).1 ≠ 0) :
    ∃ nested, (k.core.kernelDataVmemRegion ≠ some r → nested = []) ∧
      Gains r ((BubackOS.pmemAllocate k).1 :: nested) ((BubackOS.pmemAllocate k).1 :: nested) (nested.length + 1)
        (k.spaces r * (nested.length + 1)) k
        (vmemRegionAssocPhysicalAddress kalloc r (BubackOS.pmemAllocate k).1 (BubackOS.pmemAllocate k).2).2 := by
  obtain ⟨page, isPage⟩ : ∃ page, page = (BubackOS.pmemAllocate k).1 := ⟨_, rfl⟩
  obtain ⟨begun, isBegun⟩ : ∃ begun, begun = (BubackOS.pmemAllocate k).2.beginAssociate r page := ⟨_, rfl⟩
  have frame : Frame k begun := isBegun ▸ (Frame.pmemAllocate k).trans (Frame.beginAssociate r page _)
  have region : begun.region r = { k.region r with
      allocatedSize := wrap ((k.region r).allocatedSize + systemPageSize) } := by
    rw [isBegun, region_beginAssociate_self, region_pmemAllocate]
  have vmem : ∀ v, begun.vmem v = k.vmem v := fun v => by
    rw [isBegun]
    exact vmem_pmemAllocate v k
  have associations : begun.core.associations = k.core.associations := by
    rw [isBegun]
    exact associations_pmemAllocate k
  have spent := isBegun ▸ grow_freePages r page found
  have unlisted : begun.unlisted r = k.unlisted r := by rw [Kernel.unlisted, associations, Kernel.unlisted]
  have unmapped : begun.unmapped r = k.unmapped r := by rw [Kernel.unmapped, associations, Kernel.unmapped]
  have notes : begun.notes r = k.notes r := by
    unfold Kernel.notes
    rw [frame.attached]
    exact Finset.sum_congr rfl fun v _ => by rw [vmem]
  obtain ⟨nested, stored, noted, none, few, rest, perm, entries⟩ := rest calls page (BubackOS.pmemAllocate k).2
  rw [← isPage]
  rw [← isBegun] at rest
  generalize (vmemRegionAssocPhysicalAddress kalloc r page (BubackOS.pmemAllocate k).2).2 = last at rest perm entries ⊢
  have unlisted' : (BubackOS.pmemAllocate k).2.unlisted r = k.unlisted r := by rw [← unlisted, isBegun]; rfl
  have unmapped' : (BubackOS.pmemAllocate k).2.unmapped r = k.unmapped r := by rw [← unmapped, isBegun]; rfl
  have spaces : (BubackOS.pmemAllocate k).2.spaces r = k.spaces r := by
    rw [Kernel.spaces, region_pmemAllocate, Kernel.spaces]
  rw [unlisted'] at perm
  rw [unmapped', region_pmemAllocate] at entries
  rw [spaces] at few
  have free := rest.free
  have size := rest.size
  have listed := rest.listed
  have notedAll := rest.noted
  have lessListed := rest.unlisted
  have lessMapped := rest.unmapped
  rw [region] at size listed
  rw [unlisted] at lessListed listed
  rw [unmapped] at lessMapped notedAll
  refine ⟨nested, fun other => none ((Frame.pmemAllocate k).kernelData ▸ other), frame.trans rest.frame,
    (MapsGrow.of_map fun v => by rw [vmem]).trans rest.maps, ?_, ?_, fun _ => rest.word ?_, fun some => rest.isSome ?_,
    lessListed, lessMapped, listed, by omega, fun same => ?_, fun same v member i other found => ?_⟩
  · rw [List.length_cons]
    omega
  · rw [List.length_cons, size]
    unfold wrap systemPageSize
    dsimp only
    omega
  · rw [region]
    exact wrap_lt _
  · rw [region]
    exact some
  · have pages := rest.pages (same.trans unlisted.symm)
    rw [region] at pages
    exact pages.trans ((perm same).append_left _)
  · cases i with
    | zero =>
        obtain rfl := Option.some.inj found
        exact entries same v member
    | succ i =>
        have entry := rest.entries (same.trans unmapped.symm) v (frame.attached r ▸ member) i other found
        have place : pageEntry r ((begun.region r).allocatedSize + 4096 * i) other (begun.region r) =
            pageEntry r ((k.region r).allocatedSize + 4096 * (i + 1)) other (k.region r) := by
          rw [region]
          unfold pageEntry wrap systemPageSize
          dsimp only
          rw [VmemMap.mk.injEq]
          exact ⟨by omega, rfl, rfl⟩
        rwa [place] at entry

/-! ## The loop -/

theorem Gains.resizeLoop (calls : ∀ size k, Draws r 0 k (kalloc size k).2) (count : Nat) : ∀ k : Kernel, ∃ placed,
    ((resizeLoop kalloc r count k).1 = true → count ≤ placed.length) ∧
      (k.core.kernelDataVmemRegion ≠ some r → placed.length ≤ count) ∧
      Gains r placed placed placed.length (k.spaces r * placed.length) k (resizeLoop kalloc r count k).2 := by
  induction count with
  | zero => exact fun k => ⟨[], fun _ => Nat.le_refl 0, fun _ => Nat.le_refl 0, .of_core rfl⟩
  | succ count ih =>
      intro k
      by_cases found : (BubackOS.pmemAllocate k).1 = 0
      · have unfolded : BubackOS.resizeLoop kalloc r (count + 1) k = (false, (BubackOS.pmemAllocate k).2) := if_pos found
        rw [unfolded]
        exact ⟨[], fun done => absurd done Bool.false_ne_true, fun _ => Nat.zero_le _, .pmemAllocate k⟩
      · have unfolded : BubackOS.resizeLoop kalloc r (count + 1) k = BubackOS.resizeLoop kalloc r count
            (vmemRegionAssocPhysicalAddress kalloc r (BubackOS.pmemAllocate k).1 (BubackOS.pmemAllocate k).2).2 :=
          if_neg found
        obtain ⟨nested, none, first⟩ := Gains.associate calls found
        obtain ⟨placed, enough, few, rest⟩ := ih
          (vmemRegionAssocPhysicalAddress kalloc r (BubackOS.pmemAllocate k).1 (BubackOS.pmemAllocate k).2).2
        rw [unfolded]
        have spaces : (vmemRegionAssocPhysicalAddress kalloc r (BubackOS.pmemAllocate k).1
            (BubackOS.pmemAllocate k).2).2.spaces r = k.spaces r := by
          rw [Kernel.spaces, first.frame.attached, Kernel.spaces]
        have all := first.trans rest
        rw [spaces, ← Nat.mul_add] at all
        refine ⟨(BubackOS.pmemAllocate k).1 :: nested ++ placed, fun done => ?_, fun other => ?_, ?_⟩
        · have more := enough done
          rw [List.length_append, List.length_cons]
          omega
        · have least := few (first.frame.kernelData ▸ other)
          rw [none other, List.length_append, List.length_singleton]
          omega
        · rw [List.length_append, List.length_cons]
          exact all

namespace Draws

variable (calls : ∀ size k, Draws r 0 k (kalloc size k).2)

include calls

/-- A region grows that is not the one looked at, or is the kernel-data region. -/
theorem vmemRegionResize (isData : s = r → k.core.kernelDataVmemRegion = some r) (newSize : Nat) :
    Draws r 0 k (vmemRegionResize kalloc (some s) newSize k).2 := by
  have sized : ∀ (size : VmemRegion → Nat) (k : Kernel),
      Draws r 0 k (k.modifyRegion s fun region => { region with size := size region }) :=
    fun size k => of_gains (.modifyRegion rfl rfl (fun _ => rfl) fun _ => rfl)
  by_cases same : s = r
  · subst same
    rw [vmemRegionResize_eq, adoptSize_eq]
    split
    · exact (sized (fun _ => newSize) k).after (sized _ _)
    · obtain ⟨placed, -, -, gains⟩ := Gains.resizeLoop calls (missingPages newSize (k.region s)) k
      exact after ⟨placed, fun other => absurd (isData rfl) other, gains⟩ (sized _ _)
  · have taken : ∀ k, Draws r 0 k (pmemAllocate k).2 := fun k => of_gains (.pmemAllocate k)
    exact Resizing.resize ⟨fun _ => of_gains (.of_core rfl), after, fun {k} _ => taken k,
      fun {k} _ => (taken k).after (associate_of_ne calls same _ _), sized⟩ newSize k

end Draws

theorem draws_closed (r : Nat) : CallClosed (Draws r 0) where
  toHeapClosed := .of_core Draws.after fun core => .of_gains (.of_core core)
  resize := by
    intro nested honest calls k s isData newSize
    exact Draws.vmemRegionResize calls (fun same => same ▸ isData) newSize

/-- Whichever requests are refused. -/
theorem refuseWhen_draws (r : Nat) (fails : Nat → Kernel → Bool) (size : Nat) (k : Kernel) :
    Draws r 0 k (refuseWhen fails BubackOS.kalloc size k).2 :=
  refuseWhen_calls (draws_closed r).kalloc (draws_closed r).refuse fails size k

/-! ## The size -/

/-- A region whose allocated size counts its pages. -/
def Whole (region : VmemRegion) : Prop := region.allocatedSize = 4096 * region.pages.items.length

/-- A region has the size, and pages for all of it. -/
def HasSize (newSize : Nat) (region : VmemRegion) : Prop :=
  region.size = newSize ∧ newSize ≤ region.allocatedSize ∧ Whole region

theorem adoptSize_allocatedSize (newSize : Nat) (region : VmemRegion) :
    (adoptSize newSize region).allocatedSize = region.allocatedSize := by
  rw [adoptSize_eq]

theorem le_alignNext {size : Nat} (fits : size + 4095 < 2 ^ 64) : size ≤ alignNext size systemPageSize := by
  rw [alignNext_eq fits]
  omega

theorem missingPages_whole {newSize : Nat} {region : VmemRegion} (whole : Whole region) :
    alignNext newSize systemPageSize ≤ region.allocatedSize + 4096 * missingPages newSize region := by
  have rounded := alignNext_mod newSize
  unfold missingPages
  unfold Whole at whole
  unfold systemPageSize at rounded ⊢
  split <;> omega

/-- A size the pages can hold is adopted. -/
theorem resize_size {newSize : Nat}
    (enough : newSize ≤ ((vmemRegionResize kalloc (some r) newSize k).2.region r).allocatedSize) :
    ((vmemRegionResize kalloc (some r) newSize k).2.region r).size = newSize := by
  obtain ⟨before, isBefore⟩ : ∃ before : Kernel, (vmemRegionResize kalloc (some r) newSize k).2 =
      before.modifyRegion r (adoptSize newSize) := by
    rw [vmemRegionResize_eq]
    split
    · exact ⟨_, rfl⟩
    · exact ⟨_, rfl⟩
  rw [isBefore, Kernel.region_modifyRegion_self] at enough ⊢
  rw [adoptSize_allocatedSize] at enough
  rw [adoptSize, if_pos enough]

/-- What a successful resize gives to the region: at least the missing pages, and exactly those unless `kalloc`
grows the region as well. -/
theorem resize_gains (calls : ∀ size k, Draws r 0 k (kalloc size k).2) {newSize : Nat}
    (bound : (k.region r).allocatedSize < 2 ^ 64)
    (room : k.core.kernelDataVmemRegion = some r → (k.region r).allocatedSize + 4096 * k.core.pmem.freePages < 2 ^ 64)
    {resized : Bool × Kernel} (isResized : resized = vmemRegionResize kalloc (some r) newSize k)
    (done : resized.1 = true) :
    ∃ placed, missingPages newSize (k.region r) ≤ placed.length ∧
      (k.core.kernelDataVmemRegion ≠ some r → placed.length ≤ missingPages newSize (k.region r)) ∧
      Gains r placed placed placed.length (k.spaces r * placed.length) k resized.2 ∧
      (resized.2.region r).allocatedSize = (k.region r).allocatedSize + 4096 * placed.length := by
  have adopted : ∀ k : Kernel, Gains r [] [] 0 0 k (k.modifyRegion r (adoptSize newSize)) := fun k => by
    refine .modifyRegion ?_ ?_ (fun _ => ?_) fun _ => ?_
    all_goals rw [adoptSize_eq]
  have exact : ∀ {placed : List Nat} {k'}, Gains r placed placed placed.length (k.spaces r * placed.length) k k' →
      (k.region r).allocatedSize + 4096 * placed.length < 2 ^ 64 →
      (k'.region r).allocatedSize = (k.region r).allocatedSize + 4096 * placed.length := by
    intro placed k' gains fits
    have size := gains.size
    rwa [wrap_of_lt (gains.word bound), wrap_of_lt fits] at size
  rw [vmemRegionResize_eq] at isResized
  by_cases shrinks : alignNext newSize systemPageSize < (k.region r).allocatedSize
  · have none : missingPages newSize (k.region r) = 0 := if_pos shrinks
    rw [if_pos shrinks] at isResized
    have sized : Gains r [] [] 0 0 k (k.modifyRegion r fun region => { region with size := newSize }) :=
      .modifyRegion rfl rfl (fun _ => rfl) fun _ => rfl
    have gains := sized.trans (adopted _)
    refine ⟨[], Nat.le_of_eq none, fun _ => Nat.zero_le _, isResized ▸ gains, exact (isResized ▸ gains) bound⟩
  · rw [if_neg shrinks] at isResized
    obtain ⟨placed, enough, few, loop⟩ := Gains.resizeLoop calls (missingPages newSize (k.region r)) k
    have gains := loop.trans (adopted _)
    rw [List.append_nil, Nat.add_zero, Nat.add_zero] at gains
    have fits : (k.region r).allocatedSize + 4096 * placed.length < 2 ^ 64 := by
      by_cases isData : k.core.kernelDataVmemRegion = some r
      · have spent := loop.free
        have limit := room isData
        omega
      · have least := few isData
        have whole := missingPages_fits shrinks
        have limit := alignNext_lt newSize
        omega
    rw [isResized] at done ⊢
    exact ⟨placed, enough done, few, gains, exact gains fits⟩

/-- The pages below the allocated size are those in the list, and each is noted at its address in the map of every
address space of the region. -/
def Recorded (r : Nat) (k : Kernel) : Prop :=
  ∃ order : List Nat, order.Perm (k.region r).pages.items ∧ (k.region r).allocatedSize = 4096 * order.length ∧
    ∀ i page, order[i]? = some page → ∀ v ∈ (k.region r).attached.items,
      pageEntry r (4096 * i) page (k.region r) ∈ (k.vmem v).map.items

/-- The entries of pages at different addresses of memory are different. -/
theorem nodup_pageEntry (order : List Nat) (region : VmemRegion) (fits : 4096 * order.length < 2 ^ 64) :
    ((List.range order.length).map fun i => pageEntry r (4096 * i) (order.getD i 0) region).Nodup := by
  refine List.Nodup.map_on (fun i small j small' same => ?_) List.nodup_range
  have address := congrArg VmemMap.virtualAddr same
  rw [List.mem_range] at small small'
  unfold pageEntry wrap at address
  dsimp only at address
  omega

/-- A recorded region has an entry for each page in each of its maps. -/
theorem Recorded.notes (recorded : Recorded r k) (bound : (k.region r).allocatedSize < 2 ^ 64)
    (distinct : (k.region r).attached.items.Nodup) : k.spaces r * (k.region r).pages.items.length ≤ k.notes r := by
  obtain ⟨order, perm, size, entries⟩ := recorded
  have each : ∀ v ∈ (k.region r).attached.items.toFinset,
      order.length ≤ (k.vmem v).map.items.countP (·.region = r) := by
    intro v member
    rw [List.mem_toFinset] at member
    have different := nodup_pageEntry (r := r) order (k.region r) (size ▸ bound)
    have part : (List.range order.length).map (fun i => pageEntry r (4096 * i) (order.getD i 0) (k.region r)) ⊆
        (k.vmem v).map.items.filter (·.region = r) := by
      intro entry listed
      obtain ⟨i, small, rfl⟩ := List.mem_map.mp listed
      rw [List.mem_range] at small
      refine List.mem_filter.mpr ⟨entries i _ ?_ v member, decide_eq_true rfl⟩
      rw [List.getD_eq_getElem?_getD, List.getElem?_eq_getElem small, Option.getD_some]
    have counted := (List.subperm_of_subset different part).length_le
    rwa [List.length_map, List.length_range, ← List.countP_eq_length_filter] at counted
  have total := Finset.card_nsmul_le_sum _ _ _ each
  rw [List.toFinset_card_of_nodup distinct, perm.length_eq] at total
  exact total

/-- Pages of which each got its node and its entries are recorded behind the recorded ones. -/
theorem Gains.recorded (gains : Gains r placed placed l e k k') (recorded : Recorded r k)
    (size : (k'.region r).allocatedSize = (k.region r).allocatedSize + 4096 * placed.length)
    (unlisted : k'.unlisted r = k.unlisted r) (unmapped : k'.unmapped r = k.unmapped r) : Recorded r k' := by
  obtain ⟨order, perm, allocated, entries⟩ := recorded
  have start : ∀ offset page, pageEntry r offset page (k'.region r) = pageEntry r offset page (k.region r) :=
    fun offset page => by rw [pageEntry, gains.frame.start, pageEntry]
  refine ⟨order ++ placed, (perm.append_right placed).trans (gains.pages unlisted).symm, ?_,
    fun i page found v member => ?_⟩
  · rw [size, allocated, List.length_append, Nat.mul_add]
  · rw [gains.frame.attached] at member
    rw [start]
    by_cases early : i < order.length
    · rw [List.getElem?_append_left early] at found
      exact gains.maps.mem (entries i page found v member)
    · rw [List.getElem?_append_right (Nat.le_of_not_lt early)] at found
      have entry := gains.entries unmapped v member _ page found
      have address : (k.region r).allocatedSize + 4096 * (i - order.length) = 4096 * i := by omega
      rwa [address] at entry

end BubackOS

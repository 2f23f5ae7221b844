import BubackOS.Core.DataGrowth

/-!
# Every page is granted once

`vmem_region_resize` takes each page from the page allocator and grants it to one region.  A grant of
`vmem_region_map_physical_address` is of a page the caller names.  While nothing is released, the pages
taken for grants are all different, whichever regions they are for.
-/

namespace BubackOS

open Library

variable {kalloc : Kalloc} {A B T : Set Nat} {N M : Nat} {k k' k'' : Kernel} {r s : Nat} {given others : List Nat}

/-! ## Pages taken -/

/-- No page becomes free. -/
def Spends (k k' : Kernel) : Prop := ∀ i, k'.core.pmem.pages i = .free → k.core.pmem.pages i = .free

theorem Spends.trans (first : Spends k k') (second : Spends k' k'') : Spends k k'' :=
  fun i free => first i (second i free)

theorem Spends.of_pmem (pmem : k'.core.pmem = k.core.pmem) : Spends k k' := by
  intro i free
  rw [← pmem]
  exact free

/-- The page the allocator hands out was free, and no other page changes. -/
theorem pmemAllocate_page (found : (pmemAllocate k).1 ≠ 0) :
    ∃ page, (pmemAllocate k).1 = 4096 * page ∧ k.core.pmem.pages page = .free ∧
      ∀ i, (pmemAllocate k).2.core.pmem.pages i = if i = page then .user else k.core.pmem.pages i := by
  have success := found
  rw [pmemAllocate_fst] at success
  obtain ⟨page, address, -, -, free, -, after⟩ := Pmem.allocate_page success
  refine ⟨page, ?_, free, fun i => ?_⟩
  · rw [pmemAllocate_fst, address, Nat.mul_comm]
  · rw [pmemAllocate_of_success found]
    exact after i

theorem pmemAllocate_pmem_of_failure (failed : (pmemAllocate k).1 = 0) :
    (pmemAllocate k).2.core.pmem = k.core.pmem := by
  rw [pmemAllocate_of_failure failed]
  rw [pmemAllocate_fst] at failed
  exact Pmem.allocate_of_zero failed

theorem Spends.pmemAllocate (k : Kernel) : Spends k (pmemAllocate k).2 := by
  by_cases failed : (BubackOS.pmemAllocate k).1 = 0
  · exact of_pmem (pmemAllocate_pmem_of_failure failed)
  · obtain ⟨page, -, -, after⟩ := pmemAllocate_page failed
    intro i free
    rw [after] at free
    split at free
    · cases free
    · exact free

/-- The page was free and is not any more. -/
def Took (page : Nat) (k k' : Kernel) : Prop :=
  ∃ i, page = 4096 * i ∧ k.core.pmem.pages i = .free ∧ k'.core.pmem.pages i ≠ .free

theorem Took.pmemAllocate (found : (pmemAllocate k).1 ≠ 0) : Took (pmemAllocate k).1 k (pmemAllocate k).2 := by
  obtain ⟨page, address, free, after⟩ := pmemAllocate_page found
  refine ⟨page, address, free, ?_⟩
  rw [after, if_pos rfl]
  decide

/-- Who leaves the page allocator alone takes nothing. -/
theorem Took.elim {page : Nat} {p : Prop} (pmem : k'.core.pmem = k.core.pmem) (taken : Took page k k') : p := by
  obtain ⟨i, -, free, now⟩ := taken
  rw [pmem] at now
  exact absurd free now

theorem Took.later {page : Nat} (taken : Took page k k') (spends : Spends k' k'') : Took page k k'' := by
  obtain ⟨i, address, free, now⟩ := taken
  exact ⟨i, address, free, fun again => now (spends i again)⟩

theorem Took.earlier {page : Nat} (taken : Took page k' k'') (spends : Spends k k') : Took page k k'' := by
  obtain ⟨i, address, free, now⟩ := taken
  exact ⟨i, address, spends i free, now⟩

/-- A page is taken only once. -/
theorem Took.ne {page other : Nat} (first : Took page k k') (second : Took other k' k'') : page ≠ other := by
  obtain ⟨i, rfl, -, now⟩ := first
  obtain ⟨j, rfl, free, -⟩ := second
  intro same
  obtain rfl : i = j := Nat.eq_of_mul_eq_mul_left (by decide) same
  exact now free

/-! ## Grants -/

/-- The region and the page of an association. -/
def Event.grant : Event → Option (Nat × Nat)
  | .associate region paddr _ _ => some (region, paddr)
  | .outOfPages => none

/-- All grants so far, the last one first. -/
def Kernel.grants (k : Kernel) : List (Nat × Nat) := k.core.trace.filterMap Event.grant

/-- The page of a grant to the region. -/
def grantFor (r : Nat) (grant : Nat × Nat) : Option Nat := if grant.1 = r then some grant.2 else none

theorem grantFor_eq_some {grant : Nat × Nat} {page : Nat} : grantFor r grant = some page ↔ grant = (r, page) := by
  obtain ⟨region, granted⟩ := grant
  unfold grantFor
  by_cases here : region = r <;> simp [here]

theorem handed_eq_grants (r : Nat) (k : Kernel) : k.handed r = k.grants.filterMap (grantFor r) := by
  unfold Kernel.handed Kernel.grants
  rw [List.filterMap_filterMap]
  refine List.filterMap_congr fun event _ => ?_
  cases event <;> rfl

/-- What is granted to regions outside `A` are pages taken meanwhile, each granted once, and every page
taken is granted. -/
structure Grants (A : Set Nat) (k k' : Kernel) : Prop where
  spends : Spends k k'
  granted : ∃ more, k'.grants = more ++ k.grants ∧ (∀ grant ∈ more, grant.1 ∉ A → Took grant.2 k k') ∧
    more.Pairwise (fun grant other => grant.1 ∉ A → other.1 ∉ A → grant.2 ≠ other.2) ∧
    ∀ page, Took page k k' → ∃ s, (s, page) ∈ more

namespace Grants

theorem trans (first : Grants A k k') (second : Grants A k' k'') : Grants A k k'' := by
  obtain ⟨before, isBefore, tookBefore, apartBefore, allBefore⟩ := first.granted
  obtain ⟨after, isAfter, tookAfter, apartAfter, allAfter⟩ := second.granted
  refine ⟨first.spends.trans second.spends, after ++ before, ?_, fun grant member outside => ?_, ?_, ?_⟩
  · rw [isAfter, isBefore, List.append_assoc]
  · rcases List.mem_append.mp member with later | earlier
    · exact (tookAfter grant later outside).earlier first.spends
    · exact (tookBefore grant earlier outside).later second.spends
  · refine List.pairwise_append.mpr ⟨apartAfter, apartBefore, fun grant later other earlier outside outside' => ?_⟩
    exact ((tookBefore other earlier outside').ne (tookAfter grant later outside)).symm
  · rintro page ⟨i, address, free, now⟩
    by_cases still : k'.core.pmem.pages i = .free
    · obtain ⟨s, member⟩ := allAfter page ⟨i, address, still, now⟩
      exact ⟨s, List.mem_append_left before member⟩
    · obtain ⟨s, member⟩ := allBefore page ⟨i, address, free, still⟩
      exact ⟨s, List.mem_append_right after member⟩

theorem of_grants (pmem : k'.core.pmem = k.core.pmem) (grants : k'.grants = k.grants) : Grants A k k' :=
  ⟨.of_pmem pmem, [], grants, fun _ member => absurd member List.not_mem_nil, .nil, fun _ taken => taken.elim pmem⟩

theorem of_pmem (pmem : k'.core.pmem = k.core.pmem) (trace : k'.core.trace = k.core.trace) : Grants A k k' :=
  of_grants pmem (by rw [Kernel.grants, Kernel.grants, trace])

theorem of_core (core : k'.core = k.core) : Grants A k k' := of_pmem (by rw [core]) (by rw [core])

theorem refl (k : Kernel) : Grants A k k := of_core rfl

theorem mono (grants : Grants A k k') (more : A ⊆ B) : Grants B k k' := by
  obtain ⟨new, isNew, took, apart, all⟩ := grants.granted
  exact ⟨grants.spends, new, isNew, fun grant member outside => took grant member fun inside => outside (more inside),
    apart.imp fun {_ _} different outside outside' =>
      different (fun inside => outside (more inside)) fun inside => outside' (more inside), all⟩

theorem pmemAllocate_grants (k : Kernel) : (pmemAllocate k).2.grants = k.grants :=
  pmemAllocate_cases (P := fun k' => k'.grants = k.grants) rfl rfl

theorem exhaust (failed : (pmemAllocate k).1 = 0) : Grants A k (pmemAllocate k).2 :=
  of_grants (pmemAllocate_pmem_of_failure failed) (pmemAllocate_grants k)

theorem grow (r : Nat) (found : (pmemAllocate k).1 ≠ 0) :
    Grants A k ((pmemAllocate k).2.beginAssociate r (pmemAllocate k).1) := by
  refine ⟨Spends.pmemAllocate k, [(r, (pmemAllocate k).1)], ?_, fun grant member _ => ?_,
    List.pairwise_singleton _ _, ?_⟩
  · exact congrArg ((r, (pmemAllocate k).1) :: ·) (pmemAllocate_grants k)
  · rw [List.mem_singleton.mp member]
    exact Took.pmemAllocate found
  · rintro page ⟨i, rfl, free, taken⟩
    obtain ⟨isPage, address, -, after⟩ := pmemAllocate_page found
    have same : i = isPage := by
      by_contra other
      exact taken ((after i).trans ((if_neg other).trans free))
    exact ⟨r, by rw [address, same]; exact List.mem_singleton_self _⟩

theorem associate (target : r ∈ A) (paddr : Nat) : Grants A k (k.beginAssociate r paddr) := by
  refine ⟨.of_pmem rfl, [(r, paddr)], rfl, fun grant member outside => ?_, List.pairwise_singleton _ _,
    fun _ taken => taken.elim rfl⟩
  rw [List.mem_singleton.mp member] at outside
  exact absurd target outside

theorem transition (calls : ∀ size, Grants A k (kalloc size k).2) (targets : T ⊆ A)
    (step : Transition kalloc N M T k k') : Grants A k k' := by
  cases step with
  | table step =>
      cases step with
      | call size => exact calls size
      | write => exact of_core rfl
      | native => exact of_pmem rfl rfl
  | associate paddr target => exact associate (targets target) paddr
  | grow found => exact grow _ found
  | exhaust failed => exact exhaust failed
  | _ => exact of_pmem rfl rfl

/-- Whatever is granted outside the regions that get pages by their address. -/
theorem path (calls : ∀ size k, Grants ∅ k (kalloc size k).2) (path : Path kalloc N M A k k') : Grants A k k' := by
  induction path with
  | refl => exact refl k
  | tail _ step ih => exact ih.trans (transition (fun size => (calls size _).mono (Set.empty_subset A)) subset_rfl step)

/-! ## Growing a region -/

theorem associate_rest (calls : ∀ size k, Grants ∅ k (kalloc size k).2) (r paddr : Nat) (k : Kernel) :
    Grants ∅ (k.beginAssociate r paddr) (vmemRegionAssocPhysicalAddress kalloc r paddr k).2 := by
  have notified : Path kalloc 0 0 ∅ _ (notifyPage kalloc r paddr k).2 := (notifyPage_notifyPath r paddr k).path
  rw [vmemRegionAssocPhysicalAddress_snd]
  refine trans ?_ (path calls notified)
  exact linkedlistAppend_snd (refl _) (calls _ _) ((calls _ _).trans (of_pmem rfl rfl))

theorem vmemRegionResize (calls : ∀ size k, Grants ∅ k (kalloc size k).2) (r newSize : Nat) (k : Kernel) :
    Grants ∅ k (vmemRegionResize kalloc (some r) newSize k).2 :=
  Resizing.resize ⟨refl, trans, exhaust, fun found => (grow r found).trans (associate_rest calls r _ _),
    fun _ _ => of_pmem rfl rfl⟩ newSize k

end Grants

theorem grants_closed : CallClosed (Grants ∅) where
  toHeapClosed := .of_core Grants.trans Grants.of_core
  resize := by
    intro nested _ calls k r _ newSize
    exact Grants.vmemRegionResize calls r newSize k

/-! ## What the grants say about a region -/

namespace Grants

/-- The pages handed to a region are those of its grants. -/
theorem handed (grants : Grants A k k') : ∃ more : List (Nat × Nat), (∀ grant ∈ more, grant.1 ∉ A → Took grant.2 k k') ∧
    more.Pairwise (fun grant other => grant.1 ∉ A → other.1 ∉ A → grant.2 ≠ other.2) ∧
    ∀ r, k'.handed r = more.filterMap (grantFor r) ++ k.handed r := by
  obtain ⟨more, isMore, took, apart, -⟩ := grants.granted
  refine ⟨more, took, apart, fun r => ?_⟩
  rw [handed_eq_grants, isMore, List.filterMap_append, ← handed_eq_grants]

theorem took (grants : Grants A k k') (outside : s ∉ A) (isGiven : k'.handed s = given ++ k.handed s) :
    ∀ page ∈ given, Took page k k' := by
  intro page member
  obtain ⟨more, took, -, handed⟩ := grants.handed
  rw [List.append_cancel_right (isGiven.symm.trans (handed s)), List.mem_filterMap] at member
  obtain ⟨grant, here, isPage⟩ := member
  obtain rfl := grantFor_eq_some.mp isPage
  exact took _ here outside

/-- A page taken was handed to a region. -/
theorem taken {page : Nat} (grants : Grants A k k') (took : Took page k k') :
    ∃ s more, k'.handed s = more ++ k.handed s ∧ page ∈ more := by
  obtain ⟨more, isMore, -, -, all⟩ := grants.granted
  obtain ⟨s, member⟩ := all page took
  refine ⟨s, more.filterMap (grantFor s), ?_, List.mem_filterMap.mpr ⟨_, member, grantFor_eq_some.mpr rfl⟩⟩
  rw [handed_eq_grants, isMore, List.filterMap_append, ← handed_eq_grants]

end Grants

/-- The last pages the region got were taken for it: each once, and none of them for another region. -/
structure Acquires (r : Nat) (given : List Nat) (k k' : Kernel) : Prop where
  handed : given.reverse <+: k'.handed r
  nodup : given.Nodup
  took : ∀ page ∈ given, Took page k k'
  apart : ∀ s ≠ r, ∀ others, k'.handed s = others ++ k.handed s → ∀ page ∈ given, page ∉ others

/-- What a region gets while no page is granted by its address. -/
theorem Grants.acquires (grants : Grants ∅ k k') (isGiven : k'.handed r = given.reverse ++ k.handed r) :
    Acquires r given k k' := by
  have took := grants.took (Set.notMem_empty r) isGiven
  obtain ⟨more, -, apart, handed⟩ := grants.handed
  have isReverse : given.reverse = more.filterMap (grantFor r) :=
    List.append_cancel_right (isGiven.symm.trans (handed r))
  have pages : (more.map Prod.snd).Nodup :=
    List.pairwise_map.mpr (apart.imp fun distinct => distinct (Set.notMem_empty _) (Set.notMem_empty _))
  refine ⟨⟨_, isGiven.symm⟩, ?_, fun page member => took page (List.mem_reverse.mpr member),
    fun s other others isOthers page member member' => ?_⟩
  · rw [← List.nodup_reverse, isReverse]
    refine List.Pairwise.filterMap _ (fun grant grant' different page isPage page' isPage' => ?_) apart
    obtain rfl := grantFor_eq_some.mp isPage
    obtain rfl := grantFor_eq_some.mp isPage'
    exact different (Set.notMem_empty _) (Set.notMem_empty _)
  · rw [← List.mem_reverse, isReverse, List.mem_filterMap] at member
    rw [List.append_cancel_right (isOthers.symm.trans (handed s)), List.mem_filterMap] at member'
    obtain ⟨grant, here, isPage⟩ := member
    obtain ⟨grant', here', isPage'⟩ := member'
    obtain rfl := grantFor_eq_some.mp isPage
    obtain rfl := grantFor_eq_some.mp isPage'
    exact other (congrArg Prod.fst (List.inj_on_of_nodup_map pages here' here rfl))

/-- Other regions got other pages before as well. -/
theorem Acquires.earlier {k₀ : Kernel} (acquires : Acquires r given k k') (before : Grants {r} k₀ k)
    (after : Grants {r} k k') : Acquires r given k₀ k' := by
  refine ⟨acquires.handed, acquires.nodup, fun page member => (acquires.took page member).earlier before.spends,
    fun s other others isOthers page member member' => ?_⟩
  obtain ⟨first, -, -, isFirst⟩ := before.handed
  obtain ⟨second, -, -, isSecond⟩ := after.handed
  have split := isOthers
  rw [isSecond, isFirst, ← List.append_assoc] at split
  rw [← List.append_cancel_right split, List.mem_append] at member'
  rcases member' with late | early
  · exact acquires.apart s other _ (isSecond s) page member late
  · exact (before.took other (isFirst s) page early).ne (acquires.took page member) rfl

end BubackOS

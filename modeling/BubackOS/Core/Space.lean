import BubackOS.Core.State
import Mathlib.Logic.Function.Basic
import Mathlib.Data.List.Nodup
import Mathlib.Logic.Relation

/-!
# Address spaces and regions as what they are for

A region is a sequence of physical pages with a virtual start; attaching it to an
address space makes its pages appear there one after the other.  This is the
component without memory, allocator or page tables: five kinds of lists, and the
operations that keep them coherent.
-/

namespace BubackOS

/-- The lists and sizes the vmem services keep. -/
structure Space where
  vmemCount : Nat
  regionCount : Nat
  regions : Nat → List Nat
  map : Nat → List VmemMap
  attached : Nat → List Nat
  pages : Nat → List Nat
  start : Nat → Nat
  size : Nat → Nat
  allocated : Nat → Nat

namespace Space

/-- The entries the pages of a region give in an address space. -/
def entries (start r : Nat) (pages : List Nat) : List VmemMap :=
  pages.mapIdx fun i page => { virtualAddr := start + 4096 * i, physicalAddr := page, region := r }

/-- Put a page at the end of a region, in every address space the region is attached to. -/
def associate (r page : Nat) (s : Space) : Space :=
  { s with
    pages := Function.update s.pages r (s.pages r ++ [page])
    allocated := Function.update s.allocated r (s.allocated r + 4096)
    map := fun v =>
      if v ∈ s.attached r then
        s.map v ++ [{ virtualAddr := s.start r + s.allocated r, physicalAddr := page, region := r }]
      else s.map v }

/-- Declare how much of a region is in use. -/
def setSize (r newSize : Nat) (s : Space) : Space :=
  { s with size := Function.update s.size r newSize }

/-- Make the pages of a region appear in an address space. -/
def attach (v r : Nat) (s : Space) : Space :=
  if r ∈ s.regions v then s
  else
    { s with
      regions := Function.update s.regions v (s.regions v ++ [r])
      attached := Function.update s.attached r (s.attached r ++ [v])
      map := Function.update s.map v (s.map v ++ entries (s.start r) r (s.pages r)) }

/-- A new region without pages. -/
def newRegion (start : Nat) (s : Space) : Space :=
  { s with
    regionCount := s.regionCount + 1
    attached := Function.update s.attached s.regionCount []
    pages := Function.update s.pages s.regionCount []
    start := Function.update s.start s.regionCount start
    size := Function.update s.size s.regionCount 0
    allocated := Function.update s.allocated s.regionCount 0 }

/-- A new address space without regions. -/
def newVmem (s : Space) : Space :=
  { s with
    vmemCount := s.vmemCount + 1
    regions := Function.update s.regions s.vmemCount []
    map := Function.update s.map s.vmemCount [] }

/-- The two sides of the attachment agree. -/
structure Linked (s : Space) : Prop where
  symmetric : ∀ v r, r ∈ s.regions v ↔ v ∈ s.attached r
  regionsNodup : ∀ v, (s.regions v).Nodup
  attachedNodup : ∀ r, (s.attached r).Nodup
  known : ∀ v r, r ∈ s.regions v → v < s.vmemCount ∧ r < s.regionCount

/-- The lists agree with each other. -/
structure Coherent (s : Space) : Prop where
  allocated : ∀ r, s.allocated r = 4096 * (s.pages r).length
  size : ∀ r, s.size r ≤ s.allocated r
  symmetric : ∀ v r, r ∈ s.regions v ↔ v ∈ s.attached r
  regionsNodup : ∀ v, (s.regions v).Nodup
  attachedNodup : ∀ r, (s.attached r).Nodup
  mapped : ∀ v r, v ∈ s.attached r →
    (s.map v).filter (·.region = r) = entries (s.start r) r (s.pages r)
  unmapped : ∀ v r, v ∉ s.attached r → (s.map v).filter (·.region = r) = []
  known : ∀ v r, r ∈ s.regions v → v < s.vmemCount ∧ r < s.regionCount

variable {s : Space}

theorem entries_concat (start r page : Nat) (pages : List Nat) :
    entries start r (pages ++ [page]) = entries start r pages ++
      [{ virtualAddr := start + 4096 * pages.length, physicalAddr := page, region := r }] := by
  simp [entries, List.mapIdx_append]

theorem filter_entries_self (start r : Nat) (pages : List Nat) :
    (entries start r pages).filter (·.region = r) = entries start r pages := by
  rw [List.filter_eq_self]
  intro entry member
  obtain ⟨i, bound, rfl⟩ := List.mem_mapIdx.mp member
  simp

theorem filter_entries_other {start r r' : Nat} {pages : List Nat} (other : r' ≠ r) :
    (entries start r pages).filter (·.region = r') = [] := by
  rw [List.filter_eq_nil_iff]
  intro entry member
  obtain ⟨i, bound, rfl⟩ := List.mem_mapIdx.mp member
  simp [other.symm]

namespace Linked

theorem attach (linked : Linked s) {v r : Nat} (knownV : v < s.vmemCount)
    (knownR : r < s.regionCount) : Linked (s.attach v r) := by
  by_cases already : r ∈ s.regions v
  · rw [Space.attach, if_pos already]
    exact linked
  · have free : v ∉ s.attached r := fun member => already ((linked.symmetric v r).mpr member)
    rw [Space.attach, if_neg already]
    constructor
    · intro v' r'
      have before := linked.symmetric v' r'
      by_cases sameV : v' = v <;> by_cases sameR : r' = r
      · subst sameV sameR
        simp
      · subst sameV
        simp only [Function.update_self, Function.update_of_ne sameR, List.mem_append,
          List.mem_singleton, sameR, or_false]
        exact before
      · subst sameR
        simp only [Function.update_self, Function.update_of_ne sameV, List.mem_append,
          List.mem_singleton, sameV, or_false]
        exact before
      · simp only [Function.update_of_ne sameV, Function.update_of_ne sameR]
        exact before
    · intro v'
      by_cases same : v' = v
      · subst same
        simp only [Function.update_self]
        exact List.Nodup.append (linked.regionsNodup v') (List.nodup_singleton r)
          (by simpa using already)
      · simp only [Function.update_of_ne same]
        exact linked.regionsNodup v'
    · intro r'
      by_cases same : r' = r
      · subst same
        simp only [Function.update_self]
        exact List.Nodup.append (linked.attachedNodup r') (List.nodup_singleton v)
          (by simpa using free)
      · simp only [Function.update_of_ne same]
        exact linked.attachedNodup r'
    · intro v' r' member
      by_cases sameV : v' = v
      · subst sameV
        simp only [Function.update_self, List.mem_append, List.mem_singleton] at member
        rcases member with before | rfl
        · exact linked.known v' r' before
        · exact ⟨knownV, knownR⟩
      · simp only [Function.update_of_ne sameV] at member
        exact linked.known v' r' member

/-- The reference a new region gets is in no list. -/
theorem newRegion_free (linked : Linked s) (v : Nat) :
    s.regionCount ∉ s.regions v ∧ v ∉ s.attached s.regionCount := by
  have free : s.regionCount ∉ s.regions v := fun member =>
    Nat.lt_irrefl _ (linked.known v _ member).2
  exact ⟨free, fun member => free ((linked.symmetric v _).mpr member)⟩

theorem newRegion (linked : Linked s) (start : Nat) : Linked (s.newRegion start) := by
  constructor
  · intro v r
    by_cases new : r = s.regionCount
    · subst new
      simp [Space.newRegion, (linked.newRegion_free v).1]
    · simp only [Space.newRegion, Function.update_of_ne new]
      exact linked.symmetric v r
  · exact linked.regionsNodup
  · intro r
    by_cases new : r = s.regionCount
    · subst new
      simp [Space.newRegion]
    · simp only [Space.newRegion, Function.update_of_ne new]
      exact linked.attachedNodup r
  · intro v r member
    obtain ⟨knownV, knownR⟩ := linked.known v r member
    exact ⟨knownV, Nat.lt_succ_of_lt knownR⟩

/-- The reference a new address space gets is in no list. -/
theorem newVmem_free (linked : Linked s) (r : Nat) :
    r ∉ s.regions s.vmemCount ∧ s.vmemCount ∉ s.attached r := by
  have free : r ∉ s.regions s.vmemCount := fun member => Nat.lt_irrefl _ (linked.known _ r member).1
  exact ⟨free, fun member => free ((linked.symmetric _ r).mpr member)⟩

theorem newVmem (linked : Linked s) : Linked s.newVmem := by
  constructor
  · intro v r
    by_cases new : v = s.vmemCount
    · subst new
      simp [Space.newVmem, (linked.newVmem_free r).2]
    · simp only [Space.newVmem, Function.update_of_ne new]
      exact linked.symmetric v r
  · intro v
    by_cases new : v = s.vmemCount
    · subst new
      simp [Space.newVmem]
    · simp only [Space.newVmem, Function.update_of_ne new]
      exact linked.regionsNodup v
  · exact linked.attachedNodup
  · intro v r member
    by_cases new : v = s.vmemCount
    · subst new
      simp [Space.newVmem] at member
    · simp only [Space.newVmem, Function.update_of_ne new] at member
      obtain ⟨knownV, knownR⟩ := linked.known v r member
      exact ⟨Nat.lt_succ_of_lt knownV, knownR⟩

end Linked

namespace Coherent

theorem linked (coherent : Coherent s) : Linked s :=
  ⟨coherent.symmetric, coherent.regionsNodup, coherent.attachedNodup, coherent.known⟩

theorem associate (coherent : Coherent s) (r page : Nat) : Coherent (s.associate r page) := by
  constructor
  · intro r'
    by_cases same : r' = r
    · subst same
      simp only [Space.associate, Function.update_self, List.length_append, List.length_singleton]
      rw [coherent.allocated]
      omega
    · simp only [Space.associate, Function.update_of_ne same]
      exact coherent.allocated r'
  · intro r'
    by_cases same : r' = r
    · subst same
      simp only [Space.associate, Function.update_self]
      exact Nat.le_trans (coherent.size r') (Nat.le_add_right _ _)
    · simp only [Space.associate, Function.update_of_ne same]
      exact coherent.size r'
  · exact coherent.symmetric
  · exact coherent.regionsNodup
  · exact coherent.attachedNodup
  · intro v r' member
    have here : v ∈ s.attached r' := member
    have before := coherent.mapped v r' here
    by_cases same : r' = r
    · subst same
      simp only [Space.associate, Function.update_self]
      rw [if_pos here, List.filter_append, before, entries_concat, coherent.allocated]
      simp
    · simp only [Space.associate, Function.update_of_ne same]
      split
      · rw [List.filter_append, before]
        simp [Ne.symm same]
      · exact before
  · intro v r' free
    have before := coherent.unmapped v r' free
    simp only [Space.associate]
    split
    · rename_i member
      have other : r ≠ r' := fun same => free (same ▸ member)
      rw [List.filter_append, before]
      simp [other]
    · exact before
  · exact coherent.known

theorem setSize (coherent : Coherent s) {r newSize : Nat} (fits : newSize ≤ s.allocated r) :
    Coherent (s.setSize r newSize) where
  allocated := coherent.allocated
  size := by
    intro r'
    by_cases same : r' = r
    · subst same
      simp only [Space.setSize, Function.update_self]
      exact fits
    · simp only [Space.setSize, Function.update_of_ne same]
      exact coherent.size r'
  symmetric := coherent.symmetric
  regionsNodup := coherent.regionsNodup
  attachedNodup := coherent.attachedNodup
  mapped := coherent.mapped
  unmapped := coherent.unmapped
  known := coherent.known

theorem attach (coherent : Coherent s) {v r : Nat} (knownV : v < s.vmemCount)
    (knownR : r < s.regionCount) : Coherent (s.attach v r) := by
  have linked := coherent.linked.attach knownV knownR
  by_cases already : r ∈ s.regions v
  · rw [Space.attach, if_pos already]
    exact coherent
  · have free : v ∉ s.attached r := fun member => already ((coherent.symmetric v r).mpr member)
    rw [Space.attach, if_neg already] at linked ⊢
    refine ⟨coherent.allocated, coherent.size, linked.symmetric, linked.regionsNodup, linked.attachedNodup,
      ?_, ?_, linked.known⟩
    · intro v' r' member
      by_cases sameV : v' = v <;> by_cases sameR : r' = r
      · subst sameV sameR
        simp only [Function.update_self, List.filter_append, filter_entries_self]
        rw [coherent.unmapped v' r' free, List.nil_append]
      · subst sameV
        simp only [Function.update_of_ne sameR] at member
        simp only [Function.update_self, List.filter_append, filter_entries_other sameR, List.append_nil]
        exact coherent.mapped v' r' member
      · subst sameR
        simp only [Function.update_self, List.mem_append, List.mem_singleton, sameV, or_false] at member
        simp only [Function.update_of_ne sameV]
        exact coherent.mapped v' r' member
      · simp only [Function.update_of_ne sameR] at member
        simp only [Function.update_of_ne sameV]
        exact coherent.mapped v' r' member
    · intro v' r' free'
      by_cases sameV : v' = v <;> by_cases sameR : r' = r
      · subst sameV sameR
        simp at free'
      · subst sameV
        simp only [Function.update_of_ne sameR] at free'
        simp only [Function.update_self, List.filter_append, filter_entries_other sameR, List.append_nil]
        exact coherent.unmapped v' r' free'
      · subst sameR
        simp only [Function.update_self, List.mem_append, List.mem_singleton, sameV, or_false] at free'
        simp only [Function.update_of_ne sameV]
        exact coherent.unmapped v' r' free'
      · simp only [Function.update_of_ne sameR] at free'
        simp only [Function.update_of_ne sameV]
        exact coherent.unmapped v' r' free'

theorem newRegion (coherent : Coherent s) (start : Nat) : Coherent (s.newRegion start) := by
  have linked := coherent.linked.newRegion start
  refine ⟨fun r => ?_, fun r => ?_, linked.symmetric, linked.regionsNodup, linked.attachedNodup,
    fun v r member => ?_, fun v r free => ?_, linked.known⟩
  · by_cases new : r = s.regionCount
    · subst new
      simp [Space.newRegion]
    · simp only [Space.newRegion, Function.update_of_ne new]
      exact coherent.allocated r
  · by_cases new : r = s.regionCount
    · subst new
      simp [Space.newRegion]
    · simp only [Space.newRegion, Function.update_of_ne new]
      exact coherent.size r
  · by_cases new : r = s.regionCount
    · subst new
      simp [Space.newRegion] at member
    · simp only [Space.newRegion, Function.update_of_ne new] at member ⊢
      exact coherent.mapped v r member
  · by_cases new : r = s.regionCount
    · subst new
      exact coherent.unmapped v _ (coherent.linked.newRegion_free v).2
    · simp only [Space.newRegion, Function.update_of_ne new] at free
      exact coherent.unmapped v r free

theorem newVmem (coherent : Coherent s) : Coherent s.newVmem := by
  have linked := coherent.linked.newVmem
  refine ⟨coherent.allocated, coherent.size, linked.symmetric, linked.regionsNodup, linked.attachedNodup,
    fun v r member => ?_, fun v r free => ?_, linked.known⟩
  · have other : v ≠ s.vmemCount := fun new => (coherent.linked.newVmem_free r).2 (new ▸ member)
    simp only [Space.newVmem, Function.update_of_ne other]
    exact coherent.mapped v r member
  · by_cases new : v = s.vmemCount
    · subst new
      simp [Space.newVmem]
    · simp only [Space.newVmem, Function.update_of_ne new]
      exact coherent.unmapped v r free

end Coherent

/-! ## Runs of the operations -/

/-- The pages and addresses of the regions fit the machine: whole pages, none of them page `0`,
in a range that ends by `2 ^ 64`. -/
structure Placed (s : Space) : Prop where
  start : ∀ r, r < s.regionCount → s.start r % 4096 = 0
  pages : ∀ r, r < s.regionCount → ∀ page ∈ s.pages r, page ≠ 0 ∧ page % 4096 = 0
  range : ∀ r, r < s.regionCount → s.start r + s.allocated r ≤ 2 ^ 64
  size : ∀ r, r < s.regionCount → s.allocated r < 2 ^ 64

/-- One operation on objects that exist, within the bounds of the machine. -/
inductive Step : Space → Space → Prop where
  | associate {s : Space} {r page : Nat} (known : r < s.regionCount)
      (good : page ≠ 0 ∧ page % 4096 = 0) (range : s.start r + s.allocated r + 4096 ≤ 2 ^ 64)
      (size : s.allocated r + 4096 < 2 ^ 64) : Step s (s.associate r page)
  | setSize {s : Space} {r newSize : Nat} (fits : newSize ≤ s.allocated r) : Step s (s.setSize r newSize)
  | attach {s : Space} {v r : Nat} (knownV : v < s.vmemCount) (knownR : r < s.regionCount) :
      Step s (s.attach v r)
  | newRegion {s : Space} {start : Nat} (aligned : start % 4096 = 0) (bound : start ≤ 2 ^ 64) :
      Step s (s.newRegion start)
  | newVmem (s : Space) : Step s s.newVmem

/-- Any number of operations. -/
abbrev Steps : Space → Space → Prop := Relation.ReflTransGen Step

theorem Step.coherent {s' : Space} (step : Step s s') (coherent : Coherent s) : Coherent s' := by
  cases step with
  | associate => exact coherent.associate _ _
  | setSize fits => exact coherent.setSize fits
  | attach knownV knownR => exact coherent.attach knownV knownR
  | newRegion => exact coherent.newRegion _
  | newVmem => exact coherent.newVmem

theorem Step.placed {s' : Space} (step : Step s s') (placed : Placed s) : Placed s' := by
  cases step with
  | @associate r page known good range size =>
      refine ⟨placed.start, fun r' bound p member => ?_, fun r' bound => ?_, fun r' bound => ?_⟩
      · by_cases same : r' = r
        · subst same
          simp only [Space.associate, Function.update_self, List.mem_append, List.mem_singleton] at member
          rcases member with before | rfl
          · exact placed.pages r' bound p before
          · exact good
        · simp only [Space.associate, Function.update_of_ne same] at member
          exact placed.pages r' bound p member
      · by_cases same : r' = r
        · subst same
          simp only [Space.associate, Function.update_self]
          exact Nat.add_assoc _ _ _ ▸ range
        · simp only [Space.associate, Function.update_of_ne same]
          exact placed.range r' bound
      · by_cases same : r' = r
        · subst same
          simp only [Space.associate, Function.update_self]
          exact size
        · simp only [Space.associate, Function.update_of_ne same]
          exact placed.size r' bound
  | setSize => exact ⟨placed.start, placed.pages, placed.range, placed.size⟩
  | @attach v r =>
      unfold Space.attach
      split
      · exact placed
      · exact ⟨placed.start, placed.pages, placed.range, placed.size⟩
  | @newRegion start aligned bound =>
      have older : ∀ r, r < s.regionCount + 1 → r ≠ s.regionCount → r < s.regionCount := by omega
      refine ⟨fun r below => ?_, fun r below p member => ?_, fun r below => ?_, fun r below => ?_⟩
      all_goals by_cases new : r = s.regionCount
      · simp only [Space.newRegion, new, Function.update_self]
        exact aligned
      · simp only [Space.newRegion, Function.update_of_ne new]
        exact placed.start r (older r below new)
      · simp [Space.newRegion, new] at member
      · simp only [Space.newRegion, Function.update_of_ne new] at member
        exact placed.pages r (older r below new) p member
      · simp only [Space.newRegion, new, Function.update_self]
        exact bound
      · simp only [Space.newRegion, Function.update_of_ne new]
        exact placed.range r (older r below new)
      · simp only [Space.newRegion, new, Function.update_self]
        omega
      · simp only [Space.newRegion, Function.update_of_ne new]
        exact placed.size r (older r below new)
  | newVmem => exact ⟨placed.start, placed.pages, placed.range, placed.size⟩

theorem Steps.coherent {s' : Space} (steps : Steps s s') (coherent : Coherent s) : Coherent s' := by
  induction steps with
  | refl => exact coherent
  | tail _ step ih => exact step.coherent ih

theorem Steps.placed {s' : Space} (steps : Steps s s') (placed : Placed s) : Placed s' := by
  induction steps with
  | refl => exact placed
  | tail _ step ih => exact step.placed ih

end Space

/-- The lists of a state of the kernel. -/
def Kernel.space (k : Kernel) : Space where
  vmemCount := k.core.vmems.count
  regionCount := k.core.vmemRegions.count
  regions := fun v => (k.vmem v).regions.items
  map := fun v => (k.vmem v).map.items
  attached := fun r => (k.region r).attached.items
  pages := fun r => (k.region r).pages.items
  start := fun r => (k.region r).start
  size := fun r => (k.region r).size
  allocated := fun r => (k.region r).allocatedSize

end BubackOS

import BubackOS.Core.EarlyAlloc
import BubackOS.Hal.Translation

/-!
# A fresh page table, and sequences of mappings

`native_vmem_create` adds an address space whose walks all end at once, and leaves
the other address spaces alone.  From there, after any sequence of
`native_vmem_set` calls, a walk ends at the page of the last call for its address.
-/

namespace BubackOS

open Library

section QuietMapping

variable {S D : Set Nat} {P : Allocator → Prop} {kalloc : Kalloc} {k : Kernel} {v : Nat}

/-- An address space whose page table is about to be created. -/
theorem Intact.insertBlank (intact : Intact S D k) (list : LinkedList Nat) (new : v ∉ S) :
    Intact (insert v S) D
      (k.modifyNative v fun _ => { NativePageTable.zero with allocatedMemory := list }) := by
  obtain ⟨blank, isBlank⟩ : ∃ blank, blank =
      k.modifyNative v fun _ => { NativePageTable.zero with allocatedMemory := list } := ⟨_, rfl⟩
  rw [← isBlank]
  have tables : (blank.native v).tables = [] := by
    rw [isBlank, Kernel.native_modifyNative_self]
    rfl
  have spares : ∀ a, ¬ (blank.native v).Spares a := by
    intro a spare
    rw [isBlank, Kernel.native_modifyNative_self] at spare
    exact absurd spare.2 (by simp [NativePageTable.zero])
  have old : ∀ w ∈ S, blank.native w = k.native w := by
    intro w member
    rw [isBlank]
    exact Kernel.native_modifyNative_of_ne fun same => new (same ▸ member)
  have inOld : ∀ w ∈ insert v S, ∀ table ∈ (blank.native w).tables,
      w ∈ S ∧ table ∈ (k.native w).tables := by
    rintro w (rfl | member) table installed
    · simp [tables] at installed
    · exact ⟨member, old w member ▸ installed⟩
  have inOldSpare : ∀ w ∈ insert v S, ∀ a, (blank.native w).Spares a →
      w ∈ S ∧ (k.native w).Spares a := by
    rintro w (rfl | member) a spare
    · exact absurd spare (spares a)
    · exact ⟨member, old w member ▸ spare⟩
  have mem : blank.mem = k.mem := by rw [isBlank]; rfl
  have alloc : blank.alloc = k.alloc := by rw [isBlank]; rfl
  have region : ∀ r, blank.region r = k.region r := fun r => by rw [isBlank]; rfl
  constructor
  · intro w member table installed
    obtain ⟨member', here⟩ := inOld w member table installed
    exact intact.aligned w member' table here
  · rintro w (rfl | member)
    · rw [isBlank, Kernel.native_modifyNative_self]
      rfl
    · rw [old w member]
      exact intact.spareAligned w member
  · intro w member u member' table installed other installed' a covers covers'
    obtain ⟨inW, here⟩ := inOld w member table installed
    obtain ⟨inU, there⟩ := inOld u member' other installed'
    exact intact.distinct w inW u inU table here other there a covers covers'
  · intro w member u member' table installed a covers spare
    obtain ⟨inW, here⟩ := inOld w member table installed
    obtain ⟨inU, rest⟩ := inOldSpare u member' a spare
    exact intact.apart w inW u inU table here a covers rest
  · intro w member u member' a spare spare'
    obtain ⟨inW, rest⟩ := inOldSpare w member a spare
    obtain ⟨inU, rest'⟩ := inOldSpare u member' a spare'
    exact intact.sparesApart w inW u inU a rest rest'
  · rintro a ⟨w, member, ⟨table, installed, covers⟩ | spare⟩
    · obtain ⟨inW, here⟩ := inOld w member table installed
      rw [alloc]
      exact intact.inLog a ⟨w, inW, Or.inl ⟨table, here, covers⟩⟩
    · obtain ⟨inW, rest⟩ := inOldSpare w member a spare
      rw [alloc]
      exact intact.inLog a ⟨w, inW, Or.inr rest⟩
  · intro w member a spare
    obtain ⟨inW, rest⟩ := inOldSpare w member a spare
    rw [mem]
    exact intact.zero w inW a rest
  · intro w member table installed upper index bound addr found
    obtain ⟨inW, here⟩ := inOld w member table installed
    rw [mem] at found
    rw [old w inW]
    exact intact.children w inW table here upper index bound addr found
  · intro w member table installed other installed' upper upper' i j boundI boundJ addr found found'
    obtain ⟨inW, here⟩ := inOld w member table installed
    obtain ⟨-, there⟩ := inOld w member other installed'
    rw [mem] at found found'
    exact intact.parents w inW table here other there upper upper' i j boundI boundJ addr found found'
  · intro r member w attached
    rw [region] at attached
    obtain ⟨inW, root⟩ := intact.wired r member w attached
    exact ⟨Or.inr inW, by rw [Rooted, old w inW]; exact root⟩

/-- The state in which an unused page has become the root of an address space. -/
def adoptRoot (v page : Nat) (k : Kernel) : Kernel :=
  (k.modifyNative v fun pt => { pt with entries := page }).modifyNative v
    (NativePageTable.install 4 page)

theorem adoptRoot_native_self (k : Kernel) (v page : Nat) :
    (adoptRoot v page k).native v = { k.native v with
      entries := page, tables := { level := 4, addr := page } :: (k.native v).tables } := by
  rw [adoptRoot, Kernel.native_modifyNative_self, Kernel.native_modifyNative_self]
  rfl

theorem adoptRoot_native_of_ne {w page : Nat} (other : w ≠ v) :
    (adoptRoot v page k).native w = k.native w := by
  rw [adoptRoot, Kernel.native_modifyNative_of_ne other, Kernel.native_modifyNative_of_ne other]

theorem adoptRoot_spares {w page a : Nat} :
    ((adoptRoot v page k).native w).Spares a ↔ (k.native w).Spares a := by
  by_cases same : w = v
  · subst same
    rw [adoptRoot_native_self]
    rfl
  · rw [adoptRoot_native_of_ne same]

theorem adoptRoot_installed {w page : Nat} {table : Table}
    (installed : table ∈ ((adoptRoot v page k).native w).tables) :
    w = v ∧ table = { level := 4, addr := page } ∨ table ∈ (k.native w).tables := by
  by_cases same : w = v
  · subst same
    rw [adoptRoot_native_self] at installed
    rcases List.mem_cons.mp installed with new | old
    · exact Or.inl ⟨rfl, new⟩
    · exact Or.inr old
  · rw [adoptRoot_native_of_ne same] at installed
    exact Or.inr installed

theorem installed_adoptRoot {w page : Nat} {table : Table} (installed : table ∈ (k.native w).tables) :
    table ∈ ((adoptRoot v page k).native w).tables := by
  by_cases same : w = v
  · subst same
    rw [adoptRoot_native_self]
    exact List.mem_cons_of_mem _ installed
  · rwa [adoptRoot_native_of_ne same]

theorem adoptRoot_rooted (k : Kernel) (v page : Nat) : Rooted v (adoptRoot v page k) := by
  rw [Rooted, adoptRoot_native_self]
  exact List.mem_cons_self

theorem Intact.adoptRoot (intact : Intact S D k) {page : Nat} (unused : Unused S k page 4096)
    (aligned : page % 4096 = 0) : Intact S D (adoptRoot v page k) := by
  have notCovered : ∀ w ∈ S, ∀ table ∈ (k.native w).tables, ∀ a, table.Covers a → page ≤ a →
      a < page + 4096 → False := fun w member table installed a covers low high =>
    unused.unowned a low high ⟨w, member, Or.inl ⟨table, installed, covers⟩⟩
  have empty : ∀ index, index < 512 → child k.mem page index = none := fun index bound =>
    child_of_zeroed unused.zero bound
  constructor
  · intro w member table installed
    rcases adoptRoot_installed installed with ⟨-, rfl⟩ | old
    · exact aligned
    · exact intact.aligned w member table old
  · intro w member
    by_cases same : w = v
    · subst same
      rw [adoptRoot_native_self]
      exact intact.spareAligned w member
    · rw [adoptRoot_native_of_ne same]
      exact intact.spareAligned w member
  · intro w member u member' table installed other installed' a covers covers'
    rcases adoptRoot_installed installed with ⟨rfl, rfl⟩ | old
    · rcases adoptRoot_installed installed' with ⟨rfl, rfl⟩ | old'
      · exact ⟨rfl, rfl⟩
      · exact (notCovered u member' other old' a covers' covers.1 covers.2).elim
    · rcases adoptRoot_installed installed' with ⟨rfl, rfl⟩ | old'
      · exact (notCovered w member table old a covers covers'.1 covers'.2).elim
      · exact intact.distinct w member u member' table old other old' a covers covers'
  · intro w member u member' table installed a covers spare
    rw [adoptRoot_spares] at spare
    rcases adoptRoot_installed installed with ⟨-, rfl⟩ | old
    · exact unused.unowned a covers.1 covers.2 ⟨u, member', Or.inr spare⟩
    · exact intact.apart w member u member' table old a covers spare
  · simp only [adoptRoot_spares]
    exact intact.sparesApart
  · rintro a ⟨w, member, ⟨table, installed, covers⟩ | spare⟩
    · rcases adoptRoot_installed installed with ⟨-, rfl⟩ | old
      · exact unused.inLog a covers.1 covers.2
      · exact intact.inLog a ⟨w, member, Or.inl ⟨table, old, covers⟩⟩
    · exact intact.inLog a ⟨w, member, Or.inr (adoptRoot_spares.mp spare)⟩
  · intro w member a spare
    rw [adoptRoot_spares] at spare
    exact intact.zero w member a spare
  · intro w member table installed upper index bound addr found
    rcases adoptRoot_installed installed with ⟨-, rfl⟩ | old
    · exact absurd ((empty index bound).symm.trans found) (by simp)
    · exact installed_adoptRoot (intact.children w member table old upper index bound addr found)
  · intro w member table installed other installed' upper upper' i j boundI boundJ addr found found'
    rcases adoptRoot_installed installed with ⟨-, rfl⟩ | old
    · exact absurd ((empty i boundI).symm.trans found) (by simp)
    · rcases adoptRoot_installed installed' with ⟨-, rfl⟩ | old'
      · exact absurd ((empty j boundJ).symm.trans found') (by simp)
      · exact intact.parents w member table old other old' upper upper' i j boundI boundJ addr found
          found'
  · intro r member w attached
    obtain ⟨inW, root⟩ := intact.wired r member w attached
    refine ⟨inW, ?_⟩
    by_cases same : w = v
    · subst same
      exact adoptRoot_rooted k w page
    · rw [Rooted, adoptRoot_native_of_ne same]
      exact root

/-! ## `native_vmem_create` -/

theorem linkedlistAppend_onlyNative (quiet : Quiet P kalloc) (mode : P k.alloc) (data : Nat) :
    OnlyNative v k (linkedlistAppend kalloc (allocatedMemoryOf v) data k).2 := by
  have call : OnlyNative v k (kalloc sizeofLinkedlistNode k).2 := .of_core (quiet.core _ k mode)
  unfold linkedlistAppend
  split
  · exact OnlyNative.refl v k
  · dsimp only
    split
    · exact call
    · exact call.trans (OnlyNative.modifyNative _ v _)

theorem createEntries_onlyNative (quiet : Quiet P kalloc) (mode : P k.alloc) :
    OnlyNative v k (createEntries kalloc v k).2 := by
  by_cases room : 4096 ≤ (k.native v).memAvailableSize
  · rw [createEntries_of_room room]
    exact OnlyNative.modifyNative k v _
  · rw [createEntries_of_full (by omega)]
    have call : OnlyNative v k (kalloc nativePagetableMemBufferSize k).2 := .of_core (quiet.core _ k mode)
    have append := linkedlistAppend_onlyNative (v := v) quiet
      (quiet.stays nativePagetableMemBufferSize k mode) (kalloc nativePagetableMemBufferSize k).1
    exact ((call.trans append).trans (OnlyNative.modifyNative _ v _)).trans
      (OnlyNative.modifyNative _ v _)

theorem createEntries_stays (quiet : Quiet P kalloc) (mode : P k.alloc) :
    P (createEntries kalloc v k).2.alloc :=
  (createEntries_keeps (S := {v}) (D := ∅) (quiet.apart {v} ∅) mode rfl).1.stays mode

theorem setEntry_onlyNative (quiet : Quiet P kalloc) (level : Nat) :
    ∀ (entries virtualAddr physicalAddr : Nat) (user code writable : Bool) (k : Kernel), P k.alloc →
      OnlyNative v k (setEntry kalloc v level entries virtualAddr physicalAddr user code writable k) := by
  induction level with
  | zero =>
      intro entries virtualAddr physicalAddr user code writable k _
      exact OnlyNative.refl v k
  | succ level ih =>
      intro entries virtualAddr physicalAddr user code writable k mode
      cases level with
      | zero => exact OnlyNative.of_core rfl
      | succ level =>
          cases found : child k.mem entries (indexForLevel (level + 2) virtualAddr) with
          | some target =>
              rw [setEntry_present found]
              exact ih target virtualAddr physicalAddr user code writable k mode
          | none =>
              rw [setEntry_absent found]
              have linked : OnlyNative v (createEntries kalloc v k).2 (link v (level + 1) entries
                  (indexForLevel (level + 2) virtualAddr) (createEntries kalloc v k).1
                  (createEntries kalloc v k).2) := OnlyNative.modifyNative _ v _
              exact ((createEntries_onlyNative quiet mode).trans linked).trans
                (ih _ virtualAddr physicalAddr user code writable _
                  (by rw [link_alloc]; exact createEntries_stays quiet mode))

theorem nativeVmemSet_stays (quiet : Quiet P kalloc) (mode : P k.alloc) (entry : PageMapEntry) :
    P (nativeVmemSet kalloc v entry k).2.alloc :=
  (nativeVmemSet_keeps (S := {v}) (D := ∅) (quiet.apart {v} ∅) mode rfl entry).stays mode

theorem nativeVmemSetLoop_onlyNative (quiet : Quiet P kalloc) (entry : PageMapEntry) (count : Nat) :
    ∀ k : Kernel, P k.alloc → OnlyNative v k (nativeVmemSetLoop kalloc v entry count k) := by
  induction count with
  | zero =>
      intro k _
      exact OnlyNative.refl v k
  | succ count ih =>
      intro k mode
      rw [nativeVmemSetLoop]
      have stays := (setEntry_keeps (S := {v}) (D := ∅) (quiet.apart {v} ∅) rfl 4 (k.native v).entries
        entry.virtualAddr entry.physicalAddr (!permIsKernelMode entry.permission)
        (permIsExec entry.permission) (permIsWrite entry.permission) k mode).stays mode
      exact (setEntry_onlyNative quiet 4 _ _ _ _ _ _ k mode).trans (ih _ stays)

theorem nativeVmemSet_onlyNative (quiet : Quiet P kalloc) (mode : P k.alloc) (entry : PageMapEntry) :
    OnlyNative v k (nativeVmemSet kalloc v entry k).2 := by
  unfold nativeVmemSet
  split
  · exact OnlyNative.refl v k
  · exact nativeVmemSetLoop_onlyNative quiet entry _ k mode

/-- `k'` has one address space more, whose walks end at once, and the same walks otherwise. -/
structure FreshSpace (S D : Set Nat) (v : Nat) (k k' : Kernel) : Prop where
  intact : Intact (insert v S) D k'
  root : Rooted v k'
  empty : ∀ a, walk k' v a = none
  roots : ∀ w ∈ S, Rooted w k → Rooted w k'
  walks : ∀ w ∈ S, Rooted w k → ∀ a, walk k' w a = walk k w a

/-- The state of `native_vmem_create` before its root table is allocated. -/
def blankTable (kalloc : Kalloc) (v : Nat) (k : Kernel) : Kernel :=
  (kalloc sizeofLinkedlist (kalloc sizeofNativePageTable k).2).2.modifyNative v fun _ =>
    { NativePageTable.zero with allocatedMemory := some [] }

theorem blankTable_mem (kalloc : Kalloc) (v : Nat) (k : Kernel) : (blankTable kalloc v k).mem =
    (kalloc sizeofLinkedlist (kalloc sizeofNativePageTable k).2).2.mem := rfl

theorem blankTable_alloc (kalloc : Kalloc) (v : Nat) (k : Kernel) : (blankTable kalloc v k).alloc =
    (kalloc sizeofLinkedlist (kalloc sizeofNativePageTable k).2).2.alloc := rfl

theorem adoptRoot_mem (k : Kernel) (v page : Nat) : (adoptRoot v page k).mem = k.mem := rfl

theorem adoptRoot_alloc (k : Kernel) (v page : Nat) : (adoptRoot v page k).alloc = k.alloc := rfl

/-- The three ways through `native_vmem_create`. -/
theorem nativeVmemCreate_cases (kalloc : Kalloc) (v : Nat) (k : Kernel) :
    (kalloc sizeofNativePageTable k).1 = 0 ∧
        nativeVmemCreate kalloc v k = (false, (kalloc sizeofNativePageTable k).2) ∨
      (kalloc sizeofLinkedlist (kalloc sizeofNativePageTable k).2).1 = 0 ∧
        nativeVmemCreate kalloc v k =
          (false, (kalloc sizeofLinkedlist (kalloc sizeofNativePageTable k).2).2) ∨
      nativeVmemCreate kalloc v k =
        (true, adoptRoot v (createEntries kalloc v (blankTable kalloc v k)).1
          (createEntries kalloc v (blankTable kalloc v k)).2) := by
  by_cases first : (kalloc sizeofNativePageTable k).1 = 0
  · exact Or.inl ⟨first, by simp [nativeVmemCreate, first]⟩
  · by_cases second : (kalloc sizeofLinkedlist (kalloc sizeofNativePageTable k).2).1 = 0
    · exact Or.inr (Or.inl ⟨second, by simp [nativeVmemCreate, linkedlistCreate, first, second]⟩)
    · exact Or.inr (Or.inr
        (by simp [nativeVmemCreate, linkedlistCreate, first, second, blankTable, adoptRoot]))

/-- A creation all of whose allocations succeeded. -/
theorem nativeVmemCreate_of_present (quiet : Quiet P kalloc) (mode : P k.alloc)
    (present : ∀ block ∈ (nativeVmemCreate kalloc v k).2.alloc.blocks, block.addr ≠ 0) :
    nativeVmemCreate kalloc v k = (true, adoptRoot v (createEntries kalloc v (blankTable kalloc v k)).1
      (createEntries kalloc v (blankTable kalloc v k)).2) := by
  have logged := quiet.logged sizeofNativePageTable k mode
  have logged' := quiet.logged sizeofLinkedlist _ (quiet.stays sizeofNativePageTable k mode)
  rcases nativeVmemCreate_cases kalloc v k with ⟨failed, result⟩ | ⟨failed, result⟩ | result
  · rw [result, logged] at present
    exact absurd failed (present _ List.mem_cons_self)
  · rw [result, logged'] at present
    exact absurd failed (present _ List.mem_cons_self)
  · exact result

theorem nativeVmemCreate_stays (quiet : Quiet P kalloc) (mode : P k.alloc) :
    P (nativeVmemCreate kalloc v k).2.alloc := by
  have mode' := quiet.stays sizeofNativePageTable k mode
  have mode'' := quiet.stays sizeofLinkedlist _ mode'
  rcases nativeVmemCreate_cases kalloc v k with ⟨-, result⟩ | ⟨-, result⟩ | result
  · rw [result]
    exact mode'
  · rw [result]
    exact mode''
  · rw [result, adoptRoot_alloc]
    exact createEntries_stays quiet (by rw [blankTable_alloc]; exact mode'')

theorem nativeVmemCreate_fresh (quiet : Quiet P kalloc) (mode : P k.alloc) (intact : Intact S D k)
    (new : v ∉ S) (sound : Sound (nativeVmemCreate kalloc v k).2.alloc.blocks) :
    FreshSpace S D v k (nativeVmemCreate kalloc v k).2 := by
  have result := nativeVmemCreate_of_present quiet mode sound.present
  rw [result] at sound ⊢
  -- the two records
  have mode' := quiet.stays sizeofNativePageTable k mode
  have mode'' := quiet.stays sizeofLinkedlist _ mode'
  have keeps := ((quiet.apart S D).keeps sizeofNativePageTable k mode).trans
    ((quiet.apart S D).keeps sizeofLinkedlist _ mode')
  have core : (kalloc sizeofLinkedlist (kalloc sizeofNativePageTable k).2).2.core = k.core :=
    (quiet.core _ _ mode').trans (quiet.core _ k mode)
  have modeBlank : P (blankTable kalloc v k).alloc := by
    rw [blankTable_alloc]
    exact mode''
  -- the root table
  obtain ⟨created, page⟩ := createEntries_keeps (S := insert v S) (D := D)
    (quiet.apart (insert v S) D) modeBlank (Set.mem_insert v S)
  have log := created.log
  rw [blankTable_alloc] at log
  rw [adoptRoot_alloc] at sound
  have soundBlank := sound.of_suffix log
  have intactBlank : Intact (insert v S) D (blankTable kalloc v k) :=
    (keeps.kept soundBlank intact).1.insertBlank _ new
  obtain ⟨intact', extends'⟩ := created.kept sound intactBlank
  obtain ⟨unused, aligned, -⟩ := page sound intactBlank
  have other : ∀ w ∈ S, w ≠ v := fun w member same => new (same ▸ member)
  have native : ∀ w ∈ S, (blankTable kalloc v k).native w = k.native w := by
    intro w member
    rw [blankTable, Kernel.native_modifyNative_of_ne (other w member), Kernel.native,
      Kernel.vmem, core, Kernel.native, Kernel.vmem]
  have mem : ∀ a, InLog k.alloc.blocks a →
      (createEntries kalloc v (blankTable kalloc v k)).2.mem a = k.mem a := by
    intro a inside
    have first := quiet.same_owned mode (soundBlank.of_suffix (quiet.log mode')) inside
    have second := quiet.same_owned mode' soundBlank (inside.mono (quiet.log mode))
    have insideBlank : InLog (blankTable kalloc v k).alloc.blocks a := by
      rw [blankTable_alloc]
      exact inside.mono keeps.log
    rw [createEntries_mem quiet modeBlank sound insideBlank, blankTable_mem, second, first]
  constructor
  · exact intact'.adoptRoot unused aligned
  · exact adoptRoot_rooted _ v _
  · intro a
    rw [walk_eq_follow, adoptRoot_native_self, adoptRoot_mem, path]
    exact follow_cons_of_none (child_of_zeroed unused.zero (indexForLevel_lt 3 a))
  · intro w member root
    rw [Rooted, adoptRoot_native_of_ne (other w member), extends'.entries w (Or.inr member),
      native w member]
    refine extends'.tables w (Or.inr member) _ ?_
    rw [native w member]
    exact root
  · intro w member root a
    refine walk_of_same_owned intact member root ?_ (fun a owned => ?_) a
    · rw [adoptRoot_native_of_ne (other w member), extends'.entries w (Or.inr member), native w member]
    · rw [adoptRoot_mem]
      exact mem a (intact.inLog a owned)

/-! ## Sequences of `native_vmem_set` calls -/

/-- The calls of a list, one after the other. -/
def nativeVmemSets (kalloc : Kalloc) (v : Nat) : List PageMapEntry → Kernel → Kernel
  | [], k => k
  | entry :: rest, k => nativeVmemSets kalloc v rest (nativeVmemSet kalloc v entry k).2

/-- The physical page of the last call for a virtual page. -/
def lastSet (calls : List PageMapEntry) (page : Nat) : Option Nat :=
  (calls.reverse.find? (·.virtualAddr = page)).map (·.physicalAddr)

theorem lastSet_cons (entry : PageMapEntry) (rest : List PageMapEntry) (page : Nat) :
    lastSet (entry :: rest) page =
      (lastSet rest page).or (if entry.virtualAddr = page then some entry.physicalAddr else none) := by
  unfold lastSet
  rw [List.reverse_cons, List.find?_append]
  cases rest.reverse.find? (·.virtualAddr = page) with
  | some found => rfl
  | none =>
      by_cases same : entry.virtualAddr = page <;> simp [same]

/-- What a sequence of calls leaves behind. -/
structure SetsWalk (S D : Set Nat) (v : Nat) (calls : List PageMapEntry) (k k' : Kernel) : Prop where
  intact : Intact S D k'
  root : Rooted v k'
  walks : ∀ a, a < 2 ^ 48 → walk k' v a = (lastSet calls (memAlign a)).or (walk k v a)

theorem nativeVmemSets_log (quiet : Quiet P kalloc) (calls : List PageMapEntry) :
    ∀ k : Kernel, P k.alloc → k.alloc.blocks <:+ (nativeVmemSets kalloc v calls k).alloc.blocks ∧
      P (nativeVmemSets kalloc v calls k).alloc := by
  induction calls with
  | nil =>
      intro k mode
      exact ⟨List.suffix_rfl, mode⟩
  | cons entry rest ih =>
      intro k mode
      have first := nativeVmemSet_keeps (S := {v}) (D := ∅) (quiet.apart {v} ∅) mode rfl entry
      obtain ⟨log, mode'⟩ := ih _ (first.stays mode)
      exact ⟨first.log.trans log, mode'⟩

theorem nativeVmemSets_walk (quiet : Quiet P kalloc) (member : v ∈ S) (calls : List PageMapEntry) :
    ∀ k : Kernel, P k.alloc → Intact S D k → Rooted v k → (∀ entry ∈ calls, entry.Good) →
      Sound (nativeVmemSets kalloc v calls k).alloc.blocks →
      SetsWalk S D v calls k (nativeVmemSets kalloc v calls k) := by
  induction calls with
  | nil =>
      intro k _ intact root _ _
      exact ⟨intact, root, fun a _ => rfl⟩
  | cons entry rest ih =>
      intro k mode intact root good sound
      have goodEntry := good entry List.mem_cons_self
      have first := nativeVmemSet_keeps (quiet.apart S D) mode member entry
      have mode' := first.stays mode
      have soundFirst := sound.of_suffix (nativeVmemSets_log quiet rest _ mode').1
      obtain ⟨intact', extends'⟩ := first.kept soundFirst intact root
      have root' := extends'.rooted member root
      have later := ih _ mode' intact' root' (fun e inside => good e (List.mem_cons_of_mem _ inside)) sound
      refine ⟨later.intact, later.root, fun a low => ?_⟩
      have step := nativeVmemSet_walk quiet mode intact member root goodEntry soundFirst member root low
      have whole := later.walks a low
      rw [step] at whole
      rw [lastSet_cons, Option.or_assoc]
      refine whole.trans (congrArg _ ?_)
      by_cases same : entry.virtualAddr = memAlign a
      · simp [same]
      · simp [same, Ne.symm same]

/-- After any sequence of calls on a fresh page table, the walk of an address ends at the
physical page of the last call for its page, and at an entry that is not present if there was
none; one more call changes the walks of its own page only. -/
theorem walk_after_nativeVmemSets (quiet : Quiet P kalloc) (mode : P k.alloc) (v : Nat)
    (calls : List PageMapEntry) (good : ∀ entry ∈ calls, entry.Good)
    (sound : Sound (nativeVmemSets kalloc v calls (nativeVmemCreate kalloc v k).2).alloc.blocks)
    (a : Nat) (low : a < 2 ^ 48) :
    walk (nativeVmemSets kalloc v calls (nativeVmemCreate kalloc v k).2) v a =
        lastSet calls (memAlign a) ∧
      ∀ entry : PageMapEntry, entry.Good → memAlign a ≠ entry.virtualAddr →
        Sound (nativeVmemSet kalloc v entry
          (nativeVmemSets kalloc v calls (nativeVmemCreate kalloc v k).2)).2.alloc.blocks →
        walk (nativeVmemSet kalloc v entry
            (nativeVmemSets kalloc v calls (nativeVmemCreate kalloc v k).2)).2 v a =
          walk (nativeVmemSets kalloc v calls (nativeVmemCreate kalloc v k).2) v a := by
  have blank : Intact ∅ ∅ k := by
    constructor <;> simp [Owned]
  have mode' := nativeVmemCreate_stays (v := v) quiet mode
  obtain ⟨log, mode''⟩ := nativeVmemSets_log (v := v) quiet calls _ mode'
  have fresh := nativeVmemCreate_fresh quiet mode blank (Set.notMem_empty v) (sound.of_suffix log)
  have member : v ∈ insert v (∅ : Set Nat) := Set.mem_insert v ∅
  have sets := nativeVmemSets_walk quiet member calls _ mode' fresh.intact fresh.root good sound
  constructor
  · rw [sets.walks a low, fresh.empty]
    exact Option.or_none
  · intro entry goodEntry other soundEntry
    rw [nativeVmemSet_walk quiet mode'' sets.intact member sets.root goodEntry soundEntry member sets.root
      low]
    exact if_neg fun both => other both.2

end QuietMapping

/-- Two calls for one page, with a call for its neighbour between them. -/
def sampleCalls : List PageMapEntry :=
  [{ virtualAddr := 0x400000, physicalAddr := 0x200000, size := 4096, permission := 0 },
   { virtualAddr := 0x401000, physicalAddr := 0x300000, size := 4096, permission := 0 },
   { virtualAddr := 0x400000, physicalAddr := 0x500000, size := 4096, permission := 0 }]

theorem walk_after_sampleCalls :
    walk (nativeVmemSets kalloc 0 sampleCalls (nativeVmemCreate kalloc 0 sampleKernel).2) 0 0x400123 =
      some 0x500000 := by
  have early : Early sampleKernel.alloc := rfl
  have good : ∀ entry ∈ sampleCalls, entry.Good := by
    intro entry member
    simp only [sampleCalls, List.mem_cons, List.not_mem_nil, or_false] at member
    rcases member with rfl | rfl | rfl <;> constructor <;> decide
  have sound : Sound (nativeVmemSets kalloc 0 sampleCalls
      (nativeVmemCreate kalloc 0 sampleKernel).2).alloc.blocks :=
    .of_ascending (by decide +kernel) (by decide +kernel)
  rw [(walk_after_nativeVmemSets kalloc_quiet early 0 sampleCalls good sound 0x400123 (by decide)).1]
  decide

end BubackOS

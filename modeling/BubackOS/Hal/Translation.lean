import BubackOS.Core.QuietAllocator

/-!
# What the processor translates

With an allocator that only returns memory, `native_vmem_set` changes the
translation of exactly one page: the walk of that page ends at the physical page
just given, and every other walk, in this and in every other address space, ends
where it did before.
-/

namespace BubackOS

open Library

variable {S D : Set Nat} {P : Allocator → Prop} {kalloc : Kalloc} {k : Kernel} {v : Nat}

/-- The tables of an address space form a layered family. -/
theorem Intact.layered (intact : Intact S D k) (member : v ∈ S) :
    Layered (child k.mem) (· < 512)
      (fun level addr => { level := level, addr := addr } ∈ (k.native v).tables) := by
  constructor
  · intro n a i b installed valid found
    exact intact.children v member _ installed (by simp) i valid b found
  · intro m n a first second
    have same := (intact.distinct v member v member _ first _ second a (Table.covers_base _)
      (Table.covers_base _)).2
    exact congrArg Table.level same
  · intro m n a b i j c first second validI validJ foundI foundJ
    have same := intact.parents v member _ first _ second (by simp) (by simp) i j validI validJ c foundI
      foundJ
    exact ⟨congrArg Table.addr same.1, same.2⟩

/-- A walk depends on owned bytes only. -/
theorem walk_of_same_owned (intact : Intact S D k) (member : v ∈ S) (root : Rooted v k) {k' : Kernel}
    (entries : (k'.native v).entries = (k.native v).entries)
    (same : ∀ a, Owned S k a → k'.mem a = k.mem a) (a : Nat) : walk k' v a = walk k v a := by
  rw [walk_eq_follow, walk_eq_follow, entries]
  refine follow_congr fun b index passes => ?_
  obtain ⟨d, rest, split, reached⟩ := passes
  have short : d.length ≤ 3 := by
    have total := congrArg List.length split
    rw [path_length] at total
    simp only [List.length_cons, List.length_append] at total
    omega
  have good : ∀ i ∈ d ++ index :: rest, i < 512 := fun i inside => path_mem_lt (split ▸ inside)
  have installed := (intact.layered member).follow_layer root short
    (fun i inside => good i (List.mem_append_left _ inside)) reached
  have kept := child_of_owned member installed (good index (by simp)) same
  exact kept

/-! ## New tables -/

theorem linkedlistAppend_mem {α : Type} {ll : ListField α} {data : α} (quiet : Quiet P kalloc)
    (mode : P k.alloc) (edit : ∀ change k, SameTables k (ll.modify change k))
    (sound : Sound (linkedlistAppend kalloc ll data k).2.alloc.blocks) {a : Nat}
    (inside : InLog k.alloc.blocks a) : (linkedlistAppend kalloc ll data k).2.mem a = k.mem a := by
  unfold linkedlistAppend at sound ⊢
  split at sound
  · rename_i null
    rw [if_pos null]
  · rename_i null
    rw [if_neg null]
    dsimp only at sound ⊢
    split at sound
    · rename_i failed
      rw [if_pos failed]
      exact quiet.same_owned mode sound inside
    · rename_i failed
      rw [if_neg failed]
      have same := edit (· ++ [data]) (kalloc sizeofLinkedlistNode k).2
      dsimp only at sound ⊢
      rw [same.alloc] at sound
      rw [same.mem]
      exact quiet.same_owned mode sound inside

/-- Creating a table changes no byte that was allocated before. -/
theorem createEntries_mem (quiet : Quiet P kalloc) (mode : P k.alloc)
    (sound : Sound (createEntries kalloc v k).2.alloc.blocks) {a : Nat}
    (inside : InLog k.alloc.blocks a) : (createEntries kalloc v k).2.mem a = k.mem a := by
  by_cases room : 4096 ≤ (k.native v).memAvailableSize
  · rw [createEntries_of_room room]
    rfl
  · rw [createEntries_of_full (by omega)] at sound ⊢
    have mode' := quiet.stays nativePagetableMemBufferSize k mode
    have append : KeepsTables ∅ ∅ P (kalloc nativePagetableMemBufferSize k).2
        (linkedlistAppend kalloc (allocatedMemoryOf v) (kalloc nativePagetableMemBufferSize k).1
          (kalloc nativePagetableMemBufferSize k).2).2 :=
      linkedlistAppend_keeps (quiet.apart ∅ ∅) mode' (allocatedMemoryOf_sameTables v)
    have kept := linkedlistAppend_mem quiet mode' (allocatedMemoryOf_sameTables v) sound
      (inside.mono (quiet.log mode))
    exact kept.trans (quiet.same_owned mode (sound.of_suffix append.log) inside)

/-! ## One entry -/

/-- What mapping `virtualAddr` to `physicalAddr` from a table of `level` does: the path of the
address leads to the physical page, every path that differs from it is unchanged, and so is
every entry the path does not pass. -/
structure Translates (S : Set Nat) (level entries virtualAddr physicalAddr : Nat) (k k' : Kernel) :
    Prop where
  self : follow (child k'.mem) entries (path virtualAddr level) = some physicalAddr
  other : ∀ p : List Nat, p.length = level → (∀ i ∈ p, i < 512) → p ≠ path virtualAddr level →
    follow (child k'.mem) entries p = follow (child k.mem) entries p
  frame : ∀ w ∈ S, ∀ table ∈ (k.native w).tables, ∀ index, index < 512 →
    ¬ Passes (child k.mem) entries (path virtualAddr level) table.addr index →
    child k'.mem table.addr index = child k.mem table.addr index

/-- Paths that leave at the first entry are settled by the frame. -/
theorem Translates.branch (intact : Intact S D k) (member : v ∈ S) {k' : Kernel}
    {level entries virtualAddr : Nat}
    (installed : { level := level + 1, addr := entries } ∈ (k.native v).tables)
    (frame : ∀ w ∈ S, ∀ table ∈ (k.native w).tables, ∀ index, index < 512 →
      ¬ Passes (child k.mem) entries (path virtualAddr (level + 1)) table.addr index →
      child k'.mem table.addr index = child k.mem table.addr index)
    {j : Nat} {q : List Nat} (length : q.length = level) (good : ∀ i ∈ j :: q, i < 512)
    (leaves : j ≠ indexForLevel (level + 1) virtualAddr) :
    follow (child k'.mem) entries (j :: q) = follow (child k.mem) entries (j :: q) := by
  have goodPath : ∀ i ∈ path virtualAddr (level + 1), i < 512 := fun _ inside => path_mem_lt inside
  exact (intact.layered member).follow_of_branch installed (path_length virtualAddr level) length
    goodPath good leaves fun _ _ index layer valid free => frame v member _ layer index valid free

theorem setEntry_leaf (entries virtualAddr physicalAddr : Nat) (user code writable : Bool) :
    setEntry kalloc v 1 entries virtualAddr physicalAddr user code writable k =
      k.writeEntry entries (indexForLevel 1 virtualAddr)
        (fillEntryValue (readEntry k.mem entries (indexForLevel 1 virtualAddr)) physicalAddr user code
          writable) := rfl

/-- A new, empty table stands behind an entry, and nothing else has changed. -/
structure NewTable (S D : Set Nat) (v level entries index page : Nat) (k k' : Kernel) : Prop where
  intact : Intact S D k'
  installed : { level := level, addr := page } ∈ (k'.native v).tables
  tables : ∀ w ∈ S, ∀ table ∈ (k.native w).tables, table ∈ (k'.native w).tables ∧ table.addr ≠ page
  behind : child k'.mem entries index = some page
  empty : ∀ i, i < 512 → child k'.mem page i = none
  others : ∀ w ∈ S, ∀ table ∈ (k.native w).tables, ∀ i, i < 512 →
    (table ≠ { level := level + 1, addr := entries } ∨ i ≠ index) →
    child k'.mem table.addr i = child k.mem table.addr i

theorem createEntries_newTable (quiet : Quiet P kalloc) (mode : P k.alloc) (member : v ∈ S)
    (intact : Intact S D k) {level entries index : Nat}
    (installed : { level := level + 2, addr := entries } ∈ (k.native v).tables) (bound : index < 512)
    (sound : Sound (createEntries kalloc v k).2.alloc.blocks) :
    NewTable S D v (level + 1) entries index (createEntries kalloc v k).1 k
      (link v (level + 1) entries index (createEntries kalloc v k).1 (createEntries kalloc v k).2) := by
  obtain ⟨created, page⟩ := createEntries_keeps (k := k) (v := v) (quiet.apart S D) mode member
  obtain ⟨intact', extends'⟩ := created.kept sound intact
  obtain ⟨unused, aligned, -⟩ := page sound intact
  have linkable := Linkable.of_created member intact' sound (extends'.tables v member _ installed) bound
    unused aligned
  refine ⟨linkable.linked, linkable.installed_page, ?_, linkable.child_self, ?_, ?_⟩
  · intro w member' table here
    have there := extends'.tables w member' table here
    refine ⟨installed_link there, fun same => ?_⟩
    exact linkable.not_covered member' there table.covers_base (Nat.le_of_eq same.symm)
      (by rw [same]; omega)
  · exact fun i valid => linkable.child_page valid
  · intro w member' table here i valid different
    rw [linkable.child_other member' (extends'.tables w member' table here) valid different]
    exact child_of_owned member' here valid fun a owned =>
      createEntries_mem quiet mode sound (intact.inLog a owned)

theorem NewTable.follow_page {level entries index page : Nat} {k' : Kernel}
    (new : NewTable S D v level entries index page k k') {p : List Nat} (nonempty : p ≠ [])
    (good : ∀ i ∈ p, i < 512) : follow (child k'.mem) page p = none := by
  cases p with
  | nil => exact absurd rfl nonempty
  | cons i rest => exact follow_cons_of_none (new.empty i (good i List.mem_cons_self))

/-- A path from the new table passes its first entry only. -/
theorem NewTable.not_passes {level entries index page : Nat} {k' : Kernel}
    (new : NewTable S D v level entries index page k k') {p : List Nat} (good : ∀ i ∈ p, i < 512)
    {addr i : Nat} (other : addr ≠ page) : ¬ Passes (child k'.mem) page p addr i := by
  rintro ⟨d, rest, split, reached⟩
  cases d with
  | nil => exact other (Option.some.inj reached).symm
  | cons j d =>
      have goodD : ∀ i' ∈ j :: d, i' < 512 := fun i' inside =>
        good i' (split ▸ List.mem_append_left _ inside)
      rw [new.follow_page (by simp) goodD] at reached
      cases reached

section Levels

variable {virtualAddr physicalAddr : Nat} {user code writable : Bool} {level entries : Nat}

/-- The entry of the last table is written. -/
theorem setEntry_translates_leaf (member : v ∈ S) (aligned : physicalAddr % 4096 = 0) (intact : Intact S D k)
    (installed : { level := 1, addr := entries } ∈ (k.native v).tables) :
    Translates S 1 entries virtualAddr (physicalAddr % 2 ^ 48) k
      (setEntry kalloc v 1 entries virtualAddr physicalAddr user code writable k) := by
  have frame : ∀ w ∈ S, ∀ table ∈ (k.native w).tables, ∀ index, index < 512 →
      ¬ Passes (child k.mem) entries (path virtualAddr 1) table.addr index →
      child (setEntry kalloc v 1 entries virtualAddr physicalAddr user code writable k).mem
        table.addr index = child k.mem table.addr index := by
    intro w member' table installed' index bound free
    refine intact.child_write member member' installed installed' (indexForLevel_lt 0 virtualAddr)
      bound ?_
    by_contra same
    obtain ⟨rfl, rfl⟩ : table = { level := 1, addr := entries } ∧
      index = indexForLevel 1 virtualAddr := by tauto
    exact free passes_head
  refine ⟨?_, ?_, frame⟩
  · rw [setEntry_leaf, path, follow_cons_of_some (child_writeEntry_self aligned)]
    rfl
  · intro p length good different
    obtain ⟨j, rfl⟩ := List.length_eq_one_iff.mp length
    exact Translates.branch intact member installed frame rfl good
      fun same => different (by rw [same]; rfl)

/-- The next table is there, and what is done from it on translates. -/
theorem Translates.of_present {k' : Kernel} {target : Nat} (member : v ∈ S) (intact : Intact S D k)
    (installed : { level := level + 2, addr := entries } ∈ (k.native v).tables)
    (found : child k.mem entries (indexForLevel (level + 2) virtualAddr) = some target)
    (upper : child k'.mem entries (indexForLevel (level + 2) virtualAddr) = some target)
    (inner : Translates S (level + 1) target virtualAddr physicalAddr k k') :
    Translates S (level + 2) entries virtualAddr physicalAddr k k' := by
  have frame : ∀ w ∈ S, ∀ table ∈ (k.native w).tables, ∀ index, index < 512 →
      ¬ Passes (child k.mem) entries (path virtualAddr (level + 2)) table.addr index →
      child k'.mem table.addr index = child k.mem table.addr index :=
    fun w member' table installed' index valid free =>
      inner.frame w member' table installed' index valid fun passes => free (passes.cons found)
  refine ⟨?_, ?_, frame⟩
  · rw [path, follow_cons_of_some upper]
    exact inner.self
  · intro p length good different
    obtain ⟨j, q, rfl⟩ := List.exists_cons_of_length_eq_add_one length
    by_cases same : j = indexForLevel (level + 2) virtualAddr
    · subst same
      rw [follow_cons_of_some upper, follow_cons_of_some found]
      exact inner.other q (by simpa using length)
        (fun i inside => good i (List.mem_cons_of_mem _ inside))
        fun same => different (by rw [same]; rfl)
    · exact Translates.branch intact member installed frame (by simpa using length) good same

/-- The next table is new, and what is done from it on translates. -/
theorem Translates.of_absent {linked k' : Kernel} {page : Nat} (member : v ∈ S) (intact : Intact S D k)
    (installed : { level := level + 2, addr := entries } ∈ (k.native v).tables)
    (found : child k.mem entries (indexForLevel (level + 2) virtualAddr) = none)
    (new : NewTable S D v (level + 1) entries (indexForLevel (level + 2) virtualAddr) page k linked)
    (upper : child k'.mem entries (indexForLevel (level + 2) virtualAddr) = some page)
    (inner : Translates S (level + 1) page virtualAddr physicalAddr linked k') :
    Translates S (level + 2) entries virtualAddr physicalAddr k k' := by
  have goodPath : ∀ i ∈ path virtualAddr (level + 1), i < 512 := fun _ inside => path_mem_lt inside
  have frame : ∀ w ∈ S, ∀ table ∈ (k.native w).tables, ∀ index, index < 512 →
      ¬ Passes (child k.mem) entries (path virtualAddr (level + 2)) table.addr index →
      child k'.mem table.addr index = child k.mem table.addr index := by
    intro w member' table installed' index valid free
    obtain ⟨there, notPage⟩ := new.tables w member' table installed'
    rw [inner.frame w member' table there index valid (new.not_passes goodPath notPage)]
    refine new.others w member' table installed' index valid ?_
    by_contra same
    obtain ⟨rfl, rfl⟩ : table = { level := level + 2, addr := entries } ∧
      index = indexForLevel (level + 2) virtualAddr := by tauto
    exact free passes_head
  refine ⟨?_, ?_, frame⟩
  · rw [path, follow_cons_of_some upper]
    exact inner.self
  · intro p length good different
    obtain ⟨j, q, rfl⟩ := List.exists_cons_of_length_eq_add_one length
    by_cases same : j = indexForLevel (level + 2) virtualAddr
    · subst same
      have goodTail : ∀ i ∈ q, i < 512 := fun i inside => good i (List.mem_cons_of_mem _ inside)
      have lengthTail : q.length = level + 1 := by simpa using length
      rw [follow_cons_of_some upper, follow_cons_of_none found,
        inner.other q lengthTail goodTail fun same => different (by rw [same]; rfl)]
      exact new.follow_page (fun empty => by simp [empty] at lengthTail) goodTail
    · exact Translates.branch intact member installed frame (by simpa using length) good same

end Levels

theorem setEntry_translates (quiet : Quiet P kalloc) (member : v ∈ S)
    {virtualAddr physicalAddr : Nat} (aligned : physicalAddr % 4096 = 0) (user code writable : Bool) (level : Nat) :
    ∀ (entries : Nat) (k : Kernel), P k.alloc → Intact S D k →
      { level := level + 1, addr := entries } ∈ (k.native v).tables →
      Sound (setEntry kalloc v (level + 1) entries virtualAddr physicalAddr user code writable
        k).alloc.blocks →
      Translates S (level + 1) entries virtualAddr (physicalAddr % 2 ^ 48) k
        (setEntry kalloc v (level + 1) entries virtualAddr physicalAddr user code writable k) := by
  induction level with
  | zero => exact fun entries k _ intact installed _ => setEntry_translates_leaf member aligned intact installed
  | succ level ih =>
      intro entries k mode intact installed sound
      have bound : indexForLevel (level + 2) virtualAddr < 512 := indexForLevel_lt _ _
      have whole := setEntry_keeps (quiet.apart S D) member (level + 2) entries virtualAddr
        physicalAddr user code writable k mode
      cases found : child k.mem entries (indexForLevel (level + 2) virtualAddr) with
      | some target =>
          have upper := (whole.kept sound intact installed).2.upper v member _ installed (by simp) _ bound
            target found
          have below := intact.children v member _ installed (by simp) _ bound target found
          rw [setEntry_present found] at sound upper ⊢
          exact .of_present member intact installed found upper (ih target k mode intact below sound)
      | none =>
          rw [setEntry_absent found] at sound ⊢
          obtain ⟨page, isPage⟩ : ∃ page, page = (createEntries kalloc v k).1 := ⟨_, rfl⟩
          obtain ⟨linked, isLinked⟩ : ∃ linked, linked = link v (level + 1) entries
            (indexForLevel (level + 2) virtualAddr) (createEntries kalloc v k).1
            (createEntries kalloc v k).2 := ⟨_, rfl⟩
          rw [← isLinked, ← isPage] at sound ⊢
          have mode' : P linked.alloc := by
            rw [isLinked, link_alloc]
            exact (createEntries_keeps (quiet.apart S D) mode member).1.stays mode
          have keeps := setEntry_keeps (quiet.apart S D) member (level + 1) page virtualAddr
            physicalAddr user code writable linked mode'
          have new : NewTable S D v (level + 1) entries (indexForLevel (level + 2) virtualAddr) page k
              linked := by
            have before := sound.of_suffix keeps.log
            rw [isLinked, link_alloc] at before
            rw [isLinked, isPage]
            exact createEntries_newTable quiet mode member intact installed bound before
          have upper := (keeps.kept sound new.intact new.installed).2.upper v member _
            (new.tables v member _ installed).1 (by simp) _ bound page new.behind
          exact .of_absent member intact installed found new upper (ih page linked mode' new.intact new.installed sound)

/-! ## One page -/

/-- The walks of the other address spaces pass none of the entries of this one. -/
theorem Translates.elsewhere (intact : Intact S D k) (member : v ∈ S) {k' : Kernel}
    {level virtualAddr physicalAddr : Nat} {w addr entries : Nat}
    (translates : Translates S (level + 1) entries virtualAddr physicalAddr k k')
    (installed : { level := level + 1, addr := entries } ∈ (k.native v).tables)
    (member' : w ∈ S) (other : w ≠ v)
    (installed' : { level := level + 1, addr := addr } ∈ (k.native w).tables) {p : List Nat}
    (length : p.length = level + 1) (good : ∀ i ∈ p, i < 512) :
    follow (child k'.mem) addr p = follow (child k.mem) addr p := by
  refine follow_congr fun b index passes => ?_
  obtain ⟨d, rest, split, reached⟩ := passes
  have short : d.length ≤ level := by
    have total := congrArg List.length split
    simp only [List.length_cons, List.length_append] at total
    omega
  have goodD : ∀ i ∈ d, i < 512 := fun i inside => good i (split ▸ List.mem_append_left _ inside)
  have here := (intact.layered member').follow_layer installed' short goodD reached
  refine translates.frame w member' _ here index (good index (by rw [split]; simp)) ?_
  rintro ⟨e, rest', split', reached'⟩
  have short' : e.length ≤ level := by
    have total := congrArg List.length split'
    rw [path_length] at total
    simp only [List.length_cons, List.length_append] at total
    omega
  have goodE : ∀ i ∈ e, i < 512 := fun i inside =>
    path_mem_lt (split' ▸ List.mem_append_left _ inside)
  have there := (intact.layered member).follow_layer installed short' goodE reached'
  exact other (intact.distinct w member' v member _ here _ there b (Table.covers_base _)
    (Table.covers_base _)).1

/-- A page-map entry for one page. -/
structure PageMapEntry.Whole (entry : PageMapEntry) : Prop where
  size : entry.size = 4096
  virtualAligned : entry.virtualAddr % 4096 = 0
  physicalAligned : entry.physicalAddr % 4096 = 0

/-- A page-map entry for one page with addresses the tables can hold. -/
structure PageMapEntry.Good (entry : PageMapEntry) : Prop where
  size : entry.size = 4096
  virtualAligned : entry.virtualAddr % 4096 = 0
  physicalAligned : entry.physicalAddr % 4096 = 0
  virtualLow : entry.virtualAddr < 2 ^ 48
  physicalLow : entry.physicalAddr < 2 ^ 48

theorem PageMapEntry.Good.whole {entry : PageMapEntry} (good : entry.Good) : entry.Whole :=
  ⟨good.size, good.virtualAligned, good.physicalAligned⟩

theorem nativeVmemSet_eq {entry : PageMapEntry} (whole : entry.Whole) :
    nativeVmemSet kalloc v entry k = (true, setEntry kalloc v 4 (k.native v).entries entry.virtualAddr
      entry.physicalAddr (!permIsKernelMode entry.permission) (permIsExec entry.permission)
      (permIsWrite entry.permission) k) := by
  have virtual : memAlign entry.virtualAddr = entry.virtualAddr :=
    (memAlign_eq_iff _).mpr whole.virtualAligned
  have physical : memAlign entry.physicalAddr = entry.physicalAddr :=
    (memAlign_eq_iff _).mpr whole.physicalAligned
  unfold nativeVmemSet
  rw [virtual, physical, whole.size]
  simp [pageTableNativeSizeSmall, nativeVmemSetLoop]

/-- `native_vmem_set` redirects one page of one address space; of both addresses the lower 48 bits count. -/
theorem nativeVmemSet_walk_cut (quiet : Quiet P kalloc) (mode : P k.alloc) (intact : Intact S D k)
    (member : v ∈ S) (root : Rooted v k) {entry : PageMapEntry} (whole : entry.Whole)
    (sound : Sound (nativeVmemSet kalloc v entry k).2.alloc.blocks) {w a : Nat} (member' : w ∈ S)
    (root' : Rooted w k) (low : a < 2 ^ 48) :
    walk (nativeVmemSet kalloc v entry k).2 w a =
      if w = v ∧ memAlign a = entry.virtualAddr % 2 ^ 48 then some (entry.physicalAddr % 2 ^ 48) else walk k w a := by
  have keeps := nativeVmemSet_keeps (quiet.apart S D) mode member entry
  have entries := (keeps.kept sound intact root).2.entries w member'
  rw [nativeVmemSet_eq whole] at sound entries ⊢
  have translates := setEntry_translates quiet member whole.physicalAligned _ _ _ 3 _ k mode intact root sound
  rw [walk_eq_follow, walk_eq_follow, entries]
  have goodPath : ∀ i ∈ path a 4, i < 512 := fun _ inside => path_mem_lt inside
  have virtual : memAlign (entry.virtualAddr % 2 ^ 48) = entry.virtualAddr % 2 ^ 48 := by
    have aligned := whole.virtualAligned
    exact (memAlign_eq_iff _).mpr (by omega)
  have pages := path_four_eq_iff low (Nat.mod_lt entry.virtualAddr (by decide : 0 < 2 ^ 48))
  rw [virtual, path_four_mod] at pages
  by_cases same : w = v
  · subst same
    by_cases page : memAlign a = entry.virtualAddr % 2 ^ 48
    · rw [if_pos ⟨rfl, page⟩, pages.mpr page]
      exact translates.self
    · rw [if_neg fun both => page both.2]
      exact translates.other _ (path_length a 4) goodPath fun same => page (pages.mp same)
  · rw [if_neg fun both => same both.1]
    exact translates.elsewhere intact member root member' same root' (path_length a 4) goodPath

theorem nativeVmemSet_walk (quiet : Quiet P kalloc) (mode : P k.alloc) (intact : Intact S D k)
    (member : v ∈ S) (root : Rooted v k) {entry : PageMapEntry} (good : entry.Good)
    (sound : Sound (nativeVmemSet kalloc v entry k).2.alloc.blocks) {w a : Nat} (member' : w ∈ S)
    (root' : Rooted w k) (low : a < 2 ^ 48) :
    walk (nativeVmemSet kalloc v entry k).2 w a =
      if w = v ∧ memAlign a = entry.virtualAddr then some entry.physicalAddr else walk k w a := by
  rw [nativeVmemSet_walk_cut quiet mode intact member root good.whole sound member' root' low,
    Nat.mod_eq_of_lt good.virtualLow, Nat.mod_eq_of_lt good.physicalLow]

end BubackOS

import BubackOS.Hal.Multiboot
import Mathlib.Data.List.Forall2

/-!
# Decoding the boot information

What a well-formed information block says, tag by tag, and that the parser reads exactly
that: it goes to every tag once, and the lists it builds are those of the tags.  Before
`memory_allocator_initialize` the heap is a pointer that moves up, so the memory the parser
takes is the stretch from the pointer on whose length the tags determine.
-/

namespace BubackOS

open Library

/-! ## The early heap -/

/-- Where the next block begins. -/
def Kernel.heapPointer (k : Kernel) : Nat := k.located.alloc.currentMemPtr

theorem Kernel.heapPointer_of_ne {k : Kernel} (known : k.alloc.currentMemPtr ≠ 0) :
    k.heapPointer = k.alloc.currentMemPtr := by
  rw [heapPointer, located_alloc, getCurrentMemoryPtr, if_neg known]

theorem Kernel.takeBlock_heapPointer (size : Nat) (k : Kernel) : (k.takeBlock size).1 = k.heapPointer := rfl

theorem Kernel.takeBlock_next (size : Nat) (k : Kernel) :
    (k.takeBlock size).2.alloc.currentMemPtr = wrap (k.heapPointer + size) := rfl

theorem ensureEarly_heapPointer {k : Kernel} (valid : k.heapPointer ≠ 0) (size : Nat) :
    (k.ensureEarly size).heapPointer = k.heapPointer := by
  have known : (k.ensureEarly size).alloc.currentMemPtr = k.heapPointer := by
    unfold Kernel.ensureEarly
    split <;> rfl
  rw [Kernel.heapPointer_of_ne (by rwa [known]), known]

/-- An early step that takes `size` bytes from the heap and writes nowhere else. -/
structure Fills (size : Nat) (k k' : Kernel) : Prop where
  early : Early k'.alloc
  pointer : k'.heapPointer = k.heapPointer + size
  kept : ∀ a, a < k.heapPointer ∨ k.heapPointer + size ≤ a → k'.mem a = k.mem a

namespace Fills

variable {k k' k'' : Kernel} {size size' : Nat}

theorem refl (early : Early k.alloc) : Fills 0 k k := ⟨early, rfl, fun _ _ => rfl⟩

theorem trans (first : Fills size k k') (second : Fills size' k' k'') : Fills (size + size') k k'' := by
  refine ⟨second.early, ?_, fun a outside => ?_⟩
  · rw [second.pointer, first.pointer, Nat.add_assoc]
  · have pointer := first.pointer
    rw [second.kept a (by omega), first.kept a (by omega)]

/-- A write to the block just taken. -/
theorem setMem (fills : Fills size k k') {m : Memory}
    (within : ∀ a, a < k.heapPointer ∨ k.heapPointer + size ≤ a → m a = k'.mem a) :
    Fills size k { k' with mem := m } :=
  ⟨fills.early, fills.pointer, fun a outside => (within a outside).trans (fills.kept a outside)⟩

end Fills

/-- An early request is served at the heap pointer, with cleared memory. -/
theorem kalloc_fills {k : Kernel} (size : Nat) (early : Early k.alloc) (valid : k.heapPointer ≠ 0)
    (fits : k.heapPointer + size < 2 ^ 64) :
    ∃ k', kalloc size k = (k.heapPointer, k') ∧ Fills size k k' ∧ k'.mem.Zeroed k.heapPointer size := by
  have same := ensureEarly_heapPointer valid size
  have addr : ((k.ensureEarly size).takeBlock size).1 = k.heapPointer := by rw [Kernel.takeBlock_heapPointer, same]
  have next : ((k.ensureEarly size).takeBlock size).2.alloc.currentMemPtr = k.heapPointer + size := by
    rw [Kernel.takeBlock_next, same, wrap_of_lt fits]
  refine ⟨((k.ensureEarly size).takeBlock size).2, ?_, ⟨?_, ?_, fun a outside => ?_⟩, ?_⟩
  · rw [kalloc_early early]
    exact Prod.mk.eta.symm.trans (congrArg (·, ((k.ensureEarly size).takeBlock size).2) addr)
  · rw [Early, Kernel.takeBlock_initialised]
    exact ensureEarly_early early size
  · rw [Kernel.heapPointer_of_ne (by omega), next]
  · rw [Kernel.takeBlock_outside _ _ (by rw [addr]; omega), ensureEarly_mem]
  · rw [← addr]
    exact Kernel.takeBlock_zeroed _ size

namespace Multiboot

open Libc

/-! ## Information blocks -/

/-- What a `MODULE` tag says. -/
structure ModuleTag where
  modStart : Nat
  modEnd : Nat
  cmdline : List UInt8

/-- An entry of a memory map. -/
structure MmapEntry where
  addr : Nat
  len : Nat
  type : Nat

/-- What a tag says behind its type and size. -/
inductive Content where
  | module (tag : ModuleTag)
  | mmap (entrySize : Nat) (entries : List MmapEntry)
  | other (type : Nat)

/-- A tag. -/
structure Tag where
  size : Nat
  content : Content

/-- The fields of the entry are at an address, below the limit of the block. -/
structure MmapEntry.At (m : Memory) (limit : Nat) (mmap : Nat) (entry : MmapEntry) : Prop where
  addr : m.load64 mmap = entry.addr
  len : m.load64 (mmap + 8) = entry.len
  type : m.load (mmap + 16) 4 = entry.type
  within : mmap + 20 ≤ limit

instance (m : Memory) (limit mmap : Nat) (entry : MmapEntry) : Decidable (entry.At m limit mmap) :=
  decidable_of_iff (m.load64 mmap = entry.addr ∧ m.load64 (mmap + 8) = entry.len ∧
    m.load (mmap + 16) 4 = entry.type ∧ mmap + 20 ≤ limit)
    ⟨fun ⟨addr, len, type, within⟩ => ⟨addr, len, type, within⟩,
      fun ⟨addr, len, type, within⟩ => ⟨addr, len, type, within⟩⟩

/-- Entries of a size, one behind the other. -/
def EntriesAt (m : Memory) (limit entrySize : Nat) : Nat → List MmapEntry → Prop
  | _, [] => True
  | mmap, entry :: rest => entry.At m limit mmap ∧ EntriesAt m limit entrySize (mmap + entrySize) rest

instance decidableEntriesAt (m : Memory) (limit entrySize : Nat) :
    ∀ mmap entries, Decidable (EntriesAt m limit entrySize mmap entries)
  | _, [] => .isTrue trivial
  | mmap, entry :: rest =>
      have := decidableEntriesAt m limit entrySize (mmap + entrySize) rest
      inferInstanceAs (Decidable (entry.At m limit mmap ∧ EntriesAt m limit entrySize (mmap + entrySize) rest))

/-- The content is behind the type and size at `tag`: a command line is terminated, and a memory map is a
whole number of entries. -/
def Content.At (m : Memory) (limit tag size : Nat) : Content → Prop
  | .module content => tagType m tag = tagTypeModule ∧ m.load (tag + 8) 4 = content.modStart ∧
      m.load (tag + 12) 4 = content.modEnd ∧ Spells m (tag + 16) content.cmdline ∧
      tag + 16 + content.cmdline.length < limit
  | .mmap entrySize entries => tagType m tag = tagTypeMmap ∧ m.load (tag + 8) 4 = entrySize ∧ 0 < entrySize ∧
      size = 16 + entries.length * entrySize ∧ EntriesAt m limit entrySize (tag + 16) entries
  | .other type => tagType m tag = type ∧ type ≠ tagTypeEnd ∧ type ≠ tagTypeModule ∧ type ≠ tagTypeMmap

instance (m : Memory) (limit tag size : Nat) (content : Content) : Decidable (content.At m limit tag size) := by
  cases content <;> unfold Content.At <;> infer_instance

/-- A size padded to eight bytes. -/
def padded (size : Nat) : Nat := (size + 7) / 8 * 8

/-- Tags from an address on, each of at least eight bytes and padded, up to an `END` tag below the limit. -/
def TagsAt (m : Memory) (limit : Nat) : Nat → List Tag → Prop
  | a, [] => tagType m a = tagTypeEnd ∧ a + 8 ≤ limit
  | a, tag :: rest => tagSize m a = tag.size ∧ 8 ≤ tag.size ∧ tag.content.At m limit a tag.size ∧
      TagsAt m limit (a + padded tag.size) rest

instance decidableTagsAt (m : Memory) (limit : Nat) : ∀ a tags, Decidable (TagsAt m limit a tags)
  | a, [] => inferInstanceAs (Decidable (tagType m a = tagTypeEnd ∧ a + 8 ≤ limit))
  | a, tag :: rest =>
      have := decidableTagsAt m limit (a + padded tag.size) rest
      inferInstanceAs (Decidable (tagSize m a = tag.size ∧ 8 ≤ tag.size ∧ tag.content.At m limit a tag.size ∧
        TagsAt m limit (a + padded tag.size) rest))

/-- A well-formed information block in the memory from `addr` up to `limit`. -/
structure InfoBlock (m : Memory) (addr limit : Nat) (tags : List Tag) : Prop where
  aligned : addr % 8 = 0
  memory : limit ≤ 2 ^ 64
  tags : TagsAt m limit (addr + 8) tags

/-! ## What a block says -/

/-- The addresses of the tags. -/
def tagAddresses : Nat → List Tag → List Nat
  | _, [] => []
  | a, tag :: rest => a :: tagAddresses (a + padded tag.size) rest

def Content.modules : Content → List ModuleTag
  | .module tag => [tag]
  | _ => []

/-- The segment an entry reserves; it may end at the end of memory. -/
def MmapEntry.segment (entry : MmapEntry) : Region where
  addrStart := entry.addr
  addrEnd := wrap (entry.addr + entry.len)
  size := entry.len

/-- The segments of the entries that are not available, in their order. -/
def reservedSegments (entries : List MmapEntry) : List Region :=
  (entries.filter fun entry => entry.type ≠ memoryAvailable).map MmapEntry.segment

def Content.reserved : Content → List Region
  | .mmap _ entries => reservedSegments entries
  | _ => []

/-- The heap the parser takes for a tag: its record, its command line and a list node. -/
def Content.need : Content → Nat
  | .module tag => sizeofInfoModule + (tag.cmdline.length + 1) + sizeofLinkedlistNode
  | .mmap _ entries => (reservedSegments entries).length * (sizeofRegion + sizeofLinkedlistNode)
  | .other _ => 0

/-- The heap the parser takes for all tags. -/
def heapNeed (tags : List Tag) : Nat := (tags.map fun tag => tag.content.need).sum

/-- The record of a module: its region, and a copy of its command line with a NUL. -/
structure Describes (m : Memory) (module : InfoModule) (tag : ModuleTag) : Prop where
  region : module.region =
    { addrStart := tag.modStart, addrEnd := tag.modEnd, size := difference32 tag.modEnd tag.modStart }
  param : Spells m module.param tag.cmdline

theorem le_padded (size : Nat) : size ≤ padded size := by
  unfold padded
  omega

theorem TagsAt.room {m : Memory} {limit : Nat} : ∀ {tags : List Tag} {a : Nat}, TagsAt m limit a tags → a + 8 ≤ limit
  | [], _, ⟨_, within⟩ => within
  | tag :: _, _, ⟨_, _, _, others⟩ => by
      have later := others.room
      omega

/-! ## A block in changed memory -/

section Congruence

variable {m m' : Memory} {addr limit : Nat} (same : ∀ a, addr ≤ a → a < limit → m' a = m a)

include same

theorem load_same {a count : Nat} (low : addr ≤ a) (high : a + count ≤ limit) : m'.load a count = m.load a count :=
  Memory.load_congr fun b low' high' => same b (by omega) (by omega)

theorem EntriesAt.congr {entrySize : Nat} (entries : List MmapEntry) : ∀ {mmap : Nat}, addr ≤ mmap →
    EntriesAt m limit entrySize mmap entries → EntriesAt m' limit entrySize mmap entries := by
  induction entries with
  | nil => exact fun _ _ => trivial
  | cons entry rest ih =>
      rintro mmap low ⟨⟨addr', len, type, within⟩, others⟩
      refine ⟨⟨?_, ?_, ?_, within⟩, ih (by omega) others⟩
      · rw [← addr']
        exact load_same same low (by omega)
      · rw [← len]
        exact load_same same (by omega) (by omega)
      · rw [← type]
        exact load_same same (by omega) (by omega)

theorem Content.At.congr {content : Content} {tag size : Nat} (low : addr ≤ tag) (room : tag + size + 8 ≤ limit)
    (large : 8 ≤ size) (here : content.At m limit tag size) : content.At m' limit tag size := by
  have type : tagType m' tag = tagType m tag := load_same same low (by omega)
  cases content with
  | module content =>
      obtain ⟨isType, modStart, modEnd, spells, within⟩ := here
      refine ⟨type.trans isType, ?_, ?_, spells.moved fun i bound => same _ (by omega) (by omega), within⟩
      · rw [← modStart]
        exact load_same same (by omega) (by omega)
      · rw [← modEnd]
        exact load_same same (by omega) (by omega)
  | mmap entrySize entries =>
      obtain ⟨isType, isSize, positive, whole, all⟩ := here
      refine ⟨type.trans isType, ?_, positive, whole, EntriesAt.congr same entries (by omega) all⟩
      rw [← isSize]
      exact load_same same (by omega) (by omega)
  | other => exact ⟨type.trans here.1, here.2⟩

theorem TagsAt.congr (tags : List Tag) : ∀ {a : Nat}, addr ≤ a → TagsAt m limit a tags → TagsAt m' limit a tags := by
  induction tags with
  | nil => exact fun low ⟨isEnd, within⟩ => ⟨(load_same same low (by omega)).trans isEnd, within⟩
  | cons tag rest ih =>
      rintro a low ⟨isSize, large, content, others⟩
      have room := others.room
      have size := le_padded tag.size
      refine ⟨(load_same same (by omega) (by omega)).trans isSize, large,
        content.congr same low (by omega) large, ih (by omega) others⟩

end Congruence

theorem InfoBlock.congr {m m' : Memory} {addr limit : Nat} {tags : List Tag} (block : InfoBlock m addr limit tags)
    (same : ∀ a, addr ≤ a → a < limit → m' a = m a) : InfoBlock m' addr limit tags :=
  ⟨block.aligned, block.memory, TagsAt.congr same tags (Nat.le_add_right addr 8) block.tags⟩

/-! ## Visiting a tag -/

/-- A list that is there, and a heap that has the room. -/
theorem append_fills {α : Type} {items : List α} {k : Kernel} (data : α) (early : Early k.alloc)
    (valid : k.heapPointer ≠ 0) (fits : k.heapPointer + sizeofLinkedlistNode < 2 ^ 64) :
    ∃ k', append (some items) data k = (some (items ++ [data]), k') ∧ Fills sizeofLinkedlistNode k k' := by
  obtain ⟨k', served, fills, -⟩ := kalloc_fills sizeofLinkedlistNode early valid fits
  refine ⟨k', ?_, fills⟩
  rw [append, served]
  exact congrArg (·, k') (if_neg valid)

section Visit

variable {addr limit rounds tag : Nat} {s : Boot} {modules : List InfoModule} {reserved : List Region}

/-- The stretch of the heap is outside the block. -/
def Outside (addr limit size : Nat) (k : Kernel) : Prop :=
  ∀ a, addr ≤ a → a < limit → a < k.heapPointer ∨ k.heapPointer + size ≤ a

/-- The state before a step that takes `size` bytes: the mode of the boot, lists, and room in the heap
outside the block. -/
structure Ready (addr limit size : Nat) (modules : List InfoModule) (reserved : List Region) (s : Boot) : Prop where
  early : Early s.kernel.alloc
  valid : s.kernel.heapPointer ≠ 0
  fits : s.kernel.heapPointer + size < 2 ^ 64
  outside : Outside addr limit size s.kernel
  modules : s.modules = some modules
  reserved : s.reservedSegments = some reserved

theorem Fills.same {size : Nat} {k k' : Kernel} (fills : Fills size k k') (outside : Outside addr limit size k) :
    ∀ a, addr ≤ a → a < limit → k'.mem a = k.mem a :=
  fun a low high => fills.kept a (outside a low high)

/-- A step leaves the next one ready. -/
theorem Ready.next {size size' : Nat} {s' : Boot} {modules' : List InfoModule} {reserved' : List Region}
    (ready : Ready addr limit (size + size') modules reserved s) (fills : Fills size s.kernel s'.kernel)
    (isModules : s'.modules = some modules') (isReserved : s'.reservedSegments = some reserved') :
    Ready addr limit size' modules' reserved' s' := by
  have pointer := fills.pointer
  have fits := ready.fits
  have valid := ready.valid
  refine ⟨fills.early, by omega, by omega, fun a low high => ?_, isModules, isReserved⟩
  have outside := ready.outside a low high
  omega

theorem Ready.less {size size' : Nat} (ready : Ready addr limit (size + size') modules reserved s) :
    Ready addr limit size modules reserved s := by
  have fits := ready.fits
  refine ⟨ready.early, ready.valid, by omega, fun a low high => ?_, ready.modules, ready.reserved⟩
  have outside := ready.outside a low high
  omega

theorem reserveSegment_spec {entry : MmapEntry} {mmap : Nat}
    (ready : Ready addr limit (sizeofRegion + sizeofLinkedlistNode) modules reserved s) (low : addr ≤ mmap)
    (here : entry.At s.kernel.mem limit mmap) :
    Fills (sizeofRegion + sizeofLinkedlistNode) s.kernel (reserveSegment mmap s).kernel ∧
      (reserveSegment mmap s).modules = some modules ∧
      (reserveSegment mmap s).reservedSegments = some (reserved ++ [entry.segment]) ∧
      (reserveSegment mmap s).visited = s.visited := by
  have fits := ready.fits
  have valid := ready.valid
  obtain ⟨k', served, taken, -⟩ := kalloc_fills sizeofRegion ready.early ready.valid (by omega)
  have pointer := taken.pointer
  have same := Fills.same taken ready.less.outside
  have isAddr : k'.mem.load64 mmap = entry.addr := by
    rw [← here.addr]
    exact load_same same low (by have within := here.within; omega)
  have isLen : k'.mem.load64 (mmap + 8) = entry.len := by
    rw [← here.len]
    exact load_same same (by omega) (by have within := here.within; omega)
  obtain ⟨k'', appended, filled⟩ := append_fills entry.segment taken.early (by omega) (by omega)
  have result : reserveSegment mmap s =
      { s with kernel := k'', reservedSegments := some (reserved ++ [entry.segment]) } := by
    rw [reserveSegment, served]
    dsimp only
    rw [isAddr, isLen, ready.reserved]
    exact congrArg (fun list : LinkedList Region × Kernel => { s with kernel := list.2, reservedSegments := list.1 })
      appended
  rw [result]
  exact ⟨taken.trans filled, ready.modules, rfl, rfl⟩

/-- What the parser has done between two states: the heap it took, the modules and segments it appended and
the tags it went to. -/
structure Parsed (need : Nat) (tags : List ModuleTag) (segments : List Region) (addresses : List Nat)
    (modules : List InfoModule) (reserved : List Region) (s s' : Boot) : Prop where
  fills : Fills need s.kernel s'.kernel
  modules : ∃ new, s'.modules = some (modules ++ new) ∧ List.Forall₂ (fun module tag =>
    Describes s'.kernel.mem module tag ∧ module.param + tag.cmdline.length < s'.kernel.heapPointer) new tags
  reserved : s'.reservedSegments = some (reserved ++ segments)
  visited : s'.visited = addresses.reverse ++ s.visited

/-- The copies below the heap pointer stay. -/
theorem Describes.fills {size : Nat} {k k' : Kernel} {module : InfoModule} {tag : ModuleTag}
    (describes : Describes k.mem module tag) (below : module.param + tag.cmdline.length < k.heapPointer)
    (fills : Fills size k k') : Describes k'.mem module tag :=
  ⟨describes.region, describes.param.moved fun _ _ => fills.kept _ (by omega)⟩

/-- Steps that only read. -/
theorem Parsed.nothing {size : Nat} (ready : Ready addr limit size modules reserved s) (totalMemory : Nat) :
    Parsed 0 [] [] [] modules reserved s { s with totalMemory := totalMemory } :=
  ⟨.refl ready.early, ⟨[], by rw [List.append_nil, ready.modules], .nil⟩, by rw [List.append_nil, ready.reserved], rfl⟩

theorem Parsed.trans {need need' : Nat} {tags tags' : List ModuleTag} {segments segments' : List Region}
    {addresses addresses' : List Nat} {s' s'' : Boot}
    (first : Parsed need tags segments addresses modules reserved s s')
    (second : ∀ modules' reserved', s'.modules = some modules' → s'.reservedSegments = some reserved' →
      Parsed need' tags' segments' addresses' modules' reserved' s' s'') :
    Parsed (need + need') (tags ++ tags') (segments ++ segments') (addresses ++ addresses') modules reserved s s'' := by
  obtain ⟨new, isModules, described⟩ := first.modules
  have rest := second _ _ isModules first.reserved
  obtain ⟨new', isModules', described'⟩ := rest.modules
  refine ⟨first.fills.trans rest.fills, ⟨new ++ new', ?_, ?_⟩, ?_, ?_⟩
  · rw [isModules', List.append_assoc]
  · have later := rest.fills.pointer
    refine List.rel_append (described.imp fun module tag ⟨describes, below⟩ => ⟨?_, by omega⟩) described'
    exact describes.fills below rest.fills
  · rw [rest.reserved, List.append_assoc]
  · rw [rest.visited, first.visited, List.reverse_append, List.append_assoc]

theorem reservedSegments_cons (entry : MmapEntry) (rest : List MmapEntry) : reservedSegments (entry :: rest) =
    if entry.type = memoryAvailable then reservedSegments rest else entry.segment :: reservedSegments rest := by
  unfold reservedSegments
  split
  · rename_i available
    rw [List.filter_cons_of_neg (by simp [available])]
  · rename_i other
    rw [List.filter_cons_of_pos (by simp [other]), List.map_cons]

/-- The loop over the entries of a map. -/
theorem mmapLoop_spec {entrySize size : Nat} (memory : limit ≤ 2 ^ 64) (low : addr ≤ tag) (positive : 0 < entrySize)
    (room : tag + size + 8 ≤ limit) (entries : List MmapEntry) :
    ∀ {rounds mmap : Nat} {s : Boot} {reserved : List Region}, entries.length < rounds → tag + 16 ≤ mmap →
      mmap + entries.length * entrySize = tag + size → tagSize s.kernel.mem tag = size →
      s.kernel.mem.load (tag + 8) 4 = entrySize → EntriesAt s.kernel.mem limit entrySize mmap entries →
      Ready addr limit ((reservedSegments entries).length * (sizeofRegion + sizeofLinkedlistNode)) modules reserved s →
      ∃ s' ∈ mmapLoop tag rounds mmap s,
        Parsed ((reservedSegments entries).length * (sizeofRegion + sizeofLinkedlistNode)) []
          (reservedSegments entries) [] modules reserved s s' := by
  induction entries with
  | nil =>
      intro rounds mmap s reserved enough behind ends isSize isEntrySize here ready
      obtain ⟨rounds, rfl⟩ := Nat.exists_eq_succ_of_ne_zero (Nat.ne_of_gt enough)
      refine ⟨s, if_neg ?_, .nothing ready s.totalMemory⟩
      rw [List.length_nil, Nat.zero_mul] at ends
      rw [isSize, wrap_of_lt (by omega)]
      omega
  | cons entry rest ih =>
      intro rounds mmap s reserved enough behind ends isSize isEntrySize here ready
      obtain ⟨first, others⟩ := here
      obtain ⟨rounds, rfl⟩ := Nat.exists_eq_succ_of_ne_zero (Nat.ne_of_gt (Nat.zero_lt_of_lt enough))
      rw [List.length_cons] at enough ends
      have next : mmap + entrySize + rest.length * entrySize = tag + size := by
        rw [← ends, Nat.succ_mul]
        omega
      have more : mmap < wrap (tag + tagSize s.kernel.mem tag) := by
        rw [isSize, wrap_of_lt (by omega)]
        omega
      rw [reservedSegments_cons] at ready ⊢
      by_cases available : entry.type = memoryAvailable
      · rw [if_pos available] at ready ⊢
        obtain ⟨s', result, parsed⟩ := ih (by omega : rest.length < rounds) (by omega : tag + 16 ≤ mmap + entrySize) next
          isSize isEntrySize others ready
        refine ⟨s', ?_, parsed⟩
        rw [mmapLoop, if_pos more]
        dsimp only
        rw [first.type, if_pos available, isEntrySize, wrap_of_lt (by omega)]
        exact result
      · rw [if_neg available, List.length_cons, Nat.succ_mul, Nat.add_comm] at ready
        obtain ⟨fills, isModules, isReserved, isVisited⟩ := reserveSegment_spec ready.less (by omega) first
        have same := Fills.same fills ready.less.outside
        have isSize' : tagSize (reserveSegment mmap s).kernel.mem tag = size :=
          (load_same same (by omega) (by omega)).trans isSize
        have isEntrySize' : (reserveSegment mmap s).kernel.mem.load (tag + 8) 4 = entrySize :=
          (load_same same (by omega) (by have within := first.within; omega)).trans isEntrySize
        obtain ⟨s', result, parsed⟩ := ih (by omega : rest.length < rounds) (by omega : tag + 16 ≤ mmap + entrySize) next
          isSize' isEntrySize' (EntriesAt.congr same rest (by omega) others) (ready.next fills isModules isReserved)
        refine ⟨s', ?_, ?_⟩
        · rw [mmapLoop, if_pos more]
          dsimp only
          rw [first.type, if_neg available, isEntrySize', wrap_of_lt (by omega)]
          exact result
        · have one : Parsed (sizeofRegion + sizeofLinkedlistNode) [] [entry.segment] [] modules reserved s
              (reserveSegment mmap s) := ⟨fills, ⟨[], by rw [List.append_nil, isModules], .nil⟩, isReserved, isVisited⟩
          rw [if_neg available, List.length_cons, Nat.succ_mul, Nat.add_comm]
          refine one.trans fun modules' reserved' isModules' isReserved' => ?_
          rw [Option.some.inj (isModules'.symm.trans isModules), Option.some.inj (isReserved'.symm.trans isReserved)]
          exact parsed

/-- A stretch of the block and one of the heap are apart. -/
theorem Outside.apart {size first count : Nat} {k : Kernel} (outside : Outside addr limit size k) (offset : Nat)
    (low : addr ≤ first) (high : first + count < limit) (within : offset + count ≤ size) (some : 0 < size) :
    k.heapPointer + offset + count ≤ first ∨ first + count ≤ k.heapPointer + offset := by
  have atFirst := outside first low (by omega)
  have atLast := outside (first + count) (by omega) high
  have atPointer := outside k.heapPointer
  omega

/-- A module: its record, its command line and its place in the list. -/
theorem addModule_spec {content : ModuleTag} (memory : limit ≤ 2 ^ 64) (low : addr ≤ tag)
    (enough : content.cmdline.length < rounds) {size : Nat}
    (here : (Content.module content).At s.kernel.mem limit tag size)
    (ready : Ready addr limit (sizeofInfoModule + (content.cmdline.length + 1) + sizeofLinkedlistNode) modules reserved s) :
    ∃ s' ∈ addModule rounds tag s, Parsed (sizeofInfoModule + (content.cmdline.length + 1) + sizeofLinkedlistNode)
      [content] [] [] modules reserved s s' := by
  obtain ⟨-, modStart, modEnd, spells, within⟩ := here
  have fits := ready.fits
  have valid := ready.valid
  obtain ⟨k₁, served, taken, -⟩ := kalloc_fills sizeofInfoModule ready.early valid (by omega)
  have pointer := taken.pointer
  have spells₁ : Spells k₁.mem (tag + 16) content.cmdline :=
    spells.moved fun i bound => Fills.same taken ready.less.less.outside _ (by omega) (by omega)
  obtain ⟨k₂, served', taken', zeroed⟩ := kalloc_fills (content.cmdline.length + 1) taken.early (by omega) (by omega)
  have both := taken.trans taken'
  have spells₂ : Spells k₂.mem (tag + 16) content.cmdline :=
    spells.moved fun i bound => Fills.same both ready.less.outside _ (by omega) (by omega)
  have apart := ready.outside.apart sizeofInfoModule (by omega : addr ≤ tag + 16) within (by omega) (by omega)
  rw [← pointer] at apart
  generalize isParam : k₁.heapPointer = param at served' zeroed pointer apart
  have isCopy := strncpy_eq apart (by omega) (by omega) spells₂.present
  have copy := spells₂.copy (zeroed (param + content.cmdline.length) (by omega) (by omega))
  generalize isBytes : k₂.mem.copy param (tag + 16) content.cmdline.length = bytes at isCopy copy
  have copied := both.setMem (m := bytes) fun a outside => by
    rw [← isBytes]
    exact if_neg (by omega)
  have same := Fills.same copied ready.less.outside
  have isStart : bytes.load (tag + 8) 4 = content.modStart :=
    (load_same same (by omega) (by omega)).trans modStart
  have isEnd : bytes.load (tag + 12) 4 = content.modEnd := (load_same same (by omega) (by omega)).trans modEnd
  have pointer' := copied.pointer
  generalize isRecord : InfoModule.mk param
    { addrStart := content.modStart, addrEnd := content.modEnd,
      size := difference32 content.modEnd content.modStart } = record
  obtain ⟨k₃, appended, filled⟩ := append_fills record copied.early (by omega) (by omega)
  have later := filled.pointer
  refine ⟨{ s with kernel := k₃, modules := some (modules ++ [record]) }, ?_, copied.trans filled,
    ⟨[record], rfl, .cons ⟨⟨by rw [← isRecord], ?_⟩, ?_⟩ .nil⟩, ?_, rfl⟩
  · rw [addModule, served]
    dsimp only
    rw [strlen_eq spells₁ (by omega) enough, Option.map_some, wrap_of_lt (by omega), served']
    dsimp only
    rw [isCopy]
    dsimp only
    rw [isStart, isEnd, isRecord, ready.modules]
    exact congrArg (fun list : LinkedList InfoModule × Kernel => some { s with kernel := list.2, modules := list.1 })
      appended
  · rw [← isRecord]
    exact copy.moved fun i bound => filled.kept _ (by dsimp only; omega)
  · rw [← isRecord]
    dsimp only
    omega
  · rw [List.append_nil]
    exact ready.reserved

/-- A tag of any kind. -/
theorem visitTag_spec {content : Content} {size : Nat} (memory : limit ≤ 2 ^ 64) (low : addr ≤ tag)
    (room : tag + size + 8 ≤ limit) (enough : limit ≤ rounds) (isSize : tagSize s.kernel.mem tag = size)
    (here : content.At s.kernel.mem limit tag size) (ready : Ready addr limit content.need modules reserved s) :
    ∃ s' ∈ visitTag rounds tag s, Parsed content.need content.modules content.reserved [] modules reserved s s' := by
  unfold visitTag
  cases content with
  | module content =>
      dsimp only
      rw [if_pos here.1]
      exact addModule_spec memory low (by have within := here.2.2.2.2; omega) here ready
  | mmap entrySize entries =>
      obtain ⟨isType, isEntrySize, positive, whole, all⟩ := here
      have many : entries.length ≤ entries.length * entrySize := Nat.le_mul_of_pos_right _ positive
      dsimp only
      rw [isType, if_neg (by decide), if_neg (by decide), if_pos rfl, wrap_of_lt (by omega)]
      exact mmapLoop_spec memory low positive room entries (by omega) (Nat.le_refl _) (by omega) isSize isEntrySize all
        ready
  | other type =>
      obtain ⟨isType, -, noModule, noMmap⟩ := here
      dsimp only
      rw [isType, if_neg noModule]
      split
      · exact ⟨_, rfl, .nothing ready _⟩
      · exact ⟨s, rfl, .nothing ready s.totalMemory⟩

end Visit

/-! ## All tags -/

theorem Content.At.notEnd {m : Memory} {limit tag size : Nat} {content : Content} (here : content.At m limit tag size) :
    tagType m tag ≠ tagTypeEnd := by
  cases content with
  | module => rw [here.1]; decide
  | mmap => rw [here.1]; decide
  | other => exact here.1 ▸ here.2.1

theorem nextTag_eq {m : Memory} {tag size : Nat} (isSize : tagSize m tag = size) (small : size + 7 < 2 ^ 32)
    (bound : tag + padded size < 2 ^ 64) : nextTag m tag = tag + padded size := by
  rw [nextTag, isSize, Nat.mod_eq_of_lt small, align]
  exact wrap_of_lt bound

section Walk

variable {addr limit rounds : Nat} {modules : List InfoModule} {reserved : List Region}

/-- The loop goes through all tags. -/
theorem tagLoop_spec (memory : limit ≤ 2 ^ 64) (enough : limit ≤ rounds) (tags : List Tag) :
    ∀ {left a : Nat} {s : Boot} {modules : List InfoModule} {reserved : List Region}, tags.length < left → addr ≤ a →
      TagsAt s.kernel.mem limit a tags → (∀ tag ∈ tags, tag.size + 7 < 2 ^ 32) →
      Ready addr limit (heapNeed tags) modules reserved s →
      ∃ s' ∈ tagLoop rounds left a s, Parsed (heapNeed tags) (tags.flatMap fun tag => tag.content.modules)
        (tags.flatMap fun tag => tag.content.reserved) (tagAddresses a tags) modules reserved s s' := by
  induction tags with
  | nil =>
      intro left a s modules reserved more low here small ready
      obtain ⟨left, rfl⟩ := Nat.exists_eq_succ_of_ne_zero (Nat.ne_of_gt more)
      exact ⟨s, if_pos here.1, .nothing ready s.totalMemory⟩
  | cons tag rest ih =>
      intro left a s modules reserved more low here small ready
      obtain ⟨isSize, large, content, others⟩ := here
      obtain ⟨left, rfl⟩ := Nat.exists_eq_succ_of_ne_zero (Nat.ne_of_gt (Nat.zero_lt_of_lt more))
      have room := others.room
      have size := le_padded tag.size
      have ready' : Ready addr limit (tag.content.need + heapNeed rest) modules reserved
          { s with visited := a :: s.visited } :=
        ⟨ready.early, ready.valid, ready.fits, ready.outside, ready.modules, ready.reserved⟩
      obtain ⟨s', visited, parsed⟩ := visitTag_spec (s := { s with visited := a :: s.visited }) memory low
        (by omega : a + tag.size + 8 ≤ limit) enough isSize content ready'.less
      have same := Fills.same parsed.fills ready'.less.outside
      have isSize' : tagSize s'.kernel.mem a = tag.size := (load_same same (by omega) (by omega)).trans isSize
      have one : Parsed tag.content.need tag.content.modules tag.content.reserved [a] modules reserved s s' :=
        ⟨parsed.fills, parsed.modules, parsed.reserved, parsed.visited⟩
      have next := nextTag_eq isSize' (small tag List.mem_cons_self) (by omega)
      obtain ⟨new, isModules, -⟩ := parsed.modules
      obtain ⟨s'', result, rest⟩ := ih (by rw [List.length_cons] at more; omega : rest.length < left) (by omega)
        (TagsAt.congr same rest (by omega) others) (fun tag member => small tag (List.mem_cons_of_mem _ member))
        (ready'.next parsed.fills isModules parsed.reserved)
      refine ⟨s'', ?_, one.trans fun modules' reserved' isModules' isReserved' => ?_⟩
      · rw [tagLoop, if_neg content.notEnd]
        rw [show visitTag rounds a { s with visited := a :: s.visited } = some s' from visited, Option.bind_some, next]
        exact result
      · rw [Option.some.inj (isModules'.symm.trans isModules), Option.some.inj (isReserved'.symm.trans parsed.reserved)]
        exact rest

theorem TagsAt.length {m : Memory} : ∀ {tags : List Tag} {a : Nat}, TagsAt m limit a tags →
    a + 8 * tags.length + 8 ≤ limit
  | [], _, ⟨_, within⟩ => within
  | tag :: rest, a, ⟨_, large, _, others⟩ => by
      have later := others.length
      have size := le_padded tag.size
      rw [List.length_cons]
      omega

theorem TagsAt.ordered {m : Memory} : ∀ {tags : List Tag} {a : Nat}, TagsAt m limit a tags →
    (∀ b ∈ tagAddresses a tags, a ≤ b) ∧ (tagAddresses a tags).Pairwise (· < ·)
  | [], _, _ => ⟨fun _ member => absurd member List.not_mem_nil, .nil⟩
  | tag :: rest, a, ⟨_, large, _, others⟩ => by
      obtain ⟨above, ordered⟩ := others.ordered
      have size := le_padded tag.size
      refine ⟨fun b member => ?_, .cons (fun b member => ?_) ordered⟩
      · rcases List.mem_cons.mp member with rfl | member
        · exact Nat.le_refl b
        · have later := above b member
          omega
      · have later := above b member
        omega

/-- For every well-formed block outside the heap the parser needs, whose sizes can be padded in 32 bits: the
parser returns `true`, having gone to every tag once and in order; the modules are those of the `MODULE` tags,
each with a copy of its command line, and the reserved segments those of the entries that are not available. -/
theorem multiboot2Parser_decodes {s : Boot} {magic : Nat} {tags : List Tag}
    (block : InfoBlock s.kernel.mem addr limit tags) (small : ∀ tag ∈ tags, tag.size + 7 < 2 ^ 32)
    (isMagic : magic % 2 ^ 32 = bootloaderMagic) (ready : Ready addr limit (heapNeed tags) [] [] s)
    (enough : limit ≤ rounds) :
    ∃ s', multiboot2Parser rounds magic addr s = some (true, s') ∧
      s'.visited = (tagAddresses (addr + 8) tags).reverse ++ s.visited ∧ (tagAddresses (addr + 8) tags).Nodup ∧
      (∃ modules, s'.modules = some modules ∧
        List.Forall₂ (Describes s'.kernel.mem) modules (tags.flatMap fun tag => tag.content.modules)) ∧
      s'.reservedSegments = some (tags.flatMap fun tag => tag.content.reserved) := by
  obtain ⟨aligned, memory, all⟩ := block
  have length := all.length
  obtain ⟨s', result, parsed⟩ := tagLoop_spec memory enough tags (by omega : tags.length < rounds)
    (Nat.le_add_right addr 8) all small ready
  obtain ⟨modules, isModules, described⟩ := parsed.modules
  have isAligned : addr % 2 ^ 32 &&& 7 = 0 := by
    have low : addr % 2 ^ 32 &&& 2 ^ 3 - 1 = addr % 2 ^ 32 % 2 ^ 3 := Nat.and_two_pow_sub_one_eq_mod _ 3
    refine low.trans ?_
    omega
  refine ⟨s', ?_, parsed.visited, all.ordered.2.imp fun less => Nat.ne_of_lt less,
    ⟨modules, isModules, described.imp fun _ _ both => both.1⟩, parsed.reserved⟩
  rw [multiboot2Parser, if_neg (not_not.mpr isMagic), if_neg (not_not.mpr isAligned), wrap_of_lt (by omega),
    show tagLoop rounds rounds (addr + 8) s = some s' from result]
  rfl

end Walk

/-! ## The state at the boot -/

theorem linkedlistCreate_fills (α : Type) {k : Kernel} (early : Early k.alloc) (valid : k.heapPointer ≠ 0)
    (fits : k.heapPointer + sizeofLinkedlist < 2 ^ 64) :
    ∃ k', (linkedlistCreate kalloc k : LinkedList α × Kernel) = (some [], k') ∧ Fills sizeofLinkedlist k k' := by
  obtain ⟨k', served, fills, -⟩ := kalloc_fills sizeofLinkedlist early valid fits
  refine ⟨k', ?_, fills⟩
  rw [linkedlistCreate, served]
  exact if_neg valid

/-- `platform_initialize` leaves two empty lists at the beginning of the heap. -/
theorem platformInitialize_ready {kernelEnd addr limit need dataStart : Nat} (kernelStart : Nat) (pmem : Pmem)
    (m : Memory) (isStart : wrap (memAlign kernelEnd + systemPageSize) = dataStart) (valid : dataStart ≠ 0)
    (fits : dataStart + 2 * sizeofLinkedlist + need < 2 ^ 64)
    (outside : ∀ a, addr ≤ a → a < limit → a < dataStart ∨ dataStart + 2 * sizeofLinkedlist + need ≤ a) :
    Ready addr limit need [] [] (platformInitialize kernelStart kernelEnd pmem m) ∧
      ∀ a, addr ≤ a → a < limit → (platformInitialize kernelStart kernelEnd pmem m).kernel.mem a = m a := by
  generalize isKernel : Kernel.start
    { kernel := { addrStart := kernelStart, addrEnd := kernelEnd, size := wrapSub kernelEnd kernelStart }
      kernelData := { addrStart := dataStart, addrEnd := dataStart, size := 0 } } pmem m = k
  have pointer : k.heapPointer = dataStart := by rw [← isKernel]; rfl
  have early : Early k.alloc := by rw [← isKernel]; rfl
  have bytes : k.mem = m := by rw [← isKernel]; rfl
  obtain ⟨k₁, isReserved, first⟩ := linkedlistCreate_fills Region early (by omega) (by omega)
  have pointer' := first.pointer
  obtain ⟨k₂, isModules, second⟩ := linkedlistCreate_fills InfoModule first.early (by omega) (by omega)
  have pointer'' := second.pointer
  have result : platformInitialize kernelStart kernelEnd pmem m =
      { kernel := k₂, totalMemory := 0, modules := some [], reservedSegments := some [], visited := [] } := by
    rw [platformInitialize, isStart, isKernel, isReserved]
    dsimp only
    rw [isModules]
  rw [result]
  refine ⟨⟨second.early, ?_, ?_, fun a low high => ?_, rfl, rfl⟩, fun a low high => ?_⟩
  · dsimp only
    omega
  · dsimp only
    omega
  · have there := outside a low high
    dsimp only
    omega
  · have there := outside a low high
    rw [← bytes]
    exact (first.trans second).kept a (by omega)

/-! ## Samples -/

/-- Bytes at an address, in memory that is zero otherwise. -/
def bytesAt (addr : Nat) (bytes : List UInt8) : Memory := fun a => if a < addr then 0 else bytes.getD (a - addr) 0

/-- A little-endian field of `count` bytes. -/
def field (count value : Nat) : List UInt8 := (List.range count).map fun i => UInt8.ofNat (value / 256 ^ i)

/-- A command line of 23 characters. -/
def sampleCmdline : List UInt8 := "module-with-a-long-name".toList.map fun c => UInt8.ofNat c.toNat

/-- A `MODULE` tag with it. -/
def sampleModule : Tag where
  size := 40
  content := .module { modStart := 0x200000, modEnd := 0x201000, cmdline := sampleCmdline }

/-- A `MMAP` tag with one available entry and a reserved one. -/
def sampleMmap : Tag where
  size := 64
  content := .mmap 24 [{ addr := 0, len := 0x9fc00, type := 1 }, { addr := 0x9fc00, len := 0x400, type := 2 }]

def sampleModuleBytes : List UInt8 :=
  field 4 3 ++ field 4 40 ++ field 4 0x200000 ++ field 4 0x201000 ++ sampleCmdline ++ [0]

def sampleMmapBytes : List UInt8 :=
  field 4 6 ++ field 4 64 ++ field 4 24 ++ field 4 0 ++ field 8 0 ++ field 8 0x9fc00 ++ field 8 1 ++
    field 8 0x9fc00 ++ field 8 0x400 ++ field 8 2

/-- An information block around tags. -/
def infoBytes (tags : List UInt8) : List UInt8 := field 8 (tags.length + 16) ++ tags ++ field 4 0 ++ field 4 8

/-- A machine with a kernel of one page at one megabyte, so that kernel data begins at `0x102000`. -/
def sampleBoot (m : Memory) : Boot :=
  platformInitialize 0x100000 0x101000 { totalOfPages := 17000, pages := fun _ => .free } m

theorem sampleBoot_ready {m : Memory} {addr limit need : Nat} (fits : need < 2 ^ 32)
    (outside : limit ≤ 0x102000 ∨ 0x102020 + need ≤ addr) :
    Ready addr limit need [] [] (sampleBoot m) ∧
      ∀ a, addr ≤ a → a < limit → (sampleBoot m).kernel.mem a = m a := by
  have isStart : wrap (memAlign 0x101000 + systemPageSize) = 0x102000 := by decide
  unfold sampleBoot
  refine platformInitialize_ready 0x100000 _ m isStart (by decide) ?_ fun a low high => ?_
  · unfold sizeofLinkedlist
    omega
  · unfold sizeofLinkedlist
    omega

theorem multiboot2Parser_decodes_sample :
    ∃ s', multiboot2Parser 0x10000 bootloaderMagic 0x9000
        (sampleBoot (bytesAt 0x9000 (infoBytes (sampleModuleBytes ++ sampleMmapBytes)))) = some (true, s') ∧
      s'.reservedSegments = some [{ addrStart := 0x9fc00, addrEnd := 0xa0000, size := 0x400 }] := by
  have block : InfoBlock (bytesAt 0x9000 (infoBytes (sampleModuleBytes ++ sampleMmapBytes))) 0x9000 0x9100
      [sampleModule, sampleMmap] := ⟨by decide, by decide, by decide +kernel⟩
  obtain ⟨ready, same⟩ : _ ∧ _ := sampleBoot_ready (m := bytesAt 0x9000 (infoBytes (sampleModuleBytes ++ sampleMmapBytes)))
    (by decide +kernel : heapNeed [sampleModule, sampleMmap] < 2 ^ 32) (Or.inl (by decide : 0x9100 ≤ 0x102000))
  obtain ⟨s', returned, -, -, -, reserved⟩ := multiboot2Parser_decodes (block.congr same) (by decide +kernel)
    (by decide : bootloaderMagic % 2 ^ 32 = bootloaderMagic) ready (by decide : 0x9100 ≤ 0x10000)
  exact ⟨s', returned, reserved⟩

/-- A tag whose size cannot be padded in 32 bits is its own successor. -/
theorem tagLoop_stuck {rounds a : Nat} {s : Boot} (bound : a < 2 ^ 64) (isType : tagType s.kernel.mem a = 99)
    (isSize : tagSize s.kernel.mem a = 2 ^ 32 - 1) (left : Nat) :
    ∀ visited, tagLoop rounds left a { s with visited := visited } = none := by
  have same : nextTag s.kernel.mem a = a := by
    rw [nextTag, isSize]
    exact wrap_of_lt bound
  induction left with
  | zero => exact fun _ => rfl
  | succ left ih =>
      intro visited
      have only : visitTag rounds a { s with visited := a :: visited } = some { s with visited := a :: visited } := by
        unfold visitTag
        dsimp only
        rw [isType]
        rfl
      rw [tagLoop, if_neg (by dsimp only; rw [isType]; decide)]
      dsimp only
      rw [only, Option.bind_some, same]
      exact ih _

/-- A tag of the largest size, and the `END` tag behind its padding. -/
def hugeTag : List UInt8 := infoBytes (field 4 99 ++ field 4 (2 ^ 32 - 1))

/-- Where the boot loader puts the block matters: the copy of a command line can end up on its own tag, from
which the addresses of the module are read afterwards.  A tag of almost four gigabytes keeps the parser for
ever, and any other magic number is refused. -/
theorem multiboot2Parser_misreads :
    (InfoBlock (sampleBoot (bytesAt 0x102040 (infoBytes sampleModuleBytes))).kernel.mem 0x102040 0x102078
        [sampleModule] ∧
      (multiboot2Parser 32 bootloaderMagic 0x102040
        (sampleBoot (bytesAt 0x102040 (infoBytes sampleModuleBytes)))).map
          (fun result => (result.1, result.2.modules.items.map fun module => module.region.addrStart)) =
        some (true, [0x6e2d676e])) ∧
    (InfoBlock (sampleBoot (bytesAt 0x200000 hugeTag)).kernel.mem 0x200000 0x200000000
        [{ size := 2 ^ 32 - 1, content := .other 99 }] ∧
      ∀ rounds, multiboot2Parser rounds bootloaderMagic 0x200000 (sampleBoot (bytesAt 0x200000 hugeTag)) = none) ∧
    (multiboot2Parser 32 0 0x9000 (sampleBoot (bytesAt 0x9000 (infoBytes [])))).map Prod.fst = some false := by
  have near : InfoBlock (bytesAt 0x102040 (infoBytes sampleModuleBytes)) 0x102040 0x102078 [sampleModule] :=
    ⟨by decide, by decide, by decide +kernel⟩
  have huge : InfoBlock (bytesAt 0x200000 hugeTag) 0x200000 0x200000000
      [{ size := 2 ^ 32 - 1, content := .other 99 }] := ⟨by decide, by decide, by decide +kernel⟩
  refine ⟨⟨near.congr (sampleBoot_ready (by decide : 0 < 2 ^ 32) (Or.inr (by decide))).2, by decide +kernel⟩,
    ⟨huge.congr (sampleBoot_ready (by decide : 0 < 2 ^ 32) (Or.inr (by decide))).2, fun rounds => ?_⟩, by decide +kernel⟩
  rw [multiboot2Parser, if_neg (by decide), if_neg (by decide),
    tagLoop_stuck (by decide) (by decide +kernel) (by decide +kernel)]
  rfl

end Multiboot
end BubackOS

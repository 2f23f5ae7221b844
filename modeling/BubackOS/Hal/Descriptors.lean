import BubackOS.Hal.NativeTask
import BubackOS.Library.ByteMemory
import BubackOS.Library.PackedTables

/-!
# Descriptor tables

`x86_64/lib/gdt.c`, `idt_set_gate` of `x86_64/lib/idt.c` and `idt_fill_table` of
`x86_64/lib/idt_fill.S`.  Both tables have entries of sixteen bytes, here words of 128 bits.
What the processor makes of a word is stated apart from the bit fields of the source.
-/

namespace BubackOS

open Library

/-! ## Segments -/

/-- The arguments of a call of `gdt_set_gate`, and the bits its local entry happens to hold behind
the last named field. -/
structure GdtGate where
  num : Nat
  base : UInt64
  limit : UInt32
  type : UInt8
  ring : UInt8
  unnamed : Nat

/-- The `gdt_entry_t` that `gdt_set_gate` stores. -/
def GdtGate.entry (gate : GdtGate) : List (Nat × Nat) :=
  let base := gate.base.toNat
  let limit := gate.limit.toNat / 2 ^ 12
  [(16, limit), (16, base), (8, base / 2 ^ 16), (5, gate.type.toNat), (2, gate.ring.toNat), (1, 1),
    (4, limit / 2 ^ 16), (1, 1), (1, 1), (1, 0), (1, 1), (8, base / 2 ^ 24), (32, base / 2 ^ 32), (32, gate.unnamed)]

/-- `gdt_set_gate`. -/
def gdtSetGate (gate : GdtGate) (gdt : Nat → Nat) : Nat → Nat :=
  writeSlot GdtGate.num (fun gate _ => pack gate.entry) gate gdt

/-- Calls one after the other. -/
def gdtSetGates (gates : List GdtGate) (gdt : Nat → Nat) : Nat → Nat :=
  gates.foldl (fun gdt gate => gdtSetGate gate gdt) gdt

/-- A segment descriptor as the processor reads it; the bit in front of the type is part of it. -/
structure Segment where
  base : Nat
  limit : Nat
  type : Nat
  ring : Nat
  present : Bool
  longmode : Bool
  deriving DecidableEq

/-- The fields of a `gdt_entry_t`, with the unnamed one. -/
def segmentFields : Nat → List Nat := unpack [16, 16, 8, 5, 2, 1, 4, 1, 1, 1, 1, 8, 32, 32]

def Segment.ofWord (word : Nat) : Segment :=
  let field i := (segmentFields word).getD i 0
  { base := field 1 + 2 ^ 16 * field 2 + 2 ^ 24 * field 11 + 2 ^ 32 * field 12
    limit :=
      if field 10 = 1 then (field 0 + 2 ^ 16 * field 6) * 2 ^ 12 + (2 ^ 12 - 1) else field 0 + 2 ^ 16 * field 6
    type := field 3
    ring := field 4
    present := field 5 = 1
    longmode := field 8 = 1 }

/-- The segment a call asks for; the limit is that of its last page. -/
def GdtGate.segment (gate : GdtGate) : Segment where
  base := gate.base.toNat
  limit := gate.limit.toNat / 2 ^ 12 * 2 ^ 12 + (2 ^ 12 - 1)
  type := gate.type.toNat % 2 ^ 5
  ring := gate.ring.toNat % 2 ^ 2
  present := true
  longmode := true

theorem GdtGate.segment_entry (gate : GdtGate) : Segment.ofWord (pack gate.entry) = gate.segment := by
  obtain ⟨base, isBase⟩ : ∃ base, base = gate.base.toNat := ⟨_, rfl⟩
  obtain ⟨limit, isLimit⟩ : ∃ limit, limit = gate.limit.toNat := ⟨_, rfl⟩
  have bound : base < 2 ^ 64 := isBase ▸ gate.base.toNat_lt
  have small : limit < 2 ^ 32 := isLimit ▸ gate.limit.toNat_lt
  have address : base % 2 ^ 16 + 2 ^ 16 * (base / 2 ^ 16 % 2 ^ 8) + 2 ^ 24 * (base / 2 ^ 24 % 2 ^ 8) +
      2 ^ 32 * (base / 2 ^ 32 % 2 ^ 32) = base := by omega
  have pages : limit / 2 ^ 12 % 2 ^ 16 + 2 ^ 16 * (limit / 2 ^ 12 / 2 ^ 16 % 2 ^ 4) = limit / 2 ^ 12 := by omega
  rw [isBase] at address
  rw [isLimit] at pages
  have fields : segmentFields (pack gate.entry) = _ := unpack_pack gate.entry
  unfold Segment.ofWord segment
  rw [fields, Segment.mk.injEq]
  exact ⟨address, congrArg (· * 2 ^ 12 + (2 ^ 12 - 1)) pages, rfl, rfl, rfl, rfl⟩

/-! ## Gates -/

/-- The arguments of a call of `idt_set_gate`. -/
structure IdtGate where
  num : Nat
  base : UInt64
  type : Nat
  ring : Nat

/-- The fields of an `idt_entry`, with the unnamed ones. -/
def gateFields : Nat → List Nat := unpack [16, 16, 3, 5, 4, 1, 2, 1, 16, 32, 32]

/-- The `idt_entry` after `idt_set_gate`: the unnamed bits stay as they were. -/
def IdtGate.entry (gate : IdtGate) (word : Nat) : List (Nat × Nat) :=
  let base := gate.base.toNat
  let old i := (gateFields word).getD i 0
  [(16, base), (16, gdtSegment gdtEntryKernelCs), (3, 1), (5, old 3), (4, gate.type), (1, old 5), (2, gate.ring),
    (1, 1), (16, base / 2 ^ 16), (32, base / 2 ^ 32), (32, old 10)]

/-- `idt_set_gate`. -/
def idtSetGate (gate : IdtGate) (idt : Nat → Nat) : Nat → Nat :=
  writeSlot IdtGate.num (fun gate word => pack (gate.entry word)) gate idt

def idtSetGates (gates : List IdtGate) (idt : Nat → Nat) : Nat → Nat :=
  gates.foldl (fun idt gate => idtSetGate gate idt) idt

/-- A gate as the processor reads it. -/
structure Gate where
  base : Nat
  segment : Nat
  ist : Nat
  type : Nat
  ring : Nat
  present : Bool
  deriving DecidableEq

def Gate.ofWord (word : Nat) : Gate :=
  let field i := (gateFields word).getD i 0
  { base := field 0 + 2 ^ 16 * field 8 + 2 ^ 32 * field 9
    segment := field 1
    ist := field 2
    type := field 4
    ring := field 6
    present := field 7 = 1 }

/-- The bits that have to be zero in a gate. -/
def ReservedClear (word : Nat) : Prop :=
  let field i := (gateFields word).getD i 0
  field 3 = 0 ∧ field 5 = 0 ∧ field 10 = 0

instance (word : Nat) : Decidable (ReservedClear word) := inferInstanceAs (Decidable (_ ∧ _ ∧ _))

/-- The gate a call asks for. -/
def IdtGate.gate (gate : IdtGate) : Gate where
  base := gate.base.toNat
  segment := gdtSegment gdtEntryKernelCs
  ist := 1
  type := gate.type % 2 ^ 4
  ring := gate.ring % 2 ^ 2
  present := true

theorem IdtGate.gate_entry (gate : IdtGate) (word : Nat) (clear : ReservedClear word) :
    ReservedClear (pack (gate.entry word)) ∧ Gate.ofWord (pack (gate.entry word)) = gate.gate := by
  obtain ⟨base, isBase⟩ : ∃ base, base = gate.base.toNat := ⟨_, rfl⟩
  have bound : base < 2 ^ 64 := isBase ▸ gate.base.toNat_lt
  have address : base % 2 ^ 16 + 2 ^ 16 * (base / 2 ^ 16 % 2 ^ 16) + 2 ^ 32 * (base / 2 ^ 32 % 2 ^ 32) = base := by
    omega
  rw [isBase] at address
  have fields : gateFields (pack (gate.entry word)) = _ := unpack_pack (gate.entry word)
  obtain ⟨low, middle, high⟩ := clear
  unfold ReservedClear Gate.ofWord IdtGate.gate
  rw [fields, Gate.mk.injEq]
  refine ⟨⟨?_, ?_, ?_⟩, address, rfl, rfl, rfl, rfl, rfl⟩
  · exact congrArg (· % 2 ^ 5) low
  · exact congrArg (· % 2 ^ 1) middle
  · exact congrArg (· % 2 ^ 32) high

section Tables

variable (segments : List GdtGate) (gates : List IdtGate) (gdt : Nat → Nat) (num : Nat)

theorem gdt_segment : Segment.ofWord (gdtSetGates segments gdt num) =
    ((lastFor GdtGate.num segments num).map GdtGate.segment).getD (Segment.ofWord (gdt num)) :=
  (view_writeSlots (fun _ => True) (fun gate _ _ => ⟨trivial, gate.segment_entry⟩) (fun _ => trivial) segments num).2

theorem idt_gate : ReservedClear (idtSetGates gates (fun _ => 0) num) ∧
    Gate.ofWord (idtSetGates gates (fun _ => 0) num) =
      ((lastFor IdtGate.num gates num).map IdtGate.gate).getD (Gate.ofWord 0) :=
  view_writeSlots ReservedClear IdtGate.gate_entry (fun _ => by decide) gates num

/-- For every sequence of calls, each slot of the two tables reads as the last call for it asked, and as before where
there was none; the reserved bits of the gates stay clear. -/
theorem descriptor_tables_hold_last :
    Segment.ofWord (gdtSetGates segments gdt num) =
        ((lastFor GdtGate.num segments num).map GdtGate.segment).getD (Segment.ofWord (gdt num)) ∧
      Gate.ofWord (idtSetGates gates (fun _ => 0) num) =
        ((lastFor IdtGate.num gates num).map IdtGate.gate).getD (Gate.ofWord 0) ∧
      ReservedClear (idtSetGates gates (fun _ => 0) num) :=
  ⟨gdt_segment segments gdt num, (idt_gate gates num).symm⟩

end Tables

/-! ## The tables of the kernel -/

/-- A segment up to `GDT_MAXIMUM_MEMORY`. -/
def flatGate (num : Nat) (type ring : UInt8) (unnamed : Nat) : GdtGate := ⟨num, 0, 0xFFFFFFFF, type, ring, unnamed⟩

/-- `GDT_ENTRY_TSS`. -/
def gdtEntryTss : Nat := 5

/-- The calls of `gdt_set_gate` in `gdt_initialize`; each has a local entry of its own. -/
def bootSegments (tssEntry : UInt64) (unnamed : Nat → Nat) : List GdtGate :=
  [flatGate gdtEntryKernelCs 0x1A 0 (unnamed 1), flatGate gdtEntryKernelDs 0x12 0 (unnamed 2),
    flatGate gdtEntryUserCs 0x1A 3 (unnamed 3), flatGate gdtEntryUserDs 0x12 3 (unnamed 4),
    ⟨gdtEntryTss, tssEntry, 108, 0x09, 0, unnamed 5⟩]

/-- `tss_set`: `rsp0` and `ist1`, whose halves are side by side. -/
def tssSet (tss kernelStack : UInt64) (m : Memory) : Memory :=
  (m.store64 (tss.toNat + 4) kernelStack.toNat).store64 (tss.toNat + 36) kernelStack.toNat

/-- The limit that `gdt_flush` loads. -/
def gdtLimit : Nat := 16 * 10 - 1

/-- What `ltr` keeps of a descriptor. -/
structure TaskRegister where
  base : Nat
  limit : Nat
  deriving DecidableEq

/-- The type in the second half of a descriptor, which has to be zero in one of sixteen bytes. -/
def upperType (word : Nat) : Nat := (segmentFields word).getD 13 0 / 2 ^ 8 % 2 ^ 5

/-- `ltr`: it takes an available task state segment, and faults at any other descriptor.  That it marks the
descriptor as busy changes nothing that is read here. -/
def ltr (gdt : Nat → Nat) (selector : Nat) : Option TaskRegister :=
  let segment := Segment.ofWord (gdt (selector / 16))
  if selector % 16 = 0 ∧ selector + 15 ≤ gdtLimit ∧ segment.present ∧ segment.type = 0x9 ∧
      upperType (gdt (selector / 16)) = 0 then
    some ⟨segment.base, segment.limit⟩
  else none

/-- The tables, memory and the task register. -/
structure Tables where
  gdt : Nat → Nat
  mem : Memory
  task : TaskRegister

/-- What `gdt_initialize` leaves, with the top of `cpu0_kernel_stack` in the task state segment; `none` if `ltr`
faults. -/
def gdtInitialize (tssEntry cpu0KernelStack : UInt64) (unnamed : Nat → Nat) (gdt : Nat → Nat) (m : Memory) :
    Option Tables :=
  (ltr (gdtSetGates (bootSegments tssEntry unnamed) gdt) (gdtSegment gdtEntryTss)).map fun task =>
    { gdt := gdtSetGates (bootSegments tssEntry unnamed) gdt
      mem := tssSet tssEntry (cpu0KernelStack + 32768) m
      task := task }

/-- The calls of `idt_fill_table`: `INTERRUPT_GATE_386` for each entry point, the last one for users. -/
def bootGates (intr : Nat → UInt64) : List IdtGate :=
  (List.range 50).map (fun n => ⟨n, intr n, 0xE, gdtRingSystem⟩) ++ [⟨50, intr 50, 0xE, gdtRingUser⟩]

/-- `idt_fill_table`, on the cleared table. -/
def idtFillTable (intr : Nat → UInt64) : Nat → Nat :=
  idtSetGates (bootGates intr) fun _ => 0

/-- Where an interrupt takes the processor. -/
structure KernelEntry where
  codeptr : Nat
  ring : Nat
  stackptr : Nat
  deriving DecidableEq

/-- The stack of the interrupt stack table in the task state segment; gates without one are not used here. -/
def interruptStack (tables : Tables) (ist : Nat) : Option Nat :=
  if ist ≠ 0 ∧ 28 + 8 * ist + 7 ≤ tables.task.limit then
    some (tables.mem.load64 (tables.task.base + (28 + 8 * ist)))
  else none

/-- How the processor answers an interrupt: from the hardware, or from an `int` instruction at a privilege level.  It
needs a present interrupt gate, a present code segment of 64 bits and a stack. -/
def deliver (tables : Tables) (idt : Nat → Nat) (instruction : Option Nat) (vector : Nat) : Option KernelEntry :=
  let gate := Gate.ofWord (idt vector)
  let segment := Segment.ofWord (tables.gdt (gate.segment / 16))
  if vector < 51 ∧ ReservedClear (idt vector) ∧ gate.present ∧ gate.type = 0xE ∧ instruction.all (· ≤ gate.ring) ∧
      gate.segment % 16 = 0 ∧ gate.segment + 15 ≤ gdtLimit ∧ segment.present ∧ segment.longmode ∧
      segment.type / 8 = 3 then
    (interruptStack tables gate.ist).map fun stackptr => ⟨gate.base, segment.ring, stackptr⟩
  else none

/-- The selectors of a context are flat segments of its ring, for code and for data. -/
def SelectsRing (gdt : Nat → Nat) (context : NativeTask) : Prop :=
  Segment.ofWord (gdt (context.cs / 16)) = ⟨0, 2 ^ 32 - 1, 0x1A, context.cs % 4, true, true⟩ ∧
    Segment.ofWord (gdt (context.ss / 16)) = ⟨0, 2 ^ 32 - 1, 0x12, context.ss % 4, true, true⟩

section Boot

variable (tssEntry cpu0KernelStack : UInt64) (unnamed : Nat → Nat) (gdt : Nat → Nat) (m : Memory) (intr : Nat → UInt64)

theorem bootSegments_last {gate : GdtGate} (member : gate ∈ bootSegments tssEntry unnamed) :
    lastFor GdtGate.num (bootSegments tssEntry unnamed) gate.num = some gate := by
  have apart : ((bootSegments tssEntry unnamed).map GdtGate.num).Nodup := (by decide : [1, 2, 3, 4, 5].Nodup)
  exact lastFor_of_nodup apart member

/-- Each call of `gdt_initialize` has a slot of its own. -/
theorem bootSegments_segment {gate : GdtGate} (member : gate ∈ bootSegments tssEntry unnamed) :
    Segment.ofWord (gdtSetGates (bootSegments tssEntry unnamed) gdt gate.num) = gate.segment := by
  rw [gdt_segment, bootSegments_last tssEntry unnamed member, Option.map_some, Option.getD_some]

theorem flatGate_segment (num : Nat) (type ring : UInt8) (bits : Nat) : (flatGate num type ring bits).segment =
    ⟨0, 2 ^ 32 - 1, type.toNat % 2 ^ 5, ring.toNat % 2 ^ 2, true, true⟩ := by
  have limit : (0xFFFFFFFF : UInt32).toNat / 2 ^ 12 * 2 ^ 12 + (2 ^ 12 - 1) = 2 ^ 32 - 1 := by decide
  rw [flatGate, GdtGate.segment, limit]
  rfl

/-- The second half of an entry holds the bits its local variable happened to have. -/
theorem upperType_entry (gate : GdtGate) : upperType (pack gate.entry) = gate.unnamed / 2 ^ 8 % 2 ^ 5 := by
  have fields : segmentFields (pack gate.entry) = _ := unpack_pack gate.entry
  have last : (segmentFields (pack gate.entry)).getD 13 0 = gate.unnamed % 2 ^ 32 := by
    rw [fields]
    rfl
  rw [upperType, last]
  omega

theorem gdt_upperType {gate : GdtGate} (member : gate ∈ bootSegments tssEntry unnamed) :
    upperType (gdtSetGates (bootSegments tssEntry unnamed) gdt gate.num) = gate.unnamed / 2 ^ 8 % 2 ^ 5 := by
  have last : upperType (gdtSetGates (bootSegments tssEntry unnamed) gdt gate.num) =
      ((lastFor GdtGate.num (bootSegments tssEntry unnamed) gate.num).map fun gate =>
        gate.unnamed / 2 ^ 8 % 2 ^ 5).getD (upperType (gdt gate.num)) :=
    (view_writeSlots (fun _ => True) (fun gate _ _ => ⟨trivial, upperType_entry gate⟩) (fun _ => trivial) _ _).2
  rw [last, bootSegments_last tssEntry unnamed member, Option.map_some, Option.getD_some]

/-- `ltr` takes the descriptor unless those bits look like a type. -/
theorem ltr_boot : ltr (gdtSetGates (bootSegments tssEntry unnamed) gdt) (gdtSegment gdtEntryTss) =
    if unnamed 5 / 2 ^ 8 % 2 ^ 5 = 0 then some ⟨tssEntry.toNat, 2 ^ 12 - 1⟩ else none := by
  have member : ⟨gdtEntryTss, tssEntry, 108, 0x09, 0, unnamed 5⟩ ∈ bootSegments tssEntry unnamed :=
    List.mem_of_getLast? rfl
  have limit : (108 : UInt32).toNat / 2 ^ 12 * 2 ^ 12 + (2 ^ 12 - 1) = 2 ^ 12 - 1 := by decide
  have segment : Segment.ofWord (gdtSetGates (bootSegments tssEntry unnamed) gdt gdtEntryTss) =
      ⟨tssEntry.toNat, 2 ^ 12 - 1, 0x9, 0, true, true⟩ := by
    refine (bootSegments_segment tssEntry unnamed gdt member).trans ?_
    rw [GdtGate.segment, limit]
    rfl
  have upper := gdt_upperType tssEntry unnamed gdt member
  unfold ltr
  dsimp only at upper ⊢
  rw [show gdtSegment gdtEntryTss / 16 = gdtEntryTss from rfl, segment, upper]
  exact if_congr ⟨fun met => met.2.2.2.2, fun clear => ⟨rfl, by decide, rfl, rfl, clear⟩⟩ rfl rfl

theorem interruptStack_tssSet (kernelStack : UInt64) (gdt : Nat → Nat) :
    interruptStack ⟨gdt, tssSet tssEntry kernelStack m, ⟨tssEntry.toNat, 2 ^ 12 - 1⟩⟩ 1 = some kernelStack.toNat := by
  unfold interruptStack tssSet
  rw [if_pos ⟨by decide, (by decide : 28 + 8 * 1 + 7 ≤ 2 ^ 12 - 1)⟩]
  exact congrArg some (Memory.load64_store64_self kernelStack.toNat_lt)

theorem bootGates_last {vector : Nat} (small : vector < 51) : lastFor IdtGate.num (bootGates intr) vector =
    some ⟨vector, intr vector, 0xE, if vector = 50 then gdtRingUser else gdtRingSystem⟩ := by
  have nums : (bootGates intr).map IdtGate.num = List.range 51 := by
    rw [bootGates, List.map_append, List.map_map, List.range_succ]
    exact congrArg (· ++ [50]) (List.map_id _)
  have member : ⟨vector, intr vector, 0xE, if vector = 50 then gdtRingUser else gdtRingSystem⟩ ∈ bootGates intr := by
    refine List.mem_append.mpr ?_
    by_cases last : vector = 50
    · right
      rw [if_pos last, last]
      exact List.mem_singleton_self _
    · left
      rw [if_neg last]
      exact List.mem_map.mpr ⟨vector, List.mem_range.mpr (by omega), rfl⟩
  exact lastFor_of_nodup (nums ▸ List.nodup_range) member

/-- The tables of the kernel. -/
theorem gdtInitialize_eq : gdtInitialize tssEntry cpu0KernelStack unnamed gdt m =
    if unnamed 5 / 2 ^ 8 % 2 ^ 5 = 0 then
      some ⟨gdtSetGates (bootSegments tssEntry unnamed) gdt, tssSet tssEntry (cpu0KernelStack + 32768) m,
        ⟨tssEntry.toNat, 2 ^ 12 - 1⟩⟩
    else none := by
  unfold gdtInitialize
  rw [ltr_boot]
  split <;> rfl

/-- Delivery with the tables of the kernel. -/
theorem deliver_boot {tables : Tables} (booted : tables ∈ gdtInitialize tssEntry cpu0KernelStack unnamed gdt m)
    (instruction : Option Nat) (vector : Nat) : deliver tables (idtFillTable intr) instruction vector =
      if vector < 51 ∧ instruction.all (· ≤ if vector = 50 then 3 else 0) then
        some ⟨(intr vector).toNat, 0, (cpu0KernelStack + 32768).toNat⟩ else none := by
  rw [gdtInitialize_eq, Option.mem_def, Option.ite_none_right_eq_some] at booted
  obtain rfl := Option.some.inj booted.2
  have stack := interruptStack_tssSet tssEntry m (cpu0KernelStack + 32768)
    (gdtSetGates (bootSegments tssEntry unnamed) gdt)
  have code : Segment.ofWord (gdtSetGates (bootSegments tssEntry unnamed) gdt 1) =
      ⟨0, 2 ^ 32 - 1, 0x1A, 0, true, true⟩ :=
    (bootSegments_segment tssEntry unnamed gdt List.mem_cons_self).trans (flatGate_segment _ _ _ _)
  unfold deliver
  by_cases small : vector < 51
  · obtain ⟨clear, last⟩ := idt_gate (bootGates intr) vector
    have gate : Gate.ofWord (idtFillTable intr vector) =
        ⟨(intr vector).toNat, 16, 1, 0xE, if vector = 50 then 3 else 0, true⟩ := by
      rw [bootGates_last intr small] at last
      refine last.trans ?_
      split <;> rfl
    dsimp only
    rw [gate]
    dsimp only
    rw [Nat.div_self (by decide), code, stack]
    exact if_congr ⟨fun met => ⟨met.1, met.2.2.2.2.1⟩,
      fun met => ⟨met.1, clear, rfl, rfl, met.2, rfl, by decide, rfl, rfl, rfl⟩⟩ rfl rfl
  · rw [if_neg fun met => small met.1, if_neg fun met => small met.1]

/-- With the tables of the kernel, whatever the first one held before: `ltr` takes the descriptor of the task state
segment exactly if the undefined bits of its second half are no type.  Then each of the 51 interrupts enters at its
own handler in ring 0, on the stack the descriptor leads to, which is the kernel stack; user code can raise number 50
only, and the selectors of a task are present segments of its own ring. -/
theorem interrupts_reach_handlers (vector : Nat) :
    ((gdtInitialize tssEntry cpu0KernelStack unnamed gdt m).isSome ↔ unnamed 5 / 2 ^ 8 % 2 ^ 5 = 0) ∧
      ∀ tables ∈ gdtInitialize tssEntry cpu0KernelStack unnamed gdt m,
        deliver tables (idtFillTable intr) none vector =
            (if vector < 51 then some ⟨(intr vector).toNat, 0, (cpu0KernelStack + 32768).toNat⟩ else none) ∧
          deliver tables (idtFillTable intr) (some 3) vector =
            (if vector = 50 then some ⟨(intr vector).toNat, 0, (cpu0KernelStack + 32768).toNat⟩ else none) ∧
          ∀ code stack mode userdata, SelectsRing tables.gdt (.initial code stack mode userdata) := by
  constructor
  · rw [gdtInitialize_eq]
    split
    · exact iff_of_true rfl (by assumption)
    · exact iff_of_false Bool.false_ne_true (by assumption)
  intro tables booted
  refine ⟨?_, ?_, fun _ _ mode _ => ?_⟩
  · rw [deliver_boot tssEntry cpu0KernelStack unnamed gdt m intr booted]
    exact if_congr ⟨And.left, fun small => ⟨small, rfl⟩⟩ rfl rfl
  · rw [deliver_boot tssEntry cpu0KernelStack unnamed gdt m intr booted]
    refine if_congr ⟨fun met => ?_, ?_⟩ rfl rfl
    · by_contra other
      have allowed := met.2
      rw [if_neg other] at allowed
      exact absurd allowed (by decide)
    · rintro rfl
      decide
  · rw [gdtInitialize_eq, Option.mem_def, Option.ite_none_right_eq_some] at booted
    rw [← Option.some.inj booted.2]
    have segment : ∀ num type ring bits, flatGate num type ring bits ∈ bootSegments tssEntry unnamed → _ :=
      fun num type ring bits member =>
        (bootSegments_segment tssEntry unnamed gdt member).trans (flatGate_segment num type ring bits)
    unfold SelectsRing
    dsimp only [NativeTask.initial]
    generalize gdtSetGates (bootSegments tssEntry unnamed) gdt = table at segment ⊢
    cases mode
    · rw [if_neg Bool.false_ne_true, if_neg Bool.false_ne_true]
      exact ⟨segment _ _ _ _ (.tail _ (.tail _ (.head _))), segment _ _ _ _ (.tail _ (.tail _ (.tail _ (.head _))))⟩
    · rw [if_pos rfl, if_pos rfl]
      exact ⟨segment _ _ _ _ (.head _), segment _ _ _ _ (.tail _ (.head _))⟩

theorem interrupts_reach_handlers_systemCall :
    ∃ tables ∈ gdtInitialize 0x5000 0x10000 (fun _ => 0) (fun _ => 0) (fun _ => 0),
      deliver tables (idtFillTable fun n => 0x100000 + 16 * UInt64.ofNat n) (some 3) 50 =
        some ⟨0x100320, 0, 0x18000⟩ := by
  obtain ⟨starts, delivered⟩ := interrupts_reach_handlers 0x5000 0x10000 (fun _ => 0) (fun _ => 0) (fun _ => 0)
    (fun n => 0x100000 + 16 * UInt64.ofNat n) 50
  obtain ⟨tables, booted⟩ := Option.isSome_iff_exists.mp (starts.mpr (by decide))
  exact ⟨tables, booted, (delivered tables booted).2.1.trans (by decide)⟩

end Boot

end BubackOS

import BubackOS.Core.Ample
import BubackOS.Core.FilePages

/-!
# What the ELF parser reads

`elf_parser` accepts files from 50 bytes on and takes the offset and the number of the program
headers from the file.  It stays inside the file exactly when the file has all the fields and
all the headers it announces.
-/

namespace BubackOS

open Library

/-- The fields `elf_parser` reads of an ELF file, in its order: offset and length. -/
def elfFields : List (Nat × Nat) :=
  [(0, 1), (1, 1), (2, 1), (3, 1), (6, 1), (20, 4), (5, 1), (4, 1), (7, 1), (18, 2), (0x18, 8), (0x30, 4), (0x38, 2),
    (0x20, 8)]

/-- `e_phnum` and `e_phoff` of the file. -/
def elfHeaderCount (m : Memory) (rawElf : Nat) : Nat := m.load (rawElf + 0x38) 2

def elfHeaderOffset (m : Memory) (rawElf : Nat) : Nat := m.load64 (rawElf + 0x20)

/-- The sums of the loop over the headers, before they are cut to a word. -/
def headerSums : Nat → Nat → List Nat
  | 0, _ => []
  | entries + 1, ph => (ph + sizeofElfProgramHeader) :: headerSums entries (wrap (ph + sizeofElfProgramHeader))

/-- All address computations of the parser. -/
def elfSums (m : Memory) (rawElf : Nat) : List Nat :=
  elfFields.map (rawElf + ·.1) ++ (elfHeaderOffset m rawElf + rawElf) ::
    headerSums (elfHeaderCount m rawElf) (wrap (elfHeaderOffset m rawElf + rawElf))

/-- The parser stays inside the file: the fields it reads, the headers it lists, and every sum is an address. -/
structure StaysInside (m : Memory) (rawElf size : Nat) (elf : Elf) : Prop where
  fields : ∀ field ∈ elfFields, field.1 + field.2 ≤ size
  headers : ∀ ph ∈ elf.programHeaders.items, rawElf ≤ ph ∧ ph + sizeofElfProgramHeader ≤ rawElf + size
  sums : ∀ sum ∈ elfSums m rawElf, sum < 2 ^ 64

/-- The file has the fields and the headers it announces. -/
structure HeadersFit (m : Memory) (rawElf size : Nat) : Prop where
  fields : 0x38 + 2 ≤ size
  address : rawElf + elfHeaderOffset m rawElf + sizeofElfProgramHeader * elfHeaderCount m rawElf < 2 ^ 64
  headers : elfHeaderCount m rawElf ≠ 0 →
    elfHeaderOffset m rawElf + sizeofElfProgramHeader * elfHeaderCount m rawElf ≤ size

variable {kalloc : Kalloc} {m m' : Memory} {rawElf size ph : Nat} {k : Kernel} {elf : Elf}

/-! ## The headers -/

/-- The addresses of the headers. -/
def headerAddresses (entries ph : Nat) : List Nat :=
  (List.range entries).map fun i => wrap (ph + sizeofElfProgramHeader * i)

theorem headerAddresses_succ (entries : Nat) (bound : ph < 2 ^ 64) :
    headerAddresses (entries + 1) ph = ph :: headerAddresses entries (wrap (ph + sizeofElfProgramHeader)) := by
  have head : wrap (ph + sizeofElfProgramHeader * 0) = ph := wrap_of_lt bound
  have tail : ∀ i, wrap (ph + sizeofElfProgramHeader * (i + 1)) =
      wrap (wrap (ph + sizeofElfProgramHeader) + sizeofElfProgramHeader * i) := by
    intro i
    unfold wrap sizeofElfProgramHeader
    omega
  unfold headerAddresses
  rw [List.range_succ_eq_map, List.map_cons, List.map_map, head]
  exact congrArg (List.cons ph) (List.map_congr_left fun i _ => tail i)

/-- Whatever the allocator does, the list gets addresses of headers. -/
theorem listProgramHeaders_subset (entries : Nat) : ∀ (ph : Nat) (list : LinkedList Nat) (k : Kernel), ph < 2 ^ 64 →
    ∀ x ∈ (listProgramHeaders kalloc entries ph list k).1.items, x ∈ list.items ∨ x ∈ headerAddresses entries ph := by
  induction entries with
  | zero => exact fun _ _ _ _ _ member => Or.inl member
  | succ entries ih =>
      intro ph list k bound x member
      rw [headerAddresses_succ entries bound]
      unfold listProgramHeaders at member
      dsimp only at member
      split at member
      · rcases ih _ _ _ (wrap_lt _) x member with old | new
        · exact Or.inl old
        · exact Or.inr (List.mem_cons_of_mem ph new)
      · rcases ih _ _ _ (wrap_lt _) x member with old | new
        · split at old
          · exact Or.inl old
          · cases list with
            | none => cases old
            | some items =>
                rcases List.mem_append.mp old with earlier | here
                · exact Or.inl earlier
                · exact Or.inr (List.mem_singleton.mp here ▸ List.mem_cons_self)
        · exact Or.inr (List.mem_cons_of_mem ph new)

theorem listProgramHeaders_log (later : ∀ size k, Later k (kalloc size k).2) (entries : Nat) :
    ∀ (ph : Nat) (list : LinkedList Nat) (k : Kernel), Later k (listProgramHeaders kalloc entries ph list k).2 := by
  induction entries with
  | zero => exact fun _ _ k => Later.refl k
  | succ entries ih =>
      intro ph list k
      unfold listProgramHeaders
      dsimp only
      split
      · exact ih _ _ k
      · exact (later _ k).trans (ih _ _ _)

/-- With memory for the nodes, the list gets all of them. -/
theorem listProgramHeaders_served (reliable : Reliable kalloc) (entries : Nat) :
    ∀ (ph : Nat) (items : List Nat) (k : Kernel), ph < 2 ^ 64 →
      Served (listProgramHeaders kalloc entries ph (some items) k).2.alloc.blocks →
      (listProgramHeaders kalloc entries ph (some items) k).1 = some (items ++ headerAddresses entries ph) := by
  induction entries with
  | zero => exact fun _ items _ _ _ => congrArg some (List.append_nil items).symm
  | succ entries ih =>
      intro ph items k bound served
      have honest := reliable.honest sizeofLinkedlistNode k
      unfold listProgramHeaders at served ⊢
      dsimp only at served ⊢
      rw [if_neg (by simp)] at served ⊢
      generalize kalloc sizeofLinkedlistNode k = node at honest served ⊢
      have present : node.1 ≠ 0 :=
        honest (served.of_suffix (listProgramHeaders_log reliable.later entries _ _ _).blocks)
      rw [if_neg present] at served ⊢
      rw [Option.map_some] at served ⊢
      rw [ih _ _ _ (wrap_lt _) served, headerAddresses_succ entries bound, List.append_assoc, List.singleton_append]

theorem headerSums_lt_iff (entries : Nat) : ∀ ph < 2 ^ 64,
    (∀ sum ∈ headerSums entries ph, sum < 2 ^ 64) ↔ ph + sizeofElfProgramHeader * entries < 2 ^ 64 := by
  induction entries with
  | zero => exact fun ph bound => ⟨fun _ => bound, fun _ sum absent => absurd absent List.not_mem_nil⟩
  | succ entries ih =>
      intro ph bound
      unfold headerSums
      rw [List.forall_mem_cons, ih _ (wrap_lt _)]
      unfold sizeofElfProgramHeader
      constructor
      · rintro ⟨first, rest⟩
        rw [wrap_of_lt first] at rest
        omega
      · intro fits
        have first : ph + 56 < 2 ^ 64 := by omega
        refine ⟨first, ?_⟩
        rw [wrap_of_lt first]
        omega

theorem elfFields_inside_iff : (∀ field ∈ elfFields, field.1 + field.2 ≤ size) ↔ 0x38 + 2 ≤ size := by
  constructor
  · exact fun inside => inside (0x38, 2) (by decide)
  · intro enough field member
    have last : ∀ field ∈ elfFields, field.1 + field.2 ≤ 0x38 + 2 := by decide
    exact Nat.le_trans (last field member) enough

/-- All sums are addresses exactly when the end of the last header is one. -/
theorem elfSums_lt_iff (buffer : rawElf + size ≤ 2 ^ 64) (fields : 0x38 + 2 ≤ size) :
    (∀ sum ∈ elfSums m rawElf, sum < 2 ^ 64) ↔
      rawElf + elfHeaderOffset m rawElf + sizeofElfProgramHeader * elfHeaderCount m rawElf < 2 ^ 64 := by
  have inFile : ∀ sum ∈ elfFields.map (rawElf + ·.1), sum < 2 ^ 64 := by
    intro sum member
    obtain ⟨field, isField, rfl⟩ := List.mem_map.mp member
    have last : ∀ field ∈ elfFields, field.1 < 0x38 + 2 := by decide
    have := last field isField
    omega
  unfold elfSums
  rw [List.forall_mem_append, List.forall_mem_cons, headerSums_lt_iff _ _ (wrap_lt _), and_iff_right inFile,
    Nat.add_comm (elfHeaderOffset m rawElf)]
  constructor
  · rintro ⟨first, rest⟩
    rw [wrap_of_lt first] at rest
    exact rest
  · intro fits
    have first : rawElf + elfHeaderOffset m rawElf < 2 ^ 64 := Nat.lt_of_le_of_lt (Nat.le_add_right _ _) fits
    rw [wrap_of_lt first]
    exact ⟨first, fits⟩

/-- The last header ends inside the file exactly when all of them lie inside. -/
theorem headerAddresses_inside_iff {entries : Nat} (first : rawElf ≤ ph)
    (address : ph + sizeofElfProgramHeader * entries < 2 ^ 64) :
    (∀ x ∈ headerAddresses entries ph, rawElf ≤ x ∧ x + sizeofElfProgramHeader ≤ rawElf + size) ↔
      (entries ≠ 0 → ph + sizeofElfProgramHeader * entries ≤ rawElf + size) := by
  have plain : ∀ i < entries, wrap (ph + sizeofElfProgramHeader * i) = ph + sizeofElfProgramHeader * i := by
    intro i few
    unfold sizeofElfProgramHeader at address ⊢
    exact wrap_of_lt (by omega)
  constructor
  · intro inside some
    have last := inside _ (List.mem_map.mpr ⟨entries - 1, List.mem_range.mpr (by omega), rfl⟩)
    rw [plain _ (by omega)] at last
    unfold sizeofElfProgramHeader at last ⊢
    omega
  · intro fits x member
    obtain ⟨i, few, rfl⟩ := List.mem_map.mp member
    have few := List.mem_range.mp few
    have end' := fits (by omega)
    rw [plain i few]
    unfold sizeofElfProgramHeader at end' ⊢
    omega

/-! ## The parser -/

/-- The list the parser returns: addresses of headers only, and all of them with memory for the list. -/
theorem elfParser_headers {parsed : Except ElfError Elf × Kernel}
    (isParsed : parsed = elfParser BubackOS.kalloc m rawElf size k) (success : parsed.1 = .ok elf) :
    elf.programHeaders.items ⊆
        headerAddresses (elfHeaderCount m rawElf) (wrap (elfHeaderOffset m rawElf + rawElf)) ∧
      (Served parsed.2.alloc.blocks → elf.programHeaders.items =
        headerAddresses (elfHeaderCount m rawElf) (wrap (elfHeaderOffset m rawElf + rawElf))) := by
  have created := @linkedlistCreate_of_served BubackOS.kalloc k Nat kalloc_honest
  have empty : (linkedlistCreate (α := Nat) BubackOS.kalloc k).1.items = [] := by
    unfold linkedlistCreate
    dsimp only
    split <;> rfl
  unfold elfParser at isParsed
  dsimp only at isParsed
  generalize linkedlistCreate (α := Nat) BubackOS.kalloc k = list at created empty isParsed
  cases checked : elfError m rawElf size with
  | some error =>
      rw [checked] at isParsed
      rw [isParsed] at success
      cases success
  | none =>
      rw [checked] at isParsed
      dsimp only at isParsed
      rw [isParsed] at success
      have isElf := Except.ok.inj success
      rw [← isElf]
      unfold elfHeaderCount elfHeaderOffset
      refine ⟨fun x member => ?_, fun served => ?_⟩
      · have listed := listProgramHeaders_subset _ _ _ _ (wrap_lt _) x member
        rw [empty] at listed
        exact listed.resolve_left List.not_mem_nil
      · rw [isParsed] at served
        dsimp only at served ⊢
        have isList := created (served.of_suffix (listProgramHeaders_log kalloc_reliable.later _ _ _ _).blocks)
        rw [isList] at served ⊢
        rw [listProgramHeaders_served kalloc_reliable _ _ _ _ (wrap_lt _) served]
        rfl

/-- For every file in memory that the parser accepts, in every state of the allocator: if the file has the
fields and the headers it announces, the parser reads inside it, lists only complete headers inside it and
computes no address that wraps; and with memory for the list this is the only case. -/
theorem headers_inside_iff (buffer : rawElf + size ≤ 2 ^ 64) {parsed : Except ElfError Elf × Kernel}
    (isParsed : parsed = elfParser BubackOS.kalloc m rawElf size k) (success : parsed.1 = .ok elf) :
    (HeadersFit m rawElf size → StaysInside m rawElf size elf) ∧
      (Served parsed.2.alloc.blocks → (StaysInside m rawElf size elf ↔ HeadersFit m rawElf size)) := by
  obtain ⟨part, all⟩ := elfParser_headers isParsed success
  -- where the sums are addresses, so is the first header
  have located : rawElf + elfHeaderOffset m rawElf + sizeofElfProgramHeader * elfHeaderCount m rawElf < 2 ^ 64 →
      wrap (elfHeaderOffset m rawElf + rawElf) = rawElf + elfHeaderOffset m rawElf := by
    intro address
    rw [Nat.add_comm, wrap_of_lt (Nat.lt_of_le_of_lt (Nat.le_add_right _ _) address)]
  have inside : rawElf + elfHeaderOffset m rawElf + sizeofElfProgramHeader * elfHeaderCount m rawElf < 2 ^ 64 →
      ((∀ x ∈ headerAddresses (elfHeaderCount m rawElf) (wrap (elfHeaderOffset m rawElf + rawElf)),
        rawElf ≤ x ∧ x + sizeofElfProgramHeader ≤ rawElf + size) ↔ (elfHeaderCount m rawElf ≠ 0 →
        elfHeaderOffset m rawElf + sizeofElfProgramHeader * elfHeaderCount m rawElf ≤ size)) := by
    intro address
    rw [located address, headerAddresses_inside_iff (Nat.le_add_right _ _) address, Nat.add_assoc,
      Nat.add_le_add_iff_left]
  have fits : HeadersFit m rawElf size → StaysInside m rawElf size elf := by
    intro fit
    exact ⟨elfFields_inside_iff.mpr fit.fields,
      fun x member => (inside fit.address).mpr fit.headers x (part member),
      (elfSums_lt_iff buffer fit.fields).mpr fit.address⟩
  refine ⟨fits, fun served => ⟨fun stays => ?_, fits⟩⟩
  have fields := elfFields_inside_iff.mp stays.fields
  have address := (elfSums_lt_iff buffer fields).mp stays.sums
  refine ⟨fields, address, (inside address).mp fun x member => stays.headers x ?_⟩
  rw [all served]
  exact member

theorem elfParser_accepts (kalloc : Kalloc) (k : Kernel) (checked : elfError m rawElf size = none) :
    ∃ elf, (elfParser kalloc m rawElf size k).1 = .ok elf := by
  unfold elfParser
  rw [checked]
  exact ⟨_, rfl⟩

theorem headers_inside_iff_sampleImage :
    ∃ elf, (elfParser BubackOS.kalloc (sampleImage 0x100000 0) 0x100000 0x1000 sampleKernel).1 = .ok elf ∧
      StaysInside (sampleImage 0x100000 0) 0x100000 0x1000 elf := by
  obtain ⟨elf, success⟩ := elfParser_accepts BubackOS.kalloc sampleKernel
    (show elfError (sampleImage 0x100000 0) 0x100000 0x1000 = none by decide +kernel)
  have count : elfHeaderCount (sampleImage 0x100000 0) 0x100000 = 1 := by decide +kernel
  have offset : elfHeaderOffset (sampleImage 0x100000 0) 0x100000 = 0x40 := by decide +kernel
  refine ⟨elf, success, ((headers_inside_iff (by decide) rfl success).2 (by decide +kernel)).mpr ⟨by decide, ?_, ?_⟩⟩
  all_goals
    rw [count, offset]
    decide

/-- The file with its program headers announced at 64 kilobytes. -/
def farHeaders : Memory := (sampleImage 0x100000 0).store64 0x100020 0x10000

/-- A file of 50 bytes is accepted, and the number of headers is read behind its end; a file of one page is
accepted whose only header is listed far behind its end. -/
theorem elf_parser_leaves_file :
    (∃ elf, (elfParser BubackOS.kalloc (sampleImage 0x100000 0) 0x100000 50 sampleKernel).1 = .ok elf ∧
      ∃ field ∈ elfFields, 50 < field.1 + field.2) ∧
    ∃ elf, (elfParser BubackOS.kalloc farHeaders 0x100000 0x1000 sampleKernel).1 = .ok elf ∧
      ∃ ph ∈ elf.programHeaders.items, 0x100000 + 0x1000 < ph := by
  constructor
  · obtain ⟨elf, success⟩ := elfParser_accepts BubackOS.kalloc sampleKernel
      (show elfError (sampleImage 0x100000 0) 0x100000 50 = none by decide +kernel)
    exact ⟨elf, success, by decide⟩
  · obtain ⟨elf, success⟩ := elfParser_accepts BubackOS.kalloc sampleKernel
      (show elfError farHeaders 0x100000 0x1000 = none by decide +kernel)
    have listed := (elfParser_headers rfl success).2 (by decide +kernel)
    have far : headerAddresses (elfHeaderCount farHeaders 0x100000)
        (wrap (elfHeaderOffset farHeaders 0x100000 + 0x100000)) = [0x110000] := by decide +kernel
    refine ⟨elf, success, 0x110000, ?_, by decide⟩
    rw [listed, far]
    exact List.mem_singleton_self _

end BubackOS

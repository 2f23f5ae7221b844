import BubackOS.Hal.BootInfo

/-!
# The walk over the boot information

Both loops of the parser advance by a length they read and stop at a value they read; the
announced size of the block is only logged.  Over a block that nobody changes the walk is a
function of the bytes: what is read, what the parser takes from the heap on the way, and
whether it ends.  The parser follows this walk while that stretch of the heap is outside the
block.
-/

namespace BubackOS.Multiboot

open Library Libc

/-! ## What is read of a tag -/

/-- `MULTIBOOT_TAG_TYPE_CMDLINE`, `BOOT_LOADER_NAME`, `BOOTDEV` and `FRAMEBUFFER`, whose contents are only logged. -/
def tagTypeCmdline : Nat := 1

def tagTypeBootLoaderName : Nat := 2

def tagTypeBootdev : Nat := 5

def tagTypeFramebuffer : Nat := 8

/-- Bytes that are read. -/
structure Visit where
  place : Nat
  size : Nat
  deriving DecidableEq

def Visit.Inside (addr stop : Nat) (visit : Visit) : Prop := addr ≤ visit.place ∧ visit.place + visit.size ≤ stop

instance (addr stop : Nat) (visit : Visit) : Decidable (visit.Inside addr stop) :=
  inferInstanceAs (Decidable (_ ∧ _))

/-- The type and the size of a tag. -/
def headerVisit (tag : Nat) : Visit := { place := tag, size := 8 }

/-- An entry of the memory map; its last field is not read. -/
def entryVisit (mmap : Nat) : Visit := { place := mmap, size := 20 }

/-- `entry_size`. -/
def entrySizeVisit (tag : Nat) : Visit := { place := tag + 8, size := 4 }

/-- No block has room for a string of so many bytes. -/
def stringBound : Nat := 2 ^ 32

/-- The bytes of the string at an address, with its NUL, as far as the bound. -/
def stringSize (m : Memory) : Nat → Nat → Nat
  | 0, _ => 0
  | bound + 1, a => if m a = 0 then 1 else stringSize m bound (a + 1) + 1

/-- A string of a tag; it is aligned, and `strlen` reads it by words. -/
def stringVisit (m : Memory) (a : Nat) : Visit := { place := a, size := padded (stringSize m stringBound a) }

/-- The fields that are read of a tag: their places behind the tag and their sizes. -/
def tagFields (type : Nat) : List (Nat × Nat) :=
  if type = tagTypeModule ∨ type = tagTypeBasicMeminfo then [(8, 4), (12, 4)]
  else if type = tagTypeBootdev then [(8, 4), (12, 4), (16, 4)]
  else if type = tagTypeFramebuffer then [(8, 8), (29, 1)]
  else []

/-- The place of the string that is read of a tag. -/
def tagString (type : Nat) : Option Nat :=
  if type = tagTypeCmdline ∨ type = tagTypeBootLoaderName then some 8
  else if type = tagTypeModule then some 16
  else none

/-- What is read behind the header of a tag, apart from the entries of a map.  The string and the fields of a module
are read twice, from the same places. -/
def contentVisits (m : Memory) (tag : Nat) : List Visit :=
  (tagFields (tagType m tag)).map (fun field => { place := tag + field.1, size := field.2 }) ++
    (tagString (tagType m tag)).toList.map fun offset => stringVisit m (tag + offset)

/-! ## What the parser reads -/

/-- The state in which a tag is visited. -/
def noteTag (tag : Nat) (s : Boot) : Boot := { s with visited := tag :: s.visited }

/-- The state behind an entry of the memory map. -/
def afterEntry (mmap : Nat) (s : Boot) : Boot :=
  if s.kernel.mem.load (mmap + 16) 4 = memoryAvailable then s else reserveSegment mmap s

/-- The reads of `mmapLoop`, in step with it: the size of the tag for each test, the entry and the size of the
entries. -/
def mmapVisits (tag : Nat) : Nat → Nat → Boot → List Visit
  | 0, _, _ => []
  | rounds + 1, mmap, s =>
      headerVisit tag ::
        if mmap < wrap (tag + tagSize s.kernel.mem tag) then
          entryVisit mmap :: entrySizeVisit tag ::
            mmapVisits tag rounds (wrap (mmap + (afterEntry mmap s).kernel.mem.load (tag + 8) 4)) (afterEntry mmap s)
        else []

/-- The reads of `visitTag`. -/
def visitReads (rounds tag : Nat) (s : Boot) : List Visit :=
  contentVisits s.kernel.mem tag ++
    if tagType s.kernel.mem tag = tagTypeMmap then mmapVisits tag rounds (wrap (tag + 16)) s else []

/-- The reads of `tagLoop`, in step with it: the type of a tag, what the visit reads, and the size of the tag. -/
def tagVisits (rounds : Nat) : Nat → Nat → Boot → List Visit
  | 0, _, _ => []
  | left + 1, tag, s =>
      headerVisit tag ::
        if tagType s.kernel.mem tag = tagTypeEnd then []
        else
          visitReads rounds tag (noteTag tag s) ++
            match visitTag rounds tag (noteTag tag s) with
            | none => []
            | some next => headerVisit tag :: tagVisits rounds left (nextTag next.kernel.mem tag) next

/-- The reads of the parser: the announced size, and the tags. -/
def parserVisits (rounds magic addr : Nat) (s : Boot) : List Visit :=
  if magic % 2 ^ 32 ≠ bootloaderMagic then []
  else if addr % 2 ^ 32 &&& 7 ≠ 0 then []
  else { place := addr, size := 4 } :: tagVisits rounds rounds (wrap (addr + 8)) s

/-- The end of the announced block in memory. -/
def blockEnd (m : Memory) (addr : Nat) : Nat := min (addr + m.load addr 4) (2 ^ 64)

/-! ## The walk over unchanged bytes -/

/-- What is taken from the heap until the walk ends or reads outside the block, and whether it ends inside. -/
structure Walk where
  need : Nat
  stays : Bool

/-- The walk does not go on. -/
def Walk.leaves : Walk := { need := 0, stays := false }

/-- The heap for an entry of the memory map. -/
def entryNeed (m : Memory) (mmap : Nat) : Nat :=
  if m.load (mmap + 16) 4 = memoryAvailable then 0 else sizeofRegion + sizeofLinkedlistNode

/-- The walk over the entries of a map. -/
def mapWalk (m : Memory) (addr stop tag : Nat) : Nat → Nat → Walk
  | 0, _ => .leaves
  | rounds + 1, mmap =>
      if mmap < wrap (tag + tagSize m tag) then
        if (entryVisit mmap).Inside addr stop ∧ (entrySizeVisit tag).Inside addr stop then
          let rest := mapWalk m addr stop tag rounds (wrap (mmap + m.load (tag + 8) 4))
          { rest with need := entryNeed m mmap + rest.need }
        else .leaves
      else { need := 0, stays := true }

/-- The heap for a tag that is no map. -/
def contentNeed (m : Memory) (tag : Nat) : Nat :=
  if tagType m tag = tagTypeModule then sizeofInfoModule + stringSize m stringBound (tag + 16) + sizeofLinkedlistNode
  else 0

/-- The visit of a tag. -/
def visitWalk (m : Memory) (addr stop rounds tag : Nat) : Walk :=
  if ∀ visit ∈ contentVisits m tag, visit.Inside addr stop then
    if tagType m tag = tagTypeMmap then mapWalk m addr stop tag rounds (wrap (tag + 16))
    else { need := contentNeed m tag, stays := true }
  else .leaves

/-- The walk over the tags. -/
def tagWalk (m : Memory) (addr stop rounds : Nat) : Nat → Nat → Walk
  | 0, _ => .leaves
  | left + 1, tag =>
      if (headerVisit tag).Inside addr stop then
        if tagType m tag = tagTypeEnd then { need := 0, stays := true }
        else
          let here := visitWalk m addr stop rounds tag
          let rest := tagWalk m addr stop rounds left (nextTag m tag)
          if here.stays then { rest with need := here.need + rest.need } else here
      else .leaves

/-! ## Blocks that can be walked -/

/-- How far a tag takes the walk: its size, rounded up in 32 bits. -/
def tagStep (m : Memory) (tag : Nat) : Nat := align ((tagSize m tag + 7) % 2 ^ 32) 8

/-- From the address on, every entry that begins inside the tag is read inside the block, and there is a next one
behind it. -/
def EntriesFrom (m : Memory) (stop tag mmap : Nat) : Prop :=
  ∀ i, mmap + m.load (tag + 8) 4 * i < wrap (tag + tagSize m tag) →
    tag + 16 ≤ mmap + m.load (tag + 8) 4 * i ∧ mmap + m.load (tag + 8) 4 * i + 20 ≤ stop ∧
      m.load (tag + 8) 4 ≠ 0 ∧ mmap + m.load (tag + 8) 4 * (i + 1) < 2 ^ 64

/-- A chain of tags inside the block, up to an `END` tag: their headers, the fields and strings that are read of
them, and the entries of their maps. -/
inductive TagsFit (m : Memory) (stop : Nat) : Nat → Prop where
  | last {tag : Nat} (room : tag + 8 ≤ stop) (isEnd : tagType m tag = tagTypeEnd) : TagsFit m stop tag
  | next {tag : Nat} (room : tag + 8 ≤ stop) (other : tagType m tag ≠ tagTypeEnd)
      (content : ∀ visit ∈ contentVisits m tag, visit.place + visit.size ≤ stop)
      (entries : tagType m tag = tagTypeMmap → EntriesFrom m stop tag (wrap (tag + 16)))
      (rest : TagsFit m stop (tag + tagStep m tag)) : TagsFit m stop tag

theorem TagsFit.room {m : Memory} {stop tag : Nat} (fits : TagsFit m stop tag) : tag + 8 ≤ stop := by
  cases fits with
  | last room => exact room
  | next room => exact room

variable {content m : Memory} {addr stop tag mmap rounds : Nat} {s : Boot}

theorem le_of_mem_contentVisits {visit : Visit} (member : visit ∈ contentVisits m tag) : tag ≤ visit.place := by
  rcases List.mem_append.mp member with isField | isString
  · obtain ⟨field, -, rfl⟩ := List.mem_map.mp isField
    exact Nat.le_add_right _ _
  · obtain ⟨offset, -, rfl⟩ := List.mem_map.mp isString
    exact Nat.le_add_right _ _

/-! ### The entries of a map -/

/-- Where the entries fit, the walk over them stays inside. -/
theorem mapWalk_stays (low : addr ≤ tag) (rounds : Nat) : ∀ {mmap : Nat}, EntriesFrom m stop tag mmap →
    wrap (tag + tagSize m tag) - mmap < rounds → (mapWalk m addr stop tag rounds mmap).stays = true := by
  induction rounds with
  | zero => exact fun _ none => absurd none (Nat.not_lt_zero _)
  | succ rounds ih =>
      intro mmap entries enough
      unfold mapWalk
      split
      · rename_i inside
        obtain ⟨behind, ends, positive, next⟩ := entries 0 inside
        rw [Nat.mul_zero, Nat.add_zero] at behind ends
        rw [Nat.zero_add, Nat.mul_one] at next
        have shift : ∀ i, mmap + m.load (tag + 8) 4 + m.load (tag + 8) 4 * i = mmap + m.load (tag + 8) 4 * (i + 1) := by
          intro i
          rw [Nat.mul_add, Nat.mul_one]
          omega
        have later : EntriesFrom m stop tag (mmap + m.load (tag + 8) 4) := by
          intro i inside'
          rw [shift] at inside' ⊢
          rw [shift]
          exact entries (i + 1) inside'
        have isEntry : (entryVisit mmap).Inside addr stop := ⟨Nat.le_trans (by omega) behind, ends⟩
        have isSize : (entrySizeVisit tag).Inside addr stop := by
          unfold Visit.Inside entrySizeVisit
          dsimp only
          omega
        rw [if_pos ⟨isEntry, isSize⟩, wrap_of_lt next]
        exact ih later (by omega)
      · rfl

/-- A walk over the entries that stays inside: an address that wraps around is below the block, since the block is no
larger than a 32-bit number says. -/
theorem entries_of_mapWalk (span : stop ≤ addr + 2 ^ 32) (low : addr ≤ tag) (rounds : Nat) : ∀ {mmap : Nat},
    tag + 16 ≤ mmap → (mapWalk m addr stop tag rounds mmap).stays = true → EntriesFrom m stop tag mmap := by
  induction rounds with
  | zero => exact fun _ stays => by cases stays
  | succ rounds ih =>
      intro mmap behind stays
      unfold mapWalk at stays
      split at stays
      · rename_i inside
        split at stays
        · rename_i here
          have within : mmap + 20 ≤ stop := here.1.2
          have sizeBound : m.load (tag + 8) 4 < 2 ^ 32 := Memory.load_lt _ _ 4
          have fits : mmap + m.load (tag + 8) 4 < 2 ^ 64 := by
            by_contra wraps
            have below : wrap (mmap + m.load (tag + 8) 4) < addr := by
              unfold wrap
              omega
            cases rounds with
            | zero => cases stays
            | succ rounds =>
                unfold mapWalk at stays
                rw [if_pos (by omega), if_neg fun both => absurd both.1.1 (Nat.not_le.mpr below)] at stays
                cases stays
          rw [wrap_of_lt fits] at stays
          have later := ih (by omega) stays
          have positive : m.load (tag + 8) 4 ≠ 0 := by
            intro zero
            have again := later 0
            rw [zero] at again
            exact (again (by rw [Nat.mul_zero]; exact inside)).2.2.1 rfl
          intro i inside'
          cases i with
          | zero => exact ⟨behind, within, positive, by rw [Nat.zero_add, Nat.mul_one]; exact fits⟩
          | succ i =>
              have shift : ∀ j, mmap + m.load (tag + 8) 4 * (j + 1) =
                  mmap + m.load (tag + 8) 4 + m.load (tag + 8) 4 * j := by
                intro j
                rw [Nat.mul_add, Nat.mul_one]
                omega
              rw [shift] at inside' ⊢
              rw [shift]
              exact later i inside'
        · cases stays
      · rename_i outside
        exact fun i inside => absurd (Nat.lt_of_le_of_lt (Nat.le_add_right _ _) inside) outside

/-- The first entry of a map is behind its header, if it is read inside the block. -/
theorem entries_of_first (span : stop ≤ addr + 2 ^ 32) (memory : stop ≤ 2 ^ 64) (low : addr ≤ tag) (room : tag + 8 ≤ stop)
    (stays : (mapWalk m addr stop tag rounds (wrap (tag + 16))).stays = true) :
    EntriesFrom m stop tag (wrap (tag + 16)) := by
  by_cases fits : tag + 16 < 2 ^ 64
  · rw [wrap_of_lt fits] at stays ⊢
    exact entries_of_mapWalk span low rounds (Nat.le_refl _) stays
  · intro i inside
    have below : wrap (tag + 16) < addr := by
      unfold wrap
      omega
    cases rounds with
    | zero => cases stays
    | succ rounds =>
        unfold mapWalk at stays
        rw [if_pos (Nat.lt_of_le_of_lt (Nat.le_add_right _ _) inside),
          if_neg fun both => absurd both.1.1 (Nat.not_le.mpr below)] at stays
        cases stays

/-! ### The tags -/

theorem nextTag_of_lt (bound : tag + tagStep m tag < 2 ^ 64) : nextTag m tag = tag + tagStep m tag := wrap_of_lt bound

/-- Where the tags fit, the walk stays inside. -/
theorem tagWalk_stays (memory : stop ≤ 2 ^ 64) (fits : TagsFit m stop tag) : addr ≤ tag →
    ∃ count, ∀ rounds ≥ 2 ^ 64, ∀ left ≥ count, (tagWalk m addr stop rounds left tag).stays = true := by
  induction fits with
  | @last tag room isEnd =>
      intro low
      refine ⟨1, fun rounds _ left positive => ?_⟩
      obtain ⟨left, rfl⟩ : ∃ n, left = n + 1 := ⟨left - 1, by omega⟩
      unfold tagWalk
      rw [if_pos ⟨low, room⟩, if_pos isEnd]
  | @next tag room other content entries rest ih =>
      intro low
      obtain ⟨count, later⟩ := ih (Nat.le_add_right_of_le low)
      have bound := rest.room
      have here : ∀ rounds ≥ 2 ^ 64, (visitWalk m addr stop rounds tag).stays = true := by
        intro rounds many
        unfold visitWalk
        rw [if_pos fun visit member => ⟨Nat.le_trans low (le_of_mem_contentVisits member), content visit member⟩]
        split
        · rename_i isMmap
          have small : wrap (tag + tagSize m tag) < 2 ^ 64 := wrap_lt _
          exact mapWalk_stays low rounds (entries isMmap) (by omega)
        · rfl
      refine ⟨count + 1, fun rounds many left enough => ?_⟩
      obtain ⟨left, rfl⟩ : ∃ n, left = n + 1 := ⟨left - 1, by omega⟩
      unfold tagWalk
      rw [if_pos ⟨low, room⟩, if_neg other, nextTag_of_lt (by omega)]
      dsimp only
      rw [here rounds many, if_pos rfl]
      exact later rounds many left (by omega)

/-- A walk that stays inside is along tags that fit. -/
theorem tags_of_tagWalk (memory : stop ≤ 2 ^ 64) (span : stop ≤ addr + 2 ^ 32) (left : Nat) : ∀ {tag : Nat},
    (tagWalk m addr stop rounds left tag).stays = true → addr ≤ tag ∧ TagsFit m stop tag := by
  induction left with
  | zero => exact fun stays => by cases stays
  | succ left ih =>
      intro tag stays
      unfold tagWalk at stays
      split at stays
      · rename_i inside
        obtain ⟨low, room⟩ : addr ≤ tag ∧ tag + 8 ≤ stop := inside
        split at stays
        · rename_i isEnd
          exact ⟨low, .last room isEnd⟩
        · rename_i other
          dsimp only at stays
          split at stays
          · rename_i here
            obtain ⟨behind, chain⟩ := ih stays
            have size : tagStep m tag < 2 ^ 32 := by
              unfold tagStep align
              omega
            have isNext : nextTag m tag = wrap (tag + tagStep m tag) := rfl
            have fits : tag + tagStep m tag < 2 ^ 64 := by
              rw [isNext] at behind
              unfold wrap at behind
              omega
            rw [nextTag_of_lt fits] at chain
            unfold visitWalk at here
            split at here
            · rename_i content
              refine ⟨low, .next room other (fun visit member => (content visit member).2) (fun isMmap => ?_) chain⟩
              rw [if_pos isMmap] at here
              exact entries_of_first span memory low room here
            · cases here
          · rename_i leaves
            exact absurd stays leaves
      · cases stays

/-! ## The parser follows the walk -/

/-- The memory holds the content in a range. -/
def Same (content : Memory) (addr stop : Nat) (m : Memory) : Prop := ∀ a, addr ≤ a → a < stop → m a = content a

theorem Same.load (same : Same content addr stop m) {a count : Nat} (low : addr ≤ a) (high : a + count ≤ stop) :
    m.load a count = content.load a count := load_same same low high

theorem Same.header (same : Same content addr stop m) (low : addr ≤ tag) (room : tag + 8 ≤ stop) :
    tagType m tag = tagType content tag ∧ tagSize m tag = tagSize content tag :=
  ⟨same.load low (by omega), same.load (by omega) (by omega)⟩

theorem Same.nextTag (same : Same content addr stop m) (low : addr ≤ tag) (room : tag + 8 ≤ stop) :
    nextTag m tag = nextTag content tag := by
  unfold Multiboot.nextTag
  rw [(same.header low room).2]

/-- The block is as it was, and the heap for `need` more bytes is outside. -/
structure Undisturbed (content : Memory) (addr stop need : Nat) (s : Boot) : Prop where
  same : Same content addr stop s.kernel.mem
  ready : ∃ modules reserved, Ready addr stop need modules reserved s

theorem Undisturbed.noteTag {need : Nat} (before : Undisturbed content addr stop need s) (tag : Nat) :
    Undisturbed content addr stop need (noteTag tag s) := by
  obtain ⟨same, modules, reserved, early, valid, fits, outside, isModules, isReserved⟩ := before
  exact ⟨same, modules, reserved, early, valid, fits, outside, isModules, isReserved⟩

/-! ### Strings -/

/-- Below the bound the size is that of a string. -/
theorem spells_of_stringSize : ∀ {bound a : Nat}, stringSize m bound a < bound →
    ∃ text, Spells m a text ∧ text.length + 1 = stringSize m bound a
  | bound + 1, a, below => by
      unfold stringSize at below ⊢
      split at below
      · rename_i zero
        exact ⟨[], zero, (if_pos zero).symm⟩
      · rename_i present
        obtain ⟨text, spells, length⟩ := spells_of_stringSize (Nat.lt_of_succ_lt_succ below)
        exact ⟨m a :: text, ⟨rfl, present, spells⟩, by rw [if_neg present, ← length, List.length_cons]⟩

/-- The size depends on the bytes it counts. -/
theorem stringSize_congr {m' : Memory} : ∀ {bound a : Nat}, (∀ b, a ≤ b → b < a + stringSize m bound a → m' b = m b) →
    stringSize m' bound a = stringSize m bound a
  | 0, _, _ => rfl
  | bound + 1, a, same => by
      have first : m' a = m a := by
        refine same a (Nat.le_refl a) ?_
        unfold stringSize
        split <;> omega
      unfold stringSize at same ⊢
      rw [first]
      split
      · rfl
      · rename_i present
        rw [if_neg present] at same
        rw [stringSize_congr fun b low high => same b (by omega) (by omega)]

/-! ### Entries -/

theorem mmapLoop_succ (rounds mmap : Nat) (s : Boot) : mmapLoop tag (rounds + 1) mmap s =
    if mmap < wrap (tag + tagSize s.kernel.mem tag) then
      mmapLoop tag rounds (wrap (mmap + (afterEntry mmap s).kernel.mem.load (tag + 8) 4)) (afterEntry mmap s)
    else some s := rfl

theorem afterEntry_undisturbed {need : Nat} (inside : (entryVisit mmap).Inside addr stop)
    (before : Undisturbed content addr stop (entryNeed content mmap + need) s) :
    Undisturbed content addr stop need (afterEntry mmap s) := by
  obtain ⟨low, within⟩ : addr ≤ mmap ∧ mmap + 20 ≤ stop := inside
  obtain ⟨same, modules, reserved, ready⟩ := before
  have type : s.kernel.mem.load (mmap + 16) 4 = content.load (mmap + 16) 4 := same.load (by omega) (by omega)
  unfold afterEntry
  unfold entryNeed at ready
  rw [type]
  split
  · rename_i available
    rw [if_pos available, Nat.zero_add] at ready
    exact ⟨same, modules, reserved, ready⟩
  · rename_i other
    rw [if_neg other] at ready
    have here : MmapEntry.At s.kernel.mem stop mmap
        ⟨s.kernel.mem.load64 mmap, s.kernel.mem.load64 (mmap + 8), s.kernel.mem.load (mmap + 16) 4⟩ :=
      ⟨rfl, rfl, rfl, within⟩
    obtain ⟨fills, isModules, isReserved, -⟩ := reserveSegment_spec ready.less low here
    refine ⟨fun a above below => ?_, modules, _, ready.next fills isModules isReserved⟩
    rw [Fills.same fills ready.less.outside a above below, same a above below]

/-- The loop over the entries and the walk over them end together, inside the block. -/
theorem mmapLoop_follows {need : Nat} (low : addr ≤ tag) (room : tag + 8 ≤ stop) (rounds : Nat) :
    ∀ {mmap : Nat} {s : Boot},
    Undisturbed content addr stop ((mapWalk content addr stop tag rounds mmap).need + need) s →
    ((mapWalk content addr stop tag rounds mmap).stays = true ∨ (mmapLoop tag rounds mmap s).isSome ∧
      ∀ visit ∈ mmapVisits tag rounds mmap s, visit.Inside addr stop) →
    (mapWalk content addr stop tag rounds mmap).stays = true ∧
      (∀ visit ∈ mmapVisits tag rounds mmap s, visit.Inside addr stop) ∧
      ∃ s' ∈ mmapLoop tag rounds mmap s, Undisturbed content addr stop need s' := by
  induction rounds with
  | zero =>
      rintro mmap s - (stays | ⟨returns, -⟩)
      · cases stays
      · cases returns
  | succ rounds ih =>
      intro mmap s before either
      have isHeader : (headerVisit tag).Inside addr stop := ⟨low, room⟩
      have size := (before.same.header low room).2
      rw [mmapLoop_succ] at either ⊢
      unfold mapWalk at before either ⊢
      unfold mmapVisits at either ⊢
      rw [size] at either ⊢
      by_cases more : mmap < wrap (tag + tagSize content tag)
      · simp only [if_pos more] at before either ⊢
        have reads : (entryVisit mmap).Inside addr stop ∧ (entrySizeVisit tag).Inside addr stop := by
          rcases either with stays | ⟨-, inside⟩
          · by_contra leaves
            rw [if_neg leaves] at stays
            cases stays
          · exact ⟨inside _ (List.mem_cons_of_mem _ List.mem_cons_self),
              inside _ (List.mem_cons_of_mem _ (List.mem_cons_of_mem _ List.mem_cons_self))⟩
        rw [if_pos reads] at before either ⊢
        dsimp only at before either ⊢
        rw [Nat.add_assoc] at before
        have after := afterEntry_undisturbed reads.1 before
        have entrySize : (afterEntry mmap s).kernel.mem.load (tag + 8) 4 = content.load (tag + 8) 4 :=
          after.same.load (Nat.le_add_right_of_le low) reads.2.2
        rw [entrySize] at either ⊢
        obtain ⟨stays, inside, returns⟩ := ih after (either.imp_right fun ⟨returns, inside⟩ =>
          ⟨returns, fun visit member =>
            inside visit (List.mem_cons_of_mem _ (List.mem_cons_of_mem _ (List.mem_cons_of_mem _ member)))⟩)
        refine ⟨stays, fun visit member => ?_, returns⟩
        rcases List.mem_cons.mp member with rfl | member
        · exact isHeader
        rcases List.mem_cons.mp member with rfl | member
        · exact reads.1
        rcases List.mem_cons.mp member with rfl | member
        · exact reads.2
        · exact inside visit member
      · simp only [if_neg more] at before either ⊢
        rw [Nat.zero_add] at before
        exact ⟨trivial, fun visit member => List.mem_singleton.mp member ▸ isHeader, s, rfl, before⟩

/-! ### Modules -/

theorem addModule_mono {s' : Boot} {more : Nat} (enough : rounds ≤ more) (result : addModule rounds tag s = some s') :
    addModule more tag s = some s' := by
  unfold addModule at result ⊢
  dsimp only at result ⊢
  obtain ⟨paramSize, length, isResult⟩ := Option.map_eq_some_iff.mp result
  rw [strlen_mono enough length, Option.map_some, isResult]

/-- A module whose string is inside the block is left again. -/
theorem addModule_follows {need : Nat} (memory : stop ≤ 2 ^ 64) (span : stop ≤ addr + 2 ^ 32) (low : addr ≤ tag)
    (room : tag + 8 ≤ stop) (isModule : tagType content tag = tagTypeModule)
    (string : (stringVisit content (tag + 16)).Inside addr stop)
    (before : Undisturbed content addr stop (contentNeed content tag + need) s)
    (returns : stringBound ≤ rounds ∨ (addModule rounds tag s).isSome) :
    ∃ s' ∈ addModule rounds tag s, Undisturbed content addr stop need s' := by
  obtain ⟨same, modules, reserved, ready⟩ := before
  have within : tag + 16 + padded (stringSize content stringBound (tag + 16)) ≤ stop := string.2
  have size := le_padded (stringSize content stringBound (tag + 16))
  have bound : stringBound = 2 ^ 32 := rfl
  have bounded : stringSize content stringBound (tag + 16) < stringBound := by omega
  obtain ⟨text, spells, length⟩ := spells_of_stringSize bounded
  have short : text.length < max rounds stringBound := by omega
  have here : (Content.module ⟨s.kernel.mem.load (tag + 8) 4, s.kernel.mem.load (tag + 12) 4, text⟩).At
      s.kernel.mem stop tag 0 :=
    ⟨(same.header low room).1.trans isModule, rfl, rfl, spells.moved fun i _ => same _ (by omega) (by omega), by
      dsimp only
      omega⟩
  unfold contentNeed at ready
  rw [if_pos isModule, ← length] at ready
  obtain ⟨s', result, parsed⟩ := addModule_spec memory low short here ready.less
  have isResult : addModule rounds tag s = some s' := by
    rcases returns with many | some
    · rw [Nat.max_eq_left many] at result
      exact result
    · obtain ⟨s'', isSome⟩ := Option.isSome_iff_exists.mp some
      rw [isSome]
      exact (addModule_mono (Nat.le_max_left _ _) isSome).symm.trans result
  obtain ⟨new, isModules, -⟩ := parsed.modules
  refine ⟨s', isResult, fun a above below => ?_, _, _, ready.next parsed.fills isModules parsed.reserved⟩
  rw [Fills.same parsed.fills ready.less.outside a above below, same a above below]

/-! ### Tags -/

theorem contentVisits_congr (same : Same content addr stop m) (low : addr ≤ tag) (room : tag + 8 ≤ stop)
    (inside : ∀ visit ∈ contentVisits content tag, visit.Inside addr stop) :
    contentVisits m tag = contentVisits content tag := by
  unfold contentVisits at inside ⊢
  rw [(same.header low room).1]
  congr 1
  refine List.map_congr_left fun offset member => ?_
  obtain ⟨-, within⟩ := inside _ (List.mem_append_right _ (List.mem_map_of_mem member))
  have size := le_padded (stringSize content stringBound (tag + offset))
  unfold stringVisit at within ⊢
  dsimp only at within
  rw [stringSize_congr fun b above below => same b (by omega) (by omega)]

/-- The visit of a tag and its walk end together, inside the block. -/
theorem visitTag_follows {need : Nat} (memory : stop ≤ 2 ^ 64) (span : stop ≤ addr + 2 ^ 32) (low : addr ≤ tag)
    (room : tag + 8 ≤ stop)
    (before : Undisturbed content addr stop ((visitWalk content addr stop rounds tag).need + need) s)
    (either : stringBound ≤ rounds ∧ (visitWalk content addr stop rounds tag).stays = true ∨
      (visitTag rounds tag s).isSome ∧ ∀ visit ∈ visitReads rounds tag s, visit.Inside addr stop) :
    (visitWalk content addr stop rounds tag).stays = true ∧
      (∀ visit ∈ visitReads rounds tag s, visit.Inside addr stop) ∧
      ∃ s' ∈ visitTag rounds tag s, Undisturbed content addr stop need s' := by
  have type := (before.same.header low room).1
  have contents : ∀ visit ∈ contentVisits content tag, visit.Inside addr stop := by
    rcases either with ⟨-, stays⟩ | ⟨-, inside⟩
    · by_contra leaves
      unfold visitWalk at stays
      rw [if_neg leaves] at stays
      cases stays
    · have here : ∀ visit ∈ contentVisits s.kernel.mem tag, visit.Inside addr stop := fun visit member =>
        inside visit (List.mem_append_left _ member)
      rwa [contentVisits_congr (fun a above below => (before.same a above below).symm) low room here]
  have equal := contentVisits_congr before.same low room contents
  unfold visitWalk at before either ⊢
  unfold visitReads at either ⊢
  unfold visitTag at either ⊢
  dsimp only at either ⊢
  rw [if_pos contents] at before either ⊢
  rw [type, equal] at either ⊢
  by_cases isMmap : tagType content tag = tagTypeMmap
  · rw [isMmap, if_pos rfl] at before
    rw [isMmap, if_pos rfl, if_pos rfl, if_neg (by decide), if_neg (by decide), if_pos rfl] at either ⊢
    obtain ⟨stays, inside, returns⟩ := mmapLoop_follows low room rounds before (either.imp And.right
      fun ⟨returns, inside⟩ => ⟨returns, fun visit member => inside visit (List.mem_append_right _ member)⟩)
    exact ⟨stays, fun visit member => (List.mem_append.mp member).elim (contents visit) (inside visit), returns⟩
  · rw [if_neg isMmap] at before
    simp only [if_neg isMmap, List.append_nil] at either ⊢
    refine ⟨trivial, contents, ?_⟩
    by_cases isModule : tagType content tag = tagTypeModule
    · rw [if_pos isModule] at either ⊢
      refine addModule_follows memory span low room isModule (contents _ ?_) before (either.imp And.left And.left)
      unfold contentVisits
      rw [isModule]
      exact List.mem_append_right _ (List.mem_singleton.mpr rfl)
    · have nothing : contentNeed content tag = 0 := if_neg isModule
      rw [if_neg isModule]
      dsimp only at before
      rw [nothing, Nat.zero_add] at before
      obtain ⟨same, modules, reserved, early, valid, fits, outside, isModules, isReserved⟩ := before
      split
      · exact ⟨_, rfl, same, modules, reserved, early, valid, fits, outside, isModules, isReserved⟩
      · exact ⟨_, rfl, same, modules, reserved, early, valid, fits, outside, isModules, isReserved⟩

theorem tagLoop_succ (left : Nat) (s : Boot) : tagLoop rounds (left + 1) tag s =
    if tagType s.kernel.mem tag = tagTypeEnd then some s
    else (visitTag rounds tag (noteTag tag s)).bind fun next =>
      tagLoop rounds left (nextTag next.kernel.mem tag) next := rfl

theorem tagVisits_first (left : Nat) (s : Boot) : headerVisit tag ∈ tagVisits rounds (left + 1) tag s :=
  List.mem_cons_self

/-- The loop over the tags and the walk over them end together, inside the block. -/
theorem tagLoop_follows (memory : stop ≤ 2 ^ 64) (span : stop ≤ addr + 2 ^ 32) (left : Nat) : ∀ {tag : Nat} {s : Boot},
    Undisturbed content addr stop (tagWalk content addr stop rounds left tag).need s →
    (stringBound ≤ rounds ∧ (tagWalk content addr stop rounds left tag).stays = true ∨
      (tagLoop rounds left tag s).isSome ∧ ∀ visit ∈ tagVisits rounds left tag s, visit.Inside addr stop) →
    (tagWalk content addr stop rounds left tag).stays = true ∧
      (∀ visit ∈ tagVisits rounds left tag s, visit.Inside addr stop) ∧ (tagLoop rounds left tag s).isSome := by
  induction left with
  | zero =>
      rintro tag s - (⟨-, stays⟩ | ⟨returns, -⟩)
      · cases stays
      · cases returns
  | succ left ih =>
      intro tag s before either
      have isHeader : (headerVisit tag).Inside addr stop := by
        rcases either with ⟨-, stays⟩ | ⟨-, inside⟩
        · by_contra leaves
          unfold tagWalk at stays
          rw [if_neg leaves] at stays
          cases stays
        · exact inside _ (tagVisits_first left s)
      have low : addr ≤ tag := isHeader.1
      have room : tag + 8 ≤ stop := isHeader.2
      have type := (before.same.header low room).1
      rw [tagLoop_succ] at either ⊢
      unfold tagWalk at before either ⊢
      unfold tagVisits at either ⊢
      rw [if_pos isHeader] at before either ⊢
      rw [type] at either ⊢
      by_cases isEnd : tagType content tag = tagTypeEnd
      · simp only [if_pos isEnd] at either ⊢
        exact ⟨trivial, fun visit member => List.mem_singleton.mp member ▸ isHeader, rfl⟩
      simp only [if_neg isEnd] at before either ⊢
      -- the visit of the tag, with what the rest of the walk needs
      have visits : stringBound ≤ rounds ∧ (visitWalk content addr stop rounds tag).stays = true ∨
          (visitTag rounds tag (noteTag tag s)).isSome ∧
            ∀ visit ∈ visitReads rounds tag (noteTag tag s), visit.Inside addr stop := by
        rcases either with ⟨many, stays⟩ | ⟨returns, inside⟩
        · refine Or.inl ⟨many, ?_⟩
          by_contra leaves
          rw [if_neg leaves] at stays
          exact leaves stays
        · refine Or.inr ⟨Option.isSome_of_isSome_bind returns, fun visit member => inside visit ?_⟩
          exact List.mem_cons_of_mem _ (List.mem_append_left _ member)
      have here : (visitWalk content addr stop rounds tag).stays = true := by
        by_contra leaves
        rw [if_neg leaves] at before
        have alone : Undisturbed content addr stop ((visitWalk content addr stop rounds tag).need + 0) s := before
        exact leaves (visitTag_follows memory span low room (alone.noteTag tag) visits).1
      rw [here, if_pos rfl] at before
      rw [here, if_pos rfl] at either ⊢
      obtain ⟨-, reads, next, visited, after⟩ := visitTag_follows memory span low room (before.noteTag tag) visits
      rw [show visitTag rounds tag (noteTag tag s) = some next from visited, Option.bind_some] at either ⊢
      dsimp only at either ⊢
      rw [after.same.nextTag low room] at either ⊢
      obtain ⟨stays, inside, returns⟩ := ih after (either.imp_right fun ⟨returns, inside⟩ => ⟨returns, fun visit member =>
        inside visit (List.mem_cons_of_mem _ (List.mem_append_right _ (List.mem_cons_of_mem _ member)))⟩)
      refine ⟨stays, fun visit member => ?_, returns⟩
      rcases List.mem_cons.mp member with rfl | member
      · exact isHeader
      rcases List.mem_append.mp member with member | member
      · exact reads visit member
      rcases List.mem_cons.mp member with rfl | member
      · exact isHeader
      · exact inside visit member

/-! ## The parser -/

theorem blockEnd_span (m : Memory) (addr : Nat) : blockEnd m addr ≤ addr + 2 ^ 32 ∧ blockEnd m addr ≤ 2 ^ 64 := by
  have small : m.load addr 4 < 2 ^ 32 := Memory.load_lt _ _ 4
  unfold blockEnd
  omega

/-- A block with a module. -/
def moduleBlock : Memory := bytesAt 0x9000 (infoBytes sampleModuleBytes)

/-- Its walk takes the heap for one module. -/
theorem moduleBlock_need (rounds : Nat) :
    (tagWalk (sampleBoot moduleBlock).kernel.mem 0x9000 0x9038 rounds rounds 0x9008).need < 2 ^ 32 := by
  have other : tagType (sampleBoot moduleBlock).kernel.mem 0x9008 ≠ tagTypeEnd := by decide +kernel
  have isEnd : tagType (sampleBoot moduleBlock).kernel.mem 0x9030 = tagTypeEnd := by decide +kernel
  have next : nextTag (sampleBoot moduleBlock).kernel.mem 0x9008 = 0x9030 := by decide +kernel
  have contents : ∀ visit ∈ contentVisits (sampleBoot moduleBlock).kernel.mem 0x9008, visit.Inside 0x9000 0x9038 := by
    decide +kernel
  have noMmap : tagType (sampleBoot moduleBlock).kernel.mem 0x9008 ≠ tagTypeMmap := by decide +kernel
  have need : contentNeed (sampleBoot moduleBlock).kernel.mem 0x9008 = 72 := by decide +kernel
  generalize (sampleBoot moduleBlock).kernel.mem = m at *
  have visit : visitWalk m 0x9000 0x9038 rounds 0x9008 = { need := 72, stays := true } := by
    unfold visitWalk
    rw [if_pos contents, if_neg noMmap, need]
  have last : ∀ left, (tagWalk m 0x9000 0x9038 rounds left 0x9030).need = 0 := by
    intro left
    cases left with
    | zero => rfl
    | succ left =>
        unfold tagWalk
        rw [if_pos (by decide), if_pos isEnd]
  have whole : ∀ left, (tagWalk m 0x9000 0x9038 rounds left 0x9008).need < 2 ^ 32 := by
    intro left
    cases left with
    | zero => exact Nat.two_pow_pos 32
    | succ left =>
        unfold tagWalk
        rw [if_pos (by decide), if_neg other, visit, next]
        dsimp only
        rw [if_pos rfl, last]
        exact (by decide : 72 < 2 ^ 32)
  exact whole rounds

/-- An entry that is available, in a tag without an entry size: the loop stays there. -/
theorem mmapLoop_stuck (inside : mmap < wrap (tag + tagSize s.kernel.mem tag))
    (available : s.kernel.mem.load (mmap + 16) 4 = memoryAvailable) (zero : s.kernel.mem.load (tag + 8) 4 = 0)
    (bound : mmap < 2 ^ 64) (rounds : Nat) : mmapLoop tag rounds mmap s = none := by
  have stays : afterEntry mmap s = s := if_pos available
  induction rounds with
  | zero => rfl
  | succ rounds ih => rw [mmapLoop_succ, if_pos inside, stays, zero, Nat.add_zero, wrap_of_lt bound, ih]

/-- A `MMAP` tag of one entry whose `entry_size` is `0`. -/
def stuckBlock : Memory :=
  bytesAt 0x9000 (infoBytes (field 4 6 ++ field 4 40 ++ field 4 0 ++ field 4 0 ++ field 8 0 ++ field 8 0x9fc00 ++
    field 8 1))

/-- A block of 16 bytes whose only tag is not an `END` tag. -/
def openBlock : Memory := bytesAt 0x9000 (field 8 16 ++ field 4 99 ++ field 4 8)

/-- A `MODULE` tag without a body. -/
def emptyModule : Memory := bytesAt 0x9000 (infoBytes (field 4 3 ++ field 4 8))

end BubackOS.Multiboot

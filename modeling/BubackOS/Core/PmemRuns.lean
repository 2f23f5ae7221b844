import BubackOS.Core.FreePages

/-!
# Runs of the page allocator

Any sequence of `pmem_allocate`, `pmem_release` and `pmem_set_as_system`.  What a run
returned and what it was told is kept as a list of events, the last one first.
-/

namespace BubackOS

/-- A call of the page allocator. -/
inductive PmemOp where
  | allocate
  | release (addr : Nat)
  | setAsSystem (addr totalInBytes : Nat)

/-- A call and what it returned. -/
inductive PmemEvent where
  | allocated (addr : Nat)
  | released (addr : Nat) (done : Bool)
  | marked (addr totalInBytes : Nat)
  deriving DecidableEq, Repr

/-- What a call returns, and the page array after it. -/
def PmemOp.run (pmem : Pmem) : PmemOp → PmemEvent × Pmem
  | allocate => (.allocated pmem.allocate.1, pmem.allocate.2)
  | release addr => (.released addr (pmemRelease addr pmem).1, (pmemRelease addr pmem).2)
  | setAsSystem addr totalInBytes => (.marked addr totalInBytes, pmemSetAsSystem addr totalInBytes pmem)

/-- A range that does not wrap. -/
def PmemOp.Proper : PmemOp → Prop
  | setAsSystem addr totalInBytes => addr + totalInBytes < 2 ^ 64
  | _ => True

/-- The page arrays reached from one, with the events so far. -/
inductive PmemRun (start : Pmem) : List PmemEvent → Pmem → Prop where
  | start : PmemRun start [] start
  | step {history : List PmemEvent} {pmem : Pmem} (run : PmemRun start history pmem) (op : PmemOp)
      (proper : op.Proper) : PmemRun start ((op.run pmem).1 :: history) (op.run pmem).2

/-- The page and the range `[addr, addr + total)` have an address in common. -/
def Intersects (page addr total : Nat) : Prop :=
  page * 4096 < addr + total ∧ addr < (page + 1) * 4096 ∧ 0 < total

/-- The pages `pmem_set_as_system` goes through. -/
def Covers (addr total page : Nat) : Prop := addr / 4096 ≤ page ∧ page ≤ (addr + total) / 4096

/-- An address some `pmem_allocate` returned and no later `pmem_release` gave back. -/
def Outstanding (history : List PmemEvent) (addr : Nat) : Prop :=
  addr ≠ 0 ∧ ∃ later earlier, history = later ++ .allocated addr :: earlier ∧ .released addr true ∉ later

theorem Intersects.covers {page addr total : Nat} (common : Intersects page addr total) :
    Covers addr total page := by
  unfold Intersects at common
  unfold Covers
  omega

theorem outstanding_cons {event : PmemEvent} {history : List PmemEvent} {addr : Nat} :
    Outstanding (event :: history) addr →
      addr ≠ 0 ∧ event = .allocated addr ∨ Outstanding history addr ∧ event ≠ .released addr true := by
  rintro ⟨present, later, earlier, split, kept⟩
  cases later with
  | nil => exact Or.inl ⟨present, (List.cons.inj split).1⟩
  | cons first rest =>
      obtain ⟨same, split'⟩ := List.cons.inj split
      refine Or.inr ⟨⟨present, rest, earlier, split', fun member => kept (List.mem_cons_of_mem _ member)⟩, ?_⟩
      intro isRelease
      exact kept (by rw [← same, isRelease]; exact List.mem_cons_self)

/-! ## The single operations -/

section Pages

variable {pmem : Pmem} {page other : Nat} {type : PageType}

theorem pmemSetPage_total : (pmemSetPage page type pmem).2.totalOfPages = pmem.totalOfPages := by
  unfold pmemSetPage
  split
  · rfl
  · split <;> rfl

theorem pmemSetPage_pages_of_ne (different : other ≠ page) :
    (pmemSetPage page type pmem).2.pages other = pmem.pages other := by
  unfold pmemSetPage
  split
  · rfl
  · split
    · rfl
    · exact if_neg different

theorem pmemSetPage_system (immutable : pmem.pages other = .system) :
    (pmemSetPage page type pmem).2.pages other = .system := by
  unfold pmemSetPage
  split
  · exact immutable
  · split
    · exact immutable
    · rename_i changeable
      have different : other ≠ page := fun same => changeable (same ▸ immutable)
      exact (if_neg different).trans immutable

theorem pmemSetPage_self (inside : page < pmem.totalOfPages) :
    (pmemSetPage page .system pmem).2.pages page = .system := by
  unfold pmemSetPage
  rw [if_neg (Nat.not_le.mpr inside)]
  split
  · rename_i already
    exact already
  · exact if_pos rfl

theorem markSystem_total (count : Nat) : ∀ page pmem,
    (markSystem count page pmem).totalOfPages = pmem.totalOfPages := by
  induction count with
  | zero => exact fun page pmem => rfl
  | succ count ih =>
      intro page pmem
      rw [markSystem, ih, pmemSetPage_total]

/-- The loop marks its pages and leaves the others alone. -/
theorem markSystem_pages (count : Nat) : ∀ page pmem other, other < pmem.totalOfPages →
    (markSystem count page pmem).pages other =
      if page ≤ other ∧ other < page + count then .system else pmem.pages other := by
  induction count with
  | zero =>
      intro page pmem other _
      rw [if_neg (by omega)]
      rfl
  | succ count ih =>
      intro page pmem other inside
      rw [markSystem, ih (page + 1) _ other (by rw [pmemSetPage_total]; exact inside)]
      by_cases here : other = page
      · subst here
        rw [if_neg (by omega), if_pos (by omega), pmemSetPage_self inside]
      · rw [pmemSetPage_pages_of_ne here]
        by_cases later : page + 1 ≤ other ∧ other < page + 1 + count
        · rw [if_pos later, if_pos (by omega)]
        · rw [if_neg later, if_neg (by omega)]

theorem pmemSetAsSystem_total (addr total : Nat) :
    (pmemSetAsSystem addr total pmem).totalOfPages = pmem.totalOfPages :=
  markSystem_total _ _ _

theorem pmemSetAsSystem_pages {addr total : Nat} (fits : addr + total < 2 ^ 64)
    (inside : other < pmem.totalOfPages) :
    (pmemSetAsSystem addr total pmem).pages other =
      if addr / 4096 ≤ other ∧ other ≤ (addr + total) / 4096 then .system else pmem.pages other := by
  rw [pmemSetAsSystem, markSystem_pages _ _ _ _ inside, wrap_of_lt fits]
  unfold systemPageSize
  exact if_congr (by omega) rfl rfl

theorem pmemRelease_total (addr : Nat) : (pmemRelease addr pmem).2.totalOfPages = pmem.totalOfPages := by
  unfold pmemRelease
  split
  · rfl
  · exact pmemSetPage_total

/-- A release that failed changed nothing; one that was done concerns one page. -/
theorem pmemRelease_pages {addr : Nat} (changed : (pmemRelease addr pmem).2.pages other ≠ pmem.pages other) :
    addr = other * 4096 ∧ (pmemRelease addr pmem).1 = true := by
  unfold pmemRelease at changed ⊢
  split at changed
  · exact absurd rfl changed
  · rename_i aligned
    rw [if_neg aligned]
    have whole := (memAlign_eq_iff addr).mp (not_not.mp aligned)
    by_cases same : other = addr / systemPageSize
    · refine ⟨by unfold systemPageSize at same; omega, ?_⟩
      unfold pmemSetPage at changed ⊢
      split at changed
      · exact absurd rfl changed
      · rename_i inside
        rw [if_neg inside]
        split <;> rfl
    · exact absurd (pmemSetPage_pages_of_ne same) changed

theorem pmemRelease_system {addr : Nat} (immutable : pmem.pages other = .system) :
    (pmemRelease addr pmem).2.pages other = .system := by
  unfold pmemRelease
  split
  · exact immutable
  · exact pmemSetPage_system immutable

end Pages

/-- A search that finds nothing has seen every page. -/
theorem searchPage_complete (wanted : PageType) (pmem : Pmem) (rounds : Nat) :
    ∀ page, 0 < page → pmem.totalOfPages ≤ page + rounds → searchPage wanted pmem rounds page = 0 →
      ∀ other, page ≤ other → other < pmem.totalOfPages → pmem.pages other ≠ wanted := by
  induction rounds with
  | zero =>
      intro page _ enough _ other low high
      omega
  | succ rounds ih =>
      intro page positive enough nothing other low high
      rw [searchPage, if_pos (by omega)] at nothing
      by_cases found : pmem.pages page = wanted
      · rw [if_pos found] at nothing
        omega
      · rw [if_neg found] at nothing
        by_cases here : other = page
        · rw [here]
          exact found
        · exact ih (page + 1) (Nat.succ_pos page) (by omega) nothing other (by omega) high

/-- The page found is the first one. -/
theorem searchPage_first (wanted : PageType) (pmem : Pmem) (rounds : Nat) :
    ∀ page, 0 < page → ∀ other, page ≤ other → other < searchPage wanted pmem rounds page →
      pmem.pages other ≠ wanted := by
  induction rounds with
  | zero => exact fun page _ other _ below => absurd below (Nat.not_lt_zero _)
  | succ rounds ih =>
      intro page positive other low below
      rw [searchPage] at below
      split at below
      · rename_i inside
        split at below
        · omega
        · rename_i missed
          by_cases here : other = page
          · rw [here]
            exact missed
          · exact ih (page + 1) (Nat.succ_pos page) other (by omega) below
      · omega

namespace Pmem

variable {pmem : Pmem}

theorem allocate_eq_zero_iff :
    pmem.allocate.1 = 0 ↔
      ∀ page, firstSearchedPage ≤ page → page < pmem.totalOfPages → pmem.pages page ≠ .free := by
  by_cases none : pmemNextPageAvailable .free pmem = 0
  · rw [allocate_of_none none]
    exact ⟨fun _ => searchPage_complete .free pmem pmem.totalOfPages firstSearchedPage firstSearchedPage_pos
      (Nat.le_add_left _ _) none, fun _ => rfl⟩
  · obtain ⟨member, result⟩ := allocate_of_some none
    rw [freeSet, Finset.mem_filter, Finset.mem_Ico] at member
    rw [result]
    constructor
    · intro zero
      exact absurd (Nat.mul_eq_zero.mp zero) (by simp [none, systemPageSize])
    · intro nothing
      exact absurd member.2 (nothing _ member.1.1 member.1.2)

/-- The page of a non-zero result: it was free, and is taken now. -/
theorem allocate_page (success : pmem.allocate.1 ≠ 0) :
    ∃ page, pmem.allocate.1 = page * 4096 ∧ firstSearchedPage ≤ page ∧ page < pmem.totalOfPages ∧
      pmem.pages page = .free ∧
      (∀ other, firstSearchedPage ≤ other → other < page → pmem.pages other ≠ .free) ∧
      ∀ other, pmem.allocate.2.pages other = if other = page then .user else pmem.pages other := by
  by_cases none : pmemNextPageAvailable .free pmem = 0
  · rw [allocate_of_none none] at success
    exact absurd rfl success
  · obtain ⟨member, result⟩ := allocate_of_some none
    rw [freeSet, Finset.mem_filter, Finset.mem_Ico] at member
    refine ⟨pmemNextPageAvailable .free pmem, ?_, member.1.1, member.1.2, member.2, ?_, ?_⟩
    · rw [result]
      rfl
    · exact searchPage_first .free pmem pmem.totalOfPages firstSearchedPage firstSearchedPage_pos
    · intro other
      rw [result]

theorem allocate_system {other : Nat} (immutable : pmem.pages other = .system) :
    pmem.allocate.2.pages other = .system := by
  by_cases success : pmem.allocate.1 = 0
  · rw [allocate_of_zero success]
    exact immutable
  · obtain ⟨page, -, -, -, free, -, after⟩ := allocate_page success
    have different : other ≠ page := by
      rintro rfl
      rw [free] at immutable
      cases immutable
    rw [after, if_neg different, immutable]

end Pmem

/-! ## Whole runs -/

/-- `SYSTEM` pages stay what they are. -/
theorem PmemOp.run_system {pmem : Pmem} {page : Nat} (op : PmemOp) (proper : op.Proper)
    (inside : page < pmem.totalOfPages) (immutable : pmem.pages page = .system) :
    (op.run pmem).2.pages page = .system := by
  cases op with
  | allocate => exact Pmem.allocate_system immutable
  | release addr => exact pmemRelease_system immutable
  | setAsSystem addr total =>
      rw [PmemOp.run, pmemSetAsSystem_pages proper inside, immutable]
      simp

theorem PmemOp.run_total (pmem : Pmem) (op : PmemOp) : (op.run pmem).2.totalOfPages = pmem.totalOfPages := by
  cases op with
  | allocate => exact Pmem.allocate_total pmem
  | release addr => exact pmemRelease_total addr
  | setAsSystem addr total => exact pmemSetAsSystem_total addr total

/-- What a run keeps: marked pages are `SYSTEM`, pages handed out are not free. -/
structure PmemKept (start : Pmem) (history : List PmemEvent) (pmem : Pmem) : Prop where
  total : pmem.totalOfPages = start.totalOfPages
  system : ∀ page, page < start.totalOfPages → start.pages page = .system → pmem.pages page = .system
  marked : ∀ addr total, .marked addr total ∈ history → ∀ page, page < start.totalOfPages →
    Covers addr total page → pmem.pages page = .system
  taken : ∀ page, page < start.totalOfPages → Outstanding history (page * 4096) → pmem.pages page ≠ .free
  range : ∀ addr, .allocated addr ∈ history → addr ≠ 0 → ∃ page, addr = page * 4096 ∧
    firstSearchedPage ≤ page ∧ page < start.totalOfPages ∧ start.pages page ≠ .system

/-- One call keeps it. -/
theorem PmemKept.step {start : Pmem} {history : List PmemEvent} {pmem : Pmem}
    (kept : PmemKept start history pmem) (op : PmemOp) (proper : op.Proper) :
    PmemKept start ((op.run pmem).1 :: history) (op.run pmem).2 := by
  have still : ∀ page, page < start.totalOfPages → pmem.pages page = .system →
      (op.run pmem).2.pages page = .system := fun page inside =>
    op.run_system proper (by rw [kept.total]; exact inside)
  constructor
  · rw [op.run_total, kept.total]
  · exact fun page inside system => still page inside (kept.system page inside system)
  · intro addr total member page inside covered
    rcases List.mem_cons.mp member with now | before
    · cases op with
      | setAsSystem addr' total' =>
          cases now
          rw [PmemOp.run, pmemSetAsSystem_pages proper (by rw [kept.total]; exact inside)]
          exact if_pos covered
      | allocate => cases now
      | release => cases now
    · exact still page inside (kept.marked addr total before page inside covered)
  · intro page inside outstanding
    cases op with
    | allocate =>
        by_cases success : pmem.allocate.1 = 0
        · rcases outstanding_cons outstanding with ⟨present, same⟩ | ⟨before, -⟩
          · have equal : pmem.allocate.1 = page * 4096 := PmemEvent.allocated.inj same
            rw [← equal] at present
            exact absurd success present
          · have taken := kept.taken page inside before
            by_cases nothing : pmemNextPageAvailable .free pmem = 0
            · rw [PmemOp.run, Pmem.allocate_of_none nothing]
              exact taken
            · rw [(Pmem.allocate_of_some nothing).2] at success
              exact absurd (Nat.mul_eq_zero.mp success) (by simp [nothing, systemPageSize])
        · obtain ⟨found, isFound, -, -, -, -, after⟩ := Pmem.allocate_page success
          rw [PmemOp.run, after]
          by_cases same : page = found
          · rw [if_pos same]
            exact fun impossible => by cases impossible
          · rw [if_neg same]
            rcases outstanding_cons outstanding with ⟨-, now⟩ | ⟨before, -⟩
            · have equal : pmem.allocate.1 = page * 4096 := PmemEvent.allocated.inj now
              omega
            · exact kept.taken page inside before
    | release addr =>
        rcases outstanding_cons outstanding with ⟨-, now⟩ | ⟨before, other⟩
        · cases now
        · have taken := kept.taken page inside before
          by_contra free
          have changed : (pmemRelease addr pmem).2.pages page ≠ pmem.pages page := fun same =>
            taken (same ▸ free)
          obtain ⟨isPage, done⟩ := pmemRelease_pages changed
          exact other (by rw [PmemOp.run, done, isPage])
    | setAsSystem addr total =>
        rcases outstanding_cons outstanding with ⟨-, now⟩ | ⟨before, -⟩
        · cases now
        · have taken := kept.taken page inside before
          rw [PmemOp.run, pmemSetAsSystem_pages proper (by rw [kept.total]; exact inside)]
          split
          · exact fun impossible => by cases impossible
          · exact taken
  · intro addr member present
    rcases List.mem_cons.mp member with now | before
    · cases op with
      | allocate =>
          have equal : addr = pmem.allocate.1 := PmemEvent.allocated.inj now
          rw [equal] at present
          obtain ⟨found, isFound, low, high, free, -, -⟩ := Pmem.allocate_page present
          rw [kept.total] at high
          refine ⟨found, equal.trans isFound, low, high, fun system => ?_⟩
          rw [kept.system found high system] at free
          cases free
      | release => cases now
      | setAsSystem => cases now
    · exact kept.range addr before present

theorem PmemRun.kept {start : Pmem} {history : List PmemEvent} {pmem : Pmem}
    (run : PmemRun start history pmem) : PmemKept start history pmem := by
  induction run with
  | start =>
      refine ⟨rfl, fun page _ system => system, fun addr total member => ?_, fun page _ outstanding => ?_,
        fun addr member => absurd member List.not_mem_nil⟩
      · exact absurd member List.not_mem_nil
      · obtain ⟨-, later, earlier, split, -⟩ := outstanding
        exact absurd split (by simp)
  | step run op proper ih => exact ih.step op proper

/-- In every run after `pmem_initialize(t)`: an allocation fails exactly when no page from 64 MB on
is free; what it returns is a page from 64 MB on that nobody holds and no marked range touches; and
marked pages are `SYSTEM` for good. -/
theorem pmem_pages_have_one_owner {t : Nat} {history : List PmemEvent} {pmem : Pmem}
    (run : PmemRun (pmemInitialize t) history pmem) :
    (pmem.allocate.1 = 0 ↔
      ∀ page, 64 * 1024 * 1024 ≤ page * 4096 → page < t / 4096 → pmem.pages page ≠ .free) ∧
    (pmem.allocate.1 ≠ 0 →
      pmem.allocate.1 % 4096 = 0 ∧ 64 * 1024 * 1024 ≤ pmem.allocate.1 ∧ pmem.allocate.1 + 4096 ≤ t ∧
      ¬ Outstanding history pmem.allocate.1 ∧
      ∀ addr total, .marked addr total ∈ history → ¬ Intersects (pmem.allocate.1 / 4096) addr total) ∧
    ∀ addr total, .marked addr total ∈ history → ∀ page, page < t / 4096 →
      Intersects page addr total → pmem.pages page = .system := by
  have kept := run.kept
  have total : pmem.totalOfPages = t / 4096 := kept.total
  have marked : ∀ addr total, .marked addr total ∈ history → ∀ page, page < t / 4096 →
      Intersects page addr total → pmem.pages page = .system := fun addr total member page inside common =>
    kept.marked addr total member page inside common.covers
  refine ⟨?_, fun success => ?_, marked⟩
  · rw [Pmem.allocate_eq_zero_iff, total]
    refine forall_congr' fun page => ?_
    have floor : firstSearchedPage ≤ page ↔ 64 * 1024 * 1024 ≤ page * 4096 := by
      unfold firstSearchedPage systemPageSize
      omega
    rw [floor]
  · obtain ⟨page, isPage, low, high, free, -, -⟩ := Pmem.allocate_page success
    rw [total] at high
    have floor : 16384 ≤ page := low
    rw [isPage]
    refine ⟨by omega, by omega, by omega, fun outstanding => ?_, fun addr total member common => ?_⟩
    · exact kept.taken page high outstanding free
    · rw [Nat.mul_div_cancel page (by decide)] at common
      rw [marked addr total member page high common] at free
      cases free

/-- 64 MB and three pages: the first page is reserved, the second handed out and given back. -/
theorem pmem_sampleRun :
    PmemRun (pmemInitialize 0x4003000) [.released 0x4001000 true, .allocated 0x4001000, .marked 0x4000000 16]
      ((PmemOp.release 0x4001000).run (PmemOp.allocate.run
        ((PmemOp.setAsSystem 0x4000000 16).run (pmemInitialize 0x4003000)).2).2).2 :=
  .step (.step (.step .start (.setAsSystem 0x4000000 16) (by unfold PmemOp.Proper; decide)) .allocate trivial)
    (.release 0x4001000) trivial

theorem pmem_pages_have_one_owner_sample :
    ((PmemOp.release 0x4001000).run (PmemOp.allocate.run
      ((PmemOp.setAsSystem 0x4000000 16).run (pmemInitialize 0x4003000)).2).2).2.pages 0x4000 = .system :=
  (pmem_pages_have_one_owner pmem_sampleRun).2.2 0x4000000 16 (by simp) 0x4000 (by decide)
    (by unfold Intersects; decide)

/-! ## The page behind a range

`pmem_set_as_system` compares page numbers inclusively, so that it goes one page too far when
the range is empty or ends where a page ends. -/

/-- The tracked pages that the range touches become `SYSTEM`, and no other page changes. -/
def MarksExactly (addr total : Nat) (pmem after : Pmem) : Prop :=
  ∀ page < pmem.totalOfPages,
    (Intersects page addr total → after.pages page = .system) ∧
    (¬ Intersects page addr total → after.pages page = pmem.pages page)

/-- The pages of the loop are those the range touches and the one its end is in. -/
theorem covers_iff {addr total page : Nat} :
    Covers addr total page ↔ Intersects page addr total ∨ page = (addr + total) / 4096 := by
  unfold Covers Intersects
  omega

theorem intersects_end_iff {addr total : Nat} :
    Intersects ((addr + total) / 4096) addr total ↔ 0 < total ∧ (addr + total) % 4096 ≠ 0 := by
  unfold Intersects
  omega

/-- Exactly the touched pages are marked if the page of the end is one of them, is not tracked or
is `SYSTEM` anyway, and only then. -/
theorem marks_exactly_iff {addr total : Nat} (fits : addr + total < 2 ^ 64) (pmem : Pmem) :
    MarksExactly addr total pmem (pmemSetAsSystem addr total pmem) ↔
      (0 < total ∧ (addr + total) % 4096 ≠ 0) ∨ pmem.totalOfPages ≤ (addr + total) / 4096 ∨
        pmem.pages ((addr + total) / 4096) = .system := by
  have covered : ∀ page < pmem.totalOfPages, Covers addr total page →
      (pmemSetAsSystem addr total pmem).pages page = .system := fun page inside covers =>
    (pmemSetAsSystem_pages fits inside).trans (if_pos covers)
  have uncovered : ∀ page < pmem.totalOfPages, ¬ Covers addr total page →
      (pmemSetAsSystem addr total pmem).pages page = pmem.pages page := fun page inside missed =>
    (pmemSetAsSystem_pages fits inside).trans (if_neg missed)
  rw [← intersects_end_iff]
  constructor
  · intro exact
    by_contra missed
    push Not at missed
    obtain ⟨apart, tracked, notSystem⟩ := missed
    have kept := (exact _ tracked).2 apart
    rw [covered _ tracked (covers_iff.mpr (Or.inr rfl))] at kept
    exact notSystem kept.symm
  · intro condition page inside
    refine ⟨fun common => covered page inside common.covers, fun apart => ?_⟩
    by_cases covers : Covers addr total page
    · obtain rfl : page = (addr + total) / 4096 := (covers_iff.mp covers).resolve_left apart
      rw [covered _ inside covers]
      rcases condition with common | untracked | system
      · exact absurd common apart
      · omega
      · exact system.symm
    · exact uncovered page inside covers

theorem marks_exactly_sample : MarksExactly 0x4000010 16 (pmemInitialize 0x4003000)
    (pmemSetAsSystem 0x4000010 16 (pmemInitialize 0x4003000)) :=
  (marks_exactly_iff (by decide) _).mpr (Or.inl (by decide))

/-- One page is to be reserved, and the next one is lost as well. -/
theorem next_page_marked : ¬ Intersects 0x4001 0x4000000 4096 ∧
    (pmemInitialize 0x4003000).pages 0x4001 = .free ∧
    (pmemSetAsSystem 0x4000000 4096 (pmemInitialize 0x4003000)).pages 0x4001 = .system := by
  unfold Intersects
  decide

end BubackOS

import BubackOS.Libutils.LinkedList
import Mathlib.Data.List.Nodup

/-!
# Id mappers

`libutils/id_mapper.c` on one mapper.  Whether the two allocations of
`id_mapper_add` succeed is an argument.  A mapper is a finite map from ids to values:
the ids come from a counter and are never used again.
-/

namespace BubackOS

namespace IdMapper

/-- `id_mapper_next_id`. -/
def nextId (m : IdMapper) : Nat × IdMapper := (m.next, { m with next := wrap (m.next + 1) })

/-- `id_mapper_get`: `NULL` is `0`. -/
def get (m : IdMapper) (id : Nat) : Nat :=
  if id = 0 then 0 else ((m.list.items.find? (·.1 = id)).map (·.2)).getD 0

/-- `id_mapper_add`; `entry` and `node` say whether the entry and the list node were allocated. -/
def add (entry node : Bool) (val : Nat) (m : IdMapper) : Nat × IdMapper :=
  if val = 0 then (0, m)
  else if entry then
    let id := m.nextId
    if id.2.list.isSome && node then
      (id.1, { id.2 with list := id.2.list.map (· ++ [(id.1, val)]) })
    else (0, id.2)
  else (0, m)

/-- `id_mapper_del`: the first entry with the id goes, and the result tells whether there was one. -/
def del (id : Nat) (m : IdMapper) : Bool × IdMapper :=
  if id = 0 then (false, m)
  else ((m.list.items.find? (·.1 = id)).isSome, { m with list := m.list.map (·.eraseP (·.1 = id)) })

end IdMapper

/-! ## Histories -/

/-- A call on a mapper. -/
inductive IdCall where
  | add (val : Nat) (entry node : Bool)
  | del (id : Nat)
  | get (id : Nat)
  | nextId

/-- A call and what it returned. -/
inductive IdEvent where
  | added (val id : Nat)
  | deleted (id : Nat) (found : Bool)
  | got (id val : Nat)
  | drawn (id : Nat)
  deriving DecidableEq, Repr

/-- What a call returns, and the mapper after it. -/
def IdCall.run (m : IdMapper) : IdCall → IdEvent × IdMapper
  | add val entry node => (.added val (m.add entry node val).1, (m.add entry node val).2)
  | del id => (.deleted id (m.del id).1, (m.del id).2)
  | get id => (.got id (m.get id), m)
  | nextId => (.drawn m.nextId.1, m.nextId.2)

/-- The mappers reached from a fresh one, with the events so far, the last one first.  The
counter has not come round: fewer than `2 ^ 64 - 1` ids have been drawn. -/
inductive IdReached : List IdEvent → IdMapper → Prop where
  | create : IdReached [] { next := 1, list := some [] }
  | step {history : List IdEvent} {m : IdMapper} (reached : IdReached history m) (call : IdCall)
      (counted : (call.run m).2.next ≠ 0) : IdReached ((call.run m).1 :: history) (call.run m).2

/-- Some `id_mapper_add` of the value returned the id, and no later deletion of the id succeeded. -/
def Live (history : List IdEvent) (id val : Nat) : Prop :=
  id ≠ 0 ∧ ∃ later earlier, history = later ++ .added val id :: earlier ∧ .deleted id true ∉ later

/-- The ids that additions returned. -/
def addedIds (history : List IdEvent) : List Nat :=
  history.filterMap fun event => match event with
    | .added _ id => if id = 0 then none else some id
    | _ => none

theorem live_cons {event : IdEvent} {history : List IdEvent} {id val : Nat} :
    Live (event :: history) id val ↔
      id ≠ 0 ∧ event = .added val id ∨ Live history id val ∧ event ≠ .deleted id true := by
  constructor
  · rintro ⟨present, later, earlier, split, kept⟩
    cases later with
    | nil => exact Or.inl ⟨present, (List.cons.inj split).1⟩
    | cons first rest =>
        obtain ⟨same, split'⟩ := List.cons.inj split
        refine Or.inr ⟨⟨present, rest, earlier, split', fun member => kept (List.mem_cons_of_mem _ member)⟩, ?_⟩
        rintro rfl
        exact kept (by rw [← same]; exact List.mem_cons_self)
  · rintro (⟨present, rfl⟩ | ⟨⟨present, later, earlier, split, kept⟩, other⟩)
    · exact ⟨present, [], history, rfl, List.not_mem_nil⟩
    · refine ⟨present, event :: later, earlier, by rw [split]; rfl, fun member => ?_⟩
      rcases List.mem_cons.mp member with same | before
      · exact other same.symm
      · exact kept before

/-- What ties the entries of a mapper to its history. -/
structure Faithful (history : List IdEvent) (m : IdMapper) (entries : List (Nat × Nat)) : Prop where
  list : m.list = some entries
  counter : 0 < m.next ∧ m.next < 2 ^ 64
  range : ∀ entry ∈ entries, 0 < entry.1 ∧ entry.1 < m.next ∧ entry.2 ≠ 0
  distinct : (entries.map (·.1)).Nodup
  live : ∀ id val, (id, val) ∈ entries ↔ Live history id val
  drawn : ∀ id ∈ addedIds history, id < m.next
  ids : (addedIds history).Nodup

namespace Faithful

variable {history : List IdEvent} {m : IdMapper} {entries : List (Nat × Nat)}

theorem items (faithful : Faithful history m entries) : m.list.items = entries := by
  rw [faithful.list]
  rfl

/-- The entry with an id, if there is one. -/
theorem find_eq_some_iff (faithful : Faithful history m entries) {id val : Nat} :
    entries.find? (·.1 = id) = some (id, val) ↔ (id, val) ∈ entries := by
  constructor
  · exact List.mem_of_find?_eq_some
  · intro member
    have found : (entries.find? (·.1 = id)).isSome := by
      rw [List.find?_isSome]
      exact ⟨(id, val), member, by simp⟩
    obtain ⟨entry, isEntry⟩ := Option.isSome_iff_exists.mp found
    have inside := List.mem_of_find?_eq_some isEntry
    have same : entry.1 = id := by simpa using List.find?_some isEntry
    rw [isEntry, List.inj_on_of_nodup_map faithful.distinct inside member same]

theorem find_eq_none_iff {id : Nat} :
    entries.find? (·.1 = id) = none ↔ ∀ val, (id, val) ∉ entries := by
  rw [List.find?_eq_none]
  constructor
  · intro absent val member
    exact absent (id, val) member (by simp)
  · rintro absent ⟨other, val⟩ member same
    have isId : other = id := by simpa using same
    exact absent val (isId ▸ member)

theorem get_eq (faithful : Faithful history m entries) {id val : Nat} (present : (id, val) ∈ entries) :
    m.get id = val := by
  have positive := (faithful.range _ present).1
  rw [IdMapper.get, if_neg (by omega), faithful.items, faithful.find_eq_some_iff.mpr present]
  rfl

theorem get_eq_zero (faithful : Faithful history m entries) {id : Nat}
    (absent : ∀ val, (id, val) ∉ entries) : m.get id = 0 := by
  rw [IdMapper.get, faithful.items, find_eq_none_iff.mpr absent]
  simp

theorem get_eq_iff (faithful : Faithful history m entries) {id val : Nat} (present : val ≠ 0) :
    m.get id = val ↔ (id, val) ∈ entries := by
  constructor
  · intro found
    by_contra absent
    by_cases some : ∃ other, (id, other) ∈ entries
    · obtain ⟨other, member⟩ := some
      rw [faithful.get_eq member] at found
      exact absent (found ▸ member)
    · rw [faithful.get_eq_zero fun other member => some ⟨other, member⟩] at found
      exact present found.symm
  · exact faithful.get_eq

theorem get_eq_zero_iff (faithful : Faithful history m entries) {id : Nat} :
    m.get id = 0 ↔ ∀ val, (id, val) ∉ entries := by
  refine ⟨fun nothing val member => ?_, faithful.get_eq_zero⟩
  rw [faithful.get_eq member] at nothing
  exact (faithful.range _ member).2.2 nothing

theorem del_fst_iff (faithful : Faithful history m entries) {id : Nat} :
    (m.del id).1 = true ↔ ∃ val, (id, val) ∈ entries := by
  by_cases zero : id = 0
  · rw [IdMapper.del, if_pos zero]
    constructor
    · exact fun impossible => absurd impossible (by simp)
    · rintro ⟨val, member⟩
      have positive := (faithful.range _ member).1
      exact absurd zero (by simp only at positive; omega)
  · rw [IdMapper.del, if_neg zero, faithful.items]
    dsimp only
    rw [← not_iff_not, Bool.not_eq_true, Option.isSome_eq_false_iff, Option.isNone_iff_eq_none,
      find_eq_none_iff, not_exists]

/-- The entries without the one that has the id. -/
theorem mem_eraseP (faithful : Faithful history m entries) {id : Nat} {entry : Nat × Nat} :
    entry ∈ entries.eraseP (·.1 = id) ↔ entry ∈ entries ∧ entry.1 ≠ id := by
  have distinct := faithful.distinct
  clear faithful
  induction entries with
  | nil => simp
  | cons first rest ih =>
      obtain ⟨new, distinct'⟩ := List.nodup_cons.mp distinct
      by_cases here : first.1 = id
      · rw [List.eraseP_cons_of_pos (by simpa using here)]
        constructor
        · intro member
          refine ⟨List.mem_cons_of_mem _ member, fun same => new ?_⟩
          exact List.mem_map.mpr ⟨entry, member, same.trans here.symm⟩
        · rintro ⟨member, other⟩
          rcases List.mem_cons.mp member with rfl | later
          · exact absurd here other
          · exact later
      · have smaller := ih distinct'
        rw [List.eraseP_cons_of_neg (by simpa using here), List.mem_cons, List.mem_cons]
        constructor
        · rintro (rfl | member)
          · exact ⟨Or.inl rfl, here⟩
          · exact ⟨Or.inr (smaller.mp member).1, (smaller.mp member).2⟩
        · rintro ⟨rfl | member, other⟩
          · exact Or.inl rfl
          · exact Or.inr (smaller.mpr ⟨member, other⟩)

/-- An event that neither adds nor deletes. -/
theorem neutral {event : IdEvent} {m' : IdMapper} (faithful : Faithful history m entries)
    (list : m'.list = m.list) (counter : m.next ≤ m'.next ∧ m'.next < 2 ^ 64)
    (notAdded : ∀ val id, event = .added val id → id = 0)
    (notDeleted : ∀ id, event ≠ .deleted id true) : Faithful (event :: history) m' entries := by
  have same : addedIds (event :: history) = addedIds history := by
    unfold addedIds
    cases event with
    | added val id => simp [notAdded val id rfl]
    | _ => rfl
  refine ⟨list.trans faithful.list, ⟨by have := faithful.counter.1; omega, counter.2⟩, fun entry member => ?_,
    faithful.distinct, fun id val => ?_, ?_, ?_⟩
  · obtain ⟨positive, below, present⟩ := faithful.range entry member
    exact ⟨positive, by omega, present⟩
  · rw [faithful.live, live_cons]
    constructor
    · exact fun live => Or.inr ⟨live, notDeleted id⟩
    · rintro (⟨present, isAdded⟩ | ⟨live, -⟩)
      · exact absurd (notAdded val id isAdded) present
      · exact live
  · rw [same]
    intro id member
    have below := faithful.drawn id member
    omega
  · rw [same]
    exact faithful.ids

theorem next_succ (faithful : Faithful history m entries) (counted : wrap (m.next + 1) ≠ 0) :
    wrap (m.next + 1) = m.next + 1 ∧ m.next + 1 < 2 ^ 64 := by
  have bound := faithful.counter.2
  unfold wrap at counted ⊢
  omega

/-- A successful addition. -/
theorem added (faithful : Faithful history m entries) {val : Nat} (present : val ≠ 0)
    (counted : wrap (m.next + 1) ≠ 0) :
    Faithful (.added val m.next :: history)
      { next := wrap (m.next + 1), list := some (entries ++ [(m.next, val)]) } (entries ++ [(m.next, val)]) := by
  obtain ⟨succ, bound⟩ := faithful.next_succ counted
  have positive := faithful.counter.1
  have nonzero : m.next ≠ 0 := by omega
  have ids : addedIds (.added val m.next :: history) = m.next :: addedIds history := by
    simp [addedIds, nonzero]
  refine ⟨rfl, ?_, ?_, ?_, ?_, ?_, ?_⟩
  · simp only [succ]
    omega
  · intro entry member
    simp only [succ]
    rcases List.mem_append.mp member with old | new
    · obtain ⟨above, below, value⟩ := faithful.range entry old
      exact ⟨above, by omega, value⟩
    · rw [List.mem_singleton.mp new]
      exact ⟨positive, by simp, present⟩
  · rw [List.map_append, List.map_singleton]
    refine List.Nodup.append faithful.distinct (List.nodup_singleton _) ?_
    rw [List.disjoint_singleton]
    intro member
    obtain ⟨entry, inside, same⟩ := List.mem_map.mp member
    have below := (faithful.range entry inside).2.1
    omega
  · intro id other
    rw [live_cons, List.mem_append, List.mem_singleton, faithful.live]
    constructor
    · rintro (live | same)
      · exact Or.inr ⟨live, by simp⟩
      · obtain ⟨rfl, rfl⟩ := Prod.mk.inj same
        exact Or.inl ⟨nonzero, rfl⟩
    · rintro (⟨-, same⟩ | ⟨live, -⟩)
      · cases same
        exact Or.inr rfl
      · exact Or.inl live
  · rw [ids]
    simp only [succ]
    intro id member
    rcases List.mem_cons.mp member with rfl | old
    · omega
    · have below := faithful.drawn id old
      omega
  · rw [ids]
    refine List.nodup_cons.mpr ⟨fun member => ?_, faithful.ids⟩
    exact Nat.lt_irrefl _ (faithful.drawn m.next member)

/-- A successful deletion. -/
theorem deleted (faithful : Faithful history m entries) (id : Nat) :
    Faithful (.deleted id true :: history) { m with list := some (entries.eraseP (·.1 = id)) }
      (entries.eraseP (·.1 = id)) := by
  refine ⟨rfl, faithful.counter, fun entry member => faithful.range entry (faithful.mem_eraseP.mp member).1,
    ?_, fun other val => ?_, faithful.drawn, faithful.ids⟩
  · exact faithful.distinct.sublist (List.eraseP_sublist.map _)
  · rw [faithful.mem_eraseP, faithful.live, live_cons]
    constructor
    · rintro ⟨live, different⟩
      refine Or.inr ⟨live, fun same => ?_⟩
      cases same
      exact different rfl
    · rintro (⟨-, same⟩ | ⟨live, different⟩)
      · cases same
      · exact ⟨live, fun same => different (by rw [show other = id from same])⟩

end Faithful

/-- Every call keeps the mapper faithful to its history. -/
theorem IdCall.faithful {history : List IdEvent} {m : IdMapper} {entries : List (Nat × Nat)}
    (faithful : Faithful history m entries) (call : IdCall) (counted : (call.run m).2.next ≠ 0) :
    ∃ entries', Faithful ((call.run m).1 :: history) (call.run m).2 entries' := by
  have drawn : wrap (m.next + 1) ≠ 0 → m.next ≤ wrap (m.next + 1) ∧ wrap (m.next + 1) < 2 ^ 64 := by
    intro counted
    obtain ⟨succ, bound⟩ := faithful.next_succ counted
    omega
  cases call with
  | add val entry node =>
      rw [IdCall.run] at counted ⊢
      unfold IdMapper.add at counted ⊢
      by_cases null : val = 0
      · rw [if_pos null]
        exact ⟨entries, faithful.neutral rfl ⟨Nat.le_refl _, faithful.counter.2⟩
          (fun v id same => by cases same; rfl) (fun id same => by cases same)⟩
      · rw [if_neg null] at counted ⊢
        cases entry with
        | false =>
            exact ⟨entries, faithful.neutral rfl ⟨Nat.le_refl _, faithful.counter.2⟩
              (fun v id same => by cases same; rfl) (fun id same => by cases same)⟩
        | true =>
            have present : m.nextId.2.list = some entries := faithful.list
            cases node with
            | false =>
                simp only [if_true, Bool.and_false, Bool.false_eq_true, if_false] at counted ⊢
                exact ⟨entries, faithful.neutral rfl (drawn counted)
                  (fun v id same => by cases same; rfl) (fun id same => by cases same)⟩
            | true =>
                simp only [if_true, present, Option.isSome_some, Bool.and_true, Option.map_some] at counted ⊢
                exact ⟨_, faithful.added null counted⟩
  | del id =>
      rw [IdCall.run]
      cases found : (m.del id).1 with
      | false =>
          have unchanged : (m.del id).2 = m := by
            unfold IdMapper.del at found ⊢
            by_cases zero : id = 0
            · rw [if_pos zero]
            · rw [if_neg zero] at found ⊢
              rw [faithful.items, Option.isSome_eq_false_iff, Option.isNone_iff_eq_none,
                List.find?_eq_none] at found
              dsimp only
              rw [faithful.list, Option.map_some, List.eraseP_of_forall_not found, ← faithful.list]
          rw [unchanged]
          exact ⟨entries, faithful.neutral rfl ⟨Nat.le_refl _, faithful.counter.2⟩
            (fun v id same => by cases same) (fun id same => by cases same)⟩
      | true =>
          have changed : (m.del id).2 = { m with list := some (entries.eraseP (·.1 = id)) } := by
            unfold IdMapper.del at found ⊢
            by_cases zero : id = 0
            · rw [if_pos zero] at found
              cases found
            · rw [if_neg zero, faithful.list]
              rfl
          rw [changed]
          exact ⟨_, faithful.deleted id⟩
  | get id =>
      exact ⟨entries, faithful.neutral rfl ⟨Nat.le_refl _, faithful.counter.2⟩
        (fun v id same => by cases same) (fun id same => by cases same)⟩
  | nextId =>
      exact ⟨entries, faithful.neutral rfl (drawn counted)
        (fun v id same => by cases same) (fun id same => by cases same)⟩

theorem IdReached.faithful {history : List IdEvent} {m : IdMapper} (reached : IdReached history m) :
    ∃ entries, Faithful history m entries := by
  induction reached with
  | create =>
      refine ⟨[], rfl, by decide, ?_, List.nodup_nil, ?_, ?_, List.nodup_nil⟩
      · exact fun entry member => absurd member List.not_mem_nil
      · intro id val
        constructor
        · exact fun member => absurd member List.not_mem_nil
        · rintro ⟨-, later, earlier, split, -⟩
          exact absurd split (by simp)
      · exact fun id member => absurd member List.not_mem_nil
  | step reached call counted ih =>
      obtain ⟨entries, faithful⟩ := ih
      exact call.faithful faithful counted

/-- In every state a mapper is the finite map of its history: ids are never returned twice, the
lookup finds exactly the live entries, a deletion succeeds on live ids and takes out that entry
only, and an addition that returns `0` leaves the entries alone. -/
theorem id_mapper_is_map {history : List IdEvent} {m : IdMapper} (reached : IdReached history m) :
    (addedIds history).Nodup ∧
    (∀ id val, val ≠ 0 → (m.get id = val ↔ Live history id val)) ∧
    (∀ id, m.get id = 0 ↔ ∀ val, ¬ Live history id val) ∧
    (∀ id, (m.del id).1 = true ↔ ∃ val, Live history id val) ∧
    (∀ id, (m.del id).2.get id = 0 ∧ ∀ other, other ≠ id → (m.del id).2.get other = m.get other) ∧
    ∀ entry node val, (m.add entry node val).1 = 0 → (m.add entry node val).2.list = m.list := by
  obtain ⟨entries, faithful⟩ := reached.faithful
  refine ⟨faithful.ids, fun id val present => ?_, fun id => ?_, fun id => ?_, fun id => ?_, ?_⟩
  · rw [faithful.get_eq_iff present, faithful.live]
  · rw [faithful.get_eq_zero_iff]
    exact forall_congr' fun val => not_congr (faithful.live id val)
  · rw [faithful.del_fst_iff]
    exact exists_congr fun val => faithful.live id val
  · by_cases zero : id = 0
    · rw [IdMapper.del, if_pos zero, IdMapper.get, if_pos zero]
      exact ⟨rfl, fun other _ => rfl⟩
    · have removed := faithful.deleted id
      have changed : (m.del id).2 = { m with list := some (entries.eraseP (·.1 = id)) } := by
        rw [IdMapper.del, if_neg zero, faithful.list]
        rfl
      rw [changed]
      refine ⟨removed.get_eq_zero fun val member => (faithful.mem_eraseP.mp member).2 rfl, ?_⟩
      intro other different
      by_cases present : ∃ val, (other, val) ∈ entries
      · obtain ⟨val, member⟩ := present
        rw [faithful.get_eq member, removed.get_eq (faithful.mem_eraseP.mpr ⟨member, different⟩)]
      · rw [faithful.get_eq_zero fun val member => present ⟨val, member⟩,
          removed.get_eq_zero fun val member => present ⟨val, (faithful.mem_eraseP.mp member).1⟩]
  · intro entry node val failed
    unfold IdMapper.add at failed ⊢
    split at failed
    · rename_i null
      rw [if_pos null]
    · rename_i present
      rw [if_neg present]
      split at failed
      · rename_i allocated
        rw [if_pos allocated]
        dsimp only at failed ⊢
        split at failed
        · exact absurd failed (Nat.ne_of_gt faithful.counter.1)
        · rename_i stopped
          rw [if_neg stopped]
          rfl
      · rename_i refused
        rw [if_neg refused]

/-- A mapper with one live entry, after a deletion and a failed addition. -/
def sampleHistory : List IdEvent := [.added 9 0, .deleted 1 true, .added 8 2, .added 7 1]

theorem sampleHistory_reached : IdReached sampleHistory { next := 4, list := some [(2, 8)] } :=
  .step (.step (.step (.step .create (.add 7 true true) (by decide)) (.add 8 true true) (by decide))
    (.del 1) (by decide)) (.add 9 true false) (by decide)

theorem id_mapper_is_map_sample : Live sampleHistory 2 8 ∧ ∀ val, ¬ Live sampleHistory 1 val := by
  have facts := id_mapper_is_map sampleHistory_reached
  exact ⟨(facts.2.1 2 8 (by decide)).mp (by decide), (facts.2.2.1 1).mp (by decide)⟩

end BubackOS

import Mathlib.Data.List.Nodup
import Mathlib.Data.List.Rotate
import Mathlib.Logic.Function.Basic

/-!
# A processor and its ready queue

One element runs, others wait in a queue.  Putting an element into the queue may fail, and
then the element is in neither place.  Whatever fails, no element is in two places; when
nothing fails, every ready element is in one.
-/

namespace BubackOS.Library

/-- What is ready, what runs, and what waits, the next one first. -/
@[ext]
structure Dispatcher (α : Type) where
  ready : α → Bool
  current : Option α
  queue : List α

namespace Dispatcher

section Clear

variable {α : Type} {d : Dispatcher α} {kept : Bool}

/-- The element runs or waits. -/
def Placed (d : Dispatcher α) (t : α) : Prop := d.current = some t ∨ t ∈ d.queue

/-- No element is in two places, and only ready elements are in one. -/
structure Exclusive (d : Dispatcher α) : Prop where
  nodup : d.queue.Nodup
  apart : ∀ t ∈ d.queue, d.current ≠ some t
  ready : ∀ t, d.Placed t → d.ready t = true

/-- Every ready element runs or waits. -/
def Complete (d : Dispatcher α) : Prop := ∀ t, d.ready t = true → d.Placed t

/-- Take the running element off the processor and queue it if it is ready. -/
def clear (kept : Bool) (d : Dispatcher α) : Dispatcher α :=
  { d with
    current := none
    queue := if kept then d.queue ++ d.current.toList.filter d.ready else d.queue }

/-- An idle processor with an empty queue. -/
theorem exclusive_of_idle (idle : d.current = none) (empty : d.queue = []) : d.Exclusive := by
  constructor
  · rw [empty]
    exact List.nodup_nil
  · rw [idle]
    simp
  · intro t placed
    simp [Placed, idle, empty] at placed

/-- A running element that is not ready is not queued. -/
theorem clear_of_not_ready {t : α} (running : d.current = some t) (stopped : d.ready t = false) :
    d.clear kept = { d with current := none } := by
  unfold clear
  rw [running]
  simp [stopped]

theorem clear_placed {t : α} (placed : (d.clear kept).Placed t) : d.Placed t := by
  rcases placed with running | waits
  · exact absurd running (by simp [clear])
  · unfold clear at waits
    dsimp only at waits
    split at waits
    · rcases List.mem_append.mp waits with waited | ran
      · exact Or.inr waited
      · exact Or.inl (Option.mem_toList.mp (List.mem_of_mem_filter ran))
    · exact Or.inr waits

/-- What a clear leaves in the queue, when the running element is ready. -/
theorem Exclusive.clear_queue (exclusive : d.Exclusive) (kept : Bool) :
    (d.clear kept).queue = if kept then d.queue ++ d.current.toList else d.queue := by
  have all : d.current.toList.filter d.ready = d.current.toList := by
    rw [List.filter_eq_self]
    exact fun t member => exclusive.ready t (Or.inl (Option.mem_toList.mp member))
  unfold clear
  rw [all]

/-- Without the first of the queue. -/
theorem Exclusive.tail (exclusive : d.Exclusive) {t : α} {rest : List α} (queue : d.queue = t :: rest) :
    Exclusive { d with queue := rest } := by
  have nodup := exclusive.nodup
  rw [queue] at nodup
  refine ⟨(List.nodup_cons.mp nodup).2, fun u waits => ?_, fun u placed => ?_⟩
  · exact exclusive.apart u (by rw [queue]; exact List.mem_cons_of_mem t waits)
  · refine exclusive.ready u (placed.imp id fun waits => ?_)
    rw [queue]
    exact List.mem_cons_of_mem t waits

theorem Exclusive.clear (exclusive : d.Exclusive) : (d.clear kept).Exclusive := by
  constructor
  · rw [exclusive.clear_queue]
    split
    · refine exclusive.nodup.append ?_ ?_
      · cases d.current with
        | none => exact List.nodup_nil
        | some c => exact List.nodup_singleton c
      · exact fun t waits runs => exclusive.apart t waits (Option.mem_toList.mp runs)
    · exact exclusive.nodup
  · exact fun t _ running => absurd running (by simp [Dispatcher.clear])
  · exact fun t placed => exclusive.ready t (clear_placed placed)

/-- Taking the running element off the processor loses no ready element: it is queued, or it need
not be. -/
def Spares (kept : Bool) (d : Dispatcher α) : Prop :=
  kept = true ∨ ∀ t, d.current = some t → d.ready t = true → t ∈ d.queue

theorem spares_of_idle (idle : d.current = none) : d.Spares kept :=
  Or.inr fun t running => absurd (idle.symm.trans running) (by simp)

theorem mem_clear_queue {t : α} :
    t ∈ (d.clear kept).queue ↔ t ∈ d.queue ∨ kept = true ∧ d.current = some t ∧ d.ready t = true := by
  unfold clear
  cases kept <;> simp

theorem Complete.clear_iff (complete : d.Complete) : (d.clear kept).Complete ↔ d.Spares kept := by
  constructor
  · intro cleared
    by_cases isKept : kept = true
    · exact Or.inl isKept
    · refine Or.inr fun t running ready => ?_
      rcases cleared t ready with idle | waits
      · cases idle
      · exact (mem_clear_queue.mp waits).resolve_right fun ⟨yes, _⟩ => isKept yes
  · intro spares t ready
    refine Or.inr (mem_clear_queue.mpr ?_)
    rcases complete t ready with running | waits
    · exact spares.symm.imp (fun stays => stays t running ready) fun yes => ⟨yes, running, ready⟩
    · exact Or.inl waits
end Clear

variable {α : Type} [DecidableEq α] {d : Dispatcher α} {kept : Bool} {t : α}

/-! ## Becoming ready -/

/-- An element becomes ready. -/
def enroll (kept : Bool) (t : α) (d : Dispatcher α) : Dispatcher α :=
  { d with
    ready := Function.update d.ready t true
    queue := if kept then d.queue ++ [t] else d.queue }

theorem enroll_ready_self : (d.enroll kept t).ready t = true := by simp [enroll]

theorem enroll_ready_of_ne {u : α} (other : u ≠ t) : (d.enroll kept t).ready u = d.ready u := by
  simp [enroll, other]

theorem mem_enroll_queue {u : α} (waits : u ∈ (d.enroll kept t).queue) : u ∈ d.queue ∨ u = t := by
  unfold enroll at waits
  dsimp only at waits
  split at waits
  · exact (List.mem_append.mp waits).imp id List.mem_singleton.mp
  · exact Or.inl waits

theorem Exclusive.enroll (exclusive : d.Exclusive) (new : d.ready t = false) : (d.enroll kept t).Exclusive := by
  have absent : ¬ d.Placed t := fun placed => by
    rw [exclusive.ready t placed] at new
    exact absurd new (by simp)
  constructor
  · unfold Dispatcher.enroll
    dsimp only
    split
    · refine exclusive.nodup.append (List.nodup_singleton t) ?_
      intro u waits isNew
      rw [List.mem_singleton.mp isNew] at waits
      exact absent (Or.inr waits)
    · exact exclusive.nodup
  · intro u waits running
    rcases mem_enroll_queue waits with waited | rfl
    · exact exclusive.apart u waited running
    · exact absent (Or.inl running)
  · intro u placed
    by_cases isNew : u = t
    · rw [isNew]
      exact enroll_ready_self
    · have before : d.Placed u := placed.imp id fun waits => (mem_enroll_queue waits).resolve_right isNew
      exact (enroll_ready_of_ne isNew).trans (exclusive.ready u before)

theorem Complete.enroll_iff (complete : d.Complete) :
    (d.enroll kept t).Complete ↔ kept = true ∨ d.Placed t := by
  constructor
  · intro enrolled
    by_cases isKept : kept = true
    · exact Or.inl isKept
    · have queue : (d.enroll kept t).queue = d.queue := if_neg isKept
      refine Or.inr ((enrolled t enroll_ready_self).imp id fun waits => ?_)
      rw [← queue]
      exact waits
  · intro placed u ready
    have older : ∀ v ∈ d.queue, v ∈ (d.enroll kept t).queue := fun v waits => by
      unfold Dispatcher.enroll
      dsimp only
      split
      · exact List.mem_append_left _ waits
      · exact waits
    by_cases isNew : u = t
    · subst isNew
      rcases placed with rfl | running | waits
      · exact Or.inr (List.mem_append_right _ (List.mem_singleton_self u))
      · exact Or.inl running
      · exact Or.inr (older u waits)
    · rw [enroll_ready_of_ne isNew] at ready
      exact (complete u ready).imp id (older u)

/-! ## Leaving -/

/-- An element stops being ready, wherever it is. -/
def withdraw (t : α) (d : Dispatcher α) : Dispatcher α where
  ready := Function.update d.ready t false
  current := if d.current = some t then none else d.current
  queue := d.queue.erase t

theorem withdraw_ready_self : (d.withdraw t).ready t = false := by simp [withdraw]

theorem withdraw_ready_of_ne {u : α} (other : u ≠ t) : (d.withdraw t).ready u = d.ready u := by
  simp [withdraw, other]

theorem withdraw_running {u : α} : (d.withdraw t).current = some u ↔ d.current = some u ∧ u ≠ t := by
  unfold withdraw
  dsimp only
  by_cases running : d.current = some t
  · rw [if_pos running, running]
    simp [eq_comm]
  · rw [if_neg running]
    refine ⟨fun other => ⟨other, ?_⟩, And.left⟩
    rintro rfl
    exact running other

theorem Exclusive.withdraw_placed (exclusive : d.Exclusive) {u : α} :
    (d.withdraw t).Placed u ↔ d.Placed u ∧ u ≠ t := by
  have queue : u ∈ (d.withdraw t).queue ↔ u ≠ t ∧ u ∈ d.queue := exclusive.nodup.mem_erase_iff
  unfold Placed
  rw [withdraw_running, queue, or_and_right, and_comm (a := u ≠ t)]

theorem Exclusive.withdraw (exclusive : d.Exclusive) : (d.withdraw t).Exclusive := by
  constructor
  · exact exclusive.nodup.erase t
  · exact fun u waits running => exclusive.apart u (List.mem_of_mem_erase waits) (withdraw_running.mp running).1
  · intro u placed
    obtain ⟨before, other⟩ := exclusive.withdraw_placed.mp placed
    exact (withdraw_ready_of_ne other).trans (exclusive.ready u before)

theorem Complete.withdraw (complete : d.Complete) : (d.withdraw t).Complete := by
  intro u ready
  by_cases isGone : u = t
  · rw [isGone, withdraw_ready_self] at ready
    exact absurd ready (by simp)
  · rw [withdraw_ready_of_ne isGone] at ready
    refine (complete u ready).imp (fun running => withdraw_running.mpr ⟨running, isGone⟩) fun waits => ?_
    exact (List.mem_erase_of_ne isGone).mpr waits

/-! ## Switching -/

/-- The next element gets the processor; if there is none, nothing runs. -/
def switch (kept : Bool) (d : Dispatcher α) : Dispatcher α :=
  match d.queue with
  | [] => d.clear kept
  | t :: rest =>
      if d.current = some t then { d with queue := rest }
      else { clear kept { d with queue := rest } with current := some t }

theorem switch_ready : (d.switch kept).ready = d.ready := by
  unfold switch
  split
  · rfl
  · split <;> rfl

theorem switch_of_empty (empty : d.queue = []) : d.switch kept = d.clear kept := by
  unfold switch
  rw [empty]

/-- The first of the queue runs, and what ran is the last of the queue unless it got lost. -/
theorem Exclusive.switch_of_cons (exclusive : d.Exclusive) {rest : List α} (queue : d.queue = t :: rest) :
    d.switch kept =
      { d with current := some t, queue := if kept then rest ++ d.current.toList else rest } := by
  have other : d.current ≠ some t := exclusive.apart t (by rw [queue]; exact List.mem_cons_self)
  have shorter := exclusive.tail queue
  have cleared := shorter.clear_queue kept
  unfold switch
  rw [queue]
  dsimp only
  rw [if_neg other, cleared]
  rfl

theorem Exclusive.switch (exclusive : d.Exclusive) : (d.switch kept).Exclusive := by
  cases queue : d.queue with
  | nil =>
      rw [switch_of_empty queue]
      exact exclusive.clear
  | cons t rest =>
      have nodup := exclusive.nodup
      rw [queue] at nodup
      obtain ⟨absent, nodup⟩ := List.nodup_cons.mp nodup
      have waits : ∀ u ∈ rest, u ∈ d.queue := fun u member => by
        rw [queue]
        exact List.mem_cons_of_mem t member
      have first : t ∈ d.queue := by
        rw [queue]
        exact List.mem_cons_self
      have member : ∀ u ∈ (if kept then rest ++ d.current.toList else rest), u ∈ rest ∨ d.current = some u := by
        intro u inside
        split at inside
        · exact (List.mem_append.mp inside).imp id Option.mem_toList.mp
        · exact Or.inl inside
      rw [exclusive.switch_of_cons queue]
      constructor
      · dsimp only
        split
        · refine nodup.append ?_ fun u inRest ran =>
            exclusive.apart u (waits u inRest) (Option.mem_toList.mp ran)
          cases d.current with
          | none => exact List.nodup_nil
          | some c => exact List.nodup_singleton c
        · exact nodup
      · intro u inside isFirst
        rw [← Option.some.inj isFirst] at inside
        rcases member t inside with inRest | ran
        · exact absent inRest
        · exact exclusive.apart t first ran
      · rintro u (isFirst | inside)
        · rw [← Option.some.inj isFirst]
          exact exclusive.ready t (Or.inr first)
        · exact exclusive.ready u ((member u inside).symm.imp id (waits u))

/-- A switch takes nothing away but what ran and was not kept. -/
theorem Exclusive.switch_placed_iff (exclusive : d.Exclusive) {u : α} :
    (d.switch kept).Placed u ↔ d.Placed u ∧ (kept = true ∨ d.current ≠ some u) := by
  have waiting : u ∈ d.queue → d.current ≠ some u := exclusive.apart u
  have running : d.current = some u → d.ready u = true := fun runs => exclusive.ready u (Or.inl runs)
  cases queue : d.queue with
  | nil =>
      have idle : (d.clear kept).current ≠ some u := fun runs => by cases runs
      rw [switch_of_empty queue]
      unfold Placed
      rw [mem_clear_queue]
      tauto
  | cons t rest =>
      rw [queue] at waiting
      rw [exclusive.switch_of_cons queue]
      unfold Placed
      rw [queue]
      cases kept <;> simp [eq_comm (a := t)] at waiting ⊢ <;> tauto

theorem Exclusive.switch_placed (exclusive : d.Exclusive) {u : α} (placed : (d.switch kept).Placed u) :
    d.Placed u :=
  (exclusive.switch_placed_iff.mp placed).1

theorem switch_of_cons {rest : List α} (queue : d.queue = t :: rest) (other : d.current ≠ some t) :
    d.switch kept = { clear kept { d with queue := rest } with current := some t } := by
  unfold switch
  rw [queue]
  exact if_neg other

theorem Complete.switch_iff (complete : d.Complete) : (d.switch kept).Complete ↔ d.Spares kept := by
  cases queue : d.queue with
  | nil =>
      rw [switch_of_empty queue]
      exact complete.clear_iff
  | cons t rest =>
      by_cases again : d.current = some t
      · -- the running element is the next one, and stays
        have same : d.switch kept = { d with queue := rest } := by
          unfold Dispatcher.switch
          rw [queue]
          exact if_pos again
        rw [same]
        refine iff_of_true (fun u ready => ?_) (Or.inr fun u running _ => ?_)
        · rcases complete u ready with running | waits
          · exact Or.inl running
          · rw [queue] at waits
            exact (List.mem_cons.mp waits).imp (fun isFirst => by rw [isFirst]; exact again) id
        · rw [again] at running
          rw [queue, Option.some.inj running]
          exact List.mem_cons_self
      · rw [switch_of_cons queue again]
        constructor
        · intro switched
          by_cases isKept : kept = true
          · exact Or.inl isKept
          · refine Or.inr fun u running ready => ?_
            rw [queue]
            rcases switched u ready with isFirst | waits
            · exact absurd (running.trans isFirst.symm) again
            · exact List.mem_cons_of_mem t ((mem_clear_queue.mp waits).resolve_right fun ⟨yes, _⟩ => isKept yes)
        · intro spares u ready
          have waiting : u ∈ d.queue → some t = some u ∨ u ∈ rest := fun waits => by
            rw [queue] at waits
            exact (List.mem_cons.mp waits).imp (fun isFirst => by rw [isFirst]) id
          have placed : (some t = some u ∨ u ∈ rest) ∨ kept = true ∧ d.current = some u ∧ d.ready u = true := by
            rcases complete u ready with running | waits
            · exact spares.symm.imp (fun stays => waiting (stays u running ready)) fun yes => ⟨yes, running, ready⟩
            · exact Or.inl (waiting waits)
          exact (or_assoc.mp placed).imp id mem_clear_queue.mpr
/-! ## Rounds -/

/-- Who runs and who waits, in the order of their turns. -/
def line (d : Dispatcher α) : List α := d.current.toList ++ d.queue

/-- A switch that keeps what ran turns the line by one place. -/
theorem Exclusive.switch_line (exclusive : d.Exclusive) (running : d.current = some t) (waiting : d.queue ≠ []) :
    (d.switch true).line = d.line.rotate 1 := by
  obtain ⟨first, rest, queue⟩ := List.exists_cons_of_ne_nil waiting
  rw [exclusive.switch_of_cons queue]
  simp [line, running, queue, List.rotate_cons_succ]

theorem Exclusive.switch_line_length_le (exclusive : d.Exclusive) : (d.switch kept).line.length ≤ d.line.length := by
  cases queue : d.queue with
  | nil =>
      have cleared := exclusive.clear_queue kept
      rw [switch_of_empty queue]
      unfold line
      rw [cleared, queue]
      cases kept <;> simp [Dispatcher.clear]
  | cons first rest =>
      rw [exclusive.switch_of_cons queue]
      cases kept with
      | false => simp [line, queue]
      | true =>
          simp [line, queue]
          omega

/-- A switch that loses what ran shortens the line. -/
theorem Exclusive.switch_line_length_lt (exclusive : d.Exclusive) (running : d.current = some t) :
    (d.switch false).line.length < d.line.length := by
  cases queue : d.queue with
  | nil =>
      have cleared := exclusive.clear_queue false
      rw [switch_of_empty queue]
      unfold line
      rw [cleared, queue, running]
      simp [Dispatcher.clear]
  | cons first rest =>
      rw [exclusive.switch_of_cons queue]
      simp [line, queue, running]

/-! ## Waiting -/

/-- The element waits, with at most so many before it. -/
def Waits (ahead : Nat) (t : α) (d : Dispatcher α) : Prop :=
  ∃ before after, d.queue = before ++ t :: after ∧ before.length ≤ ahead

theorem Waits.enroll {ahead : Nat} {u : α} (waits : d.Waits ahead t) : (d.enroll kept u).Waits ahead t := by
  obtain ⟨before, after, queue, short⟩ := waits
  cases kept with
  | false => exact ⟨before, after, queue, short⟩
  | true => exact ⟨before, after ++ [u], by simp [Dispatcher.enroll, queue], short⟩

theorem Waits.withdraw {ahead : Nat} {u : α} (waits : d.Waits ahead t) (other : u ≠ t) :
    (d.withdraw u).Waits ahead t := by
  obtain ⟨before, after, queue, short⟩ := waits
  by_cases member : u ∈ before
  · refine ⟨before.erase u, after, ?_, List.length_erase_le.trans short⟩
    rw [← List.erase_append_left _ member, ← queue]
    rfl
  · refine ⟨before, after.erase u, ?_, short⟩
    rw [← List.erase_cons_tail (by simpa using other.symm), ← List.erase_append_right _ member, ← queue]
    rfl

/-- A switch serves the first, and everybody else moves up. -/
theorem Exclusive.switch_waits (exclusive : d.Exclusive) (kept : Bool) {ahead : Nat} (waits : d.Waits ahead t) :
    (d.switch kept).current = some t ∨ ∃ left, ahead = left + 1 ∧ (d.switch kept).Waits left t := by
  obtain ⟨before, after, queue, short⟩ := waits
  cases before with
  | nil =>
      rw [exclusive.switch_of_cons queue]
      exact Or.inl rfl
  | cons first rest =>
      rw [List.length_cons] at short
      rw [exclusive.switch_of_cons queue]
      refine Or.inr ⟨ahead - 1, by omega, rest, if kept then after ++ d.current.toList else after, ?_, by omega⟩
      cases kept <;> simp

end Dispatcher

/-! ## The roster -/

/-- Who has been enlisted and not dismissed, and who of them was not kept when it had to be queued. -/
structure Roster (α : Type) where
  alive : List α
  lost : List α

namespace Roster

variable {α : Type} [DecidableEq α] {r : Roster α} {d : Dispatcher α} {kept : Bool} {t : α}

def empty : Roster α := ⟨[], []⟩

def enlist (kept : Bool) (t : α) (r : Roster α) : Roster α where
  alive := t :: r.alive
  lost := if kept then r.lost else t :: r.lost

def dismiss (t : α) (r : Roster α) : Roster α where
  alive := r.alive.filter (· ≠ t)
  lost := r.lost.filter (· ≠ t)

/-- What ran is taken off the processor. -/
def preempt (kept : Bool) (current : Option α) (r : Roster α) : Roster α where
  alive := r.alive
  lost := if kept then r.lost else current.toList ++ r.lost

omit [DecidableEq α] in
theorem preempt_none : r.preempt kept none = r := by
  cases kept <;> rfl

/-- The ready elements are those on the roster, and the lost ones are those in no place. -/
structure Records (r : Roster α) (d : Dispatcher α) : Prop extends d.Exclusive where
  listed : ∀ t, d.ready t = true ↔ t ∈ r.alive
  lost : ∀ t, t ∈ r.lost ↔ t ∈ r.alive ∧ ¬ d.Placed t

namespace Records

theorem enlist (records : r.Records d) (new : d.ready t = false) : (r.enlist kept t).Records (d.enroll kept t) where
  toExclusive := records.toExclusive.enroll new
  listed := by
    intro u
    by_cases isNew : u = t
    · simp [isNew, Roster.enlist, Dispatcher.enroll_ready_self]
    · simp [isNew, Roster.enlist, Dispatcher.enroll_ready_of_ne isNew, records.listed u]
  lost := by
    have absent : ¬ d.Placed t := fun placed => by
      rw [records.ready t placed] at new
      cases new
    have unlisted : t ∉ r.alive := fun listed => by
      rw [(records.listed t).mpr listed] at new
      cases new
    intro u
    have before := records.lost u
    unfold Dispatcher.Placed at absent before ⊢
    by_cases isNew : u = t
    · subst isNew
      cases kept with
      | false =>
          simp [Roster.enlist, Dispatcher.enroll]
          tauto
      | true => simp [Roster.enlist, Dispatcher.enroll, before, unlisted]
    · cases kept <;> simp [Roster.enlist, Dispatcher.enroll, before, isNew]

theorem dismiss (records : r.Records d) : (r.dismiss t).Records (d.withdraw t) where
  toExclusive := records.toExclusive.withdraw
  listed := by
    intro u
    by_cases isGone : u = t
    · simp [isGone, Roster.dismiss, Dispatcher.withdraw_ready_self]
    · simp [isGone, Roster.dismiss, Dispatcher.withdraw_ready_of_ne isGone, records.listed u]
  lost := by
    intro u
    rw [records.toExclusive.withdraw_placed]
    simp only [Roster.dismiss, List.mem_filter, decide_eq_true_eq, records.lost u]
    tauto

theorem preempt (records : r.Records d) : (r.preempt kept d.current).Records (d.switch kept) where
  toExclusive := records.toExclusive.switch
  listed := fun t => by
    rw [Dispatcher.switch_ready]
    exact records.listed t
  lost := by
    intro u
    have listed : d.current = some u → u ∈ r.alive := fun runs =>
      (records.listed u).mp (records.ready u (Or.inl runs))
    have placed : d.current = some u → d.Placed u := Or.inl
    rw [records.toExclusive.switch_placed_iff]
    cases kept with
    | false =>
        simp [Roster.preempt, records.lost u]
        tauto
    | true => simp [Roster.preempt, records.lost u]

theorem switch_of_idle (records : r.Records d) (idle : d.current = none) : r.Records (d.switch kept) := by
  have switched := @preempt _ _ _ _ kept records
  rw [idle, preempt_none] at switched
  exact switched

omit [DecidableEq α] in
/-- Somebody waits exactly if somebody is alive who neither runs nor was lost. -/
theorem waiting_iff (records : r.Records d) :
    d.queue ≠ [] ↔ ∃ t ∈ r.alive, d.current ≠ some t ∧ t ∉ r.lost := by
  constructor
  · intro waiting
    obtain ⟨t, rest, queue⟩ := List.exists_cons_of_ne_nil waiting
    have waits : t ∈ d.queue := by
      rw [queue]
      exact List.mem_cons_self
    refine ⟨t, (records.listed t).mp (records.ready t (Or.inr waits)), records.apart t waits, fun lost => ?_⟩
    exact ((records.lost t).mp lost).2 (Or.inr waits)
  · rintro ⟨t, alive, other, kept⟩ empty
    refine kept ((records.lost t).mpr ⟨alive, ?_⟩)
    rintro (runs | waits)
    · exact other runs
    · rw [empty] at waits
      cases waits

end Records
end Roster
end BubackOS.Library

import Mathlib.Algebra.BigOperators.Group.List.Basic
import Mathlib.Algebra.GroupWithZero.Nat
import Mathlib.Data.List.Basic

/-!
# Reported repetitions

Items come one at a time.  An item that is taken for the one put out last is held back and
counted, up to a limit; the next item that is put out is preceded by the count.  An item
need not be taken for its equals only, so the output may stand for other items than came.
-/

namespace BubackOS.Library

/-- What is put out: an item, or how often the last item came again. -/
inductive Notice (α : Type) where
  | item (a : α)
  | again (count : Nat)

/-- An item that comes, and the items it is taken for. -/
structure Arrival (α : Type) where
  item : α
  same : α → Bool

/-- The item remembered for comparison, how often it came, and the output. -/
structure Repetitions (α : Type) where
  remembered : α
  count : Nat
  out : List (Notice α)

namespace Repetitions

variable {α : Type} (limit : Nat)

/-- The arrival is held back. -/
def holds (arrival : Arrival α) (r : Repetitions α) : Bool := arrival.same r.remembered && decide (r.count < limit)

def feed (arrival : Arrival α) (r : Repetitions α) : Repetitions α :=
  if r.holds limit arrival then { r with count := r.count + 1 }
  else
    { remembered := arrival.item
      count := 1
      out := r.out ++ (if 1 < r.count then [.again (r.count - 1)] else []) ++ [.item arrival.item] }

def feedAll : List (Arrival α) → Repetitions α → Repetitions α
  | [], r => r
  | arrival :: rest, r => feedAll rest (r.feed limit arrival)

/-- Nothing came yet. -/
def start (blank : α) : Repetitions α where
  remembered := blank
  count := 0
  out := []

theorem feedAll_append (first second : List (Arrival α)) (r : Repetitions α) :
    feedAll limit (first ++ second) r = feedAll limit second (feedAll limit first r) := by
  induction first generalizing r with
  | nil => rfl
  | cons arrival rest ih => exact ih (r.feed limit arrival)

/-! ## What the output stands for -/

/-- So many copies of the last item, if there is one. -/
def copies (last : Option α) (count : Nat) : List α := last.elim [] (List.replicate count)

theorem copies_zero (last : Option α) : copies last 0 = [] := by
  cases last <;> rfl

theorem copies_succ (last : Option α) (count : Nat) : copies last (count + 1) = copies last count ++ last.toList := by
  cases last with
  | none => rfl
  | some a => exact List.replicate_succ'

theorem mem_copies {last : Option α} {count : Nat} {a : α} (member : a ∈ copies last count) : a ∈ last := by
  cases last with
  | none => cases member
  | some b => exact congrArg some (List.eq_of_mem_replicate member).symm

/-- Read one notice: the items so far, and the last one put out. -/
def read (before : List α × Option α) : Notice α → List α × Option α
  | .item a => (before.1 ++ [a], some a)
  | .again count => (before.1 ++ copies before.2 count, before.2)

/-- Every report is replaced by copies of the item before it. -/
def decode (out : List (Notice α)) : List α × Option α := out.foldl read ([], none)

/-- The items the output stands for, with those still held back. -/
def decoded (r : Repetitions α) : List α := (decode r.out).1 ++ copies (decode r.out).2 (r.count - 1)

/-- Something was put out once something came, except for items taken for `blank`; the item put out last is
remembered. -/
structure Sound (blank : α) (r : Repetitions α) : Prop where
  idle : r.count = 0 → r.out = []
  last : (decode r.out).2 = some r.remembered ∨ r.out = [] ∧ r.remembered = blank

theorem Sound.start (blank : α) : Sound blank (start blank) := ⟨fun _ => rfl, Or.inr ⟨rfl, rfl⟩⟩

variable {limit} {blank : α} {arrival : Arrival α} {r : Repetitions α}

theorem feed_of_holds (held : r.holds limit arrival = true) :
    r.feed limit arrival = { r with count := r.count + 1 } := if_pos held

theorem feed_of_not (shown : r.holds limit arrival = false) : r.feed limit arrival =
    { remembered := arrival.item
      count := 1
      out := r.out ++ (if 1 < r.count then [.again (r.count - 1)] else []) ++ [.item arrival.item] } :=
  if_neg (by rw [shown]; exact Bool.false_ne_true)

/-- The output with the report and the next item. -/
theorem decode_shown (a : α) (r : Repetitions α) :
    decode (r.out ++ (if 1 < r.count then [.again (r.count - 1)] else []) ++ [.item a]) = (r.decoded ++ [a], some a) := by
  unfold decoded decode
  rw [List.foldl_append, List.foldl_append]
  split
  · rfl
  · rw [show r.count - 1 = 0 by omega, copies_zero, List.append_nil]
    rfl

theorem Sound.feed (sound : Sound blank r) : Sound blank (r.feed limit arrival) := by
  cases held : r.holds limit arrival with
  | true =>
      rw [feed_of_holds held]
      exact ⟨fun none => absurd none (Nat.succ_ne_zero _), sound.last⟩
  | false =>
      rw [feed_of_not held]
      exact ⟨fun none => absurd none Nat.one_ne_zero, Or.inl (congrArg Prod.snd (decode_shown arrival.item r))⟩

theorem Sound.feedAll (sound : Sound blank r) (arrivals : List (Arrival α)) :
    Sound blank (feedAll limit arrivals r) := by
  induction arrivals generalizing r with
  | nil => exact sound
  | cons arrival rest ih => exact ih sound.feed

/-- What an arrival adds to the decoded output. -/
def told (limit : Nat) (arrival : Arrival α) (r : Repetitions α) : List α :=
  if r.holds limit arrival then (decode r.out).2.toList else [arrival.item]

theorem decoded_feed (sound : Sound blank r) :
    (r.feed limit arrival).decoded = r.decoded ++ told limit arrival r := by
  unfold told
  cases held : r.holds limit arrival with
  | false =>
      rw [feed_of_not held]
      unfold decoded
      rw [decode_shown, if_neg Bool.false_ne_true]
      exact List.append_nil _
  | true =>
      rw [feed_of_holds held, if_pos rfl]
      unfold decoded
      dsimp only
      by_cases idle : r.count = 0
      · rw [sound.idle idle, idle]
        rfl
      · rw [List.append_assoc, ← copies_succ, show r.count + 1 - 1 = r.count - 1 + 1 by omega]

/-- Whenever an item is held back, it is the one put out last. -/
def Faithful (limit : Nat) : List (Arrival α) → Repetitions α → Prop
  | [], _ => True
  | arrival :: rest, r =>
      (r.holds limit arrival = true → (decode r.out).2 = some arrival.item) ∧ Faithful limit rest (r.feed limit arrival)

theorem faithful_append (first second : List (Arrival α)) (r : Repetitions α) :
    Faithful limit (first ++ second) r ↔ Faithful limit first r ∧ Faithful limit second (feedAll limit first r) := by
  induction first generalizing r with
  | nil => exact ⟨fun faithful => ⟨trivial, faithful⟩, fun both => both.2⟩
  | cons arrival rest ih =>
      rw [List.cons_append, Faithful, Faithful, ih (r.feed limit arrival), and_assoc]
      rfl

/-- The output tells at most as many items as came. -/
theorem decoded_feedAll (limit : Nat) (arrivals : List (Arrival α)) : ∀ {r : Repetitions α}, Sound blank r →
    ∃ items, (feedAll limit arrivals r).decoded = r.decoded ++ items ∧ items.length ≤ arrivals.length ∧
      (items = arrivals.map Arrival.item ↔ Faithful limit arrivals r) := by
  induction arrivals with
  | nil => exact fun {r} _ => ⟨[], (List.append_nil _).symm, Nat.le_refl _, by simp [Faithful]⟩
  | cons arrival rest ih =>
      intro r sound
      obtain ⟨items, isDecoded, short, faithful⟩ := ih (sound.feed : Sound blank (r.feed limit arrival))
      refine ⟨told limit arrival r ++ items, ?_, ?_, ?_⟩
      · rw [feedAll, isDecoded, decoded_feed sound, List.append_assoc]
      · have one : (told limit arrival r).length ≤ 1 := by
          unfold told
          split
          · cases (decode r.out).2 <;> simp
          · exact Nat.le_refl 1
        rw [List.length_append, List.length_cons]
        omega
      · rw [Faithful, List.map_cons, ← faithful]
        unfold told
        split
        · rename_i held
          cases isLast : (decode r.out).2 with
          | none =>
              -- One item too few was told, whatever comes later.
              refine ⟨fun same => ?_, fun both => ?_⟩
              · have lengths := congrArg List.length same
                rw [Option.toList_none, List.nil_append, List.length_cons, List.length_map] at lengths
                omega
              · exact absurd (both.1 held) (by simp)
          | some a => simp [held]
        · rename_i shown
          simp [shown]

/-- The decoded output is what came, from the start on, exactly if every item held back was the last one. -/
theorem decoded_eq_iff (blank : α) (arrivals : List (Arrival α)) :
    (feedAll limit arrivals (start blank)).decoded = arrivals.map Arrival.item ↔ Faithful limit arrivals (start blank) := by
  obtain ⟨items, isDecoded, -, faithful⟩ := decoded_feedAll limit arrivals (Sound.start blank)
  rw [isDecoded, ← faithful]
  rfl

/-- The decoded output is made of items put out. -/
theorem mem_decode (out : List (Notice α)) :
    (∀ a ∈ (decode out).1, .item a ∈ out) ∧ ∀ a ∈ (decode out).2, .item a ∈ out := by
  have step : ∀ (rest : List (Notice α)) (before : List α × Option α),
      (∀ a ∈ before.1, .item a ∈ out) → (∀ a ∈ before.2, .item a ∈ out) → (∀ notice ∈ rest, notice ∈ out) →
      (∀ a ∈ (rest.foldl read before).1, .item a ∈ out) ∧ ∀ a ∈ (rest.foldl read before).2, .item a ∈ out := by
    intro rest
    induction rest with
    | nil => exact fun before items last _ => ⟨items, last⟩
    | cons notice rest ih =>
        intro before items last inside
        have later := fun other member => inside other (List.mem_cons_of_mem notice member)
        cases notice with
        | item a =>
            have here := inside (.item a) List.mem_cons_self
            refine ih _ (fun b member => ?_) (fun b isLast => ?_) later
            · rcases List.mem_append.mp member with earlier | new
              · exact items b earlier
              · rw [List.mem_singleton.mp new]
                exact here
            · rw [← Option.some.inj isLast]
              exact here
        | again count =>
            refine ih _ (fun b member => ?_) last later
            rcases List.mem_append.mp member with earlier | copied
            · exact items b earlier
            · exact last b (mem_copies copied)
  exact step out ([], none) (fun a none => absurd none List.not_mem_nil) (fun a none => by cases none) fun _ => id

/-- Every item put out came. -/
theorem mem_out (arrivals : List (Arrival α)) : ∀ {r : Repetitions α} {a : α},
    .item a ∈ (feedAll limit arrivals r).out → .item a ∈ r.out ∨ a ∈ arrivals.map Arrival.item := by
  induction arrivals with
  | nil => exact fun member => Or.inl member
  | cons arrival rest ih =>
      intro r a member
      rcases ih member with earlier | later
      · cases held : r.holds limit arrival with
        | true =>
            rw [feed_of_holds held] at earlier
            exact Or.inl earlier
        | false =>
            rw [feed_of_not held] at earlier
            dsimp only at earlier
            rcases List.mem_append.mp earlier with before | new
            · rcases List.mem_append.mp before with old | report
              · exact Or.inl old
              · split at report
                · cases List.mem_singleton.mp report
                · cases report
            · cases List.mem_singleton.mp new
              exact Or.inr List.mem_cons_self
      · exact Or.inr (List.mem_cons_of_mem _ later)

/-- No more repetitions are reported than are held back. -/
theorem again_lt (positive : 0 < limit) (arrivals : List (Arrival α)) : ∀ {r : Repetitions α}, r.count ≤ limit →
    (∀ count, .again count ∈ r.out → count < limit) →
    ∀ count, .again count ∈ (feedAll limit arrivals r).out → count < limit := by
  induction arrivals with
  | nil => exact fun _ below => below
  | cons arrival rest ih =>
      intro r bound below
      rw [feedAll]
      cases held : r.holds limit arrival with
      | true =>
          have room : r.count < limit := of_decide_eq_true (Bool.and_eq_true_iff.mp held).2
          rw [feed_of_holds held]
          exact ih room below
      | false =>
          rw [feed_of_not held]
          refine ih positive fun count member => ?_
          rcases List.mem_append.mp member with before | new
          · rcases List.mem_append.mp before with old | report
            · exact below count old
            · split at report
              · cases List.mem_singleton.mp report
                omega
              · cases report
          · cases List.mem_singleton.mp new

/-! ## Counting -/

/-- The items put out. -/
def written (out : List (Notice α)) : Nat := out.countP fun
  | .item _ => true
  | .again _ => false

/-- The repetitions reported. -/
def reported (out : List (Notice α)) : Nat := (out.map fun
  | .item _ => 0
  | .again count => count).sum

theorem written_append (first second : List (Notice α)) : written (first ++ second) = written first + written second :=
  List.countP_append

theorem reported_append (first second : List (Notice α)) :
    reported (first ++ second) = reported first + reported second := by
  unfold reported
  rw [List.map_append, List.sum_append]

/-- A report stands right before an item. -/
def Announced (out : List (Notice α)) : Prop :=
  ∀ before count after, out = before ++ .again count :: after → ∃ a rest, after = .item a :: rest

theorem Announced.append {first second : List (Notice α)} (announced : Announced first)
    (announced' : Announced second) : Announced (first ++ second) := by
  intro before count after split
  rcases List.append_eq_append_iff.mp split with ⟨middle, -, isSecond⟩ | ⟨middle, isFirst, rest⟩
  · exact announced' middle count after isSecond
  · cases middle with
    | nil => exact announced' [] count after rest.symm
    | cons notice middle =>
        obtain ⟨rfl, rfl⟩ := List.cons_eq_cons.mp rest
        obtain ⟨a, others, rfl⟩ := announced before count middle isFirst
        exact ⟨a, others ++ second, rfl⟩

theorem announced_shown (a : α) (count : Nat) :
    Announced ((if 1 < count then [.again (count - 1)] else []) ++ [Notice.item a]) := by
  intro before count' after shown
  split_ifs at shown
  · rcases before with _ | ⟨first, _ | ⟨second, before⟩⟩
    · obtain ⟨-, rfl⟩ := List.cons_eq_cons.mp shown
      exact ⟨a, [], rfl⟩
    · cases shown
    · simp at shown
  · rcases before with _ | ⟨first, before⟩
    · cases shown
    · simp at shown

/-- What holds of the counts as long as no arrival is taken for `blank`: every arrival was put out, reported or
is pending. -/
structure Counted (blank : α) (limit arrived : Nat) (r : Repetitions α) : Prop where
  sound : Sound blank r
  begun : r.out = [] → r.count = 0
  total : written r.out + reported r.out + (r.count - 1) = arrived
  bound : r.count ≤ limit
  announced : Announced r.out

theorem Counted.start (blank : α) (limit : Nat) : Counted blank limit 0 (start blank) where
  sound := .start blank
  begun _ := rfl
  total := rfl
  bound := Nat.zero_le limit
  announced before count after empty := by simp [Repetitions.start] at empty

/-- The first arrival is put out. -/
theorem Counted.positive {arrived : Nat} (counted : Counted blank limit arrived r) (distinct : arrival.same blank = false)
    (held : r.holds limit arrival = true) : 0 < r.count := by
  by_contra idle
  rcases counted.sound.last with last | ⟨-, isBlank⟩
  · rw [counted.sound.idle (by omega)] at last
    cases last
  · rw [holds, isBlank, distinct] at held
    cases held

theorem Counted.feed {arrived : Nat} (positive : 0 < limit) (counted : Counted blank limit arrived r)
    (distinct : arrival.same blank = false) : Counted blank limit (arrived + 1) (r.feed limit arrival) := by
  have total := counted.total
  cases held : r.holds limit arrival with
  | true =>
      have some := counted.positive distinct held
      have room : r.count < limit := of_decide_eq_true (Bool.and_eq_true_iff.mp held).2
      have sound : Sound blank (r.feed limit arrival) := counted.sound.feed
      rw [feed_of_holds held] at sound ⊢
      refine ⟨sound, fun empty => ?_, ?_, room, counted.announced⟩
      · exact absurd (counted.begun empty) (Nat.ne_of_gt some)
      · dsimp only
        omega
  | false =>
      have sound : Sound blank (r.feed limit arrival) := counted.sound.feed
      rw [feed_of_not held] at sound ⊢
      refine ⟨sound, fun empty => ?_, ?_, positive, ?_⟩
      · simp at empty
      · dsimp only
        rw [written_append, written_append, reported_append, reported_append]
        split
        · simp [written, reported] at total ⊢
          omega
        · simp [written, reported] at total ⊢
          omega
      · dsimp only
        rw [List.append_assoc]
        exact counted.announced.append (announced_shown arrival.item r.count)

theorem Counted.feedAll (positive : 0 < limit) (arrivals : List (Arrival α)) :
    ∀ {arrived : Nat} {r : Repetitions α}, Counted blank limit arrived r →
      (∀ arrival ∈ arrivals, arrival.same blank = false) →
      Counted blank limit (arrived + arrivals.length) (feedAll limit arrivals r) := by
  induction arrivals with
  | nil => exact fun counted _ => counted
  | cons arrival rest ih =>
      intro arrived r counted distinct
      have next := ih (counted.feed positive (distinct arrival List.mem_cons_self))
        fun other member => distinct other (List.mem_cons_of_mem arrival member)
      rwa [Nat.add_assoc, Nat.add_comm 1] at next

theorem length_le_feed (arrival : Arrival α) (r : Repetitions α) : r.out.length ≤ (r.feed limit arrival).out.length := by
  unfold feed
  split
  · exact Nat.le_refl _
  · simp only [List.length_append]
    omega

theorem length_le_feedAll (arrivals : List (Arrival α)) (r : Repetitions α) :
    r.out.length ≤ (feedAll limit arrivals r).out.length := by
  induction arrivals generalizing r with
  | nil => exact Nat.le_refl _
  | cons arrival rest ih => exact Nat.le_trans (length_le_feed arrival r) (ih (r.feed limit arrival))

/-- Where nothing is put out, the first arrival is held back. -/
theorem holds_of_silent {rest : List (Arrival α)}
    (silent : (feedAll limit (arrival :: rest) r).out.length = r.out.length) :
    r.holds limit arrival = true ∧
      (feedAll limit rest (r.feed limit arrival)).out.length = (r.feed limit arrival).out.length := by
  have first : r.out.length ≤ (r.feed limit arrival).out.length := length_le_feed arrival r
  have later : _ ≤ (feedAll limit rest (r.feed limit arrival)).out.length := length_le_feedAll rest (r.feed limit arrival)
  rw [feedAll] at silent
  cases held : r.holds limit arrival with
  | true => exact ⟨rfl, by omega⟩
  | false =>
      rw [feed_of_not held] at first later silent
      simp only [List.length_append, List.length_singleton] at later
      omega

/-- While nothing is put out, every arrival is counted. -/
theorem count_of_silent (arrivals : List (Arrival α)) : ∀ {r : Repetitions α},
    (feedAll limit arrivals r).out.length = r.out.length →
      (feedAll limit arrivals r).count = r.count + arrivals.length := by
  induction arrivals with
  | nil => exact fun _ => rfl
  | cons arrival rest ih =>
      intro r silent
      obtain ⟨held, later⟩ := holds_of_silent silent
      rw [feedAll, ih later, feed_of_holds held, List.length_cons]
      dsimp only
      omega

/-- As long as no arrival is taken for `blank`, fewer than `limit` arrivals in a row are held back. -/
theorem Counted.silent {arrived : Nat} (positive : 0 < limit) (counted : Counted blank limit arrived r)
    (arrivals : List (Arrival α)) (distinct : ∀ arrival ∈ arrivals, arrival.same blank = false)
    (silent : (Repetitions.feedAll limit arrivals r).out.length = r.out.length) : arrivals.length < limit := by
  cases arrivals with
  | nil => exact positive
  | cons arrival rest =>
      have bound := (Counted.feedAll positive (arrival :: rest) counted distinct).bound
      have some := counted.positive (distinct arrival List.mem_cons_self) (holds_of_silent silent).1
      rw [count_of_silent _ silent] at bound
      omega

end Repetitions
end BubackOS.Library

import BubackOS.Library.ByteMemory

/-!
# The serial port

`x86_64/serial.c`.  The device is the sequence of the values it shows in the line status
register, one for each read; it may keep the transmitter busy for any number of reads.  The
port counts the reads and notes each byte with the read before it.
-/

namespace BubackOS

open Library

/-- The reads of the status register so far, and the bytes given to the device, each with the
number of the status read that let it go. -/
structure SerialPort where
  reads : Nat
  sent : List (Nat × UInt8)

/-- `is_transmit_empty`: bit 5 of the line status. -/
def isTransmitEmpty (status : UInt8) : UInt8 := status &&& 0x20

/-- `serial_write_char`; `none` when so many polls were not enough. -/
def serialWriteChar (status : Nat → UInt8) (a : UInt8) : Nat → SerialPort → Option SerialPort
  | 0, _ => none
  | polls + 1, port =>
      if isTransmitEmpty (status port.reads) = 0 then
        serialWriteChar status a polls { port with reads := port.reads + 1 }
      else some { reads := port.reads + 1, sent := port.sent ++ [(port.reads, a)] }

/-- `serial_write`, for the bytes at an address. -/
def serialWrite (status : Nat → UInt8) (polls : Nat) (m : Memory) : Nat → Nat → SerialPort → Option SerialPort
  | _, 0, port => some port
  | bytes, size + 1, port =>
      (serialWriteChar status (m bytes) polls port).bind (serialWrite status polls m (bytes + 1) size)

/-- From any moment on the transmitter is found empty within so many reads. -/
def Responsive (status : Nat → UInt8) (polls : Nat) : Prop :=
  ∀ n, ∃ i < polls, isTransmitEmpty (status (n + i)) ≠ 0

namespace SerialPort

/-- What the device was given. -/
def bytes (port : SerialPort) : List UInt8 := port.sent.map Prod.snd

/-- Every byte went out after a read of its own that found the transmitter empty. -/
structure Paced (status : Nat → UInt8) (port : SerialPort) : Prop where
  ordered : port.sent.Pairwise fun x y => x.1 < y.1
  past : ∀ x ∈ port.sent, x.1 < port.reads
  empty : ∀ x ∈ port.sent, isTransmitEmpty (status x.1) ≠ 0

variable {status : Nat → UInt8} {port : SerialPort}

theorem Paced.wait (paced : port.Paced status) : Paced status { port with reads := port.reads + 1 } :=
  { paced with past := fun x member => Nat.lt_succ_of_lt (paced.past x member) }

theorem Paced.send (paced : port.Paced status) (empty : isTransmitEmpty (status port.reads) ≠ 0) (a : UInt8) :
    Paced status { reads := port.reads + 1, sent := port.sent ++ [(port.reads, a)] } where
  ordered := by
    refine List.pairwise_append.mpr ⟨paced.ordered, List.pairwise_singleton _ _, fun x member y last => ?_⟩
    rw [List.mem_singleton.mp last]
    exact paced.past x member
  past x member := by
    rcases List.mem_append.mp member with before | last
    · exact Nat.lt_succ_of_lt (paced.past x before)
    · rw [List.mem_singleton.mp last]
      exact Nat.lt_succ_self _
  empty x member := by
    rcases List.mem_append.mp member with before | last
    · exact paced.empty x before
    · rw [List.mem_singleton.mp last]
      exact empty

end SerialPort

section Writing

variable {status : Nat → UInt8} {polls : Nat}

theorem serialWriteChar_sends (a : UInt8) : ∀ {polls : Nat} {port : SerialPort}, port.Paced status →
    (∃ i < polls, isTransmitEmpty (status (port.reads + i)) ≠ 0) →
      ∃ port' ∈ serialWriteChar status a polls port, port'.Paced status ∧ port'.bytes = port.bytes ++ [a]
  | 0, _, _, ⟨_, impossible, _⟩ => absurd impossible (Nat.not_lt_zero _)
  | polls + 1, port, paced, ⟨i, within, ready⟩ => by
      rw [serialWriteChar]
      by_cases busy : isTransmitEmpty (status port.reads) = 0
      · rw [if_pos busy]
        -- the read that finds the transmitter empty is a later one
        obtain ⟨j, rfl⟩ := Nat.exists_eq_succ_of_ne_zero (fun zero : i = 0 => ready (by rw [zero]; exact busy))
        refine serialWriteChar_sends a paced.wait ⟨j, Nat.lt_of_succ_lt_succ within, ?_⟩
        rw [Nat.add_assoc, Nat.add_comm 1]
        exact ready
      · rw [if_neg busy]
        exact ⟨_, rfl, paced.send busy a, List.map_append⟩

theorem serialWrite_sends (responsive : Responsive status polls) (text : List UInt8) :
    ∀ {m : Memory} {a : Nat} {port : SerialPort}, (∀ i c, text[i]? = some c → m (a + i) = c) → port.Paced status →
      ∃ port' ∈ serialWrite status polls m a text.length port,
        port'.Paced status ∧ port'.bytes = port.bytes ++ text := by
  induction text with
  | nil => exact fun _ paced => ⟨_, rfl, paced, (List.append_nil _).symm⟩
  | cons x text ih =>
      intro m a port stored paced
      obtain ⟨next, written, pacedNext, bytesNext⟩ := serialWriteChar_sends (m a) paced (responsive port.reads)
      obtain ⟨port', rest, paced', bytes'⟩ := ih (m := m) (a := a + 1) (fun i c found => by
        rw [Nat.add_assoc, Nat.add_comm 1]
        exact stored (i + 1) c found) pacedNext
      refine ⟨port', ?_, paced', ?_⟩
      · rw [List.length_cons, serialWrite, Option.mem_def.mp written]
        exact rest
      · have first : m a = x := stored 0 x rfl
        rw [bytes', bytesNext, first, List.append_assoc]
        rfl

end Writing

end BubackOS

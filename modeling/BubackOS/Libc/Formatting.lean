import BubackOS.Library.ByteMemory
import BubackOS.Library.Numerals
import BubackOS.Libutils.Words

/-!
# `vsnprintf`

`libc/src/formatting.c`.  Two loops share the cursor `traverse` over the format: the
inner one copies literal text, the outer one takes what stops it for a `%`.  The
indices of the format that are read and those of the buffer that are written are
noted.
-/

namespace BubackOS.Libc

open Library

/-- A character as a byte. -/
def byte (c : Char) : UInt8 := UInt8.ofNat c.toNat

/-- The bytes of a string literal, without the terminating NUL. -/
def literal (text : String) : List UInt8 := text.toList.map byte

/-- `NULL_PTR`. -/
def nullPtr : List UInt8 := literal "(null)"

/-- `representation`. -/
def representation : List UInt8 := literal "0123456789ABCDEF"

/-- The conversion of a word to an `int`. -/
def asInt (value : Nat) : Int :=
  if value % 2 ^ 32 < 2 ^ 31 then (value % 2 ^ 32 : Nat) else (value % 2 ^ 32 : Nat) - 2 ^ 32

/-- A slot of a `va_list`: a word, and the string it points to if it is a pointer to one. -/
structure VarArg where
  word : UInt64
  text : List UInt8
  terminated : 0 ∉ text

theorem nul_not_mem_nil : (0 : UInt8) ∉ ([] : List UInt8) := List.not_mem_nil

/-- What `va_arg` finds behind the last argument. -/
instance : Inhabited VarArg := ⟨{ word := 0, text := [], terminated := nul_not_mem_nil }⟩

/-- The bytes `convert` stores: the digits are produced in reverse. -/
def convert (num base size : Nat) : List UInt8 :=
  if size = 0 then []
  else ((digitLoop base 64 num).map fun digit => representation.getD digit 0).reverse.take size

/-- The variables of `vsnprintf`, with the indices read and written so far. -/
structure Printer where
  traverse : Nat
  p : Nat
  buffer : Memory
  args : List VarArg
  reads : List Nat
  writes : List Nat

namespace Printer

/-- `*traverse` is read. -/
def look (s : Printer) : Printer := { s with reads := s.traverse :: s.reads }

/-- `traverse++`. -/
def advance (s : Printer) : Printer := { s with traverse := s.traverse + 1 }

/-- `WRITE_CHAR`. -/
def writeChar (c : UInt8) (s : Printer) : Printer :=
  { s with
    buffer := fun i => if i = s.p then c else s.buffer i
    p := wrap (s.p + 1)
    writes := s.p :: s.writes }

/-- Store bytes one behind the other. -/
def writeBytes (bytes : List UInt8) (s : Printer) : Printer := bytes.foldl (fun s c => s.writeChar c) s

/-- `WRITE_SEQUENCE`: `buffer_size - p` is a difference of words. -/
def writeSequence (bufferSize : Nat) (text : List UInt8) (s : Printer) : Printer :=
  s.writeBytes (text.take (wrapSub bufferSize s.p))

/-- `WRITE_NUMBER`. -/
def writeNumber (bufferSize num base : Nat) (s : Printer) : Printer :=
  s.writeBytes (convert num base (wrapSub bufferSize s.p))

/-- `va_arg`. -/
def vaArg (s : Printer) : VarArg × Printer := (s.args.headD default, { s with args := s.args.tail })

end Printer

/-- The cases of the switch. -/
inductive Specifier where
  | char | decimal | octal | string | pointer | hexadecimal | percent | other
  deriving DecidableEq

def Specifier.ofByte (c : UInt8) : Specifier :=
  if c = byte 'c' then .char
  else if c = byte 'd' then .decimal
  else if c = byte 'o' then .octal
  else if c = byte 's' then .string
  else if c = byte 'p' then .pointer
  else if c = byte 'x' then .hexadecimal
  else if c = byte '%' then .percent
  else .other

/-- The switch on the character behind the one taken for a `%`. -/
def convertSpecifier (bufferSize : Nat) (specifier : Specifier) (s : Printer) : Printer :=
  match specifier with
  | .char => s.vaArg.2.writeChar s.vaArg.1.word.toUInt8
  | .decimal =>
      let argLong := asInt s.vaArg.1.word.toNat
      if argLong < 0 then (s.vaArg.2.writeChar (byte '-')).writeNumber bufferSize (-argLong).toNat 10
      else s.vaArg.2.writeNumber bufferSize argLong.toNat 10
  | .octal => s.vaArg.2.writeNumber bufferSize (s.vaArg.1.word.toNat % 2 ^ 32) 8
  | .string => s.vaArg.2.writeSequence bufferSize (if s.vaArg.1.word ≠ 0 then s.vaArg.1.text else nullPtr)
  | .pointer =>
      if s.vaArg.1.word ≠ 0 then
        (s.vaArg.2.writeSequence bufferSize (literal "0x")).writeNumber bufferSize s.vaArg.1.word.toNat 16
      else s.vaArg.2.writeSequence bufferSize nullPtr
  | .hexadecimal => s.vaArg.2.writeNumber bufferSize (s.vaArg.1.word.toNat % 2 ^ 32) 16
  | .percent => s.writeChar (byte '%')
  | .other => s

/-- The inner loop; it makes no more rounds than there is room. -/
def writeLiterals (format : Memory) (bufferSize : Nat) : Nat → Printer → Printer
  | 0, s => s.look
  | room + 1, s =>
      if format s.traverse ≠ byte '%' ∧ format s.traverse ≠ 0 ∧ s.p < bufferSize then
        writeLiterals format bufferSize room (s.look.writeChar (format s.traverse)).advance
      else s.look

/-- The outer loop; `none` when the rounds were not enough. -/
def formatLoop (format : Memory) (bufferSize : Nat) : Nat → Printer → Option Printer
  | 0, _ => none
  | rounds + 1, s =>
      if format s.traverse ≠ 0 ∧ s.p < bufferSize then
        let written := writeLiterals format bufferSize (bufferSize - s.p) s.look
        if format written.traverse = 0 then some written
        else
          let specified := written.advance.look
          formatLoop format bufferSize rounds
            (convertSpecifier bufferSize (.ofByte (format specified.traverse)) specified).advance
      else some s.look

/-- The last lines: a full buffer loses its last byte to the NUL. -/
def terminate (bufferSize : Nat) (s : Printer) : Printer :=
  let p := if s.p = bufferSize then wrapSub s.p 1 else s.p
  { s with
    p := p
    buffer := fun i => if i = p then 0 else s.buffer i
    writes := p :: s.writes }

/-- `vsnprintf`, with so many rounds of the outer loop. -/
def vsnprintf (rounds : Nat) (buffer : Memory) (bufferSize : Nat) (format : Memory) (args : List VarArg) :
    Option (Int × Printer) :=
  (formatLoop format bufferSize rounds
    { traverse := 0, p := 0, buffer := buffer, args := args, reads := [], writes := [] }).map fun s =>
      (asInt (terminate bufferSize s).p, terminate bufferSize s)

end BubackOS.Libc

import Mathlib.Algebra.Group.Nat.Defs
import Mathlib.Data.Nat.Basic

/-!
# Machine words and page arithmetic

`uintptr_t`, `size_t` and `unsigned long` are natural numbers below `2 ^ 64`;
every addition and subtraction of the source that can leave that range goes
through `wrap`.  The alignment macros are those of `libutils/utils.h`, the
constants those of `core/hal/platform.h` and `core/alloc.c`.
-/

namespace BubackOS

/-- Reduction to a 64-bit word. -/
def wrap (value : Nat) : Nat := value % 2 ^ 64

/-- `left - right` on 64-bit words. -/
def wrapSub (left right : Nat) : Nat := (left + (2 ^ 64 - right % 2 ^ 64)) % 2 ^ 64

/-- `ALIGN(addr, a)`: masking the low bits of a power of two rounds down. -/
def align (addr a : Nat) : Nat := addr / a * a

/-- `ALIGN_NEXT(addr, a)`: the addition wraps before the rounding. -/
def alignNext (addr a : Nat) : Nat := align (wrap (addr + a - 1)) a

/-- `SYSTEM_PAGE_SIZE`. -/
def systemPageSize : Nat := 4096

/-- `MEM_ALIGN(addr)`. -/
def memAlign (addr : Nat) : Nat := align addr systemPageSize

/-- `REGION_ADDRESS_INCREMENT`: one megabyte, whatever its comment says. -/
def regionAddressIncrement : Nat := 1 * 1024 * 1024

/-- `KERNEL_MEMORY_PAGE_RESERVE`. -/
def kernelMemoryPageReserve : Nat := 10 * systemPageSize

theorem wrap_of_lt {value : Nat} (bound : value < 2 ^ 64) : wrap value = value :=
  Nat.mod_eq_of_lt bound

theorem wrap_lt (value : Nat) : wrap value < 2 ^ 64 := by
  unfold wrap
  omega

theorem wrapSub_of_le {left right : Nat} (order : right ≤ left) (bound : left < 2 ^ 64) :
    wrapSub left right = left - right := by
  unfold wrapSub
  omega

theorem memAlign_eq_iff (addr : Nat) : memAlign addr = addr ↔ addr % 4096 = 0 := by
  unfold memAlign align systemPageSize
  omega

theorem memAlign_add_mod (addr : Nat) : memAlign addr + addr % 4096 = addr := by
  unfold memAlign align systemPageSize
  omega

/-- Rounding up without a wrap, as the number of pages that cover `size`. -/
theorem alignNext_eq {size : Nat} (bound : size + 4095 < 2 ^ 64) :
    alignNext size systemPageSize = (size + 4095) / 4096 * 4096 := by
  unfold alignNext align wrap systemPageSize
  omega

theorem alignNext_mod (size : Nat) : alignNext size systemPageSize % 4096 = 0 := by
  unfold alignNext align systemPageSize
  omega

theorem alignNext_lt (size : Nat) : alignNext size systemPageSize < 2 ^ 64 := by
  unfold alignNext align wrap systemPageSize
  omega

end BubackOS

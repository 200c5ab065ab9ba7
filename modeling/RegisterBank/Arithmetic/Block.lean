/-!
# Power-of-two blocks

Addresses are cut into blocks of `2 ^ k` bytes. `ceilLog2 n` is the least exponent whose block
holds `n` bytes; `floor` and `ceil?` round an address down and up to a block boundary; `laneBit`
is the position, in bits, of a byte inside a bus word. Addresses are 64-bit quantities, so `ceil?`
has no answer when the next boundary is not one.
-/

namespace RegisterBank.Block

/-- The least `k` with `n ≤ 2 ^ k`. -/
def ceilLog2 (n : Nat) : Nat :=
  if n ≤ 1 then 0 else Nat.log2 (n - 1) + 1

/-- The first boundary of `2 ^ k`-byte blocks at or after `n`, when it is below `2 ^ 64`. -/
def ceil? (n k : Nat) : Option Nat :=
  if k < 64 then
    let block := 1 <<< k
    let boundary := (n + (block - 1)) / block * block
    if boundary < UInt64.size then some boundary else none
  else
    none

/-- The last boundary of `2 ^ k`-byte blocks at or before `n`: the low `k` bits are dropped. -/
def floor (n k : Nat) : Nat :=
  (n >>> k) <<< k

/-- The first bit of byte address `n` inside a bus word of `bytes` bytes. -/
def laneBit (n bytes : Nat) : Nat :=
  8 * (n % bytes)

end RegisterBank.Block

import RegisterBank.Hardware.Read
import RegisterBank.Proofs.Arithmetic.Block

/-!
# What a read slot does

A slot of a fixed lane joins bits of its source to bits of the response word while the word address
selects it. Signals and constants get their values by the text they are written as, and a widened
source is a signal that has to have the value of what it widens.

Most slots carry a few bytes from their addresses into the lanes of these addresses, and are
selected by the word that holds them (`ReadSlot.Carries`). Such a slot drives a bit of the lane of a
byte address exactly if it carries that byte.
-/

namespace RegisterBank.Hardware

variable {s : ReadSlot} {values : String → Nat} {bus address count x t : Nat}

/-- Whether a word address selects a slot. -/
def Selection.Selects : Selection → Nat → Prop
  | .word address, w => w = address
  | .block start stop, w => start ≤ w ∧ w < stop
  | .stride start stop base bytes phase, w =>
    (start ≤ w ∧ w < stop) ∧ (w - base) % bytes = phase

instance (s : Selection) (w : Nat) : Decidable (s.Selects w) :=
  match s with
  | .word _ => inferInstanceAs (Decidable (_ = _))
  | .block _ _ => inferInstanceAs (Decidable (_ ∧ _))
  | .stride _ _ _ _ _ => inferInstanceAs (Decidable (_ ∧ _))

/-- Whether a lane that does not depend on the request covers a bit of the response word. -/
def Lane.Covers : Lane → (bits bit : Nat) → Prop
  | .fixed first, bits, bit => first ≤ bit ∧ bit < first + bits
  | .requested _, _, _ => False

instance (lane : Lane) (bits bit : Nat) : Decidable (lane.Covers bits bit) :=
  match lane with
  | .fixed _ => inferInstanceAs (Decidable (_ ∧ _))
  | .requested _ => inferInstanceAs (Decidable False)

/-- Whether a slot of a fixed lane adds to a bit of the response to a word address. -/
def ReadSlot.Drives (s : ReadSlot) (w bit : Nat) : Prop :=
  s.selection.Selects w ∧ s.lane.Covers s.bits bit

instance (s : ReadSlot) (w bit : Nat) : Decidable (s.Drives w bit) :=
  inferInstanceAs (Decidable (_ ∧ _))

/-- A bit of a source, which is filled up with zeros. -/
def Source.bit (values : String → Nat) : Source → Nat → Bool
  | .whole piece, i => (values piece.written).testBit i
  | .bits signal first count, i => decide (i < count) && (values signal).testBit (first + i)

/-- What a slot of a fixed lane adds to a bit of the response word. -/
def ReadSlot.bitAt (values : String → Nat) (s : ReadSlot) (bit : Nat) : Bool :=
  match s.lane with
  | .fixed first => s.source.bit values (bit - first)
  | .requested _ => false

/-- Whether a widened source has the value of its source, cut off or filled up with zeros. -/
def Extension.Assigned (values : String → Nat) (x : Extension) : Prop :=
  values x.name = values x.source.written % 2 ^ x.bits

/-- The address of the bus word that holds a byte. -/
def wordAddress (bus x : Nat) : Nat :=
  Block.floor x (Block.ceilLog2 bus)

theorem wordAddress_eq {k : Nat} (hbus : bus = 2 ^ k) (x : Nat) :
    wordAddress bus x = x / bus * bus := by
  rw [wordAddress, Block.floor_eq, hbus, Block.ceilLog2_two_pow]

theorem wordAddress_of_dvd {k : Nat} (hbus : bus = 2 ^ k) (h : bus ∣ x) :
    wordAddress bus x = x := by
  rw [wordAddress_eq hbus, Nat.div_mul_cancel h]

theorem wordAddress_le (bus x : Nat) : wordAddress bus x ≤ x :=
  Block.floor_le x _

theorem wordAddress_mono (bus : Nat) {x y : Nat} (h : x ≤ y) :
    wordAddress bus x ≤ wordAddress bus y :=
  Block.floor_mono h _

/-- A word boundary is at or before a byte exactly if it is at or before the word of the byte. -/
theorem le_wordAddress_iff {k boundary : Nat} (hbus : bus = 2 ^ k) (h : bus ∣ boundary) :
    boundary ≤ wordAddress bus x ↔ boundary ≤ x := by
  subst hbus
  rw [wordAddress, Block.ceilLog2_two_pow, Block.le_floor_iff h]

/-- The words from the one at a boundary up to another boundary hold the bytes between the two. -/
theorem mem_Ico_of_wordAddress {k stop : Nat} (hbus : bus = 2 ^ k) (haddress : bus ∣ address)
    (hstop : bus ∣ stop) (hlow : wordAddress bus address ≤ wordAddress bus x)
    (hhigh : wordAddress bus x < stop) : address ≤ x ∧ x < stop := by
  rw [wordAddress_of_dvd hbus haddress] at hlow
  refine ⟨hlow.trans (wordAddress_le bus x), ?_⟩
  rwa [← not_le, le_wordAddress_iff hbus hstop, not_le] at hhigh

/-- The slot carries so many bytes from an address into their lanes of one word. -/
structure ReadSlot.Carries (s : ReadSlot) (bus address count : Nat) : Prop where
  selection : s.selection = .word (wordAddress bus address)
  lane : s.lane = .fixed (Block.laneBit address bus)
  bits : s.bits = 8 * count
  fits : address % bus + count ≤ bus

namespace ReadSlot.Carries

theorem drives_iff {k : Nat} (h : s.Carries bus address count) (hbus : bus = 2 ^ k) (ht : t < 8) :
    s.Drives (wordAddress bus x) (Block.laneBit x bus + t) ↔
      address ≤ x ∧ x < address + count := by
  rw [Drives, h.selection, h.lane, h.bits]
  change wordAddress bus x = wordAddress bus address ∧
    (8 * (address % bus) ≤ 8 * (x % bus) + t ∧
      8 * (x % bus) + t < 8 * (address % bus) + 8 * count) ↔ _
  rw [wordAddress_eq hbus, wordAddress_eq hbus]
  have hfits := h.fits
  have hx := Nat.div_add_mod' x bus
  have haddress := Nat.div_add_mod' address bus
  constructor
  · rintro ⟨hword, hlow, hhigh⟩
    omega
  · rintro ⟨hlow, hhigh⟩
    have hdiv : x / bus = address / bus := by
      apply Nat.div_eq_of_lt_le
      · omega
      · rw [Nat.succ_mul]
        omega
    rw [hdiv] at hx ⊢
    omega

/-- A slot that carries a byte adds bits of its source to the lane of the byte, in order from the
first byte that it carries. -/
theorem bitAt_eq (h : s.Carries bus address count) (hlow : address ≤ x)
    (hhigh : x < address + count) :
    s.bitAt values (Block.laneBit x bus + t) = s.source.bit values (8 * (x - address) + t) := by
  have hfits := h.fits
  have hx : x = address / bus * bus + (address % bus + (x - address)) := by
    have hdiv := Nat.div_add_mod' address bus
    omega
  have hmod : x % bus = address % bus + (x - address) := by
    conv_lhs => rw [hx]
    rw [Nat.mul_add_mod']
    exact Nat.mod_eq_of_lt (by omega)
  rw [bitAt, h.lane]
  change s.source.bit values (8 * (x % bus) + t - 8 * (address % bus)) = _
  rw [hmod]
  congr 1
  omega

end ReadSlot.Carries

end RegisterBank.Hardware

import RegisterBank.Hardware.RegisterFile
import RegisterBank.Proofs.Expr.Token.Decimal
import RegisterBank.Proofs.Text.Family
import Mathlib.Data.List.Nodup

/-!
# The roles of an element

What the register file does for an element of a register decides which identifiers begin with the
name of the element: each role adds some endings. Two elements have an identifier in common if the
name of one is that of the other with a gap after it, and the gap lies between an ending of the one
and an ending of the other. `Role.gaps` is the table of these gaps.
-/

namespace RegisterBank.Hardware

open Text (before?)
open Text.Family (mem_gaps)

/-- What a register file does for an element. -/
inductive Role where
  /-- Its data and its decode take part in writes. -/
  | written
  /-- It has a write enable and a storage. -/
  | stored
  /-- User logic sees its storage. -/
  | shown
  /-- User logic gets the writes and answers them. -/
  | forwarded
  /-- Its value comes from user logic. -/
  | sampled
  /-- User logic gets the reads and answers them. -/
  | answered
  /-- Its decode takes part in reads that user logic answers. -/
  | strobed
  /-- It is read in one bus word. -/
  | narrow
  /-- It is read in so many bus words. -/
  | wide (words : Nat)
  deriving DecidableEq, Repr

namespace Role

/-- The endings that a role adds to the name of an element. -/
def endings : Role → List String
  | written => ["_wdata", "_addressed_w"]
  | stored => ["_wen"]
  | shown => ["_o"]
  | forwarded => ["_wdata_o", "_wen_o", "_wready_i"]
  | sampled => ["_i"]
  | answered => ["_rdata_i", "_rvalid_i", "_ren_o", "_rready_i"]
  | strobed => ["_addressed_r"]
  | narrow => ["_rsel"]
  | wide words => "_rdata_ext" :: (List.range words).map fun k => "_w" ++ toString k ++ "_rsel"

/-- What has to stand after the name of an element of the one role to make it that of an element of
the other role with a common identifier. -/
def gaps : Role → Role → List String
  | forwarded, shown => ["_wdata", "_wen"]
  | forwarded, sampled => ["_wready"]
  | answered, shown => ["_ren"]
  | answered, sampled => ["_rdata", "_rvalid", "_rready"]
  | wide words, narrow => (List.range words).map fun k => "_w" ++ toString k
  | wide _, wide _ => [""]
  | r, s => if r = s then [""] else []

/-! ## The table of gaps -/

/-- The roles in which no word is counted. -/
def plain : List Role :=
  [written, stored, shown, forwarded, sampled, answered, strobed, narrow]

theorem eq_wide_or_mem_plain (r : Role) : (∃ words, r = wide words) ∨ r ∈ plain := by
  cases r <;> simp [plain]

theorem gaps_plain : ∀ r ∈ plain, ∀ s ∈ plain,
    Text.Family.gaps r.endings s.endings ⊆ r.gaps s ∧
      r.gaps s ⊆ Text.Family.gaps r.endings s.endings := by
  decide

theorem repr_inj {i j : Nat} : i.repr = j.repr ↔ i = j :=
  (Expr.toString_inj (v := i) (w := j)).trans Nat.cast_inj

/-- The name of a word has its only underscore in front. -/
theorem eq_empty_of_word_eq {z : String} {i j : Nat}
    (h : "_w" ++ i.repr = z ++ ("_w" ++ j.repr)) : z = "" := by
  have hword : "_w".toList = ['_', 'w'] := by decide
  rw [← String.toList_inj] at h
  simp only [String.toList_append, Nat.toList_repr, hword] at h
  cases hz : z.toList with
  | nil => exact String.toList_eq_nil_iff.1 hz
  | cons c cs =>
      simp only [hz, List.cons_append, List.nil_append, List.cons.injEq] at h
      have hmem : '_' ∈ 'w' :: Nat.toDigits 10 i := by simp [h.2]
      rcases List.mem_cons.1 hmem with hw | hdigit
      · exact absurd hw (by decide)
      · exact absurd (Nat.isDigit_of_mem_toDigits (by decide) (by decide) hdigit) (by decide)

theorem mem_endings_wide {words : Nat} {d : String} :
    d ∈ (wide words).endings ↔
      d = "_rdata_ext" ∨ ∃ k < words, d = "_w" ++ k.repr ++ "_rsel" := by
  simp [endings, eq_comm]

/-- No ending of a wide read is one of a role in which no word is counted, with a gap or without,
but for the narrow read. -/
theorem wide_append_ne {r : Role} (hr : r ∈ plain) (hne : r ≠ narrow) {words : Nat} {d e : String}
    (hd : d ∈ (wide words).endings) (he : e ∈ r.endings) (y z : String) : y ++ d ≠ z ++ e := by
  have htails : ∀ r ∈ plain, r ≠ narrow → ∀ e ∈ r.endings, ∀ t ∈ ["_rdata_ext", "_rsel"],
      before? e t = none ∧ before? t e = none := by decide
  rcases mem_endings_wide.1 hd with rfl | ⟨k, -, rfl⟩
  · obtain ⟨h, h'⟩ := htails r hr hne e he "_rdata_ext" (by simp)
    exact Text.append_ne_append h h'
  · obtain ⟨h, h'⟩ := htails r hr hne e he "_rsel" (by simp)
    rw [← String.append_assoc]
    exact Text.append_ne_append h h'

theorem mem_gaps_wide_narrow {words : Nat} {z : String} :
    z ∈ Text.Family.gaps (wide words).endings narrow.endings ↔ z ∈ (wide words).gaps narrow := by
  have hextension : "_rdata_ext" ≠ z ++ "_rsel" := Text.ne_append_of_before? (by decide)
  simp [mem_gaps, endings, gaps, hextension, eq_comm]

/-- Two wide reads have no gap: the words are numbered with digits only. -/
theorem mem_gaps_wide_wide {words words' : Nat} {z : String} :
    z ∈ Text.Family.gaps (wide words).endings (wide words').endings ↔ z = "" := by
  simp only [mem_gaps, mem_endings_wide]
  constructor
  · rintro ⟨d, hd, e, he, h⟩
    rcases hd with rfl | ⟨i, -, rfl⟩ <;> rcases he with rfl | ⟨j, -, rfl⟩
    · exact Text.self_eq_prepend.1 h
    · rw [← String.append_assoc] at h
      exact absurd h (Text.ne_append_of_before? (by decide))
    · exact absurd h (Text.append_ne_append (by decide) (by decide))
    · rw [← String.append_assoc, String.append_left_inj] at h
      exact eq_empty_of_word_eq h
  · rintro rfl
    exact ⟨"_rdata_ext", .inl rfl, "_rdata_ext", .inl rfl, rfl⟩

theorem mem_gaps_narrow_wide {words : Nat} {z : String} :
    z ∉ Text.Family.gaps narrow.endings (wide words).endings := by
  rw [mem_gaps]
  rintro ⟨d, hd, e, he, h⟩
  obtain rfl : d = "_rsel" := List.mem_singleton.1 hd
  rcases mem_endings_wide.1 he with rfl | ⟨k, -, rfl⟩
  · exact Text.ne_append_of_before? (by decide) h
  · rw [← String.append_assoc, Text.self_eq_prepend] at h
    simp at h

/-- The table is complete. -/
theorem mem_gaps_endings {r s : Role} {z : String} :
    z ∈ Text.Family.gaps r.endings s.endings ↔ z ∈ r.gaps s := by
  rcases eq_wide_or_mem_plain r with ⟨words, rfl⟩ | hr <;>
    rcases eq_wide_or_mem_plain s with ⟨words', rfl⟩ | hs
  · rw [mem_gaps_wide_wide]
    simp [gaps]
  · by_cases hne : s = narrow
    · rw [hne, mem_gaps_wide_narrow]
    · have hgaps : (wide words).gaps s = [] := by cases s <;> simp_all [gaps, plain]
      rw [hgaps, mem_gaps]
      refine iff_of_false ?_ List.not_mem_nil
      rintro ⟨d, hd, e, he, h⟩
      exact wide_append_ne hs hne hd he "" z (by rwa [String.empty_append])
  · have hgaps : r.gaps (wide words') = [] := by cases r <;> simp_all [gaps, plain]
    rw [hgaps]
    refine iff_of_false ?_ List.not_mem_nil
    by_cases hne : r = narrow
    · rw [hne]
      exact mem_gaps_narrow_wide
    · rw [mem_gaps]
      rintro ⟨d, hd, e, he, h⟩
      exact wide_append_ne hr hne he hd z "" (by rw [String.empty_append, h])
  · exact ⟨fun h => (gaps_plain r hr s hs).1 h, fun h => (gaps_plain r hr s hs).2 h⟩

theorem nodup_endings (r : Role) : r.endings.Nodup := by
  have hplain : ∀ r ∈ plain, r.endings.Nodup := by decide
  rcases eq_wide_or_mem_plain r with ⟨words, rfl⟩ | hr
  · have hextension (k : Nat) : "_w" ++ k.repr ++ "_rsel" ≠ "_rdata_ext" :=
      (Text.ne_append_of_before? (by decide)).symm
    have hinj : Function.Injective fun k : Nat => "_w" ++ toString k ++ "_rsel" := by
      intro i j h
      simpa [String.append_left_inj, String.append_right_inj, repr_inj] using h
    simpa [endings, hextension] using List.nodup_range.map hinj
  · exact hplain r hr

theorem mem_gaps_flatMap {rs ss : List Role} {z : String} :
    z ∈ Text.Family.gaps (rs.flatMap endings) (ss.flatMap endings) ↔
      ∃ r ∈ rs, ∃ s ∈ ss, z ∈ r.gaps s := by
  simp only [← mem_gaps_endings, mem_gaps, List.mem_flatMap]
  constructor
  · rintro ⟨d, ⟨r, hr, hd⟩, e, ⟨s, hs, he⟩, h⟩
    exact ⟨r, hr, s, hs, d, hd, e, he, h⟩
  · rintro ⟨r, hr, s, hs, d, hd, e, he, h⟩
    exact ⟨d, ⟨r, hr, hd⟩, e, ⟨s, hs, he⟩, h⟩

/-- Roles between which there are only proper gaps have different endings. -/
theorem nodup_flatMap_endings {rs : List Role} (h : rs.Pairwise fun r s => "" ∉ r.gaps s) :
    (rs.flatMap endings).Nodup := by
  rw [List.nodup_flatMap]
  refine ⟨fun r _ => nodup_endings r, h.imp ?_⟩
  intro r s hgap d hr hs
  exact hgap (mem_gaps_endings.1 (mem_gaps.2 ⟨d, hr, d, hs, String.empty_append.symm⟩))

end Role

/-! ## The identifiers of the bus -/

/-- The signals at the boundary that every register file of the interface has. -/
def busSignals (interface : Interface) : List Verilog.Signal :=
  (busPorts interface).flatMap (·.signals)

/-- The identifiers that every register file of the interface has: the ports of the bus, and the
wires of the protocol. -/
def busIdentifiers (interface : Interface) : List String :=
  (busSignals interface).map (·.portName) ++
    ((busSection interface).wires ++ addressSection.wires ++ responseSection.wires).map (·.name)

theorem nodup_busIdentifiers (interface : Interface) : (busIdentifiers interface).Nodup := by
  apply List.Nodup.of_map Text.bytes
  cases interface <;> decide +kernel

/-! ## The roles of a register -/

open Role

variable {p : Placement}

/-- The roles of the elements of a register at the boundary. -/
def portRoles (p : Placement) : List Role :=
  if p.register.isVersion then []
  else
    (if p.register.access.writes then [if p.register.auto then shown else forwarded] else []) ++
      if p.register.access.reads then
        if p.register.auto then if p.register.access.writes then [] else [sampled] else [answered]
      else []

/-- The roles of the elements of a register in the write decode. -/
def writeRoles (p : Placement) : List Role :=
  if p.register.access.writes then written :: if p.register.auto then [stored] else [] else []

/-- The role of the elements of a register in the response. -/
def wordRole (bus : Nat) (p : Placement) : Role :=
  if p.layout.bytes ≤ bus then narrow else wide ((p.layout.bytes + bus - 1) / bus)

/-- The roles of the elements of a register in the read decode. -/
def readRoles (bus : Nat) (p : Placement) : List Role :=
  if p.register.access.reads then
    (if waits p.register then [strobed] else []) ++ [wordRole bus p]
  else []

def roles (bus : Nat) (p : Placement) : List Role :=
  portRoles p ++ writeRoles p ++ readRoles bus p

/-- No ending belongs to two roles of a register. -/
theorem pairwise_roles (bus : Nat) (p : Placement) :
    (roles bus p).Pairwise fun r s => "" ∉ r.gaps s := by
  unfold roles portRoles writeRoles readRoles wordRole waits
  cases p.register.isVersion <;> cases p.register.auto <;> cases p.register.access <;>
    by_cases h : p.layout.bytes ≤ bus <;> simp [h, Role.gaps, Access.reads, Access.writes]

/-- Between the identifiers of an element that the register file holds there are no proper gaps. -/
theorem forall_mem_gaps_roles (bus : Nat) (hauto : p.register.auto = true) :
    ∀ r ∈ roles bus p, ∀ s ∈ roles bus p, ∀ z ∈ r.gaps s, z = "" := by
  unfold roles portRoles writeRoles readRoles wordRole waits
  cases p.register.isVersion <;> cases p.register.access <;>
    by_cases h : p.layout.bytes ≤ bus <;>
      simp [h, hauto, Role.gaps, Access.reads, Access.writes]

end RegisterBank.Hardware

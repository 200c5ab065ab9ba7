import Mathlib.Data.List.Nodup
import RegisterBank.Proofs.Parameter.Graph

/-!
# The counts of the worklist

At any time some parameters are left, and every count is the number of mentions of these in the
field (`Worklist.Counts`). An evaluation takes one of them away, and with it the mentions of its
name. A parameter from which a cycle can be reached always mentions another such one, so it is never
ready; and when nothing is ready, every parameter that is left mentions another one that is left, so
it leads to a cycle. What waits at the end is therefore known from the graph alone, how often a
parameter is mentioned, whether it mentions itself, and in which order the parameters are declared
set aside (`Worklist.waiting_eq_stuck`).
-/

namespace RegisterBank.Environment.Worklist

open Parameter (stuck mentions_eq_add mentions_eq_zero_iff mentions_ne_zero_iff)

variable {params left rest : List Parameter} {p q : Parameter} {mode : Mode} {env : Environment}
  {w : Worklist}

/-- The counts are right for the parameters that are left. Of these, the ones that mention none of
them are ready. -/
structure Counts (params : List Parameter) (mode : Mode) (left : List Parameter) (w : Worklist) :
    Prop where
  subset : ∀ p ∈ left, p ∈ params
  pending : w.pending = params.map fun p => (p, p.mentions left mode)
  nodup : w.ready.Nodup
  ready : ∀ p, p ∈ w.ready ↔ p ∈ left ∧ p.mentions left mode = 0
  free : ∀ p ∈ params, p ∉ left → p.mentions left mode = 0
  kept : ∀ p ∈ params, p.ReachesCycle params mode → p ∈ left

theorem counts_start (hnames : (params.map Parameter.name).Nodup) (env : Environment) :
    Counts params mode params (start params mode env) where
  subset _ hp := hp
  pending := rfl
  nodup := (List.Nodup.of_map _ hnames).filter _
  ready p := by simp [start]
  free _ hp hnot := absurd hp hnot
  kept _ hp _ := hp

/-! ## One evaluation -/

/-- The parameter that is ready next is left, and mentions nothing that is. -/
theorem Counts.next (h : Counts params mode left w) (hready : w.ready = p :: rest) :
    p ∈ left ∧ p.mentions left mode = 0 :=
  (h.ready p).1 (hready ▸ List.mem_cons_self)

/-- The names are different, so no other parameter is taken away together with one. -/
theorem Counts.mem_filter_name_iff (hnames : (params.map Parameter.name).Nodup)
    (h : Counts params mode left w) (hp : p ∈ left) :
    q ∈ left.filter (·.name != p.name) ↔ q ∈ left ∧ q ≠ p := by
  rw [List.mem_filter, bne_iff_ne]
  refine and_congr_right fun hq => not_congr ⟨fun hname => ?_, congrArg _⟩
  exact List.inj_on_of_nodup_map hnames (h.subset q hq) (h.subset p hp) hname

/-- Without mentions of the parameters that are left there are none of fewer parameters. -/
theorem mentions_filter_eq_zero (h : q.mentions left mode = 0) (keep : Parameter → Bool) :
    q.mentions (left.filter keep) mode = 0 :=
  mentions_eq_zero_iff.2 fun name hname r hr =>
    mentions_eq_zero_iff.1 h name hname r (List.mem_of_mem_filter hr)

theorem Counts.releasedBy_eq (h : Counts params mode left w) (hp : p ∈ left) :
    w.releasedBy mode p.name = params.filter fun q =>
      q.mentions left mode != 0 && q.mentions (left.filter (·.name != p.name)) mode == 0 := by
  rw [releasedBy, h.pending, List.filter_map, List.map_map]
  refine (List.map_id' _).trans (List.filter_congr fun q _ => ?_)
  have hadd := mentions_eq_add mode hp q
  rw [Bool.eq_iff_iff]
  simp only [Function.comp_apply, Bool.and_eq_true, bne_iff_ne, beq_iff_eq]
  omega

/-- An evaluation keeps the counts right. -/
theorem Counts.evaluate (hnames : (params.map Parameter.name).Nodup)
    (h : Counts params mode left w) (hready : w.ready = p :: rest) :
    Counts params mode (left.filter (·.name != p.name)) (w.evaluate mode p rest) := by
  obtain ⟨hp, hnone⟩ := h.next hready
  have hmem : ∀ q, q ∈ left.filter (·.name != p.name) ↔ q ∈ left ∧ q ≠ p := fun q =>
    h.mem_filter_name_iff hnames hp
  have hnodup : p ∉ rest ∧ rest.Nodup := List.nodup_cons.1 (hready ▸ h.nodup)
  have hrest : ∀ q, q ∈ rest ↔ (q ∈ left ∧ q.mentions left mode = 0) ∧ q ≠ p := by
    intro q
    rw [← h.ready, hready, List.mem_cons]
    grind
  have hreleased : ∀ q, q ∈ w.releasedBy mode p.name ↔ q ∈ params ∧ q.mentions left mode ≠ 0 ∧
      q.mentions (left.filter (·.name != p.name)) mode = 0 := by
    intro q
    rw [h.releasedBy_eq hp, List.mem_filter, Bool.and_eq_true, bne_iff_ne, beq_iff_eq]
  exact
    { subset := fun q hq => h.subset q (List.mem_of_mem_filter hq)
      pending := by
        simp only [Worklist.evaluate, h.pending, List.map_map]
        refine List.map_congr_left fun q _ => ?_
        have hadd := mentions_eq_add mode hp q
        simp only [Function.comp_apply, Prod.mk.injEq, true_and]
        omega
      nodup := by
        have hparams : params.Nodup := List.Nodup.of_map _ hnames
        refine List.nodup_append'.2 ⟨hnodup.2, ?_, fun q hq hq' => ?_⟩
        · rw [h.releasedBy_eq hp]
          exact hparams.filter _
        · exact ((hreleased q).1 hq').2.1 ((hrest q).1 hq).1.2
      ready := fun q => by
        rw [Worklist.evaluate, List.mem_append, hrest, hreleased, hmem]
        constructor
        · rintro (⟨⟨hq, hzero⟩, hne⟩ | ⟨hq, hsome, hzero⟩)
          · exact ⟨⟨hq, hne⟩, mentions_filter_eq_zero hzero _⟩
          · refine ⟨⟨by_contra fun hnot => hsome (h.free q hq hnot), ?_⟩, hzero⟩
            rintro rfl
            exact hsome hnone
        · rintro ⟨⟨hq, hne⟩, hzero⟩
          by_cases hbefore : q.mentions left mode = 0
          · exact .inl ⟨⟨hq, hbefore⟩, hne⟩
          · exact .inr ⟨h.subset q hq, hbefore, hzero⟩
      free := fun q hq hnot => by
        refine mentions_filter_eq_zero ?_ _
        by_cases hleft : q ∈ left
        · rw [hmem, not_and, not_ne_iff] at hnot
          rw [hnot hleft]
          exact hnone
        · exact h.free q hq hleft
      kept := fun q hq hcycle => by
        refine (hmem q).2 ⟨h.kept q hq hcycle, ?_⟩
        -- The next parameter on the way to the cycle is left too, so this one is not ready.
        rintro rfl
        obtain ⟨next, huses, hnext⟩ := hcycle.exists_uses
        exact (mentions_ne_zero_iff h.subset).2 ⟨next, h.kept next huses.1 hnext, huses⟩ hnone }

/-! ## All evaluations -/

/-- What every evaluation keeps is kept to the end. There are enough steps, so nothing is ready
then. -/
theorem Counts.run_induction {motive : List Parameter → Worklist → Prop}
    (hnames : (params.map Parameter.name).Nodup)
    (hstep : ∀ left w p rest, Counts params mode left w → w.ready = p :: rest → motive left w →
      motive (left.filter (·.name != p.name)) (w.evaluate mode p rest))
    {steps : Nat} (h : Counts params mode left w) (hsteps : left.length ≤ steps)
    (hmotive : motive left w) :
    ∃ left', Counts params mode left' (w.run mode steps) ∧ (w.run mode steps).ready = [] ∧
      motive left' (w.run mode steps) := by
  induction steps generalizing left w with
  | zero =>
      obtain rfl := List.length_eq_zero_iff.1 (Nat.le_zero.1 hsteps)
      refine ⟨[], h, List.eq_nil_iff_forall_not_mem.2 fun p hp => ?_, hmotive⟩
      exact List.not_mem_nil ((h.ready p).1 hp).1
  | succ steps ih =>
      rw [run]
      split
      · rename_i hready
        exact ⟨left, h, hready, hmotive⟩
      · rename_i p rest hready
        have hp := (h.next hready).1
        have hlength : (left.filter (·.name != p.name)).length < left.length :=
          List.length_filter_lt_length_iff_exists.2 ⟨p, hp, by simp⟩
        exact ih (h.evaluate hnames hready) (by omega) (hstep left w p rest h hready hmotive)

theorem Counts.mentions_ne_zero (h : Counts params mode left w) (hready : w.ready = [])
    (hp : p ∈ left) : p.mentions left mode ≠ 0 := by
  intro hzero
  have hnext := (h.ready p).2 ⟨hp, hzero⟩
  rw [hready] at hnext
  cases hnext

/-- When nothing is ready, the parameters that are left are those from which a cycle can be
reached. -/
theorem Counts.mem_left_iff (h : Counts params mode left w) (hready : w.ready = []) :
    p ∈ left ↔ p ∈ params ∧ p.ReachesCycle params mode := by
  constructor
  · intro hp
    refine ⟨h.subset p hp, exists_transGen_self_of_forall_exists (fun q hq => ?_) p hp⟩
    exact (mentions_ne_zero_iff h.subset).1 (h.mentions_ne_zero hready hq)
  · rintro ⟨hp, hcycle⟩
    exact h.kept p hp hcycle

theorem Counts.waiting_eq_stuck (h : Counts params mode left w) (hready : w.ready = []) :
    w.waiting = stuck params mode := by
  rw [waiting, h.pending, List.filter_map, List.map_map, stuck]
  refine (List.map_id' _).trans (List.filter_congr fun q hq => ?_)
  have hcycle : q ∈ left ↔ q.ReachesCycle params mode := by
    rw [h.mem_left_iff hready, and_iff_right hq]
  rw [Bool.eq_iff_iff]
  simp only [Function.comp_apply, bne_iff_ne, decide_eq_true_eq, ← hcycle]
  exact ⟨fun hsome => by_contra fun hnot => hsome (h.free q hq hnot), h.mentions_ne_zero hready⟩

/-- What waits at the end are the parameters from which a cycle can be reached. -/
theorem waiting_eq_stuck (hnames : (params.map Parameter.name).Nodup) :
    ((start params mode env).run mode params.length).waiting = stuck params mode := by
  obtain ⟨left, hcounts, hready, -⟩ := (counts_start hnames env).run_induction
    (motive := fun _ _ => True) hnames (fun _ _ _ _ _ _ _ => trivial) le_rfl trivial
  exact hcounts.waiting_eq_stuck hready

end RegisterBank.Environment.Worklist

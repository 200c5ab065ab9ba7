import RegisterBank.Proofs.Machine.Module
import RegisterBank.Proofs.Module.Statement

/-!
# Described modules

The modules that have a description are those that were put together from formulas
(`Module.built_iff`): each formula of a described module was read or is a word, and its version is
read from the text that shows it, even if the description wrote the version in another way. So a
described module states words only, and its registers are allocated in machine words
(`Description.yields_allocate`).
-/

namespace RegisterBank

variable {m : Module} {d : Description}

/-! ## Registers -/

namespace RegisterEntry

variable {e : RegisterEntry} {r : Register} {name : String}

theorem inRange_of_resetValue_eq_ok {v : Int} {reset : Nat} (hv : Word.InRange v)
    (h : resetValue name v = .ok reset) : Word.InRange reset := by
  unfold resetValue at h
  split at h
  · rename_i hnonneg
    cases h
    rwa [Int.toNat_of_nonneg hnonneg]
  · cases h

theorem inRange_of_placeAt_eq_ok {stated : Option Int} {address : Option Nat}
    (hstated : ∀ v, stated = some v → Word.InRange v) (h : placeAt name stated = .ok address) :
    ∀ a ∈ address, Word.InRange a := by
  unfold placeAt at h
  split at h
  · cases h
    exact fun _ ha => absurd ha (Option.not_mem_none _)
  · split at h
    · cases h
      exact fun _ ha => absurd ha (Option.not_mem_none _)
    · split at h
      · rename_i v _ hnonneg
        cases h
        rintro a ⟨⟩
        rw [Int.toNat_of_nonneg hnonneg]
        exact hstated v rfl
      · cases h

theorem stated_of_depth_eq_ok {q? : Option Quantity} {f : Formula}
    (hq : ∀ q, q? = some q → q.IsWord) (h : depth q? = .ok f) : f.Stated := by
  cases q? with
  | none =>
      cases h
      exact Formula.stated_literal (by decide)
  | some q => exact Quantity.stated_of_formula_eq_ok (hq q rfl) h

/-- The formulas of a described register are stated, and its numbers are words. -/
theorem stated_of_toRegister_eq_ok (he : e.OfWords) (h : e.toRegister = .ok r) :
    r.Stated ∧ Word.InRange r.reset ∧ ∀ a ∈ r.address, Word.InRange a := by
  simp only [toRegister, bind_eq_ok_iff, Except.ok.injEq] at h
  obtain ⟨name, -, access, -, quantity, hquantity, width, hwidth, reset, hreset, logItems, hdepth,
    address, haddress, rfl⟩ := h
  obtain ⟨hquantities, hnumbers⟩ := he
  have hwritten : e.width = some quantity := by
    cases hfield : e.width with
    | none =>
        rw [hfield] at hquantity
        cases hquantity
    | some q =>
        rw [hfield] at hquantity
        cases hquantity
        rfl
  have hstated : Word.InRange (e.reset.getD 0) := by
    cases hfield : e.reset with
    | none => exact (by decide : Word.InRange 0)
    | some v => exact hnumbers v (.inl hfield)
  refine ⟨⟨?_, ?_⟩, inRange_of_resetValue_eq_ok hstated hreset, ?_⟩
  · exact Quantity.stated_of_formula_eq_ok (hquantities quantity (.inl hwritten)) hwidth
  · exact stated_of_depth_eq_ok (fun q hq => hquantities q (.inr hq)) hdepth
  · exact inRange_of_placeAt_eq_ok (fun v hv => hnumbers v (.inr hv)) haddress

end RegisterEntry

theorem ne_nil_of_mapM_eq_ok {α β : Type} {f : α → Except Error β} {xs : List α} {ys : List β}
    (h : xs.mapM f = .ok ys) (hne : xs.isEmpty = false) : ys ≠ [] := by
  have hsame := mapM_eq_ok_iff.1 h
  cases hsame with
  | nil => cases hne
  | cons => exact List.cons_ne_nil _ _

theorem GroupEntry.toGroup_eq_ok {e : GroupEntry} {g : Group Register} (h : e.toGroup = .ok g) :
    e.registers.mapM RegisterEntry.toRegister = .ok g.members ∧ g.members ≠ [] := by
  simp only [toGroup, bind_eq_ok_iff, ite_error_eq_ok_iff, Except.ok.injEq] at h
  obtain ⟨name, -, hempty, members, hmembers, rfl⟩ := h
  exact ⟨hmembers, ne_nil_of_mapM_eq_ok hmembers (by simpa using hempty)⟩

theorem ParameterEntry.stated_of_toParameter_eq_ok {e : ParameterEntry} {p : Parameter}
    (h : e.toParameter = .ok p) : p.Stated := by
  rw [toParameter, bind_eq_ok_iff] at h
  obtain ⟨name, -, h⟩ := h
  obtain ⟨-, -, -, hname, hdescr⟩ := Parameter.ofTexts_eq_ok_iff.1 h
  exact ⟨_, _, _, by rw [hname, hdescr]; exact h⟩

/-! ## Modules -/

theorem Description.validate_of_settings_eq_ok {settings : Settings}
    (h : d.settings = .ok settings) : settings.validate = .ok () := by
  unfold Description.settings at h
  split at h
  all_goals
    simp only [bind_eq_ok_iff, Except.ok.injEq] at h
    obtain ⟨interface, -, _, hvalid, rfl⟩ := h
    exact hvalid

theorem Version.parse_text_of_parseText_eq_ok {text : String} {v : Version}
    (h : Version.parseText text = .ok v) : Version.parse v.text.toList = .ok v := by
  unfold parseText at h
  split at h
  · cases h
    exact parse_text_of_ofDescription_eq_ok ‹_›
  · cases h

/-- What a description with integers of 64 bits describes was put together from formulas. -/
theorem Description.built_of_toModule_eq_ok (hd : d.Fits) (h : d.toModule = .ok m) : m.Built := by
  simp only [toModule, bind_eq_ok_iff, ite_error_eq_ok_iff, Except.ok.injEq] at h
  obtain ⟨name, -, text, -, version, hversion, settings, hsettings, hgroups, params, hparams,
    groups, hread, rfl⟩ := h
  have hregister : ∀ r ∈ Group.flatten groups,
      r.Stated ∧ Word.InRange r.reset ∧ ∀ a ∈ r.address, Word.InRange a := by
    intro r hr
    obtain ⟨g, hg, hrg⟩ := List.mem_flatMap.1 hr
    obtain ⟨entry, hentry, hgroup⟩ := exists_mem_of_mapM_eq_ok hread g hg
    obtain ⟨e, he, hregister⟩ :=
      exists_mem_of_mapM_eq_ok (GroupEntry.toGroup_eq_ok hgroup).1 r hrg
    exact RegisterEntry.stated_of_toRegister_eq_ok (hd.registers entry hentry e he) hregister
  exact
    { settings := Description.validate_of_settings_eq_ok hsettings
      version := Version.parse_text_of_parseText_eq_ok hversion
      params := by
        intro p hp
        obtain ⟨e, -, hparameter⟩ := exists_mem_of_mapM_eq_ok hparams p hp
        exact ParameterEntry.stated_of_toParameter_eq_ok hparameter
      groups_ne_nil := ne_nil_of_mapM_eq_ok hread (by simpa using hgroups)
      members_ne_nil := by
        intro g hg
        obtain ⟨entry, -, hgroup⟩ := exists_mem_of_mapM_eq_ok hread g hg
        exact (GroupEntry.toGroup_eq_ok hgroup).2
      registers := fun r hr => (hregister r hr).1
      reset := fun r hr => (hregister r hr).2.1
      address := fun r hr => (hregister r hr).2.2 }

/-- A module has a description exactly if it was put together from formulas. -/
theorem Module.built_iff : m.Built ↔ ∃ d : Description, d.Fits ∧ d.toModule = .ok m := by
  constructor
  · exact fun h => ⟨m.describe, h.fits_describe, h.toModule_eq_ok h.states_describe⟩
  · rintro ⟨d, hd, h⟩
    exact d.built_of_toModule_eq_ok hd h

/-! ## Words -/

theorem Formula.Stated.ofWords {f : Formula} (h : f.Stated) : f.tree.OfWords := by
  rcases h with ⟨text, hparse⟩ | ⟨v, hv, rfl⟩
  · exact ofWords_of_parse_eq_ok hparse
  · exact .number hv

theorem lt_of_inRange_natCast {n : Nat} (h : Word.InRange n) : n < 2 ^ 64 := by
  rw [Word.inRange_natCast] at h
  omega

/-- Every number that is stated in a module put together from formulas is a word. -/
theorem Module.Built.ofWords (h : m.Built) : m.OfWords where
  params := by
    intro p hp
    obtain ⟨value, min, max, hread⟩ := h.params p hp
    exact Parameter.ofWords_of_ofTexts_eq_ok hread
  registers := fun r hr =>
    { width := (h.registers r hr).width.ofWords
      logItems := (h.registers r hr).logItems.ofWords
      reset := lt_of_inRange_natCast (h.reset r hr)
      address := fun a ha => lt_of_inRange_natCast (h.address r hr a ha) }

/-- No operation goes wrong when the registers of a described module are allocated in machine
words, whether they find places or not. -/
theorem Description.yields_allocate {env : Environment} {table : Table} (hd : d.Fits)
    (h : d.toModule = .ok m) (henv : Environment.resolve m.params = .ok env)
    (htable : m.table = .ok table) :
    (Machine.allocate m.settings.policy env table).Yields
      (m.settings.policy.allocate env table) := by
  have hwords := (d.built_of_toModule_eq_ok hd h).ofWords
  exact Machine.yields_allocate (Environment.ofWords_of_resolve_eq_ok hwords.params henv)
    (hwords.of_mem_table htable)

end RegisterBank

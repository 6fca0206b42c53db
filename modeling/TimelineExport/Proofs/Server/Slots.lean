import TimelineExport.Proofs.Server.Outcome

/-!
# Slots

A task that holds a slot got it when one was free: at its first step, or when another task ended and
it had waited longest. No other event gives a slot away, so there are never more tasks with a slot
than slots (`Orchestrator.slotsHeld_run_le`).
-/

namespace TimelineExport

namespace Supervised

/-- A task takes a slot at a step only if one is free. -/
theorem StepsTo.holdsSlot {settings : ServiceSettings} {now : Instant} {slotFree : Bool} {h : Host}
    {t later : Supervised} (hsteps : t.StepsTo settings now slotFree h later)
    (hlater : later.phase.holdsSlot = true) : t.phase.holdsSlot = true ∨ slotFree = true := by
  cases hsteps with
  | unstarted => cases hlater
  | wait => cases hlater
  | enter hphase =>
    obtain ⟨-, hfree⟩ | hphase := hphase
    · exact .inr hfree
    · exact .inl (by rw [hphase]; rfl)
  | giveUp => cases hlater
  | settle =>
    rw [phase_settleOutcome] at hlater
    cases hlater
  | cancel hphase => exact .inl (by rw [hphase]; rfl)
  | idle => exact .inl hlater
  | ended => exact .inl hlater

/-- Only a step of a task changes what phase a task is in. -/
theorem Moves.phase_eq {s : Orchestrator} {event : OrchestratorEvent} {t later : Supervised}
    (hmove : Moves s event t later) (hevent : ∀ id, event ≠ .supervise id) :
    later.phase = t.phase := by
  cases hmove with
  | stay => rfl
  | ask => rfl
  | step h => exact absurd h (hevent _)
  | work => exact phase_carry _ _
  | breakOff => exact phase_carry _ _
  | grant _ id _ h => exact absurd h (hevent id)
  | overdue => rfl
  | forget => rfl

end Supervised

/-- Where what is counted does not come about, it does not become more. -/
theorem countP_map_le {α : Type} {xs : List α} {p : α → Bool} {f : α → α}
    (hf : ∀ x ∈ xs, p (f x) = true → p x = true) : (xs.map f).countP p ≤ xs.countP p := by
  rw [List.countP_map]
  exact List.countP_mono_left hf

namespace Orchestrator

variable {s : Orchestrator}

/-- Changing one export makes what is counted one more at most. -/
theorem countP_change_le (hids : (s.exports.map (·.id)).Nodup) (p : Supervised → Bool)
    (id : String) (f : Supervised → Supervised) :
    (s.change id f).exports.countP p ≤ s.exports.countP p + 1 := by
  unfold change
  dsimp only
  generalize s.exports = xs at hids
  induction xs with
  | nil => simp
  | cons t xs ih =>
    obtain ⟨hnew, hids⟩ := List.nodup_cons.mp hids
    simp only [List.map_cons, List.countP_cons]
    split
    · next hid =>
      -- no other export has the id
      have hrest : (xs.map fun x => if x.id = id then f x else x) = xs := by
        refine (List.map_congr_left fun x hx => if_neg fun hx' => hnew ?_).trans (List.map_id xs)
        exact List.mem_map.mpr ⟨x, hx, hx'.trans hid.symm⟩
      rw [hrest]
      split <;> omega
    · have hrest := ih hids
      omega

theorem slotsHeld_lt_of_hasSlot (hslot : s.hasSlot = true) :
    s.slotsHeld < s.settings.maxConcurrentJobs.toNat := by
  have hlt : (s.slotsHeld : Int) < s.settings.maxConcurrentJobs := of_decide_eq_true hslot
  omega

/-- **Whoever waits gets a free slot only.** -/
theorem slotsHeld_grant_le (hids : (s.exports.map (·.id)).Nodup)
    (hheld : s.slotsHeld ≤ s.settings.maxConcurrentJobs.toNat) :
    s.grant.slotsHeld ≤ s.settings.maxConcurrentJobs.toNat := by
  unfold grant
  split
  · exact hheld
  · next id rest _ =>
    split
    · next hslot =>
      have hchange := countP_change_le hids (·.phase.holdsSlot) id
        fun t => { t with phase := .granted }
      exact hchange.trans (slotsHeld_lt_of_hasSlot hslot)
    · exact hheld

/-- Only a step of a task takes a slot. -/
theorem slotsHeld_le_of_advances {later : Orchestrator} {event : OrchestratorEvent}
    (hadvances : Advances event s later) (hevent : ∀ id, event ≠ .supervise id) :
    later.slotsHeld ≤ s.slotsHeld := by
  obtain ⟨f, fresh, hexports, hmoves, hfresh⟩ := hadvances
  have hnone : fresh.countP (·.phase.holdsSlot) = 0 := by
    refine List.countP_eq_zero.mpr fun t ht => ?_
    obtain ⟨⟨job, request, rfl, -⟩, -⟩ := hfresh t ht
    nofun
  rw [slotsHeld, hexports, List.countP_append, hnone, Nat.add_zero]
  exact countP_map_le fun t ht hlater => ((hmoves t ht).phase_eq hevent) ▸ hlater

/-- A step of a task takes a slot if one is free, and none otherwise. -/
theorem Sound.slotsHeld_change_le (hs : s.Sound)
    (hheld : s.slotsHeld ≤ s.settings.maxConcurrentJobs.toNat) {t later : Supervised}
    (ht : t ∈ s.exports)
    (hslot : later.phase.holdsSlot = true → t.phase.holdsSlot = true ∨ s.mayEnter = true) :
    (s.change t.id fun _ => later).slotsHeld ≤ s.settings.maxConcurrentJobs.toNat := by
  cases henter : s.mayEnter with
  | true =>
    have hfree : s.hasSlot = true := (Bool.and_eq_true_iff.mp henter).1
    have hchange := countP_change_le hs.nodup_ids (·.phase.holdsSlot) t.id fun _ => later
    exact hchange.trans (slotsHeld_lt_of_hasSlot hfree)
  | false =>
    refine (countP_map_le fun x hx hlater => ?_).trans hheld
    split at hlater
    · next hid =>
      rw [hs.eq_of_id hx ht hid]
      exact (hslot hlater).resolve_right (by simp [henter])
    · exact hlater

/-- **A step of a task** leaves no more tasks with a slot than slots. -/
theorem Sound.slotsHeld_supervise_le (hs : s.Sound) (id : String)
    (hheld : s.slotsHeld ≤ s.settings.maxConcurrentJobs.toNat) :
    (s.supervise id).slotsHeld ≤ s.settings.maxConcurrentJobs.toNat := by
  unfold supervise
  split
  · exact hheld
  · next t hsome =>
    have ht : t ∈ s.exports := List.mem_of_find?_eq_some hsome
    obtain rfl : t.id = id := by simpa using List.find?_some hsome
    have hid : (t.step s.settings s.now s.mayEnter s.host).2.id = t.id :=
      ((t.stepsTo_step _ _ _ _).follows (hs.exports t ht)).reaches.id_eq
    have hslot : (t.step s.settings s.now s.mayEnter s.host).2.phase.holdsSlot = true →
        t.phase.holdsSlot = true ∨ s.mayEnter = true := (t.stepsTo_step _ _ _ _).holdsSlot
    have hstepped := hs.slotsHeld_change_le hheld ht hslot
    generalize t.step s.settings s.now s.mayEnter s.host = stepped at hid hstepped
    -- the ids stay, so the slot of a task that ends goes to one task
    have hids : (s.change t.id fun _ => stepped.2).exports.map (·.id) = s.exports.map (·.id) := by
      refine List.map_map.trans (List.map_congr_left fun x _ => ?_)
      dsimp only [Function.comp]
      split
      · next hx => exact hid.trans hx.symm
      · rfl
    dsimp only
    split
    · exact slotsHeld_grant_le (hids ▸ hs.nodup_ids) hstepped
    · exact hstepped

/-- **There are never more tasks with a slot than slots.** -/
theorem slotsHeld_run_le (settings : ServiceSettings) (host : Host)
    (events : List OrchestratorEvent) :
    ((start settings host).run events).slotsHeld ≤ settings.maxConcurrentJobs.toNat := by
  induction events using List.reverseRecOn with
  | nil => exact Nat.zero_le _
  | append_singleton events event ih =>
    have hs := sound_run settings host events
    have hsettings := settings_run (start settings host) events
    rw [run_append]
    by_cases hevent : ∀ id, event ≠ .supervise id
    · exact (slotsHeld_le_of_advances (spec_apply hs event).2 hevent).trans ih
    · obtain ⟨id, rfl⟩ : ∃ id, event = .supervise id := by simpa using hevent
      have hheld := hs.slotsHeld_supervise_le id (hsettings ▸ ih)
      rwa [hsettings] at hheld

end Orchestrator

end TimelineExport

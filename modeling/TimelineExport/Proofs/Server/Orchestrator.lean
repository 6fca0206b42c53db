import Mathlib.Data.List.Nodup
import TimelineExport.Proofs.Filter.Label
import TimelineExport.Proofs.Outcome
import TimelineExport.Proofs.Server.Supervision
import TimelineExport.Server.Orchestrator

/-!
# Runs of an orchestrator

`Orchestrator.Sound` is what holds after every list of events (`Orchestrator.sound_run`): the jobs
are numbered in the order in which they were submitted, every export and its task are in order,
and the queue holds the tasks that wait, each of them once.

What an event makes of one export is a `Supervised.Moves`; what it makes of all of them is
`Orchestrator.Advances`. What is to be shown of an export along a run is shown of the moves.
-/

namespace TimelineExport

/-- Whether an event asks the task of a job to cancel. -/
def OrchestratorEvent.Asks (event : OrchestratorEvent) (id : String) : Prop :=
  event = .cancel id ∨ event = .shutdown

namespace Supervised

/-- **What an event makes of an export** of an orchestrator. The event says which step is taken;
only a slot that becomes free, and a job that is forgotten, come by the way. -/
inductive Moves (s : Orchestrator) (event : OrchestratorEvent) (t : Supervised) :
    Supervised → Prop
  | stay (hasks : event.Asks t.id → t.job.isTerminal = true ∨ t.phase = .ended)
      (hstep : event ≠ .supervise t.id) (hwork : event ≠ .work t.id) : Moves s event t t
  | ask (h : event.Asks t.id) : Moves s event t { t with asked := true }
  | step (h : event = .supervise t.id) :
      Moves s event t (t.step s.settings s.now s.mayEnter s.host).2
  | work (h : event = .work t.id) : Moves s event t (t.work s.settings s.now s.host).2
  | breakOff (outcome : ExportOutcome) (h : event = .breakOff t.id outcome) :
      Moves s event t (t.breakOff s.settings outcome s.host).2
  | grant (hphase : t.phase = .waiting) (id : String) (hid : t.id ≠ id)
      (h : event = .supervise id) : Moves s event t { t with phase := .granted }
  | overdue (h : event = .deadline t.id) : Moves s event t { t with overdue := true }
  | forget (hterminal : t.job.isTerminal = true) (request : ExportRequest)
      (h : event = .submit request) : Moves s event t { t with known := false }

/-- A new export, whose task has not begun. -/
def IsNew (t : Supervised) : Prop :=
  ∃ job request, t = { execution := { job, request } } ∧ job.status = .queued

theorem IsNew.sound {t : Supervised} (ht : t.IsNew) : t.Sound ∧ ¬ t.IsLost := by
  obtain ⟨job, request, rfl, hstatus⟩ := ht
  have hterminal : job.isTerminal = false := by
    rw [Job.isTerminal, hstatus]
    rfl
  constructor
  · exact {
      execution := fun h => by cases h
      status := fun h => by cases hstatus.symm.trans h
      unstarted := fun _ => ⟨rfl, hterminal⟩
      abandoned := fun h => by cases h
      known := fun h => by cases h }
  · rintro (⟨-, h⟩ | ⟨h, -⟩) <;> cases h

variable {s : Orchestrator} {event : OrchestratorEvent} {t later : Supervised}

/-- **A move keeps an export in order**, and only asking a task that has not begun loses a job. -/
theorem Moves.spec (ht : t.Sound) (h : Moves s event t later) :
    Job.Reaches t.job later.job ∧ later.Sound ∧
      (later.IsLost ↔ t.IsLost ∨ (event.Asks t.id ∧ t.phase = .created)) := by
  have hfollows : t.Follows later → ¬ (event.Asks t.id ∧ t.phase = .created) →
      Job.Reaches t.job later.job ∧ later.Sound ∧
        (later.IsLost ↔ t.IsLost ∨ (event.Asks t.id ∧ t.phase = .created)) := fun hf hnot =>
    ⟨hf.reaches, hf.sound, by rw [hf.lost, or_iff_left hnot]⟩
  cases h with
  | stay hasks =>
    refine hfollows (.refl ht) fun ⟨hevent, hphase⟩ => ?_
    obtain hterminal | hended := hasks hevent
    · rw [(ht.unstarted (.inl hphase)).2] at hterminal
      cases hterminal
    · cases hphase.symm.trans hended
  | ask hevent =>
    refine ⟨.refl, sound_ask ht, ?_⟩
    rw [isLost_ask_iff, and_iff_right hevent]
  | step hevent =>
    refine hfollows ((t.stepsTo_step _ _ _ _).follows ht) ?_
    rintro ⟨h | h, -⟩ <;> cases hevent.symm.trans h
  | work hevent =>
    refine hfollows (follows_work ht s.host) ?_
    rintro ⟨h | h, -⟩ <;> cases hevent.symm.trans h
  | breakOff outcome hevent =>
    refine hfollows (follows_breakOff ht outcome s.host) ?_
    rintro ⟨h | h, -⟩ <;> cases hevent.symm.trans h
  | grant hphase id hid hevent =>
    refine hfollows (follows_grant ht hphase) ?_
    rintro ⟨h | h, -⟩ <;> cases hevent.symm.trans h
  | overdue hevent =>
    refine hfollows (follows_overdue ht) ?_
    rintro ⟨h | h, -⟩ <;> cases hevent.symm.trans h
  | forget hterminal request hevent =>
    refine hfollows (follows_forget ht hterminal) ?_
    rintro ⟨h | h, -⟩ <;> cases hevent.symm.trans h

/-- What each kind of move keeps, every move keeps. -/
theorem Moves.keeps {P : Supervised → Prop} (h : Moves s event t later) (ht : P t)
    (hask : P { t with asked := true })
    (hstep : P (t.step s.settings s.now s.mayEnter s.host).2)
    (hwork : P (t.work s.settings s.now s.host).2)
    (hbreakOff : ∀ outcome, P (t.breakOff s.settings outcome s.host).2)
    (hgrant : t.phase = .waiting → P { t with phase := .granted })
    (hoverdue : P { t with overdue := true }) (hforget : P { t with known := false }) :
    P later := by
  cases h with
  | stay => exact ht
  | ask => exact hask
  | step => exact hstep
  | work => exact hwork
  | breakOff outcome => exact hbreakOff outcome
  | grant hphase => exact hgrant hphase
  | overdue => exact hoverdue
  | forget => exact hforget

theorem Moves.id_eq (ht : t.Sound) (h : Moves s event t later) : later.id = t.id :=
  (h.spec ht).1.id_eq

end Supervised

namespace Orchestrator

/-- The id of a job by its number. -/
def idOf (n : Nat) : String := numbered "job-" (n + 1)

theorem idOf_injective : Function.Injective idOf := fun m n h => by
  have hstem : IsStem "job-" := by decide
  exact Nat.succ.inj ((numbered_inj hstem hstem).mp h).2

/-- **An orchestrator in order.** -/
structure Sound (s : Orchestrator) : Prop where
  /-- The jobs are numbered. -/
  ids : s.exports.map (·.id) = (List.range s.issued).map idOf
  exports : ∀ t ∈ s.exports, t.Sound
  nodup_queue : s.queue.Nodup
  waiting : ∀ id ∈ s.queue, ∃ t ∈ s.exports, t.id = id ∧ t.phase = .waiting

/-- What an event makes of the exports: each of them makes a move, and new ones come last. -/
def Advances (event : OrchestratorEvent) (s later : Orchestrator) : Prop :=
  ∃ f fresh, later.exports = s.exports.map f ++ fresh ∧
    (∀ t ∈ s.exports, Supervised.Moves s event t (f t)) ∧
    ∀ t ∈ fresh, t.IsNew ∧ t.job.createdAt = s.now

variable {s later : Orchestrator} {event : OrchestratorEvent}

section Ids

/-- The ids of all jobs differ. -/
theorem Sound.nodup_ids (hs : s.Sound) : (s.exports.map (·.id)).Nodup := by
  rw [hs.ids]
  exact List.nodup_range.map idOf_injective

/-- An id has one export. -/
theorem Sound.eq_of_id (hs : s.Sound) {t t' : Supervised} (ht : t ∈ s.exports)
    (ht' : t' ∈ s.exports) (h : t.id = t'.id) : t = t' :=
  List.inj_on_of_nodup_map hs.nodup_ids ht ht' h

/-- A known job is found by its id. -/
theorem Sound.export?_eq (hs : s.Sound) {t : Supervised} (ht : t ∈ s.exports)
    (hknown : t.known = true) : s.export? t.id = some t := by
  have hsome : (s.knownExports.find? (·.id = t.id)).isSome :=
    List.find?_isSome.mpr ⟨t, List.mem_filter.mpr ⟨ht, hknown⟩, decide_eq_true rfl⟩
  obtain ⟨found, hfound⟩ := Option.isSome_iff_exists.mp hsome
  have hid : found.id = t.id := by simpa using List.find?_some hfound
  have hmem : found ∈ s.exports := List.mem_of_mem_filter (List.mem_of_find?_eq_some hfound)
  rw [export?, hfound, hs.eq_of_id hmem ht hid]

/-- What is found by an id is a known export with the id. -/
theorem mem_of_export? {id : String} {t : Supervised} (h : s.export? id = some t) :
    t ∈ s.exports ∧ t.known = true ∧ t.id = id := by
  obtain ⟨hmem, hknown⟩ := List.mem_filter.mp (List.mem_of_find?_eq_some h)
  exact ⟨hmem, hknown, by simpa using List.find?_some h⟩

end Ids

/-! ### Changing every export -/

/-- Exports that each make a move advance. -/
theorem advances_of_map {f : Supervised → Supervised} (hexports : later.exports = s.exports.map f)
    (hf : ∀ t ∈ s.exports, Supervised.Moves s event t (f t)) : Advances event s later :=
  ⟨f, [], by rw [hexports, List.append_nil], hf, by simp⟩

/-- An orchestrator stays in order if its exports do and its queue holds some of the tasks that
wait. -/
theorem Sound.of_map (hs : s.Sound) {f : Supervised → Supervised}
    (hexports : later.exports = s.exports.map f)
    (hf : ∀ t ∈ s.exports, Supervised.Moves s event t (f t))
    (hissued : later.issued = s.issued) (hnodup : later.queue.Nodup)
    (hwaiting : ∀ id ∈ later.queue, ∃ t ∈ s.exports, t.id = id ∧ (f t).phase = .waiting) :
    later.Sound where
  ids := by
    have hids : s.exports.map (fun t => (f t).id) = s.exports.map (·.id) :=
      List.map_congr_left fun t ht => (hf t ht).id_eq (hs.exports t ht)
    rw [hissued, ← hs.ids, ← hids, hexports, List.map_map]
    rfl
  exports := fun t ht => by
    rw [hexports] at ht
    obtain ⟨t, hmem, rfl⟩ := List.mem_map.mp ht
    exact ((hf t hmem).spec (hs.exports t hmem)).2.1
  nodup_queue := hnodup
  waiting := fun id hid => by
    obtain ⟨t, ht, rfl, hphase⟩ := hwaiting id hid
    exact ⟨f t, hexports ▸ List.mem_map_of_mem ht, (hf t ht).id_eq (hs.exports t ht), hphase⟩

/-- The queue stays as it is where no task's phase changes. -/
theorem Sound.of_map_of_phase (hs : s.Sound) {f : Supervised → Supervised}
    (hexports : later.exports = s.exports.map f)
    (hf : ∀ t ∈ s.exports, Supervised.Moves s event t (f t))
    (hissued : later.issued = s.issued) (hqueue : later.queue = s.queue)
    (hphase : ∀ t, (f t).phase = t.phase) : later.Sound := by
  refine hs.of_map hexports hf hissued (hqueue ▸ hs.nodup_queue) fun id hid => ?_
  obtain ⟨t, ht, hid, hwaiting⟩ := hs.waiting id (hqueue ▸ hid)
  exact ⟨t, ht, hid, (hphase t).trans hwaiting⟩

/-- Nothing happens to an export that the event is not about. -/
theorem moves_stay {t : Supervised} (hasks : ¬ event.Asks t.id)
    (hstep : event ≠ .supervise t.id) (hwork : event ≠ .work t.id) :
    Supervised.Moves s event t t :=
  .stay (fun h => absurd h hasks) hstep hwork

/-! ### What each event does -/

theorem spec_cancel (hs : s.Sound) (id : String) :
    (s.cancel id).2.Sound ∧ Advances (.cancel id) s (s.cancel id).2 := by
  have hstay : ∀ {t : Supervised}, (t.id = id → t.job.isTerminal = true ∨ t.phase = .ended) →
      Supervised.Moves s (.cancel id) t t := fun h => by
    refine .stay (fun hasks => h ?_) nofun nofun
    obtain heq | heq := hasks <;> cases heq
    rfl
  have hall : (∀ t ∈ s.exports, t.id = id → t.job.isTerminal = true ∨ t.phase = .ended) →
      s.Sound ∧ Advances (.cancel id) s s := fun h =>
    ⟨hs, advances_of_map (List.map_id _).symm fun t ht => hstay (h t ht)⟩
  unfold cancel
  split
  · next hnone =>
    -- only jobs that have ended are forgotten
    refine hall fun t ht hid => ?_
    by_contra hnot
    have hknown : t.known = true := by
      by_contra hunknown
      exact hnot (.inl ((hs.exports t ht).known (Bool.not_eq_true _ ▸ hunknown)))
    rw [← hid, hs.export?_eq ht hknown] at hnone
    cases hnone
  · next t hsome =>
    obtain ⟨ht, -, rfl⟩ := mem_of_export? hsome
    split
    · next hdone =>
      refine hall fun t' ht' hid => ?_
      rw [hs.eq_of_id ht' ht hid]
      simpa using hdone
    · have hmoves : ∀ t' ∈ s.exports, Supervised.Moves s (.cancel t.id) t'
          (if t'.id = t.id then { t' with asked := true } else t') := fun t' _ => by
        split
        · next hid => exact .ask (.inl (by rw [hid]))
        · next hid => exact hstay fun h => absurd h hid
      refine ⟨hs.of_map_of_phase rfl hmoves rfl rfl fun t' => ?_, advances_of_map rfl hmoves⟩
      split <;> rfl

theorem spec_shutdown (hs : s.Sound) :
    s.shutdown.Sound ∧ Advances .shutdown s s.shutdown := by
  have hmoves : ∀ t ∈ s.exports, Supervised.Moves s .shutdown t
      (if t.phase = .ended then t else { t with asked := true }) := fun t _ => by
    split
    · next hended => exact .stay (fun _ => .inr hended) nofun nofun
    · exact .ask (.inr rfl)
  refine ⟨hs.of_map_of_phase rfl hmoves rfl rfl fun t => ?_, advances_of_map rfl hmoves⟩
  split <;> rfl

theorem spec_deadline (hs : s.Sound) (id : String) :
    (s.apply (.deadline id)).Sound ∧ Advances (.deadline id) s (s.apply (.deadline id)) := by
  have hmoves : ∀ t ∈ s.exports, Supervised.Moves s (.deadline id) t
      (if t.id = id then { t with overdue := true } else t) := fun t _ => by
    split
    · next hid => exact .overdue (by rw [hid])
    · refine moves_stay ?_ nofun nofun
      rintro (h | h) <;> cases h
  refine ⟨hs.of_map_of_phase rfl hmoves rfl rfl fun t => ?_, advances_of_map rfl hmoves⟩
  split <;> rfl

/-- An event that carries an export on, and does not ask its task to cancel, changes no phase. -/
theorem spec_carry (hs : s.Sound) (id : String) {f : Host → Supervised → Host × Supervised}
    (hstay : ∀ {t : Supervised}, t.id ≠ id → Supervised.Moves s event t t)
    (hmove : ∀ {t : Supervised}, t.id = id → Supervised.Moves s event t (f s.host t).2)
    (hphase : ∀ t, (f s.host t).2.phase = t.phase) :
    (s.carry id f).Sound ∧ Advances event s (s.carry id f) := by
  unfold carry
  split
  · next hnone =>
    refine ⟨hs, advances_of_map (List.map_id _).symm fun t ht => hstay ?_⟩
    simpa using List.find?_eq_none.mp hnone t ht
  · next t hsome =>
    have ht : t ∈ s.exports := List.mem_of_find?_eq_some hsome
    obtain rfl : t.id = id := by simpa using List.find?_some hsome
    have hmoves : ∀ t' ∈ s.exports, Supervised.Moves s event t'
        (if t'.id = t.id then (f s.host t).2 else t') := fun t' ht' => by
      split
      · next hid =>
        obtain rfl := hs.eq_of_id ht' ht hid
        exact hmove rfl
      · next hid => exact hstay hid
    refine ⟨hs.of_map rfl hmoves rfl hs.nodup_queue fun id hid => ?_, advances_of_map rfl hmoves⟩
    obtain ⟨t', ht', rfl, hwaiting⟩ := hs.waiting id hid
    refine ⟨t', ht', rfl, ?_⟩
    split
    · next hid =>
      obtain rfl := hs.eq_of_id ht' ht hid
      exact (hphase t').trans hwaiting
    · exact hwaiting

theorem spec_work (hs : s.Sound) (id : String) :
    (s.apply (.work id)).Sound ∧ Advances (.work id) s (s.apply (.work id)) := by
  refine spec_carry hs id (f := Supervised.work s.settings s.now) (fun hid => ?_)
    (fun hid => ?_) ?_
  · refine moves_stay (by rintro (h | h) <;> cases h) nofun fun h => hid ?_
    cases h
    rfl
  · exact .work (hid ▸ rfl)
  · exact fun _ => Supervised.phase_carry _ _

theorem spec_breakOff (hs : s.Sound) (id : String) (outcome : ExportOutcome) :
    (s.apply (.breakOff id outcome)).Sound ∧
      Advances (.breakOff id outcome) s (s.apply (.breakOff id outcome)) := by
  refine spec_carry hs id (f := Supervised.breakOff s.settings outcome) (fun hid => ?_)
    (fun hid => ?_) ?_
  · exact moves_stay (by rintro (h | h) <;> cases h) nofun nofun
  · exact .breakOff outcome (hid ▸ rfl)
  · exact fun _ => Supervised.phase_carry _ _

/-- What giving a free slot away makes of the exports: one task that waits may be given it, and
leaves the queue then. -/
structure Grants (s later : Orchestrator) (g : Supervised → Supervised) : Prop where
  exports : later.exports = s.exports.map g
  issued : later.issued = s.issued
  nodup_queue : later.queue.Nodup
  moves : ∀ t ∈ s.exports, g t = t ∨ t.phase = .waiting ∧ g t = { t with phase := .granted }
  waiting : ∀ id ∈ later.queue, ∃ t ∈ s.exports, t.id = id ∧ t.phase = .waiting ∧ g t = t

theorem Sound.grants_refl (hs : s.Sound) : s.Grants s id where
  exports := (List.map_id _).symm
  issued := rfl
  nodup_queue := hs.nodup_queue
  moves _ _ := .inl rfl
  waiting id hid := by
    obtain ⟨t, ht, hid, hphase⟩ := hs.waiting id hid
    exact ⟨t, ht, hid, hphase, rfl⟩

/-- **A free slot goes to the task that has waited longest.** -/
theorem Sound.exists_grants (hs : s.Sound) : ∃ g, s.Grants s.grant g := by
  have hsame : s.grant = s → ∃ g, s.Grants s.grant g := fun h => ⟨id, h.symm ▸ hs.grants_refl⟩
  cases hqueue : s.queue with
  | nil => exact hsame (by rw [grant, hqueue])
  | cons first rest =>
    cases hslot : s.hasSlot with
    | false => exact hsame (by simp [grant, hqueue, hslot])
    | true =>
      have hgrant : s.grant =
          { s.change first fun t => { t with phase := .granted } with queue := rest } := by
        simp [grant, hqueue, hslot]
      -- the first task stands in the queue once, so the others go on waiting
      obtain ⟨hfirst, hrest⟩ := List.nodup_cons.mp (hqueue ▸ hs.nodup_queue)
      rw [hgrant]
      refine ⟨_, rfl, rfl, hrest, fun t ht => ?_, fun id hid => ?_⟩
      · split
        · next hid =>
          obtain ⟨t', ht', hid', hphase⟩ := hs.waiting first (hqueue ▸ List.mem_cons_self)
          obtain rfl := hs.eq_of_id ht' ht (hid'.trans hid.symm)
          exact .inr ⟨hphase, rfl⟩
        · exact .inl rfl
      · obtain ⟨t, ht, rfl, hphase⟩ := hs.waiting id (hqueue ▸ List.mem_cons_of_mem _ hid)
        refine ⟨t, ht, rfl, hphase, if_neg ?_⟩
        rintro rfl
        exact hfirst hid

/-- The queue after a step of a task: the task stands in it if and only if it waits. -/
theorem Sound.queue_step (hs : s.Sound) {t after : Supervised} (ht : t ∈ s.exports)
    {queue : List String}
    (hqueue : queue = if after.phase = .waiting ∧ t.phase ≠ .waiting then s.queue ++ [t.id]
      else if after.phase = .waiting then s.queue else s.queue.filter (· ≠ t.id)) :
    queue.Nodup ∧ ∀ id ∈ queue, id = t.id ∧ after.phase = .waiting ∨ id ≠ t.id ∧ id ∈ s.queue := by
  split at hqueue
  · next h =>
    obtain ⟨hafter, hphase⟩ := h
    -- what stands in the queue waits already
    have hnew : t.id ∉ s.queue := fun hmem => by
      obtain ⟨t', ht', hid, hwaiting⟩ := hs.waiting t.id hmem
      exact hphase (hs.eq_of_id ht' ht hid ▸ hwaiting)
    rw [hqueue]
    refine ⟨List.nodup_append.mpr ⟨hs.nodup_queue, List.nodup_singleton _, ?_⟩, fun id hid => ?_⟩
    · rintro id hid _ hmem rfl
      exact hnew (List.mem_singleton.mp hmem ▸ hid)
    · obtain hid | hid := List.mem_append.mp hid
      · exact .inr ⟨fun heq => hnew (heq ▸ hid), hid⟩
      · exact .inl ⟨List.mem_singleton.mp hid, hafter⟩
  · split at hqueue
    · next hafter =>
      rw [hqueue]
      refine ⟨hs.nodup_queue, fun id hid => ?_⟩
      by_cases heq : id = t.id
      · exact .inl ⟨heq, hafter⟩
      · exact .inr ⟨heq, hid⟩
    · rw [hqueue]
      refine ⟨hs.nodup_queue.filter _, fun id hid => .inr ?_⟩
      obtain ⟨hmem, hne⟩ := List.mem_filter.mp hid
      exact ⟨of_decide_eq_true hne, hmem⟩

theorem moves_supervise_stay {id : String} {t : Supervised} (h : t.id ≠ id) :
    Supervised.Moves s (.supervise id) t t := by
  refine moves_stay ?_ (fun heq => ?_) nofun
  · rintro (heq | heq) <;> cases heq
  · cases heq
    exact h rfl

/-- A task takes a step, the queue follows, and the slot of a task that ended is given away. -/
theorem spec_stepped (hs : s.Sound) {t after : Supervised} (ht : t ∈ s.exports)
    (hafter : after = (t.step s.settings s.now s.mayEnter s.host).2) {stepped : Orchestrator}
    (hexports : stepped.exports = s.exports.map fun x => if x.id = t.id then after else x)
    (hissued : stepped.issued = s.issued)
    (hqueue : stepped.queue =
      if after.phase = .waiting ∧ t.phase ≠ .waiting then s.queue ++ [t.id]
      else if after.phase = .waiting then s.queue else s.queue.filter (· ≠ t.id)) :
    (if after.phase = .ended then stepped.grant else stepped).Sound ∧
      Advances (.supervise t.id) s (if after.phase = .ended then stepped.grant else stepped) := by
  have hmoves : ∀ x ∈ s.exports, Supervised.Moves s (.supervise t.id) x
      (if x.id = t.id then after else x) := fun x hx => by
    split
    · next hid =>
      obtain rfl := hs.eq_of_id hx ht hid
      exact hafter ▸ .step rfl
    · next hid => exact moves_supervise_stay hid
  obtain ⟨hnodup, hmem⟩ := hs.queue_step ht hqueue
  have hsound : stepped.Sound := by
    refine hs.of_map hexports hmoves hissued hnodup fun id hid => ?_
    obtain ⟨rfl, hphase⟩ | ⟨hne, hid⟩ := hmem id hid
    · exact ⟨t, ht, rfl, by rwa [if_pos rfl]⟩
    · obtain ⟨x, hx, rfl, hphase⟩ := hs.waiting id hid
      exact ⟨x, hx, rfl, by rwa [if_neg hne]⟩
  split
  · next hended =>
    obtain ⟨g, hgrants⟩ := hsound.exists_grants
    have hall : stepped.grant.exports =
        s.exports.map fun x => g (if x.id = t.id then after else x) := by
      rw [hgrants.exports, hexports, List.map_map]
      rfl
    have hgall : ∀ x ∈ s.exports, Supervised.Moves s (.supervise t.id) x
        (g (if x.id = t.id then after else x)) := fun x hx => by
      have hx' : (if x.id = t.id then after else x) ∈ stepped.exports :=
        hexports ▸ List.mem_map_of_mem hx
      obtain hstays | ⟨hwaiting, hgranted⟩ := hgrants.moves _ hx'
      · rw [hstays]
        exact hmoves x hx
      · -- the task that ended does not wait, so the slot goes to another one
        have hid : x.id ≠ t.id := fun hid => by
          rw [if_pos hid, hended] at hwaiting
          cases hwaiting
        rw [if_neg hid] at hwaiting hgranted ⊢
        rw [hgranted]
        exact .grant hwaiting t.id hid rfl
    refine ⟨hs.of_map hall hgall (hgrants.issued.trans hissued) hgrants.nodup_queue
      fun id hid => ?_, advances_of_map hall hgall⟩
    obtain ⟨x', hx', rfl, hphase, hstays⟩ := hgrants.waiting id hid
    rw [hexports] at hx'
    obtain ⟨x, hx, rfl⟩ := List.mem_map.mp hx'
    refine ⟨x, hx, ((hmoves x hx).id_eq (hs.exports x hx)).symm, ?_⟩
    rw [hstays]
    exact hphase
  · exact ⟨hsound, advances_of_map hexports hmoves⟩

theorem spec_supervise (hs : s.Sound) (id : String) :
    (s.supervise id).Sound ∧ Advances (.supervise id) s (s.supervise id) := by
  unfold supervise
  split
  · next hnone =>
    refine ⟨hs, advances_of_map (List.map_id _).symm fun t ht => moves_supervise_stay ?_⟩
    simpa using List.find?_eq_none.mp hnone t ht
  · next t hsome =>
    have ht : t ∈ s.exports := List.mem_of_find?_eq_some hsome
    obtain rfl : t.id = id := by simpa using List.find?_some hsome
    exact spec_stepped hs ht rfl rfl rfl rfl

/-- A sweep leaves the orchestrator as it is but for the jobs that are known. -/
theorem sweep_eq_ok_iff {swept : Orchestrator} :
    s.sweep = .ok swept ↔
      (s.settings.jobRetentionHours ≤ 0 ∧ swept = s) ∨
      (0 < s.settings.jobRetentionHours ∧
        ∃ cutoff, s.now.hoursAgo s.settings.jobRetentionHours = .ok cutoff ∧
          swept = { s with exports := s.exports.map fun t =>
            { t with known := t.known && !isExpired cutoff t } }) := by
  unfold sweep
  split
  · next hever =>
    rw [Except.ok.injEq, eq_comm, and_iff_right hever]
    exact (or_iff_left fun h => Int.not_lt.mpr hever h.1).symm
  · next hkeeps =>
    rw [bind_eq_ok, or_iff_right fun h => hkeeps h.1, and_iff_right (Int.not_le.mp hkeeps)]
    simp only [pure, Except.pure, Except.ok.injEq, eq_comm]

/-- Only jobs that have ended are forgotten. -/
theorem exists_of_sweep_eq_ok {swept : Orchestrator} (h : s.sweep = .ok swept)
    (request : ExportRequest) :
    ∃ f, swept = { s with exports := s.exports.map f } ∧
      (∀ t ∈ s.exports, Supervised.Moves s (.submit request) t (f t)) ∧
      ∀ t, (f t).phase = t.phase := by
  have hstay : ∀ t : Supervised, Supervised.Moves s (.submit request) t t := fun t =>
    moves_stay (by rintro (h | h) <;> cases h) nofun nofun
  obtain ⟨-, rfl⟩ | ⟨-, cutoff, -, rfl⟩ := sweep_eq_ok_iff.mp h
  · exact ⟨id, by rw [List.map_id], fun t _ => hstay t, fun _ => rfl⟩
  · refine ⟨_, rfl, fun t _ => ?_, fun _ => rfl⟩
    cases hexpired : isExpired cutoff t with
    | false =>
      rw [Bool.not_false, Bool.and_true]
      exact hstay t
    | true =>
      rw [Bool.not_true, Bool.and_false]
      exact .forget (Bool.and_eq_true_iff.mp hexpired).1 request rfl

/-- **What a submit does.** A timeline that is not valid changes nothing, and neither does one that
comes when no sweep is possible; otherwise there is a sweep, and the new job comes last. -/
theorem submit_cases (s : Orchestrator) (request : ExportRequest) :
    (∃ fault, validate request.clips request.tracks request.settings = .error fault ∧
      s.submit request = (.error (.invalid fault.toError), s)) ∨
    validate request.clips request.tracks request.settings = .ok () ∧
      ((∃ fault, s.sweep = .error fault ∧ s.submit request = (.error (.calendar fault), s)) ∨
        ∃ f, s.sweep = .ok { s with exports := s.exports.map f } ∧
          (∀ t ∈ s.exports, Supervised.Moves s (.submit request) t (f t)) ∧
          (∀ t, (f t).phase = t.phase) ∧
          s.submit request = (.ok s.nextId, { s with
            issued := s.issued + 1
            exports := s.exports.map f ++
              [{ execution := { job := s.newJob request, request } }] })) := by
  unfold submit
  split
  · next fault hfault => exact .inl ⟨fault, hfault, rfl⟩
  · next hvalid =>
    refine .inr ⟨hvalid, ?_⟩
    split
    · next fault hfault => exact .inl ⟨fault, hfault, rfl⟩
    · next swept hswept =>
      obtain ⟨f, rfl, hmoves, hphase⟩ := exists_of_sweep_eq_ok hswept request
      exact .inr ⟨f, hswept, hmoves, hphase, rfl⟩

theorem spec_submit (hs : s.Sound) (request : ExportRequest) :
    (s.submit request).2.Sound ∧ Advances (.submit request) s (s.submit request).2 := by
  have hrefused : s.Sound ∧ Advances (.submit request) s s :=
    ⟨hs, advances_of_map (List.map_id _).symm fun t _ =>
      moves_stay (by rintro (h | h) <;> cases h) nofun nofun⟩
  obtain ⟨fault, -, heq⟩ | ⟨-, ⟨fault, -, heq⟩ | ⟨f, -, hmoves, hphase, heq⟩⟩ :=
    s.submit_cases request
  · exact heq ▸ hrefused
  · exact heq ▸ hrefused
  · have hsound : Sound { s with exports := s.exports.map f } :=
      hs.of_map_of_phase rfl hmoves rfl rfl hphase
    rw [heq]
    generalize hnew : ({ execution := { job := _, request } } : Supervised) = new
    have hid : new.id = idOf s.issued := hnew ▸ rfl
    have hcreated : new.job.createdAt = s.now := hnew ▸ rfl
    have hnew : new.IsNew := ⟨_, request, hnew.symm, rfl⟩
    refine ⟨⟨?_, fun t ht => ?_, hsound.nodup_queue, fun id hid => ?_⟩,
      ⟨f, [new], rfl, hmoves, by simpa using ⟨hnew, hcreated⟩⟩⟩
    · rw [List.map_append, hsound.ids, List.range_succ, List.map_append, List.map_singleton,
        List.map_singleton, hid]
    · obtain ht | ht := List.mem_append.mp ht
      · exact hsound.exports t ht
      · rw [List.mem_singleton.mp ht]
        exact hnew.sound.1
    · obtain ⟨t, ht, hid⟩ := hsound.waiting id hid
      exact ⟨t, List.mem_append_left _ ht, hid⟩

/-- **An event keeps an orchestrator in order**, and each export makes a move. -/
theorem spec_apply (hs : s.Sound) (event : OrchestratorEvent) :
    (s.apply event).Sound ∧ Advances event s (s.apply event) := by
  cases event with
  | submit request => exact spec_submit hs request
  | cancel id => exact spec_cancel hs id
  | shutdown => exact spec_shutdown hs
  | supervise id => exact spec_supervise hs id
  | work id => exact spec_work hs id
  | breakOff id outcome => exact spec_breakOff hs id outcome
  | deadline id => exact spec_deadline hs id
  | release =>
    refine ⟨⟨hs.ids, hs.exports, hs.nodup_queue, hs.waiting⟩, advances_of_map (List.map_id _).symm
      fun t _ => moves_stay (by rintro (h | h) <;> cases h) nofun nofun⟩
  | tick microseconds =>
    refine ⟨⟨hs.ids, hs.exports, hs.nodup_queue, hs.waiting⟩, advances_of_map (List.map_id _).symm
      fun t _ => moves_stay (by rintro (h | h) <;> cases h) nofun nofun⟩

/-- An event leaves the settings as they are, and the clock too unless time passes. -/
theorem settings_now_apply (s : Orchestrator) (event : OrchestratorEvent) :
    (s.apply event).settings = s.settings ∧
      ((s.apply event).now = s.now ∨
        ∃ microseconds, (s.apply event).now = s.now.later microseconds) := by
  have hgrant : ∀ s : Orchestrator, s.grant.settings = s.settings ∧ s.grant.now = s.now :=
    fun s => by
      unfold grant
      split
      · exact ⟨rfl, rfl⟩
      · split <;> exact ⟨rfl, rfl⟩
  have hcarry : ∀ (s : Orchestrator) id f,
      (s.carry id f).settings = s.settings ∧ (s.carry id f).now = s.now := fun s id f => by
    unfold carry
    split <;> exact ⟨rfl, rfl⟩
  cases event with
  | submit request =>
    obtain ⟨fault, -, heq⟩ | ⟨-, ⟨fault, -, heq⟩ | ⟨f, -, -, -, heq⟩⟩ := s.submit_cases request
    all_goals exact ⟨congrArg (·.2.settings) heq, .inl (congrArg (·.2.now) heq)⟩
  | cancel id =>
    simp only [apply, cancel]
    repeat' split
    all_goals exact ⟨rfl, .inl rfl⟩
  | supervise id =>
    simp only [apply, supervise]
    repeat' split
    all_goals first | exact ⟨rfl, .inl rfl⟩ | exact (hgrant _).imp_right .inl
  | work id => exact (hcarry _ _ _).imp_right .inl
  | breakOff id outcome => exact (hcarry _ _ _).imp_right .inl
  | shutdown => exact ⟨rfl, .inl rfl⟩
  | deadline id => exact ⟨rfl, .inl rfl⟩
  | release => exact ⟨rfl, .inl rfl⟩
  | tick microseconds => exact ⟨rfl, .inr ⟨microseconds, rfl⟩⟩

/-! ### Runs -/

/-- The settings of an orchestrator do not change. -/
theorem settings_run (s : Orchestrator) (events : List OrchestratorEvent) :
    (s.run events).settings = s.settings := by
  induction events generalizing s with
  | nil => rfl
  | cons event events ih => exact (ih _).trans (s.settings_now_apply event).1

theorem sound_start (settings : ServiceSettings) (host : Host) : (start settings host).Sound where
  ids := rfl
  exports := by simp [start]
  nodup_queue := List.nodup_nil
  waiting := by simp [start]

theorem run_append (s : Orchestrator) (before after : List OrchestratorEvent) :
    s.run (before ++ after) = (s.run before).run after :=
  List.foldl_append

theorem Sound.run (hs : s.Sound) (events : List OrchestratorEvent) : (s.run events).Sound := by
  induction events generalizing s with
  | nil => exact hs
  | cons event events ih => exact ih (spec_apply hs event).1

/-- **An orchestrator is in order after every list of events.** -/
theorem sound_run (settings : ServiceSettings) (host : Host) (events : List OrchestratorEvent) :
    ((start settings host).run events).Sound :=
  (sound_start settings host).run events

/-- An export that is there makes a move and stays there. -/
theorem Sound.exists_apply (hs : s.Sound) (event : OrchestratorEvent) {t : Supervised}
    (ht : t ∈ s.exports) :
    ∃ later ∈ (s.apply event).exports, later.id = t.id ∧
      Supervised.Moves s event t later := by
  obtain ⟨f, fresh, hexports, hmoves, -⟩ := (spec_apply hs event).2
  refine ⟨f t, ?_, (hmoves t ht).id_eq (hs.exports t ht), hmoves t ht⟩
  rw [hexports]
  exact List.mem_append_left _ (List.mem_map_of_mem ht)

/-- An export is what a move made of one that was there, or it is new. -/
theorem Sound.of_mem_apply (hs : s.Sound) {later : Supervised}
    (hlater : later ∈ (s.apply event).exports) :
    (∃ t ∈ s.exports, later.id = t.id ∧ Supervised.Moves s event t later) ∨
      later.id ∉ s.exports.map (·.id) ∧ later.IsNew := by
  obtain ⟨f, fresh, hexports, hmoves, hfresh⟩ := (spec_apply hs event).2
  have hids := (spec_apply hs event).1.nodup_ids
  rw [hexports] at hlater hids
  obtain hlater | hlater := List.mem_append.mp hlater
  · obtain ⟨t, ht, rfl⟩ := List.mem_map.mp hlater
    exact .inl ⟨t, ht, (hmoves t ht).id_eq (hs.exports t ht), hmoves t ht⟩
  · refine .inr ⟨fun hmem => ?_, (hfresh later hlater).1⟩
    obtain ⟨t, ht, hid⟩ := List.mem_map.mp hmem
    rw [List.map_append] at hids
    refine List.disjoint_of_nodup_append hids (List.mem_map_of_mem (List.mem_map_of_mem ht)) ?_
    rw [(hmoves t ht).id_eq (hs.exports t ht), hid]
    exact List.mem_map_of_mem hlater

end Orchestrator

end TimelineExport

import TimelineExport.Overlay.Pass
import TimelineExport.Proofs.Lookup

/-!
# What a pass writes

The workers of a pass share a store of drawn frames, and what one of them keeps another may write.
That does no harm if the plan is sound: frames whose keys are the same are drawn alike. Then the
store holds drawings of frames, and whatever a worker holds or has written is the drawing of its
own frame (`FramePass.Faithful`). `Moves` lists what can happen in a pass. Each move keeps it
faithful (`Faithful.moves`), so any number of events do, however the workers take turns
(`Faithful.run`).
-/

namespace TimelineExport

variable {κ γ δ : Type}

/-! ### Files -/

/-- **A file that is put** is found under its name, and the other files stay. -/
theorem lookup_putFile (files : List (String × Option γ)) (name other : String) (data : γ) :
    (putFile files name data).lookup other =
      if other = name then some (some data) else files.lookup other := by
  have hsome : (files.lookup name).isSome ↔ files.any (·.1 = name) = true :=
    isSome_lookup_iff files
  unfold putFile
  split
  · next hany =>
    obtain ⟨old, hold⟩ := Option.isSome_iff_exists.mp (hsome.mpr hany)
    rw [lookup_overwrite, hold, Option.map_some]
  · rw [List.lookup_cons]
    by_cases heq : other = name
    · simp [heq]
    · simp [heq, beq_eq_false_iff_ne.mpr heq]

namespace FramePlan

/-- **A sound plan**: frames that are found by one another's key are drawn alike, and no two frames
have the same name. -/
structure IsSound (plan : FramePlan κ γ) : Prop where
  draw_eq : ∀ m n key key', plan.key m = some key → plan.key n = some key' →
    plan.same key key' = true → plan.draw m = plan.draw n
  name_ne : ∀ m n, m ≠ n → plan.name m ≠ plan.name n

/-- The plan in which what is drawn is encoded as well. -/
def encoded (encode : γ → δ) (plan : FramePlan κ γ) : FramePlan κ δ :=
  { plan with draw := fun n => (plan.draw n).map encode }

/-- The plan without a store. -/
def unkept (plan : FramePlan κ γ) : FramePlan κ γ := { plan with key := fun _ => none }

theorem IsSound.encoded {plan : FramePlan κ γ} (h : plan.IsSound) (encode : γ → δ) :
    (plan.encoded encode).IsSound where
  draw_eq m n key key' hm hn hsame :=
    congrArg (Except.map encode) (h.draw_eq m n key key' hm hn hsame)
  name_ne := h.name_ne

end FramePlan

namespace FramePass

variable {plan : FramePlan κ γ} {s : FramePass κ γ} {n : Nat}

@[simp]
theorem workOf_setWork (s : FramePass κ γ) (n m : Nat) (w : FrameWork γ) :
    (s.setWork n w).workOf m = if m = n then some w else s.workOf m := by
  unfold workOf setWork
  rw [List.lookup_cons]
  by_cases heq : m = n
  · simp [heq]
  · simp [heq, beq_eq_false_iff_ne.mpr heq]

/-- **What can happen in a pass**, with the state after it. -/
inductive Moves (plan : FramePlan κ γ) (s : FramePass κ γ) : FramePass κ γ → Prop
  | look {n : Nat} (hn : n < plan.total) (hwork : s.workOf n = none) : Moves plan s (s.look plan n)
  | draw {n : Nat} (hwork : s.workOf n = some .absent) : Moves plan s (s.draw plan n)
  | keep {n : Nat} {data : γ} (hwork : s.workOf n = some (.drawn data)) :
    Moves plan s (s.keep plan n data)
  | write {n : Nat} {data : γ} (hwork : s.workOf n = some (.ready data)) :
    Moves plan s (s.write plan n data)
  | breakOff {n : Nat} (reason : String) (hactive : s.isActive n = true) :
    Moves plan s (s.setWork n (.failed (.worker reason)))
  | collect {n : Nat} (hopen : s.closed = false) (hfailure : s.failure = none)
    (hnew : n ∉ s.collected) : Moves plan s (s.collect plan n)
  | drop {n : Nat} (hopen : s.closed = false) (habandoned : s.isAbandoned = true)
    (hn : n < plan.total) (hwork : s.workOf n = none) : Moves plan s (s.setWork n .dropped)
  | cancel : Moves plan s { s with cancelled := true }
  | close (hclose : s.mayClose plan = true) : Moves plan s (s.close plan)

/-- **An event is a move or changes nothing.** -/
theorem step_eq_or_moves (plan : FramePlan κ γ) (s : FramePass κ γ) (event : FrameEvent) :
    s.step plan event = s ∨ s.Moves plan (s.step plan event) := by
  cases event with
  | look n =>
    simp only [step]
    split
    · next h => exact .inr (.look h.1 (Option.isNone_iff_eq_none.mp h.2))
    · exact .inl rfl
  | draw n =>
    simp only [step]
    split
    · next h => exact .inr (.draw h)
    · exact .inl rfl
  | keep n =>
    simp only [step]
    split
    · next h => exact .inr (.keep h)
    · exact .inl rfl
  | write n =>
    simp only [step]
    split
    · next h => exact .inr (.write h)
    · exact .inl rfl
  | breakOff n reason =>
    simp only [step]
    split
    · next h => exact .inr (.breakOff reason h)
    · exact .inl rfl
  | collect n =>
    simp only [step]
    split
    · next h =>
      exact .inr (.collect (by simpa using h.1) (Option.isNone_iff_eq_none.mp h.2.1)
        (by simpa using h.2.2))
    · exact .inl rfl
  | drop n =>
    simp only [step]
    split
    · next h =>
      exact .inr (.drop (by simpa using h.1) h.2.1 h.2.2.1 (Option.isNone_iff_eq_none.mp h.2.2.2))
    · exact .inl rfl
  | cancel => exact .inr .cancel
  | close =>
    simp only [step]
    split
    · next h => exact .inr (.close h)
    · exact .inl rfl

/-- What every move keeps is kept by any number of events. -/
theorem run_of_moves {P : FramePass κ γ → Prop}
    (hmoves : ∀ s t : FramePass κ γ, P s → s.Moves plan t → P t) (h : P s)
    (events : List FrameEvent) : P (s.run plan events) := by
  induction events generalizing s with
  | nil => exact h
  | cons event events ih =>
    rcases step_eq_or_moves plan s event with hsame | hmove
    · change P ((s.step plan event).run plan events)
      rw [hsame]
      exact ih h
    · exact ih (hmoves _ _ h hmove)

/-- The file of a frame, as long as there is a directory. -/
def fileOf (plan : FramePlan κ γ) (s : FramePass κ γ) (n : Nat) : Option (Option γ) :=
  s.directory.bind (·.lookup (plan.name n))

/-- Whether a frame has been written. -/
def isWritten (s : FramePass κ γ) (n : Nat) : Bool :=
  match s.workOf n with
  | some .written => true
  | _ => false

theorem isWritten_iff : s.isWritten n = true ↔ s.workOf n = some .written := by
  unfold isWritten
  split
  · next h => exact iff_of_true rfl h
  · next h => exact iff_of_false Bool.false_ne_true h

/-- What is to hold of a frame that is so far, with the files that there are. -/
def Honest (plan : FramePlan κ γ) (directory : Option (List (String × Option γ))) (n : Nat) :
    FrameWork γ → Prop
  | .absent => True
  | .drawn data | .ready data => plan.draw n = .ok data
  | .written => ∃ data, plan.draw n = .ok data ∧
      ∀ files ∈ directory, files.lookup (plan.name n) = some (some data)
  | .failed _ | .dropped => True

/-- What holds of a frame goes on to hold if its file, once written, stays as it is. -/
theorem Honest.files {directory directory' : Option (List (String × Option γ))}
    {w : FrameWork γ} (h : Honest plan directory n w)
    (hfiles : ∀ data, plan.draw n = .ok data →
      (∀ files ∈ directory, files.lookup (plan.name n) = some (some data)) →
      ∀ files ∈ directory', files.lookup (plan.name n) = some (some data)) :
    Honest plan directory' n w := by
  cases w with
  | absent => trivial
  | drawn => exact h
  | ready => exact h
  | written =>
    obtain ⟨data, hdata, hbefore⟩ := h
    exact ⟨data, hdata, hfiles data hdata hbefore⟩
  | failed => trivial
  | dropped => trivial

/-- **A faithful pass**: what is kept is the drawing of a frame with the key under which it is kept,
and what a worker holds or has written is the drawing of its frame. -/
structure Faithful (plan : FramePlan κ γ) (s : FramePass κ γ) : Prop where
  kept : ∀ entry ∈ s.kept, ∃ m, plan.key m = some entry.1 ∧ plan.draw m = .ok entry.2
  honest : ∀ n w, s.workOf n = some w → Honest plan s.directory n w
  begun : ∀ n w, s.workOf n = some w → n < plan.total

namespace Faithful

theorem start (plan : FramePlan κ γ) (files : List (String × Option γ)) :
    Faithful plan { directory := some files } where
  kept _ h := nomatch h
  honest _ _ h := nomatch h
  begun _ _ h := nomatch h

/-- Only the store, the workers and the files count. -/
theorem congr (h : s.Faithful plan) {t : FramePass κ γ} (hkept : t.kept = s.kept)
    (hwork : t.work = s.work) (hdirectory : t.directory = s.directory) : t.Faithful plan where
  kept := hkept ▸ h.kept
  honest m w hw := hdirectory ▸ h.honest m w (by rwa [workOf, ← hwork])
  begun m w hw := h.begun m w (by rwa [workOf, ← hwork])

/-- A worker may come to hold what is the drawing of its frame. -/
theorem setWork (h : s.Faithful plan) {w : FrameWork γ} (hw : Honest plan s.directory n w)
    (hn : n < plan.total) : (s.setWork n w).Faithful plan where
  kept := h.kept
  honest m v hv := by
    rw [workOf_setWork] at hv
    split at hv
    · next heq =>
      cases hv
      exact heq ▸ hw
    · exact h.honest m v hv
  begun m v hv := by
    rw [workOf_setWork] at hv
    split at hv
    · next heq => exact heq ▸ hn
    · exact h.begun m v hv

/-- What is found in the store is the drawing of the frame for which it was looked up. -/
theorem look (h : s.Faithful plan) (hplan : plan.IsSound) (hn : n < plan.total) :
    (s.look plan n).Faithful plan := by
  unfold FramePass.look
  split
  · exact h.setWork trivial hn
  · split
    · next entry hfound =>
      obtain ⟨key, hkey, hfind⟩ := Option.bind_eq_some_iff.mp hfound
      obtain ⟨m, hm, hdraw⟩ := h.kept entry (List.mem_of_find?_eq_some hfind)
      have hsame : plan.same key entry.1 = true := List.find?_some (a := entry) hfind
      exact h.setWork ((hplan.draw_eq n m key entry.1 hkey hm hsame).trans hdraw) hn
    · exact h.setWork trivial hn

theorem draw (h : s.Faithful plan) (hn : n < plan.total) : (s.draw plan n).Faithful plan := by
  unfold FramePass.draw
  split
  · next hdraw => exact h.setWork hdraw hn
  · exact h.setWork trivial hn

theorem keep (h : s.Faithful plan) {data : γ} (hdata : plan.draw n = .ok data)
    (hn : n < plan.total) : (s.keep plan n data).Faithful plan := by
  unfold FramePass.keep
  split
  · exact h.setWork hdata hn
  · next key hkey =>
    have hkept : Faithful plan
        { s with kept := (key, data) :: s.kept.filter fun entry => !plan.same key entry.1 } := by
      refine ⟨fun entry hentry => ?_, h.honest, h.begun⟩
      obtain rfl | hentry := List.mem_cons.mp hentry
      · exact ⟨n, hkey, hdata⟩
      · exact h.kept entry (List.mem_of_mem_filter hentry)
    exact hkept.setWork hdata hn

/-- A frame that is written overwrites no other one. -/
theorem write (h : s.Faithful plan) (hplan : plan.IsSound) {data : γ}
    (hdata : plan.draw n = .ok data) (hn : n < plan.total) :
    (s.write plan n data).Faithful plan := by
  -- what holds of another frame's file before holds after
  have hfile (m : Nat) (shown : γ) (hshown : plan.draw m = .ok shown)
      (hother : m ≠ n → ∀ files ∈ s.directory, files.lookup (plan.name m) = some (some shown)) :
      ∀ files ∈ s.directory.map fun files => putFile files (plan.name n) data,
        files.lookup (plan.name m) = some (some shown) := by
    intro files hfiles
    obtain ⟨before, hbefore, rfl⟩ := Option.map_eq_some_iff.mp hfiles
    rw [lookup_putFile]
    by_cases hsame : m = n
    · subst hsame
      rw [if_pos rfl, Except.ok.inj (hdata.symm.trans hshown)]
    · rw [if_neg (hplan.name_ne m n hsame)]
      exact hother hsame before hbefore
  have hput : Faithful plan
      { s with directory := s.directory.map fun files => putFile files (plan.name n) data } := by
    refine ⟨h.kept, fun m w hw => ?_, h.begun⟩
    exact (h.honest m w hw).files fun shown hshown hbefore => hfile m shown hshown fun _ => hbefore
  have hwritten := hfile n data hdata fun hne => absurd rfl hne
  exact hput.setWork ⟨data, hdata, hwritten⟩ hn

theorem collect (h : s.Faithful plan) (n : Nat) : (s.collect plan n).Faithful plan := by
  unfold FramePass.collect
  split
  · exact h.congr rfl rfl rfl
  · dsimp only
    split <;> exact h.congr rfl rfl rfl
  · exact h

/-- A directory that is removed holds no wrong file. -/
theorem close (h : s.Faithful plan) : (s.close plan).Faithful plan := by
  have hfiles : ∀ files ∈ (s.close plan).directory, files ∈ s.directory := by
    intro files hfiles
    unfold FramePass.close at hfiles
    dsimp only at hfiles
    split at hfiles
    · cases hfiles
    · exact hfiles
  refine ⟨h.kept, fun m w hw => ?_, h.begun⟩
  exact (h.honest m w hw).files fun _ _ hbefore files hmem => hbefore files (hfiles files hmem)

/-- **A move keeps a pass faithful.** -/
theorem moves (h : s.Faithful plan) (hplan : plan.IsSound) {t : FramePass κ γ}
    (hmove : s.Moves plan t) : t.Faithful plan := by
  cases hmove with
  | look hn => exact h.look hplan hn
  | draw hwork => exact h.draw (h.begun _ _ hwork)
  | keep hwork => exact h.keep (h.honest _ _ hwork) (h.begun _ _ hwork)
  | write hwork => exact h.write hplan (h.honest _ _ hwork) (h.begun _ _ hwork)
  | @breakOff n reason hactive =>
    cases hwork : s.workOf n with
    | none => simp [isActive, hwork] at hactive
    | some w => exact h.setWork trivial (h.begun n w hwork)
  | collect => exact h.collect _
  | drop _ _ hn => exact h.setWork trivial hn
  | cancel => exact h.congr rfl rfl rfl
  | close => exact h.close

/-- **Every course of a pass is faithful.** -/
theorem run (h : s.Faithful plan) (hplan : plan.IsSound) (events : List FrameEvent) :
    (s.run plan events).Faithful plan :=
  run_of_moves (P := Faithful plan) (fun _ _ h hmove => h.moves hplan hmove) h events

end Faithful

/-- A frame that is drawn alone and without a store is written as it is drawn. -/
theorem fileOf_run_alone {data : γ} (hn : n < plan.total) (hdraw : plan.draw n = .ok data)
    (files : List (String × Option γ)) :
    fileOf plan (run plan.unkept { directory := some files } [.look n, .draw n, .keep n, .write n])
      n = some (some data) := by
  have hdirectory : (run plan.unkept { directory := some files }
      [.look n, .draw n, .keep n, .write n]).directory =
        some (putFile files (plan.name n) data) := by
    simp [run, step, FramePlan.unkept, hn, hdraw, workOf, look, draw, keep, write, setWork]
  rw [fileOf, hdirectory, Option.bind_some, lookup_putFile, if_pos rfl]

end FramePass

end TimelineExport

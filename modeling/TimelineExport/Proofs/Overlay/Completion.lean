import Mathlib
import TimelineExport.Proofs.Overlay.Pass

/-!
# How a pass ends

A pass over the frames of an overlay fills a directory from many workers, and any of them may fail
at any moment. Still its end is one of two: all frames are there, or the directory is not.

`Advances` lists the moves that change a pass. `Orderly` is what they keep: frames are collected
when they are written, the reports count them, the directory holds the files that are written and no
others, and a failure has a cause. A pass that is closed is at rest, so nothing is written into a
directory that was removed (`Orderly.run_of_closed`). Every move uses up some of what `remaining`
measures, and a pass that is not closed can always move, so a pass ends however the workers take
turns (`Orderly.length_add_remaining_le`, `Orderly.exists_closed`).
-/

namespace TimelineExport

variable {κ γ : Type}

/-- **A numbered plan**: the files of frames have names of their own, by which they are known as
frames. -/
structure FramePlan.IsNumbered (plan : FramePlan κ γ) : Prop where
  name_injective : Function.Injective plan.name
  name_prefix : ∀ n, "frame_".toList.isPrefixOf (plan.name n).toList = true

/-- How many steps of a worker a frame is away from being settled, at most. -/
def FrameWork.rank : FrameWork γ → Nat
  | absent => 3
  | drawn _ => 2
  | ready _ => 1
  | written | failed _ | dropped => 0

/-! ### Files -/

theorem map_fst_putFile (files : List (String × Option γ)) (name : String) (data : γ) :
    (putFile files name data).map (·.1) =
      if name ∈ files.map (·.1) then files.map (·.1) else name :: files.map (·.1) := by
  have hany : files.any (·.1 = name) = true ↔ name ∈ files.map (·.1) := by simp
  unfold putFile
  simp only [hany]
  split
  · rw [List.map_map]
    refine List.map_congr_left fun f _ => ?_
    by_cases hf : f.1 = name
    · simp [hf]
    · simp [hf]
  · rfl

theorem mem_map_putFile_iff {files : List (String × Option γ)} {name other : String} {data : γ} :
    other ∈ (putFile files name data).map (·.1) ↔ name = other ∨ other ∈ files.map (·.1) := by
  rw [map_fst_putFile]
  split
  · next hmem =>
    refine (or_iff_right_of_imp ?_).symm
    rintro rfl
    exact hmem
  · rw [List.mem_cons, eq_comm]

theorem nodup_putFile {files : List (String × Option γ)} {name : String} {data : γ}
    (h : (files.map (·.1)).Nodup) : ((putFile files name data).map (·.1)).Nodup := by
  rw [map_fst_putFile]
  split
  · exact h
  · next hmem => exact List.nodup_cons.mpr ⟨hmem, h⟩

theorem isSome_putFile {files : List (String × Option γ)} {name : String} {data : γ}
    (h : ∀ f ∈ files, f.2.isSome) : ∀ f ∈ putFile files name data, f.2.isSome := by
  intro f hf
  unfold putFile at hf
  split at hf
  · obtain ⟨g, hg, rfl⟩ := List.mem_map.mp hf
    split
    · rfl
    · exact h g hg
  · rcases List.mem_cons.mp hf with rfl | hf
    · rfl
    · exact h f hf

namespace FramePass

variable {plan : FramePlan κ γ} {s t : FramePass κ γ} {n : Nat}

/-! ### Moves that change a pass -/

/-- The rank of a frame; one that is not begun has the highest. -/
def rankOf (s : FramePass κ γ) (n : Nat) : Nat :=
  match s.workOf n with
  | none => 4
  | some w => w.rank

theorem isSettled_iff : s.isSettled n = true ↔ s.rankOf n = 0 := by
  unfold isSettled rankOf
  rcases s.workOf n with _ | w
  · simp
  · cases w <;> simp [FrameWork.rank]

/-- **What changes a pass**, with the state after it: a worker comes on with a frame, writes it, the
pass takes note of a frame, is cancelled, or closes. -/
inductive Advances (plan : FramePlan κ γ) (s : FramePass κ γ) : FramePass κ γ → Prop
  | work {n : Nat} {w : FrameWork γ} {kept : List (κ × γ)} (hn : n < plan.total)
    (hrank : w.rank < s.rankOf n) (hwritten : w ≠ .written)
    (hdropped : w = .dropped → s.failure ≠ none ∧ s.closed = false) :
    Advances plan s ({ s with kept }.setWork n w)
  | write {n : Nat} {data : γ} (hn : n < plan.total) (hwork : s.workOf n = some (.ready data)) :
    Advances plan s (s.write plan n data)
  | abandon {n : Nat} {fault : OverlayFault} (hopen : s.closed = false)
    (hfailure : s.failure = none) (hwork : s.workOf n = some (.failed fault)) :
    Advances plan s { s with failure := some (.frame n fault.message) }
  | collect {n : Nat} (hopen : s.closed = false) (hfailure : s.failure = none)
    (hnew : n ∉ s.collected) (hwork : s.workOf n = some .written) :
    Advances plan s (s.collect plan n)
  | cancel (hcancel : s.cancelled = false) : Advances plan s { s with cancelled := true }
  | close (hclose : s.mayClose plan = true) : Advances plan s (s.close plan)

namespace Advances

/-- A worker comes on with a frame, and does not give it up. -/
theorem of_rank {w : FrameWork γ} {kept : List (κ × γ)} (hn : n < plan.total)
    (hrank : w.rank < s.rankOf n) (hwritten : w ≠ .written) (hdropped : w ≠ .dropped) :
    s.Advances plan ({ s with kept }.setWork n w) :=
  .work hn hrank hwritten fun h => absurd h hdropped

theorem look (hn : n < plan.total) (hnone : s.workOf n = none) :
    s.Advances plan (s.look plan n) := by
  have hrank : s.rankOf n = 4 := by rw [rankOf, hnone]
  unfold FramePass.look
  split
  · exact of_rank hn (by simp [hrank, FrameWork.rank]) nofun nofun
  · split
    · exact of_rank hn (by simp [hrank, FrameWork.rank]) nofun nofun
    · exact of_rank hn (by simp [hrank, FrameWork.rank]) nofun nofun

theorem draw (hn : n < plan.total) (habsent : s.workOf n = some .absent) :
    s.Advances plan (s.draw plan n) := by
  have hrank : s.rankOf n = 3 := by rw [rankOf, habsent]; rfl
  unfold FramePass.draw
  split
  · exact of_rank hn (by simp [hrank, FrameWork.rank]) nofun nofun
  · exact of_rank hn (by simp [hrank, FrameWork.rank]) nofun nofun

theorem keep (hn : n < plan.total) {data : γ} (hdrawn : s.workOf n = some (.drawn data)) :
    s.Advances plan (s.keep plan n data) := by
  have hrank : s.rankOf n = 2 := by rw [rankOf, hdrawn]; rfl
  unfold FramePass.keep
  split
  · exact of_rank hn (by simp [hrank, FrameWork.rank]) nofun nofun
  · exact of_rank hn (by simp [hrank, FrameWork.rank]) nofun nofun

theorem breakOff (hn : n < plan.total) (reason : String) (hactive : s.isActive n = true) :
    s.Advances plan (s.setWork n (.failed (.worker reason))) := by
  have hrank : 0 < s.rankOf n := by
    unfold rankOf
    rcases hsome : s.workOf n with _ | w
    · exact Nat.zero_lt_succ 3
    · cases w <;> simp [isActive, hsome] at hactive <;> simp [FrameWork.rank]
  exact of_rank hn hrank (by simp) (by simp)

/-- A frame that has failed abandons the pass when it is collected. -/
theorem collect_failed {fault : OverlayFault} (hopen : s.closed = false)
    (hfailure : s.failure = none) (hfailed : s.workOf n = some (.failed fault)) :
    s.Advances plan (s.collect plan n) := by
  have hcollect : s.collect plan n = { s with failure := some (.frame n fault.message) } := by
    simp [FramePass.collect, hfailed]
  rw [hcollect]
  exact .abandon hopen hfailure hfailed

theorem drop (hn : n < plan.total) (hopen : s.closed = false) (habandoned : s.isAbandoned = true)
    (hnone : s.workOf n = none) : s.Advances plan (s.setWork n .dropped) := by
  have hrank : s.rankOf n = 4 := by rw [rankOf, hnone]
  have hfailure : s.failure ≠ none := by
    intro h
    simp [isAbandoned, h] at habandoned
  exact .work hn (by simp [hrank, FrameWork.rank]) nofun fun _ => ⟨hfailure, hopen⟩

end Advances

/-- **A move changes nothing or advances the pass.** -/
theorem Moves.eq_or_advances (hbegun : ∀ n w, s.workOf n = some w → n < plan.total)
    (h : s.Moves plan t) : t = s ∨ s.Advances plan t := by
  cases h with
  | look hn hnone => exact .inr (.look hn hnone)
  | draw habsent => exact .inr (.draw (hbegun _ _ habsent) habsent)
  | keep hdrawn => exact .inr (.keep (hbegun _ _ hdrawn) hdrawn)
  | write hready => exact .inr (.write (hbegun _ _ hready) hready)
  | @breakOff n reason hactive =>
    cases hsome : s.workOf n with
    | none => simp [isActive, hsome] at hactive
    | some w => exact .inr (.breakOff (hbegun n w hsome) reason hactive)
  | @collect n hopen hfailure hnew =>
    cases hsome : s.workOf n with
    | none => exact .inl (by simp [FramePass.collect, hsome])
    | some w =>
      cases w with
      | written => exact .inr (.collect hopen hfailure hnew hsome)
      | failed fault => exact .inr (.collect_failed hopen hfailure hsome)
      | _ => exact .inl (by simp [FramePass.collect, hsome])
  | drop hopen habandoned hn hnone => exact .inr (.drop hn hopen habandoned hnone)
  | cancel =>
    cases hcancel : s.cancelled with
    | false => exact .inr (.cancel hcancel)
    | true => exact .inl (by rw [← hcancel])
  | close hclose => exact .inr (.close hclose)

/-! ### Orderly passes -/

/-- **Why a pass has failed**: a frame has failed, or the listener raises when so many frames are
done. -/
inductive Cause (plan : FramePlan κ γ) (s : FramePass κ γ) : OverlayFault → Prop
  | frame {n : Nat} {fault : OverlayFault} (hwork : s.workOf n = some (.failed fault)) :
    Cause plan s (.frame n fault.message)
  | listener {f : FrameListener} {k : Nat} {reason : String} (hlistener : plan.listener = some f)
    (hraises : f k plan.total = some reason) : Cause plan s (.listener reason)

theorem Cause.congr {fault : OverlayFault} (h : Cause plan s fault) (hwork : t.work = s.work) :
    Cause plan t fault := by
  cases h with
  | frame hfailed =>
    refine .frame ?_
    rw [workOf, hwork]
    exact hfailed
  | listener hlistener hraises => exact .listener hlistener hraises

/-- **The files are those of the frames that are written**, each once and with its data. -/
structure Holds (plan : FramePlan κ γ) (s : FramePass κ γ) (files : List (String × Option γ)) :
    Prop where
  nodup : (files.map (·.1)).Nodup
  mem_iff : ∀ name, name ∈ files.map (·.1) ↔ ∃ n, s.workOf n = some .written ∧ plan.name n = name
  isSome : ∀ f ∈ files, f.2.isSome

theorem Holds.congr {files : List (String × Option γ)} (h : Holds plan s files)
    (hwork : t.work = s.work) : Holds plan t files where
  nodup := h.nodup
  mem_iff name := by
    simp only [workOf, hwork]
    exact h.mem_iff name
  isSome := h.isSome

/-- The reports of a pass that has collected so many frames. -/
def reportsUpTo (plan : FramePlan κ γ) (finished : Nat) : List (Nat × Nat) :=
  match plan.listener with
  | none => []
  | some _ => (List.range finished).map fun k => (k + 1, plan.total)

/-- **An orderly pass.** -/
structure Orderly (plan : FramePlan κ γ) (s : FramePass κ γ) : Prop where
  begun : ∀ n w, s.workOf n = some w → n < plan.total
  dropped : ∀ n, s.workOf n = some .dropped → s.failure ≠ none
  nodup : s.collected.Nodup
  written : ∀ n ∈ s.collected, s.workOf n = some .written
  reports : s.reports = reportsUpTo plan s.collected.length
  cause : ∀ fault, s.failure = some fault → Cause plan s fault
  files : ∀ files, s.directory = some files → Holds plan s files
  removed : s.directory = none ↔ s.closed = true ∧ s.failure ≠ none
  closed : s.closed = true → (∀ n < plan.total, s.isSettled n = true) ∧
    (s.failure = none → s.collected.length = plan.total)

namespace Orderly

/-- A pass into an empty directory. -/
theorem start (plan : FramePlan κ γ) : Orderly plan { directory := some [] } where
  begun _ _ h := nomatch h
  dropped _ h := nomatch h
  nodup := List.nodup_nil
  written _ h := nomatch h
  reports := by
    unfold reportsUpTo
    cases plan.listener <;> rfl
  cause _ h := nomatch h
  files := by
    rintro _ ⟨⟩
    exact ⟨List.nodup_nil, fun name => by simp [workOf], nofun⟩
  removed := by simp
  closed := nofun

/-- A frame that is not settled shows that the pass is not closed. -/
theorem closed_eq_false (h : s.Orderly plan) (hn : n < plan.total) (hrank : 0 < s.rankOf n) :
    s.closed = false := by
  cases hclosed : s.closed with
  | false => rfl
  | true =>
    have hsettled := isSettled_iff.mp ((h.closed hclosed).1 n hn)
    omega

/-- A frame that has been collected, has failed or is written has the rank of a settled one. -/
theorem ne_of_rankOf {m : Nat} {w : FrameWork γ} (hwork : s.workOf m = some w) (hw : w.rank = 0)
    (hrank : 0 < s.rankOf n) : m ≠ n := by
  rintro rfl
  rw [rankOf, hwork] at hrank
  exact hrank.ne' hw

/-- A settled frame stays as it is where another one is worked on, whatever else changes. -/
theorem workOf_settled {r : FramePass κ γ} (hr : r.work = s.work) {m : Nat} {v w : FrameWork γ}
    (hwork : s.workOf m = some v) (hv : v.rank = 0) (hrank : 0 < s.rankOf n) :
    (r.setWork n w).workOf m = some v := by
  rw [workOf_setWork, if_neg (ne_of_rankOf hwork hv hrank), workOf, hr]
  exact hwork

theorem cause_setWork {r : FramePass κ γ} (hr : r.work = s.work) {fault : OverlayFault}
    {w : FrameWork γ} (hrank : 0 < s.rankOf n) (h : Cause plan s fault) :
    Cause plan (r.setWork n w) fault := by
  cases h with
  | frame hwork => exact .frame (workOf_settled hr hwork rfl hrank)
  | listener hlistener hraises => exact .listener hlistener hraises

/-- A worker comes on with a frame. -/
theorem work (h : s.Orderly plan) {w : FrameWork γ} (kept : List (κ × γ)) (hn : n < plan.total)
    (hrank : w.rank < s.rankOf n) (hwritten : w ≠ .written)
    (hdropped : w = .dropped → s.failure ≠ none ∧ s.closed = false) :
    Orderly plan ({ s with kept }.setWork n w) := by
  have hpos : 0 < s.rankOf n := by omega
  have hopen := h.closed_eq_false hn hpos
  have hwork (m : Nat) : ({ s with kept }.setWork n w).workOf m =
      if m = n then some w else s.workOf m := workOf_setWork _ n m w
  constructor
  case begun =>
    intro m v hm
    rw [hwork] at hm
    split at hm
    · next heq => exact heq ▸ hn
    · exact h.begun m v hm
  case dropped =>
    intro m hm
    rw [hwork] at hm
    split at hm
    · exact (hdropped (Option.some.inj hm)).1
    · exact h.dropped m hm
  case nodup => exact h.nodup
  case written => exact fun m hm => workOf_settled rfl (h.written m hm) rfl hpos
  case reports => exact h.reports
  case cause =>
    intro fault hfault
    exact cause_setWork (s := s) (r := { s with kept }) rfl hpos (h.cause fault hfault)
  case files =>
    intro files hfiles
    have hholds := h.files files hfiles
    refine ⟨hholds.nodup, fun name => ?_, hholds.isSome⟩
    rw [hholds.mem_iff]
    refine exists_congr fun m => and_congr_left fun _ => ?_
    constructor
    · exact fun hm => workOf_settled rfl hm rfl hpos
    · intro hm
      rw [hwork] at hm
      split at hm
      · exact absurd (Option.some.inj hm) hwritten
      · exact hm
  case removed => exact h.removed
  case closed =>
    intro hclosed
    exact absurd (hopen.symm.trans hclosed) Bool.false_ne_true

theorem write (h : s.Orderly plan) {data : γ} (hn : n < plan.total)
    (hready : s.workOf n = some (.ready data)) : Orderly plan (s.write plan n data) := by
  have hpos : 0 < s.rankOf n := by simp [rankOf, hready, FrameWork.rank]
  have hopen := h.closed_eq_false hn hpos
  have hwork (m : Nat) : (s.write plan n data).workOf m =
      if m = n then some .written else s.workOf m := workOf_setWork _ n m .written
  constructor
  case begun =>
    intro m v hm
    rw [hwork] at hm
    split at hm
    · next heq => exact heq ▸ hn
    · exact h.begun m v hm
  case dropped =>
    intro m hm
    rw [hwork] at hm
    split at hm
    · cases hm
    · exact h.dropped m hm
  case nodup => exact h.nodup
  case written => exact fun m hm => workOf_settled (s := s) rfl (h.written m hm) rfl hpos
  case reports => exact h.reports
  case cause =>
    intro fault hfault
    let put := { s with directory := s.directory.map fun files => putFile files (plan.name n) data }
    exact cause_setWork (s := s) (r := put) rfl hpos (h.cause fault hfault)
  case files =>
    intro files hfiles
    obtain ⟨before, hbefore, rfl⟩ := Option.map_eq_some_iff.mp hfiles
    have hholds := h.files before hbefore
    refine ⟨nodup_putFile hholds.nodup, fun name => ?_, isSome_putFile hholds.isSome⟩
    rw [mem_map_putFile_iff, hholds.mem_iff]
    constructor
    · rintro (rfl | ⟨m, hm, hname⟩)
      · exact ⟨n, by rw [hwork, if_pos rfl], rfl⟩
      · exact ⟨m, workOf_settled (s := s) rfl hm rfl hpos, hname⟩
    · rintro ⟨m, hm, hname⟩
      rw [hwork] at hm
      split at hm
      · next heq => exact .inl (heq ▸ hname)
      · exact .inr ⟨m, hm, hname⟩
  case removed =>
    have hdirectory : (s.write plan n data).directory = none ↔ s.directory = none :=
      Option.map_eq_none_iff
    exact hdirectory.trans h.removed
  case closed =>
    intro hclosed
    exact absurd (hopen.symm.trans hclosed) Bool.false_ne_true

/-- The pass takes note of a frame that has failed. -/
theorem abandon (h : s.Orderly plan) {fault : OverlayFault} (hopen : s.closed = false)
    (hfailed : s.workOf n = some (.failed fault)) :
    Orderly plan { s with failure := some (.frame n fault.message) } where
  begun := h.begun
  dropped _ _ := Option.some_ne_none _
  nodup := h.nodup
  written := h.written
  reports := h.reports
  cause := by
    rintro _ ⟨⟩
    exact .frame hfailed
  files files hfiles := (h.files files hfiles).congr rfl
  removed := by
    rw [h.removed]
    simp [hopen]
  closed hclosed := absurd (hopen.symm.trans hclosed) Bool.false_ne_true

theorem reportsUpTo_succ {f : FrameListener} (hlistener : plan.listener = some f)
    (finished : Nat) :
    reportsUpTo plan (finished + 1) =
      reportsUpTo plan finished ++ [(finished + 1, plan.total)] := by
  simp [reportsUpTo, hlistener, List.range_succ]

/-- The pass takes note of a frame that is written, and reports it. -/
theorem collect (h : s.Orderly plan) (hopen : s.closed = false) (hfailure : s.failure = none)
    (hnew : n ∉ s.collected) (hwritten : s.workOf n = some .written) :
    Orderly plan (s.collect plan n) := by
  have hnodup : (n :: s.collected).Nodup := List.nodup_cons.mpr ⟨hnew, h.nodup⟩
  have hcollected : ∀ m ∈ n :: s.collected, s.workOf m = some .written :=
    List.forall_mem_cons.mpr ⟨hwritten, h.written⟩
  have hnone {m : Nat} (hm : s.workOf m = some .dropped) : False := h.dropped m hm hfailure
  have hdirectory : s.directory ≠ none := by
    rw [Ne, h.removed]
    simp [hopen]
  cases hlistener : plan.listener with
  | none =>
    have hcollect : s.collect plan n = { s with collected := n :: s.collected } := by
      simp [FramePass.collect, hwritten, hlistener]
    rw [hcollect]
    exact ⟨h.begun, h.dropped, hnodup, hcollected,
      by rw [h.reports]; simp [reportsUpTo, hlistener],
      fun fault hfault => absurd (hfailure.symm.trans hfault) nofun,
      fun files hfiles => (h.files files hfiles).congr rfl, h.removed,
      fun hclosed => absurd (hopen.symm.trans hclosed) Bool.false_ne_true⟩
  | some f =>
    have hcollect : s.collect plan n = { s with
        collected := n :: s.collected
        reports := s.reports ++ [(s.collected.length + 1, plan.total)]
        failure := (f (s.collected.length + 1) plan.total).map .listener } := by
      simp [FramePass.collect, hwritten, hlistener]
    rw [hcollect]
    refine ⟨h.begun, fun m hm => (hnone hm).elim, hnodup, hcollected, ?_, ?_,
      fun files hfiles => (h.files files hfiles).congr rfl, ?_,
      fun hclosed => absurd (hopen.symm.trans hclosed) Bool.false_ne_true⟩
    · rw [List.length_cons, reportsUpTo_succ hlistener, ← h.reports]
    · intro fault hfault
      obtain ⟨reason, hraises, rfl⟩ := Option.map_eq_some_iff.mp hfault
      exact .listener hlistener hraises
    · exact iff_of_false hdirectory fun hclosed =>
        absurd (hopen.symm.trans hclosed.1) Bool.false_ne_true

theorem cancel (h : s.Orderly plan) : Orderly plan { s with cancelled := true } :=
  ⟨h.begun, h.dropped, h.nodup, h.written, h.reports,
    fun fault hfault => (h.cause fault hfault).congr rfl,
    fun files hfiles => (h.files files hfiles).congr rfl, h.removed, h.closed⟩

/-- Frames that are collected are frames. -/
theorem collected_subset (h : s.Orderly plan) : s.collected ⊆ List.range plan.total := by
  intro n hn
  exact List.mem_range.mpr (h.begun n _ (h.written n hn))

/-- Where as many frames are collected as there are, every one is written. -/
theorem written_of_length (h : s.Orderly plan) (hlength : s.collected.length = plan.total)
    (hn : n < plan.total) : s.workOf n = some .written := by
  have hperm : s.collected.Perm (List.range plan.total) :=
    (List.subperm_of_subset h.nodup h.collected_subset).perm_of_length_le (by simp [hlength])
  exact h.written n (hperm.mem_iff.mpr (List.mem_range.mpr hn))

/-- The files that are expected when every frame is written, and no others. -/
theorem perm_of_length (h : s.Orderly plan) (hplan : plan.IsNumbered)
    (hlength : s.collected.length = plan.total) {files : List (String × Option γ)}
    (hfiles : s.directory = some files) :
    (files.map (·.1)).Perm ((List.range plan.total).map plan.name) := by
  have hholds := h.files files hfiles
  have hnames : ((List.range plan.total).map plan.name).Nodup :=
    List.nodup_range.map hplan.name_injective
  refine (List.perm_ext_iff_of_nodup hholds.nodup hnames).mpr fun name => ?_
  rw [hholds.mem_iff, List.mem_map]
  refine exists_congr fun n => and_congr_left fun _ => ?_
  rw [List.mem_range]
  exact ⟨h.begun n _, h.written_of_length hlength⟩

/-- **Nothing is wrong with the files when every frame is written.** -/
theorem checkFiles_eq_none (h : s.Orderly plan) (hplan : plan.IsNumbered)
    (hlength : s.collected.length = plan.total) {files : List (String × Option γ)}
    (hfiles : s.directory = some files) : checkFiles plan files = none := by
  have hperm := h.perm_of_length hplan hlength hfiles
  have hpresent : (files.map (·.1)).filter (fun name => "frame_".toList.isPrefixOf name.toList) =
      files.map (·.1) := by
    refine List.filter_eq_self.mpr fun name hname => ?_
    obtain ⟨n, -, rfl⟩ := List.mem_map.mp (hperm.mem_iff.mp hname)
    exact hplan.name_prefix n
  have hmissing : ((List.range plan.total).map plan.name).filter
      (fun name => !(files.map (·.1)).contains name) = [] := by
    refine List.filter_eq_nil_iff.mpr fun name hname => ?_
    simp only [List.contains_iff_mem.mpr (hperm.mem_iff.mpr hname)]
    decide
  have hextra : (files.map (·.1)).filter
      (fun name => !((List.range plan.total).map plan.name).contains name) = [] := by
    refine List.filter_eq_nil_iff.mpr fun name hname => ?_
    simp only [List.contains_iff_mem.mpr (hperm.mem_iff.mp hname)]
    decide
  unfold checkFiles
  simp only [hpresent, hmissing, hextra, List.mergeSort_nil]
  rfl

/-- The pass closes: it has failed before, or nothing is wrong with its files. -/
theorem close (h : s.Orderly plan) (hplan : plan.IsNumbered) (hclose : s.mayClose plan = true) :
    Orderly plan (s.close plan) := by
  simp only [mayClose, Bool.and_eq_true, Bool.or_eq_true, Bool.not_eq_true', beq_iff_eq,
    List.all_eq_true, List.mem_range] at hclose
  obtain ⟨⟨hopen, hdone⟩, hsettled⟩ := hclose
  have hdirectory : s.directory ≠ none := by
    rw [Ne, h.removed]
    simp [hopen]
  obtain ⟨files, hfiles⟩ := Option.ne_none_iff_exists'.mp hdirectory
  cases hfailure : s.failure with
  | none =>
    have hlength : s.collected.length = plan.total := by simpa [hfailure] using hdone
    have hclosed : s.close plan = { s with closed := true } := by
      simp [FramePass.close, hfailure, hfiles, h.checkFiles_eq_none hplan hlength hfiles]
    rw [hclosed]
    refine ⟨h.begun, h.dropped, h.nodup, h.written, h.reports,
      fun fault hfault => absurd (hfailure.symm.trans hfault) nofun,
      fun files hfiles => (h.files files hfiles).congr rfl, ?_,
      fun _ => ⟨hsettled, fun _ => hlength⟩⟩
    exact iff_of_false hdirectory fun hfailed => hfailed.2 hfailure
  | some fault =>
    have hclosed : s.close plan = { s with closed := true, directory := none } := by
      simp [FramePass.close, hfailure]
    rw [hclosed]
    refine ⟨h.begun, h.dropped, h.nodup, h.written, h.reports,
      fun fault hfault => (h.cause fault hfault).congr rfl, nofun, ?_,
      fun _ => ⟨hsettled, fun hnone => absurd (hfailure.symm.trans hnone) nofun⟩⟩
    exact iff_of_true rfl ⟨rfl, by simp [hfailure]⟩

/-- **What advances an orderly pass keeps it orderly.** -/
theorem advances (h : s.Orderly plan) (hplan : plan.IsNumbered) (hadvance : s.Advances plan t) :
    t.Orderly plan := by
  cases hadvance with
  | work hn hrank hwritten hdropped => exact h.work _ hn hrank hwritten hdropped
  | write hn hwork => exact h.write hn hwork
  | abandon hopen _ hwork => exact h.abandon hopen hwork
  | collect hopen hfailure hnew hwork => exact h.collect hopen hfailure hnew hwork
  | cancel => exact h.cancel
  | close hclose => exact h.close hplan hclose

/-- **Every course of a pass is orderly.** -/
theorem run (h : s.Orderly plan) (hplan : plan.IsNumbered) (events : List FrameEvent) :
    (s.run plan events).Orderly plan := by
  refine run_of_moves (P := Orderly plan) (fun s t h hmove => ?_) h events
  rcases hmove.eq_or_advances h.begun with rfl | hadvance
  · exact h
  · exact h.advances hplan hadvance

end Orderly

/-! ### The end of a pass -/

/-- How much is left to do at most: steps of workers, frames to collect, a failure, a cancellation
and the end. -/
def remaining (plan : FramePlan κ γ) (s : FramePass κ γ) : Nat :=
  (∑ n ∈ Finset.range plan.total, s.rankOf n) + (plan.total - s.collected.length) +
    (if s.failure.isNone then 1 else 0) + (if s.cancelled then 0 else 1) +
    (if s.closed then 0 else 1)

/-- A frame of lower rank leaves less to do. -/
theorem sum_rankOf_setWork_lt {r : FramePass κ γ} (hr : r.work = s.work) {w : FrameWork γ}
    (hn : n < plan.total) (hrank : w.rank < s.rankOf n) :
    ∑ m ∈ Finset.range plan.total, (r.setWork n w).rankOf m <
      ∑ m ∈ Finset.range plan.total, s.rankOf m := by
  have hother (m : Nat) (hm : m ≠ n) : (r.setWork n w).rankOf m = s.rankOf m := by
    rw [rankOf, rankOf, workOf_setWork, if_neg hm, workOf, workOf, hr]
  have hsame : (r.setWork n w).rankOf n = w.rank := by
    rw [rankOf, workOf_setWork, if_pos rfl]
  refine Finset.sum_lt_sum (fun m _ => ?_) ⟨n, Finset.mem_range.mpr hn, by rw [hsame]; exact hrank⟩
  by_cases hm : m = n
  · subst hm
    rw [hsame]
    exact hrank.le
  · rw [hother m hm]

/-- A pass in which a frame has come on has less left. -/
theorem remaining_lt_of_rank
    (hsum : ∑ n ∈ Finset.range plan.total, t.rankOf n < ∑ n ∈ Finset.range plan.total, s.rankOf n)
    (hcollected : t.collected = s.collected) (hfailure : t.failure = s.failure)
    (hcancelled : t.cancelled = s.cancelled) (hclosed : t.closed = s.closed) :
    remaining plan t < remaining plan s := by
  unfold remaining
  rw [hcollected, hfailure, hcancelled, hclosed]
  omega

theorem sum_rankOf_congr (plan : FramePlan κ γ) (hwork : t.work = s.work) :
    ∑ n ∈ Finset.range plan.total, t.rankOf n = ∑ n ∈ Finset.range plan.total, s.rankOf n := by
  simp only [rankOf, workOf, hwork]

namespace Orderly

/-- Not every frame is collected as long as there is another one that is written. -/
theorem length_lt (h : s.Orderly plan) (hnew : n ∉ s.collected)
    (hwritten : s.workOf n = some .written) : s.collected.length < plan.total := by
  have hsub : n :: s.collected ⊆ List.range plan.total :=
    List.cons_subset.mpr ⟨List.mem_range.mpr (h.begun n _ hwritten), h.collected_subset⟩
  have hlength := (List.subperm_of_subset (List.nodup_cons.mpr ⟨hnew, h.nodup⟩) hsub).length_le
  simpa using hlength

/-- **Whatever advances a pass uses up some of what is left.** -/
theorem remaining_lt (h : s.Orderly plan) (hadvance : s.Advances plan t) :
    remaining plan t < remaining plan s := by
  cases hadvance with
  | @work n w kept hn hrank =>
    have hsum := sum_rankOf_setWork_lt (r := { s with kept }) rfl hn hrank
    exact remaining_lt_of_rank hsum rfl rfl rfl rfl
  | @write n data hn hready =>
    have hrank : (FrameWork.written : FrameWork γ).rank < s.rankOf n := by
      simp [rankOf, hready, FrameWork.rank]
    let put := { s with directory := s.directory.map fun files => putFile files (plan.name n) data }
    have hsum := sum_rankOf_setWork_lt (r := put) rfl hn hrank
    exact remaining_lt_of_rank hsum rfl rfl rfl rfl
  | @abandon n fault hopen hfailure =>
    have hsum := sum_rankOf_congr plan
      (t := { s with failure := some (.frame n fault.message) }) (s := s) rfl
    simp only [remaining, hsum, hfailure]
    simp
  | @collect n hopen hfailure hnew hwritten =>
    have hlength := h.length_lt hnew hwritten
    have hcollected : (s.collect plan n).collected = n :: s.collected := by
      simp only [FramePass.collect, hwritten]
      split <;> rfl
    have hfields : (s.collect plan n).work = s.work ∧
        (s.collect plan n).cancelled = s.cancelled ∧ (s.collect plan n).closed = s.closed := by
      simp only [FramePass.collect, hwritten]
      split <;> exact ⟨rfl, rfl, rfl⟩
    obtain ⟨hwork, hcancelled, hclosed⟩ := hfields
    have hsum := sum_rankOf_congr plan hwork
    simp only [remaining, hsum, hcollected, hcancelled, hclosed, hfailure, List.length_cons,
      Option.isNone_none, if_true]
    split <;> omega
  | cancel hcancel =>
    have hsum := sum_rankOf_congr plan (t := { s with cancelled := true }) (s := s) rfl
    simp only [remaining, hsum, hcancel]
    simp
  | close hclose =>
    have hopen : s.closed = false := by
      simp only [mayClose, Bool.and_eq_true, Bool.not_eq_true'] at hclose
      exact hclose.1.1
    have hsum := sum_rankOf_congr plan (t := s.close plan) (s := s) rfl
    have hfailure : (if (s.close plan).failure.isNone then 1 else 0) ≤
        (if s.failure.isNone then 1 else 0) := by
      unfold FramePass.close
      cases s.failure with
      | none =>
        rw [if_pos (show (none : Option OverlayFault).isNone = true from rfl)]
        split <;> omega
      | some fault => simp
    have hcollected : (s.close plan).collected = s.collected := rfl
    have hcancelled : (s.close plan).cancelled = s.cancelled := rfl
    have hclosed : (s.close plan).closed = true := rfl
    unfold remaining
    rw [hsum, hcollected, hcancelled, hclosed, hopen, if_pos rfl, if_neg Bool.false_ne_true]
    omega

/-- **A pass that is not closed can go on.** -/
theorem exists_advances (h : s.Orderly plan) (hopen : s.closed = false) :
    ∃ event, s.Advances plan (s.step plan event) := by
  by_cases hsettled : ∀ n < plan.total, s.isSettled n = true
  · by_cases hdone : s.failure.isSome = true ∨ s.collected.length = plan.total
    · have hclose : s.mayClose plan = true := by
        simpa [mayClose, hopen, hdone] using hsettled
      exact ⟨.close, by rw [step, if_pos hclose]; exact .close hclose⟩
    · -- some frame is settled, but the pass has not taken note of it
      obtain ⟨hfailure, hlength⟩ := not_or.mp hdone
      have hfailure : s.failure = none := by simpa using hfailure
      obtain ⟨n, hn, hnew⟩ : ∃ n ∈ List.range plan.total, n ∉ s.collected := by
        by_contra hall
        push Not at hall
        have hle := (List.subperm_of_subset List.nodup_range hall).length_le
        have hge := (List.subperm_of_subset h.nodup h.collected_subset).length_le
        rw [List.length_range] at hle hge
        omega
      have hstep : s.step plan (.collect n) = s.collect plan n := by
        simp [step, hopen, hfailure, hnew]
      refine ⟨.collect n, hstep ▸ ?_⟩
      have hsettled := hsettled n (List.mem_range.mp hn)
      cases hsome : s.workOf n with
      | none => simp [isSettled, hsome] at hsettled
      | some w =>
        cases w with
        | written => exact .collect hopen hfailure hnew hsome
        | failed fault => exact .collect_failed hopen hfailure hsome
        | dropped => exact absurd hfailure (h.dropped n hsome)
        | _ => simp [isSettled, hsome] at hsettled
  · -- some worker can come on with its frame
    push Not at hsettled
    obtain ⟨n, hn, hunsettled⟩ := hsettled
    cases hsome : s.workOf n with
    | none => exact ⟨.look n, by simpa [step, hn, hsome] using Advances.look hn hsome⟩
    | some w =>
      cases w with
      | absent => exact ⟨.draw n, by simpa [step, hsome] using Advances.draw hn hsome⟩
      | drawn data => exact ⟨.keep n, by simpa [step, hsome] using Advances.keep hn hsome⟩
      | ready data => exact ⟨.write n, by simpa [step, hsome] using Advances.write hn hsome⟩
      | _ => simp [isSettled, hsome] at hunsettled

/-- **Every pass can come to its end**, however far it is. -/
theorem exists_closed (h : s.Orderly plan) (hplan : plan.IsNumbered) :
    ∃ events, (s.run plan events).closed = true := by
  induction hleft : remaining plan s using Nat.strong_induction_on generalizing s with
  | _ left ih =>
    cases hopen : s.closed with
    | true => exact ⟨[], hopen⟩
    | false =>
      obtain ⟨event, hadvance⟩ := h.exists_advances hopen
      have hless := h.remaining_lt hadvance
      obtain ⟨events, hclosed⟩ :=
        ih _ (hleft ▸ hless) (h.advances hplan hadvance) rfl
      exact ⟨event :: events, hclosed⟩

/-- **A pass does not go on for ever**: of the events that change it there are no more than is left
to do. -/
theorem length_add_remaining_le (h : s.Orderly plan) (hplan : plan.IsNumbered)
    {events : List FrameEvent} (hchanges : ∀ before event after, events = before ++ event :: after →
      s.run plan (before ++ [event]) ≠ s.run plan before) :
    events.length + remaining plan (s.run plan events) ≤ remaining plan s := by
  induction events using List.reverseRecOn with
  | nil => simp [FramePass.run]
  | append_singleton before event ih =>
    have hbefore := ih fun first next after heq =>
      hchanges first next (after ++ [event]) (by rw [heq, List.append_assoc, List.cons_append])
    have hstep : s.run plan (before ++ [event]) = (s.run plan before).step plan event :=
      List.foldl_concat ..
    have hchange := hchanges before event [] rfl
    rw [hstep] at hchange ⊢
    have horderly := h.run hplan before
    rcases step_eq_or_moves plan (s.run plan before) event with hsame | hmove
    · exact absurd hsame hchange
    · rcases hmove.eq_or_advances horderly.begun with hsame | hadvance
      · exact absurd hsame hchange
      · have hless := horderly.remaining_lt hadvance
        rw [List.length_append, List.length_singleton]
        omega

/-- **A closed pass is at rest**: nothing happens in it but that it is cancelled once more. -/
theorem eq_of_closed (h : s.Orderly plan) (hclosed : s.closed = true)
    (hadvance : s.Advances plan t) : t = { s with cancelled := true } := by
  have hopen {n : Nat} (hn : n < plan.total) (hrank : 0 < s.rankOf n) : False :=
    Bool.false_ne_true ((h.closed_eq_false hn hrank).symm.trans hclosed)
  cases hadvance with
  | work hn hrank => exact (hopen hn (by omega)).elim
  | write hn hready => exact (hopen hn (by simp [rankOf, hready, FrameWork.rank])).elim
  | abandon hopen' => exact absurd (hopen'.symm.trans hclosed) Bool.false_ne_true
  | collect hopen' => exact absurd (hopen'.symm.trans hclosed) Bool.false_ne_true
  | cancel => rfl
  | close hclose => simp [mayClose, hclosed] at hclose

/-- **Nothing happens after the end**: no file is written, removed or changed. -/
theorem run_of_closed (h : s.Orderly plan) (hplan : plan.IsNumbered) (hclosed : s.closed = true)
    (events : List FrameEvent) :
    s.run plan events = s ∨ s.run plan events = { s with cancelled := true } := by
  let P (t : FramePass κ γ) := t.Orderly plan ∧ (t = s ∨ t = { s with cancelled := true })
  suffices P (s.run plan events) from this.2
  refine run_of_moves (P := P) (fun t u ⟨ht, hsame⟩ hmove => ?_) ⟨h, .inl rfl⟩ events
  rcases hmove.eq_or_advances ht.begun with rfl | hadvance
  · exact ⟨ht, hsame⟩
  · have hrest : t.closed = true := by rcases hsame with rfl | rfl <;> exact hclosed
    refine ⟨ht.advances hplan hadvance, .inr ?_⟩
    rw [ht.eq_of_closed hrest hadvance]
    rcases hsame with rfl | rfl <;> rfl

/-- **All or nothing**: at its end a pass has every frame written, each in its file, and has
reported all of them; or it has failed, and there is no directory. -/
theorem end_of_closed (h : s.Orderly plan) (hplan : plan.IsNumbered) (hclosed : s.closed = true) :
    (s.failure = none ∧ s.reports = reportsUpTo plan plan.total ∧
      ∃ files, s.directory = some files ∧
        (files.map (·.1)).Perm ((List.range plan.total).map plan.name) ∧ ∀ f ∈ files, f.2.isSome) ∨
    ∃ fault, s.failure = some fault ∧ Cause plan s fault ∧ s.directory = none := by
  cases hfailure : s.failure with
  | none =>
    have hlength := (h.closed hclosed).2 hfailure
    have hdirectory : s.directory ≠ none := fun hnone => (h.removed.mp hnone).2 hfailure
    obtain ⟨files, hfiles⟩ := Option.ne_none_iff_exists'.mp hdirectory
    exact .inl ⟨rfl, hlength ▸ h.reports, files, hfiles, h.perm_of_length hplan hlength hfiles,
      (h.files files hfiles).isSome⟩
  | some fault =>
    exact .inr ⟨fault, rfl, h.cause fault hfailure, h.removed.mpr ⟨hclosed, by simp [hfailure]⟩⟩

end Orderly

end FramePass

end TimelineExport

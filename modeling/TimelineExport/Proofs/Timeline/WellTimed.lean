import TimelineExport.Proofs.Number.FloatOrder
import TimelineExport.Proofs.Timeline.Accepted
import TimelineExport.Server.Orchestrator

/-!
# Times of accepted requests

The times of a request are floating-point values, and a body may well spell an infinity or a value
that is no number. Validation refuses a start that is less than zero and an end that is at most the
start. No comparison with an undefined value holds, so such a start or end gets past both, and so
does an infinite end. All other times are as they should be (`Element.Accepted.isWellTimed_iff`). The
output ends with one of the elements, so the job of an accepted request is well-timed exactly if
every start is a number and every end is finite (`accepted_job_isWellTimed_iff`).
-/

namespace TimelineExport

/-! ### Elements -/

/-- **A well-timed element**: its times are finite, and it starts at zero or later and ends after
its start. -/
def Element.IsWellTimed (e : Element Float) : Prop :=
  ∃ first last : Rat, exactValue e.startMs = .ok first ∧ exactValue e.endMs = .ok last ∧
    0 ≤ first ∧ first < last

theorem amount?_zero : amount? (@OfNat.ofNat Float 0 Scalar.instOfNat) =
    some (((0 : Rat) : WithTop Rat) : WithBot (WithTop Rat)) := by
  have hform : FloatForm.ofFloat (@OfNat.ofNat Float 0 Scalar.instOfNat) =
      .finite false ⟨0, -1074⟩ := by decide +kernel
  rw [amount?, hform, FloatForm.amount?, BinaryParts.signed_zero]

/-- Between zero and a rational there are only rationals. -/
theorem eq_coe_of_lt_coe {a : WithBot (WithTop Rat)} {q : Rat}
    (hnonneg : ((0 : Rat) : WithTop Rat) ≤ a) (hlt : a < (q : WithTop Rat)) :
    ∃ p : Rat, a = (p : WithTop Rat) ∧ 0 ≤ p ∧ p < q := by
  induction a with
  | bot => exact absurd (WithBot.bot_lt_coe _) hnonneg.not_gt
  | coe a =>
    have hnonneg := WithBot.coe_le_coe.mp hnonneg
    have hlt := WithBot.coe_lt_coe.mp hlt
    induction a with
    | top => exact absurd hlt not_top_lt
    | coe p => exact ⟨p, rfl, WithTop.coe_le_coe.mp hnonneg, WithTop.coe_lt_coe.mp hlt⟩

/-- **An element that validation accepts is well-timed** exactly if its start is a number and its
end is finite. -/
theorem Element.Accepted.isWellTimed_iff {tracks : List Track} {settings : ExportSettings}
    {e : Element Float} (h : e.Accepted tracks settings) :
    e.IsWellTimed ↔ e.startMs.isNaN = false ∧ e.endMs.isFinite = true := by
  constructor
  · rintro ⟨first, last, hfirst, hlast, -, -⟩
    refine ⟨?_, isFinite_iff_exactValue.mpr ⟨last, hlast⟩⟩
    rw [Bool.eq_false_iff, ne_eq, isNaN_iff_amount, exactValue_eq_ok_iff.mp hfirst]
    exact Option.some_ne_none _
  · rintro ⟨hnumber, hfinite⟩
    obtain ⟨last, hlast⟩ := isFinite_iff_exactValue.mp hfinite
    obtain ⟨a, ha⟩ : ∃ a, amount? e.startMs = some a := by
      rw [← Option.ne_none_iff_exists', ne_eq, ← isNaN_iff_amount, hnumber]
      exact Bool.false_ne_true
    have hnonneg : ((0 : Rat) : WithTop Rat) ≤ a :=
      not_lt.mp fun hlt =>
        h.start_nonneg (lt_iff_amount.mpr ⟨a, ha, _, amount?_zero, hlt⟩)
    have hlt : a < (last : WithTop Rat) := not_le.mp fun hle =>
      h.end_after_start (le_iff_amount.mpr ⟨_, exactValue_eq_ok_iff.mp hlast, a, ha, hle⟩)
    obtain ⟨first, rfl, hfirst, hspan⟩ := eq_coe_of_lt_coe hnonneg hlt
    exact ⟨first, last, exactValue_eq_ok_iff.mpr ha, hlast, hfirst, hspan⟩

/-! ### Jobs -/

/-- **A well-timed job**: its elements are well-timed, and its output takes a finite positive
time. -/
structure IsWellTimed (es : List (Element Float)) (durationMs : Float) : Prop where
  elements : ∀ e ∈ es, e.IsWellTimed
  lasts : ∃ q, exactValue durationMs = .ok q ∧ 0 < q

/-- The output of well-timed elements takes as long as the last of them. -/
theorem isWellTimed_of_elements {es : List (Element Float)} (hne : es ≠ [])
    (hes : ∀ e ∈ es, e.IsWellTimed) : IsWellTimed es (outputDuration es) := by
  obtain ⟨e, he, hduration⟩ := exists_mem_outputDuration_eq hne
  obtain ⟨first, last, -, hlast, hfirst, hspan⟩ := hes e he
  refine ⟨hes, last, ?_, hfirst.trans_lt hspan⟩
  rw [hduration]
  exact hlast

namespace Orchestrator

/-- A body is read as a request, and the request is taken up as the job of an id. -/
structure IsAccepted (s : Orchestrator) (body : Json) (request : ExportRequest) (id : String) :
    Prop where
  read : ExportRequest.ofJson body = .valid request
  taken : (s.submit request).1 = .ok id

/-- A request that is taken up passes validation, and becomes the last export. -/
theorem submit_eq_ok {s : Orchestrator} {request : ExportRequest} {id : String}
    (h : (s.submit request).1 = .ok id) :
    validate request.clips request.tracks request.settings = .ok () ∧
      ∃ t, (s.submit request).2.exports.getLast? = some t ∧ t.id = id ∧
        t.job.durationMs = outputDuration request.clips := by
  unfold submit at h ⊢
  split at h
  · cases h
  · next hvalid =>
    split at h
    · cases h
    · obtain rfl := Except.ok.inj h
      exact ⟨hvalid, _, List.getLast?_concat, rfl, rfl⟩

/-- **The job of an accepted body is well-timed** exactly if every start is a number and every end
is finite. -/
theorem accepted_job_isWellTimed_iff {s : Orchestrator} {body : Json} {request : ExportRequest}
    {id : String} (h : s.IsAccepted body request id) :
    ∃ t, (s.submit request).2.exports.getLast? = some t ∧ t.id = id ∧
      (IsWellTimed request.clips t.job.durationMs ↔
        ∀ e ∈ request.clips, e.startMs.isNaN = false ∧ e.endMs.isFinite = true) := by
  obtain ⟨hvalid, t, hlast, hid, hduration⟩ := submit_eq_ok h.taken
  have haccepted := (validate_eq_ok_iff _ _ _).mp hvalid
  have helement : ∀ e ∈ request.clips,
      (e.IsWellTimed ↔ e.startMs.isNaN = false ∧ e.endMs.isFinite = true) := fun e he =>
    (haccepted.elements e he).isWellTimed_iff
  refine ⟨t, hlast, hid, fun htimed e he => (helement e he).mp (htimed.elements e he), ?_⟩
  intro htimes
  rw [hduration]
  exact isWellTimed_of_elements haccepted.nonempty fun e he => (helement e he).mpr (htimes e he)

/-! ### Bodies -/

/-- A body that asks for words on the screen, from the start to a given end. -/
def wordsBody (endMs : Json) : Json :=
  .object [
    ("clips", .array [.object [("id", .text "words"), ("kind", .text "text"),
      ("trackId", .text "main"), ("timelineStartMs", .int 0), ("timelineEndMs", endMs)]]),
    ("tracks", .array [.object [("id", .text "main")]])]

/-- An orchestrator without jobs, on a host without files. -/
def idle : Orchestrator :=
  .start {} { outside := { probe := fun _ => .notStarted "" }, storage := .directory ⟨[], ""⟩ }

/-- Reading a body and submitting the request decide whether it is accepted. -/
theorem exists_isAccepted (body : Json) (p : ExportRequest → Bool)
    (h : (ExportRequest.ofJson body).toExcept.toOption.any (fun request =>
      (idle.submit request).1.toOption == some "job-1" && p request) = true) :
    ∃ request, idle.IsAccepted body request "job-1" ∧ p request = true := by
  cases hread : ExportRequest.ofJson body with
  | invalid errors =>
    rw [hread] at h
    cases h
  | valid request =>
    rw [hread] at h
    obtain ⟨htaken, hp⟩ := Bool.and_eq_true_iff.mp h
    refine ⟨request, ⟨hread, ?_⟩, hp⟩
    cases hsubmit : (idle.submit request).1 with
    | error e =>
      rw [hsubmit] at htaken
      cases htaken
    | ok id =>
      rw [hsubmit] at htaken
      rw [Option.some.inj (beq_iff_eq.mp htaken)]

/-- Words of a second are accepted as a well-timed job. -/
theorem words_of_a_second_wellTimed :
    ∃ request t, idle.IsAccepted (wordsBody (.int 1000)) request "job-1" ∧
      (idle.submit request).2.exports.getLast? = some t ∧ t.id = "job-1" ∧
        IsWellTimed request.clips t.job.durationMs := by
  obtain ⟨request, haccepted, htimes⟩ := exists_isAccepted (wordsBody (.int 1000))
    (fun request => request.clips.all fun e => !e.startMs.isNaN && e.endMs.isFinite)
    (by decide +kernel)
  obtain ⟨t, hlast, hid, hiff⟩ := accepted_job_isWellTimed_iff haccepted
  refine ⟨request, t, haccepted, hlast, hid, hiff.mpr ?_⟩
  simpa using htimes

/-- Words without a number for an end are accepted as well, as a job whose duration is no number. -/
theorem words_without_an_end_accepted :
    ∃ request t, idle.IsAccepted (wordsBody (.text "nan")) request "job-1" ∧
      (idle.submit request).2.exports.getLast? = some t ∧ t.id = "job-1" ∧
        t.job.durationMs.isNaN ∧ ¬ IsWellTimed request.clips t.job.durationMs := by
  obtain ⟨request, haccepted, hduration⟩ := exists_isAccepted (wordsBody (.text "nan"))
    (fun request => (outputDuration request.clips).isNaN) (by decide +kernel)
  obtain ⟨-, t, hlast, hid, heq⟩ := submit_eq_ok haccepted.taken
  rw [← heq] at hduration
  refine ⟨request, t, haccepted, hlast, hid, hduration, fun htimed => ?_⟩
  obtain ⟨q, hq, -⟩ := htimed.lasts
  rw [isNaN_iff_amount, exactValue_eq_ok_iff.mp hq] at hduration
  cases hduration

end Orchestrator

end TimelineExport

import TimelineExport.Client.Poller
import TimelineExport.Proofs.Outcome

/-!
# How a poll ends

What a look leads to depends on what it brings and on nothing before it (`verdict`), so a poll is
known from the first round that is not passed over. `PollState.Before` says of a poller that is
about to look what happened so far, one round keeps it, and `PollEnds` lists the ways in which a
poll can end, each with the number of its looks and of its waits: `pollEnds_poll` holds of every
course of events.

From this the laws of a poll are read off (`lawful_poll`). A job that was seen to have ended decides
the result, whenever the poller is stopped; and giving up and being stopped exclude that.
-/

namespace TimelineExport

variable {α : Type}

/-! ### One look -/

/-- What a look leads to: the poll ends, fails or goes on. -/
def verdict (id : String) : Except ClientFault Json → Except ClientFault (Option PollEnding)
  | .error (.status code) =>
    if code = 404 then .ok (some (.unknownJob id))
    else if code < 500 then .error (.status code)
    else .ok none
  | .error (.fetch (.transport _ _)) => .ok none
  | .error fault => .error fault
  | .ok job =>
    match JobSnapshot.read job with
    | .error fault => .error (.shape fault)
    | .ok snapshot => snapshot.ending?.mapError .shape

/-- The snapshot that a look brings, if it brings one. -/
def snapshot? (fetched : Except ClientFault Json) : Option JobSnapshot :=
  fetched.toOption.bind fun job => (JobSnapshot.read job).toOption

/-- The snapshots that the first so many looks bring. -/
def snapshots (round : Nat → PollRound) (looks : Nat) : List JobSnapshot :=
  (List.range looks).filterMap fun k => snapshot? (round k).fetched

theorem snapshots_succ (round : Nat → PollRound) (looks : Nat) :
    snapshots round (looks + 1) =
      snapshots round looks ++ (snapshot? (round looks).fetched).toList := by
  rw [snapshots, List.range_succ, List.filterMap_append]
  cases h : snapshot? (round looks).fetched <;> simp [h, snapshots]

/-- What is reported of a snapshot after another one: what differs. -/
def JobSnapshot.changes (last : Option JobSnapshot) (job : JobSnapshot) : List PollReport :=
  (if !sameStatus job.status ((last.map (·.status)).getD .null) then [.status job.status]
    else []) ++
    if last.map (·.progress) = some job.progress then [] else [.progress job.progress]

/-- What is reported of snapshots one after another. -/
def reportsOf : (last : Option JobSnapshot) → List JobSnapshot → List PollReport
  | _, [] => []
  | last, job :: jobs => job.changes last ++ reportsOf (some job) jobs

theorem reportsOf_concat (last : Option JobSnapshot) (jobs : List JobSnapshot)
    (job : JobSnapshot) :
    reportsOf last (jobs ++ [job]) =
      reportsOf last jobs ++ job.changes (jobs.getLast?.or last) := by
  induction jobs generalizing last with
  | nil => simp [reportsOf]
  | cons first jobs ih =>
    have hlast : jobs.getLast?.or (some first) = (first :: jobs).getLast?.or last := by
      rw [List.getLast?_cons]
      cases jobs.getLast? <;> rfl
    rw [List.cons_append, reportsOf, ih, reportsOf, List.append_assoc, hlast]

namespace PollState

/-- **A poller that has taken note of snapshots**: it remembers the last one, and has reported what
changed from each to the next. -/
structure Noted (jobs : List JobSnapshot) (s : PollState α) : Prop where
  lastStatus : s.lastStatus = jobs.getLast?.map (·.status)
  lastProgress : s.lastProgress = jobs.getLast?.map (·.progress)
  reports : s.reports = reportsOf none jobs

theorem Noted.note {jobs : List JobSnapshot} {s : PollState α} (h : s.Noted jobs)
    (job : JobSnapshot) : (s.note job).Noted (jobs ++ [job]) where
  lastStatus := by simp [PollState.note]
  lastProgress := by simp [PollState.note]
  reports := by
    rw [reportsOf_concat, PollState.note, h.reports, h.lastStatus, h.lastProgress,
      JobSnapshot.changes, Option.or_none, ← List.append_assoc]

/-- A poller takes note of what a look brings; what that leads to does not depend on the poller. -/
theorem take_eq (s : PollState α) (id : String) (fetched : Except ClientFault Json) :
    s.take id fetched = (verdict id fetched, ((snapshot? fetched).map s.note).getD s) := by
  cases fetched with
  | ok job =>
    simp only [take, verdict, snapshot?, Except.toOption, Option.bind_some]
    cases JobSnapshot.read job <;> rfl
  | error fault =>
    cases fault with
    | status code =>
      simp only [take, verdict, snapshot?, Except.toOption]
      split
      · rfl
      · split <;> rfl
    | fetch fault => cases fault <;> rfl
    | notJson => rfl
    | shape fault => rfl
    | files fault => rfl

/-! ### Rounds that are passed over -/

/-- Whether a poller is stopped before its look of a number: from the start, during a look before
it, or in the wait after one. -/
def StoppedBefore (stopped : Bool) (round : Nat → PollRound) (n : Nat) : Prop :=
  stopped = true ∨
    ∃ k < n, (round k).stopsInFetch = true ∨ (round k).stopsInWait = true

theorem stoppedBefore_zero {stopped : Bool} {round : Nat → PollRound} :
    StoppedBefore stopped round 0 ↔ stopped = true := by
  simp [StoppedBefore]

theorem stoppedBefore_succ {stopped : Bool} {round : Nat → PollRound} {n : Nat} :
    StoppedBefore stopped round (n + 1) ↔ StoppedBefore stopped round n ∨
      (round n).stopsInFetch = true ∨ (round n).stopsInWait = true := by
  simp only [StoppedBefore, Nat.exists_lt_succ_right, or_assoc]

/-- **A poller that is about to look, or gives up**: every look so far was passed over and followed
by a wait, and it was not stopped before any of them. -/
structure Before (id : String) (stopped : Bool) (round : Nat → PollRound) (s : PollState α) :
    Prop where
  passed : ∀ k < s.polls, verdict id (round k).fetched = .ok none
  free : ∀ k < s.polls, ¬ StoppedBefore stopped round k
  stopped_iff : s.stopped = true ↔ StoppedBefore stopped round s.polls
  waits : s.waits.length = s.polls
  noted : s.Noted (snapshots round s.polls)

section
variable {id : String} {stopped : Bool} {round : Nat → PollRound} {s : PollState α}

theorem before_start (id : String) (stopped : Bool) (round : Nat → PollRound) :
    ({ stopped } : PollState α).Before id stopped round where
  passed _ hk := absurd hk (Nat.not_lt_zero _)
  free _ hk := absurd hk (Nat.not_lt_zero _)
  stopped_iff := stoppedBefore_zero.symm
  waits := rfl
  noted := ⟨rfl, rfl, rfl⟩

/-- The poller after a look. -/
def looked (s : PollState α) (r : PollRound) : PollState α :=
  let s := { s with polls := s.polls + 1, stopped := r.stopsInFetch }
  ((snapshot? r.fetched).map s.note).getD s

@[simp]
theorem looked_polls (s : PollState α) (r : PollRound) : (s.looked r).polls = s.polls + 1 := by
  unfold looked
  cases snapshot? r.fetched <;> rfl

@[simp]
theorem looked_stopped (s : PollState α) (r : PollRound) :
    (s.looked r).stopped = r.stopsInFetch := by
  unfold looked
  cases snapshot? r.fetched <;> rfl

@[simp]
theorem looked_waits (s : PollState α) (r : PollRound) : (s.looked r).waits = s.waits := by
  unfold looked
  cases snapshot? r.fetched <;> rfl

/-- The poller after a wait. -/
def rested (s : PollState α) (r : PollRound) (wait : α) : PollState α :=
  { s with waits := s.waits ++ [wait], stopped := s.stopped || r.stopsInWait }

@[simp]
theorem rested_polls (s : PollState α) (r : PollRound) (wait : α) :
    (s.rested r wait).polls = s.polls := rfl

@[simp]
theorem rested_stopped (s : PollState α) (r : PollRound) (wait : α) :
    (s.rested r wait).stopped = (s.stopped || r.stopsInWait) := rfl

@[simp]
theorem rested_waits (s : PollState α) (r : PollRound) (wait : α) :
    (s.rested r wait).waits = s.waits ++ [wait] := rfl

theorem Noted.congr {jobs : List JobSnapshot} {t : PollState α} (h : s.Noted jobs)
    (hstatus : t.lastStatus = s.lastStatus) (hprogress : t.lastProgress = s.lastProgress)
    (hreports : t.reports = s.reports) : t.Noted jobs :=
  ⟨hstatus.trans h.lastStatus, hprogress.trans h.lastProgress, hreports.trans h.reports⟩

/-- A look takes note of one more snapshot, if it brings one. -/
theorem Before.noted_looked (h : s.Before id stopped round) :
    (s.looked (round s.polls)).Noted (snapshots round (s.polls + 1)) := by
  have hlooking : ({ s with
      polls := s.polls + 1, stopped := (round s.polls).stopsInFetch } : PollState α).Noted
        (snapshots round s.polls) :=
    h.noted.congr rfl rfl rfl
  rw [snapshots_succ, looked]
  cases snapshot? (round s.polls).fetched with
  | none => simpa using hlooking
  | some job => exact hlooking.note job

/-- **A round that is passed over** brings the poller before the next look. -/
theorem Before.pass (h : s.Before id stopped round) (hactive : s.stopped = false)
    (hpassed : verdict id (round s.polls).fetched = .ok none) (wait : α) :
    ((s.looked (round s.polls)).rested (round s.polls) wait).Before id stopped round := by
  have hfree : ¬ StoppedBefore stopped round s.polls := by
    rw [← h.stopped_iff, hactive]
    exact Bool.false_ne_true
  constructor
  · simp only [rested_polls, looked_polls, Nat.forall_lt_succ_right]
    exact ⟨h.passed, hpassed⟩
  · simp only [rested_polls, looked_polls, Nat.forall_lt_succ_right]
    exact ⟨h.free, hfree⟩
  · simp [stoppedBefore_succ, hfree]
  · simp [h.waits]
  · rw [rested_polls, looked_polls]
    exact h.noted_looked.congr rfl rfl rfl

end

end PollState

/-! ### The ways in which a poll ends -/

/-- Whether a poller looks for one more time: it may, and it was neither stopped before nor has an
earlier look ended the poll. -/
structure Looks (id : String) (stopped : Bool) (round : Nat → PollRound) (limit : Int) (n : Nat) :
    Prop where
  lt : n < limit
  passed : ∀ k < n, verdict id (round k).fetched = .ok none
  free : ¬ PollState.StoppedBefore stopped round n

/-- **How a poll ends**: what it gives, after how many looks and how many waits. -/
inductive PollEnds (id : String) (stopped : Bool) (round : Nat → PollRound) (limit : Int) :
    Except ClientFault PollResult → (looks waits : Nat) → Prop
  /-- No look is allowed. -/
  | unlooked (h : limit ≤ 0) :
      PollEnds id stopped round limit (.ok ⟨if stopped then .stopped else .timedOut, limit⟩) 0 0
  /-- It was stopped, and does not look again. -/
  | stopped {n : Nat} (hlt : n < limit)
      (hpassed : ∀ k < n, verdict id (round k).fetched = .ok none)
      (hstopped : PollState.StoppedBefore stopped round n) :
      PollEnds id stopped round limit (.ok ⟨.stopped, n⟩) n n
  /-- A look ended it. -/
  | ended {n : Nat} {ending : PollEnding} (hlooks : Looks id stopped round limit n)
      (h : verdict id (round n).fetched = .ok (some ending)) :
      PollEnds id stopped round limit (.ok ⟨ending, (n + 1 : Nat)⟩) (n + 1) n
  /-- A look failed. -/
  | failed {n : Nat} {fault : ClientFault} (hlooks : Looks id stopped round limit n)
      (h : verdict id (round n).fetched = .error fault) :
      PollEnds id stopped round limit (.error fault) (n + 1) n
  /-- The last look was passed over as well. -/
  | gaveUp {n : Nat} (hlimit : n + 1 = limit) (hlooks : Looks id stopped round limit n)
      (h : verdict id (round n).fetched = .ok none) :
      PollEnds id stopped round limit
        (.ok ⟨if (round n).stopsInFetch then .stopped else .timedOut, limit⟩) (n + 1) n

section
variable [Scalar α] {p : PollPolicy α} {id : String} {stopped : Bool} {round : Nat → PollRound}

/-- A poller that was not stopped looks, and what the look leads to decides how it goes on. -/
theorem PollState.pollFrom_succ {s : PollState α} (hactive : s.stopped = false) (remaining : Nat) :
    pollFrom p id round (remaining + 1) s =
      match verdict id (round s.polls).fetched with
      | .error fault => (.error fault, s.looked (round s.polls))
      | .ok (some ending) =>
        (.ok ⟨ending, (s.looked (round s.polls)).polls⟩, s.looked (round s.polls))
      | .ok none =>
        let next := s.looked (round s.polls)
        if remaining = 0 then (.ok (giveUp p next), next)
        else
          let queued := isQueued next.lastStatus
          let wait := p.wait (next.lastProgress.getD 0) queued next.polls
            (queued && isQueued s.lastStatus)
          pollFrom p id round remaining (next.rested (round s.polls) wait) := by
  rw [pollFrom, hactive, if_neg Bool.false_ne_true]
  dsimp only
  rw [take_eq]
  cases verdict id (round s.polls).fetched with
  | error fault => rfl
  | ok ending? =>
    cases ending? <;> rfl

/-- Every course of a poll ends in one of the ways, and what was reported are the changes of what it
saw. -/
theorem pollEnds_pollFrom {remaining : Nat} {s : PollState α} (hs : s.Before id stopped round)
    (hcount : s.polls + remaining = p.maxPolls.toNat) (hleft : remaining = 0 → s.polls = 0) :
    let outcome := PollState.pollFrom p id round remaining s
    PollEnds id stopped round p.maxPolls outcome.1 outcome.2.polls outcome.2.waits.length ∧
      outcome.2.Noted (snapshots round outcome.2.polls) := by
  induction remaining generalizing s with
  | zero =>
    -- a poller that has looked gives up in its last look, so this one never may
    have hzero := hleft rfl
    have hstopped : s.stopped = stopped := by
      rw [Bool.eq_iff_iff, hs.stopped_iff, hzero, PollState.stoppedBefore_zero]
    refine ⟨?_, hs.noted⟩
    rw [PollState.pollFrom, PollState.giveUp, hs.waits, hzero, hstopped]
    exact .unlooked (by omega)
  | succ remaining ih =>
    cases hstopped : s.stopped with
    | true =>
      rw [PollState.pollFrom, hstopped, if_pos rfl]
      refine ⟨?_, hs.noted⟩
      rw [hs.waits]
      exact .stopped (by omega) hs.passed (hs.stopped_iff.mp hstopped)
    | false =>
      have hlooks : Looks id stopped round p.maxPolls s.polls :=
        ⟨by omega, hs.passed, by simpa [← hs.stopped_iff] using hstopped⟩
      have hwaits : (s.looked (round s.polls)).waits.length = s.polls := by
        rw [PollState.looked_waits, hs.waits]
      have hnoted : (s.looked (round s.polls)).Noted
          (snapshots round (s.looked (round s.polls)).polls) := by
        rw [PollState.looked_polls]
        exact hs.noted_looked
      rw [PollState.pollFrom_succ hstopped]
      split
      · next fault h =>
        refine ⟨?_, hnoted⟩
        rw [PollState.looked_polls, hwaits]
        exact .failed hlooks h
      · next ending h =>
        refine ⟨?_, hnoted⟩
        dsimp only
        rw [PollState.looked_polls, hwaits]
        exact .ended hlooks h
      · next h =>
        dsimp only
        split
        · next hzero =>
          -- the last look: there is no wait after it
          refine ⟨?_, hnoted⟩
          rw [PollState.giveUp, PollState.looked_stopped, PollState.looked_polls, hwaits]
          exact .gaveUp (by omega) hlooks h
        · next hpos =>
          refine ih (hs.pass hstopped h _) ?_ fun hzero => absurd hzero hpos
          rw [PollState.rested_polls, PollState.looked_polls]
          omega

/-- **How polls end**, and what they report. -/
theorem pollEnds_poll (p : PollPolicy α) (id : String) (stopped : Bool)
    (round : Nat → PollRound) :
    let outcome := poll p id stopped round
    PollEnds id stopped round p.maxPolls outcome.1 outcome.2.polls outcome.2.waits.length ∧
      outcome.2.Noted (snapshots round outcome.2.polls) :=
  pollEnds_pollFrom (PollState.before_start id stopped round) (Nat.zero_add _) fun _ => rfl

/-- Looks are only added. -/
theorem polls_le_pollFrom (remaining : Nat) (s : PollState α) :
    s.polls ≤ (PollState.pollFrom p id round remaining s).2.polls := by
  induction remaining generalizing s with
  | zero => exact Nat.le_refl _
  | succ remaining ih =>
    cases hstopped : s.stopped with
    | true =>
      refine Nat.le_of_eq ?_
      rw [PollState.pollFrom, hstopped, if_pos rfl]
    | false =>
      have hlooked : s.polls ≤ (s.looked (round s.polls)).polls := by
        rw [PollState.looked_polls]
        exact Nat.le_succ _
      rw [PollState.pollFrom_succ hstopped]
      split
      · exact hlooked
      · exact hlooked
      · dsimp only
        split
        · exact hlooked
        · refine Nat.le_trans ?_ (ih _)
          rwa [PollState.rested_polls]

/-- A poll takes nothing from rounds in which it does not look. -/
theorem pollFrom_congr {round' : Nat → PollRound} (remaining : Nat) (s : PollState α)
    (hround : ∀ k < (PollState.pollFrom p id round remaining s).2.polls, round' k = round k) :
    PollState.pollFrom p id round' remaining s = PollState.pollFrom p id round remaining s := by
  induction remaining generalizing s with
  | zero => rfl
  | succ remaining ih =>
    cases hstopped : s.stopped with
    | true => rw [PollState.pollFrom, PollState.pollFrom, hstopped, if_pos rfl, if_pos rfl]
    | false =>
      rw [PollState.pollFrom_succ hstopped] at hround ⊢
      rw [PollState.pollFrom_succ hstopped]
      -- the look that is made now is one of those that are made
      have hnow : round' s.polls = round s.polls := by
        refine hround _ ?_
        have hlooked : s.polls < (s.looked (round s.polls)).polls := by
          rw [PollState.looked_polls]
          exact Nat.lt_succ_self _
        split
        · exact hlooked
        · exact hlooked
        · dsimp only
          split
          · exact hlooked
          · refine Nat.lt_of_lt_of_le ?_ (polls_le_pollFrom _ _)
            rwa [PollState.rested_polls]
      rw [hnow]
      split
      · rfl
      · rfl
      · next hpassed =>
        simp only [hpassed] at hround
        dsimp only
        split
        · rfl
        · next hpos =>
          rw [if_neg hpos] at hround
          exact ih _ hround

end

/-! ### Regular rounds -/

/-- A snapshot of a job: its status is a text, and its progress a whole number or missing. -/
structure Json.IsSnapshot (job : Json) : Prop where
  status : ∃ status, job.member? "status" = some (.text status)
  progress : job.member? "progress" = none ∨ job.member? "progress" = some .null ∨
    ∃ n, job.member? "progress" = some (.int n)

/-- What a look brings as long as client and server work: a snapshot, a refusal or a broken
connection. -/
inductive IsAnswer : Except ClientFault Json → Prop
  | snapshot {job : Json} (h : job.IsSnapshot) : IsAnswer (.ok job)
  | refused (code : Nat) : IsAnswer (.error (.status code))
  | broken (sort : TransportSort) (reason : String) :
    IsAnswer (.error (.fetch (.transport sort reason)))

/-- Whether a look shows a job with a status. -/
def Shows (fetched : Except ClientFault Json) (status : String) : Prop :=
  ∃ job, fetched = .ok job ∧ job.member? "status" = some (.text status)

/-- Whether a look shows that a job has ended, or that there is none. -/
def IsFinal (fetched : Except ClientFault Json) : Prop :=
  Shows fetched "completed" ∨ Shows fetched "failed" ∨ fetched = .error (.status 404)

theorem Json.member_eq_ok {v w : Json} {name : String} (h : v.member? name = some w) :
    v.member name = .ok w := by
  cases v with
  | object members =>
    have hfind : find? members name = some w := h
    rw [member, hfind]
  | null => cases h
  | bool => cases h
  | int => cases h
  | float => cases h
  | text => cases h
  | array => cases h

/-- The status and the progress of a snapshot are read. -/
theorem JobSnapshot.read_eq_ok {job : Json} {status : String} {n : Int}
    (hstatus : job.member? "status" = some (.text status))
    (hprogress : job.member? "progress" = some (.int n)) :
    JobSnapshot.read job = .ok { status := .text status, progress := n, source := job } := by
  rw [JobSnapshot.read, Json.member_eq_ok hstatus, hprogress]
  by_cases hzero : n = 0
  · subst hzero
    rfl
  · have htruthy : (Json.int n).isTruthy = true := bne_iff_ne.mpr hzero
    dsimp only [bind, Except.bind, Option.getD_some]
    rw [if_pos htruthy]
    rfl

/-- A snapshot is read. -/
theorem Json.IsSnapshot.read {job : Json} (h : job.IsSnapshot) {status : String}
    (hstatus : job.member? "status" = some (.text status)) :
    ∃ progress, JobSnapshot.read job =
      .ok { status := .text status, progress, source := job } := by
  obtain hprogress | hprogress | ⟨n, hprogress⟩ := h.progress
  · refine ⟨0, ?_⟩
    rw [JobSnapshot.read, member_eq_ok hstatus, hprogress]
    rfl
  · refine ⟨0, ?_⟩
    rw [JobSnapshot.read, member_eq_ok hstatus, hprogress]
    rfl
  · exact ⟨n, JobSnapshot.read_eq_ok hstatus hprogress⟩

section
variable {job : Json} {fetched : Except ClientFault Json}

/-- A completed job ends a poll with its URL. -/
theorem verdict_completed (id : String) (h : job.IsSnapshot)
    (hstatus : job.member? "status" = some (.text "completed")) :
    verdict id (.ok job) =
      .ok (some (.completed ((job.member? "downloadUrl").getD .null))) := by
  obtain ⟨progress, hread⟩ := h.read hstatus
  rw [verdict, hread]
  rfl

/-- A failed job ends a poll as failed. -/
theorem verdict_failed (id : String) (h : job.IsSnapshot)
    (hstatus : job.member? "status" = some (.text "failed")) :
    ∃ error kind, verdict id (.ok job) = .ok (some (.failed error kind)) := by
  obtain ⟨progress, hread⟩ := h.read hstatus
  rw [verdict, hread]
  exact ⟨_, _, rfl⟩

/-- A job that goes on does not end a poll. -/
theorem verdict_active (id : String) (h : job.IsSnapshot) {status : String}
    (hstatus : job.member? "status" = some (.text status)) (hcompleted : status ≠ "completed")
    (hfailed : status ≠ "failed") : verdict id (.ok job) = .ok none := by
  obtain ⟨progress, hread⟩ := h.read hstatus
  have hending : JobSnapshot.ending? { status := .text status, progress, source := job } =
      .ok none := by
    unfold JobSnapshot.ending?
    split <;> simp_all
  simp only [verdict, hread, hending]
  rfl

theorem IsAnswer.isSnapshot (h : IsAnswer fetched) (hjob : fetched = .ok job) :
    job.IsSnapshot := by
  subst hjob
  cases h with
  | snapshot h => exact h

/-- A look that shows an end ends the poll. -/
theorem IsAnswer.verdict_final (h : IsAnswer fetched) (hfinal : IsFinal fetched) (id : String) :
    ∃ ending, verdict id fetched = .ok (some ending) := by
  obtain ⟨job, rfl, hstatus⟩ | ⟨job, rfl, hstatus⟩ | rfl := hfinal
  · cases h with
    | snapshot h => exact ⟨_, verdict_completed id h hstatus⟩
  · cases h with
    | snapshot h =>
      obtain ⟨error, kind, hverdict⟩ := verdict_failed id h hstatus
      exact ⟨_, hverdict⟩
  · exact ⟨_, rfl⟩

/-- **What an answer leads to**: the poll goes on, it ends as the job has, or a refusal is raised
that is neither a missing job nor a failure of the server. -/
theorem IsAnswer.verdict_cases (h : IsAnswer fetched) (id : String) :
    verdict id fetched = .ok none ∨
      (∃ ending, verdict id fetched = .ok (some ending) ∧ ending ≠ .timedOut ∧
        ending ≠ .stopped) ∨
      ∃ code, verdict id fetched = .error (.status code) ∧ code ≠ 404 ∧ code < 500 := by
  cases h with
  | @snapshot job h =>
    obtain ⟨status, hstatus⟩ := h.status
    by_cases hcompleted : status = "completed"
    · exact .inr (.inl ⟨_, verdict_completed id h (hcompleted ▸ hstatus), nofun, nofun⟩)
    · by_cases hfailed : status = "failed"
      · obtain ⟨error, kind, hverdict⟩ := verdict_failed id h (hfailed ▸ hstatus)
        exact .inr (.inl ⟨_, hverdict, nofun, nofun⟩)
      · exact .inl (verdict_active id h hstatus hcompleted hfailed)
  | refused code =>
    simp only [verdict]
    split
    · exact .inr (.inl ⟨_, rfl, nofun, nofun⟩)
    · next hmissing =>
      split
      · next hrefused => exact .inr (.inr ⟨code, rfl, hmissing, hrefused⟩)
      · exact .inl rfl
  | broken => exact .inl rfl

end

/-! ### The laws of a poll -/

/-- Whether a poll of so many looks and waits was stopped: from the start, during a look or during a
wait. -/
def IsStopped (stopped : Bool) (round : Nat → PollRound) (looks waits : Nat) : Prop :=
  stopped = true ∨ (∃ k < looks, (round k).stopsInFetch = true) ∨
    ∃ k < waits, (round k).stopsInWait = true

theorem isStopped_iff {stopped : Bool} {round : Nat → PollRound} {n : Nat} :
    IsStopped stopped round n n ↔ PollState.StoppedBefore stopped round n := by
  simp only [IsStopped, PollState.StoppedBefore, and_or_left, exists_or]

theorem isStopped_succ_iff {stopped : Bool} {round : Nat → PollRound} {n : Nat} :
    IsStopped stopped round (n + 1) n ↔
      PollState.StoppedBefore stopped round n ∨ (round n).stopsInFetch = true := by
  rw [← isStopped_iff]
  simp only [IsStopped, Nat.exists_lt_succ_right, or_assoc]
  exact or_congr_right (or_congr_right or_comm)

theorem PollResult.isTimedOut_iff {r : PollResult} :
    r.isTimedOut = true ↔ r.ending = .timedOut := by
  unfold isTimedOut
  cases r.ending <;> simp

theorem PollResult.isCancelled_iff {r : PollResult} :
    r.isCancelled = true ↔ r.ending = .stopped := by
  unfold isCancelled
  cases r.ending <;> simp

/-- **A lawful poll**: what may be relied on when it gives a result, or raises, after so many looks
and waits. -/
structure LawfulPoll (limit : Int) (stopped : Bool) (round : Nat → PollRound)
    (result : Except ClientFault PollResult) (looks waits : Nat) : Prop where
  /-- It looks no more often than it may. -/
  looks_le : (looks : Int) ≤ limit
  /-- A result says how often it looked. -/
  polls_eq : ∀ r, result = .ok r → r.polls = looks
  /-- A result has at most one of three marks. -/
  marks : ∀ r, result = .ok r → [r.isSuccess, r.isTimedOut, r.isCancelled].count true ≤ 1
  /-- A completed job that was seen makes it a success, with the job's URL. -/
  completed : ∀ k < looks, ∀ job, (round k).fetched = .ok job →
    job.member? "status" = some (.text "completed") →
      ∃ r, result = .ok r ∧ r.isSuccess = true ∧
        r.ending = .completed ((job.member? "downloadUrl").getD .null)
  /-- A failed job that was seen makes it a failure. -/
  failed : ∀ k < looks, Shows (round k).fetched "failed" →
    ∃ r, result = .ok r ∧ r.isSuccess = false ∧ r.isTimedOut = false ∧ r.isCancelled = false
  /-- It gives up only after all its looks, if none showed an end and nobody stopped it. -/
  timedOut : ∀ r, result = .ok r → r.isTimedOut = true →
    looks = limit ∧ (∀ k < looks, ¬ IsFinal (round k).fetched) ∧
      ¬ IsStopped stopped round looks waits
  /-- It is cancelled only if somebody stopped it. -/
  cancelled : ∀ r, result = .ok r → r.isCancelled = true → IsStopped stopped round looks waits
  /-- It raises only a refusal that is neither a missing job nor a failure of the server. -/
  raised : ∀ fault, result = .error fault → ∃ code, fault = .status code ∧ code ≠ 404 ∧ code < 500
  /-- A look that shows an end, and the last look, are followed by no look and no wait. -/
  last : ∀ k < looks, IsFinal (round k).fetched ∨ (k : Int) + 1 = limit →
    looks = k + 1 ∧ waits = k

namespace PollEnds

variable {id : String} {stopped : Bool} {round : Nat → PollRound} {limit : Int}
  {result : Except ClientFault PollResult} {looks waits : Nat}

/-- Every look but the last is passed over. -/
theorem passed (h : PollEnds id stopped round limit result looks waits) {k : Nat}
    (hk : k + 1 < looks) : verdict id (round k).fetched = .ok none := by
  cases h with
  | unlooked => omega
  | stopped _ hpassed => exact hpassed k (by omega)
  | ended hlooks => exact hlooks.passed k (by omega)
  | failed hlooks => exact hlooks.passed k (by omega)
  | gaveUp _ hlooks => exact hlooks.passed k (by omega)

/-- A look that ends the poll is the last one, and decides the result. -/
theorem of_verdict (h : PollEnds id stopped round limit result looks waits) {k : Nat}
    (hk : k < looks) {ending : PollEnding}
    (hverdict : verdict id (round k).fetched = .ok (some ending)) :
    result = .ok ⟨ending, looks⟩ ∧ looks = k + 1 ∧ waits = k := by
  have hlast : looks = k + 1 := by
    by_contra hne
    cases (h.passed (show k + 1 < looks by omega)).symm.trans hverdict
  cases h with
  | unlooked => omega
  | stopped _ hpassed => cases (hpassed k hk).symm.trans hverdict
  | ended _ hended =>
    obtain rfl := Nat.succ.inj hlast
    cases hended.symm.trans hverdict
    exact ⟨rfl, rfl, rfl⟩
  | failed _ hfailed =>
    obtain rfl := Nat.succ.inj hlast
    cases hfailed.symm.trans hverdict
  | gaveUp _ _ hpassed =>
    obtain rfl := Nat.succ.inj hlast
    cases hpassed.symm.trans hverdict

theorem looks_le (h : PollEnds id stopped round limit result looks waits) (hlimit : 0 ≤ limit) :
    looks ≤ limit := by
  cases h with
  | unlooked => exact hlimit
  | stopped hlt => exact Int.le_of_lt hlt
  | ended hlooks => exact hlooks.lt
  | failed hlooks => exact hlooks.lt
  | gaveUp hlast => exact Int.le_of_eq hlast

theorem polls_eq (h : PollEnds id stopped round limit result looks waits) (hlimit : 0 ≤ limit)
    {r : PollResult} (hr : result = .ok r) : r.polls = looks := by
  cases h with
  | unlooked hnone =>
    cases hr
    exact Int.le_antisymm hnone hlimit
  | stopped => exact Except.ok.inj hr ▸ rfl
  | ended => exact Except.ok.inj hr ▸ rfl
  | failed => cases hr
  | gaveUp hlast =>
    cases hr
    exact hlast.symm

/-- The last look that is allowed is followed by no wait. -/
theorem waits_eq (h : PollEnds id stopped round limit result looks waits) {k : Nat}
    (hk : k < looks) (hlast : k + 1 = limit) : looks = k + 1 ∧ waits = k := by
  cases h with
  | unlooked => omega
  | stopped hlt => omega
  | ended hlooks =>
    have hlt := hlooks.lt
    omega
  | failed hlooks =>
    have hlt := hlooks.lt
    omega
  | gaveUp => omega

/-- An answer never makes the poller give up or stop. -/
theorem ending_ne (hround : ∀ k, IsAnswer (round k).fetched) {n : Nat} {ending : PollEnding}
    (hverdict : verdict id (round n).fetched = .ok (some ending)) :
    ending ≠ .timedOut ∧ ending ≠ .stopped := by
  obtain hnone | ⟨_, hsome, hne⟩ | ⟨_, herror, -⟩ := (hround n).verdict_cases id
  · cases hnone.symm.trans hverdict
  · cases hsome.symm.trans hverdict
    exact hne
  · cases herror.symm.trans hverdict

/-- A poller gives up after all its looks were passed over, if nobody stopped it. -/
theorem of_timedOut (h : PollEnds id stopped round limit result looks waits)
    (hlimit : 0 ≤ limit) (hround : ∀ k, IsAnswer (round k).fetched) {r : PollResult}
    (hr : result = .ok r) (htimedOut : r.ending = .timedOut) :
    looks = limit ∧ (∀ k < looks, verdict id (round k).fetched = .ok none) ∧
      ¬ IsStopped stopped round looks waits := by
  cases h with
  | unlooked hnone =>
    cases hr
    refine ⟨Int.le_antisymm hlimit hnone, fun _ hk => absurd hk (Nat.not_lt_zero _), ?_⟩
    rw [isStopped_iff, PollState.stoppedBefore_zero]
    rintro rfl
    cases htimedOut
  | stopped =>
    cases hr
    cases htimedOut
  | ended _ hverdict =>
    cases hr
    exact absurd htimedOut (ending_ne hround hverdict).1
  | failed => cases hr
  | gaveUp hlast hlooks hpassed =>
    cases hr
    refine ⟨hlast, ?_, ?_⟩
    · rw [Nat.forall_lt_succ_right]
      exact ⟨hlooks.passed, hpassed⟩
    · rw [isStopped_succ_iff]
      rintro (hstopped | hstopped)
      · exact hlooks.free hstopped
      · rw [hstopped] at htimedOut
        cases htimedOut

/-- A poll is given as cancelled only if somebody stopped it. -/
theorem of_stopped (h : PollEnds id stopped round limit result looks waits)
    (hround : ∀ k, IsAnswer (round k).fetched) {r : PollResult} (hr : result = .ok r)
    (hcancelled : r.ending = .stopped) : IsStopped stopped round looks waits := by
  cases h with
  | unlooked =>
    cases hr
    cases stopped with
    | true => exact .inl rfl
    | false => cases hcancelled
  | stopped _ _ hstopped => exact isStopped_iff.mpr hstopped
  | ended _ hverdict =>
    cases hr
    exact absurd hcancelled (ending_ne hround hverdict).2
  | failed => cases hr
  | gaveUp =>
    cases hr
    cases hstopped : (round waits).stopsInFetch with
    | true => exact isStopped_succ_iff.mpr (.inr hstopped)
    | false =>
      rw [hstopped] at hcancelled
      cases hcancelled

/-- **However a poll ends, it is lawful**, if its looks bring answers. -/
theorem lawful (h : PollEnds id stopped round limit result looks waits) (hlimit : 0 ≤ limit)
    (hround : ∀ k, IsAnswer (round k).fetched) :
    LawfulPoll limit stopped round result looks waits where
  looks_le := h.looks_le hlimit
  polls_eq _ hr := h.polls_eq hlimit hr
  marks r _ := by
    unfold PollResult.isSuccess PollResult.isTimedOut PollResult.isCancelled
    cases r.ending <;> simp
  completed k hk job hjob hstatus := by
    have hsnapshot := (hround k).isSnapshot hjob
    have hverdict := verdict_completed id hsnapshot hstatus
    rw [← hjob] at hverdict
    obtain ⟨hresult, -, -⟩ := h.of_verdict hk hverdict
    exact ⟨_, hresult, rfl, rfl⟩
  failed k hk := by
    rintro ⟨job, hjob, hstatus⟩
    have hsnapshot := (hround k).isSnapshot hjob
    obtain ⟨error, kind, hverdict⟩ := verdict_failed id hsnapshot hstatus
    rw [← hjob] at hverdict
    obtain ⟨hresult, -, -⟩ := h.of_verdict hk hverdict
    exact ⟨_, hresult, rfl, rfl, rfl⟩
  timedOut r hr htimedOut := by
    obtain ⟨hlooks, hpassed, hstopped⟩ :=
      h.of_timedOut hlimit hround hr (PollResult.isTimedOut_iff.mp htimedOut)
    refine ⟨hlooks, fun k hk hfinal => ?_, hstopped⟩
    obtain ⟨ending, hverdict⟩ := (hround k).verdict_final hfinal id
    cases (hpassed k hk).symm.trans hverdict
  cancelled _ hr hcancelled :=
    h.of_stopped hround hr (PollResult.isCancelled_iff.mp hcancelled)
  raised fault hfault := by
    cases h with
    | failed _ hverdict =>
      cases hfault
      obtain hnone | ⟨_, hsome, -⟩ | ⟨code, herror, hcode⟩ := (hround waits).verdict_cases id
      · cases hnone.symm.trans hverdict
      · cases hsome.symm.trans hverdict
      · cases herror.symm.trans hverdict
        exact ⟨code, rfl, hcode⟩
    | unlooked => cases hfault
    | stopped => cases hfault
    | ended => cases hfault
    | gaveUp => cases hfault
  last k hk hfinal := by
    obtain hfinal | hlast := hfinal
    · obtain ⟨ending, hverdict⟩ := (hround k).verdict_final hfinal id
      exact (h.of_verdict hk hverdict).2
    · exact h.waits_eq hk hlast

end PollEnds

/-- **Every poll is lawful**, whatever it is answered and whenever it is stopped, which may be in a
report as well: that is during the look. It takes nothing from rounds in which it does not look. -/
theorem lawful_poll [Scalar α] {p : PollPolicy α} (hlimit : 0 ≤ p.maxPolls) (id : String)
    (stopped : Bool) {round : Nat → PollRound} (hround : ∀ k, IsAnswer (round k).fetched) :
    let outcome := poll p id stopped round
    LawfulPoll p.maxPolls stopped round outcome.1 outcome.2.polls outcome.2.waits.length ∧
      ∀ round', (∀ k < outcome.2.polls, round' k = round k) →
        poll p id stopped round' = outcome := by
  obtain ⟨hends, -⟩ := pollEnds_poll p id stopped round
  exact ⟨hends.lawful hlimit hround, fun round' hsame => pollFrom_congr _ _ hsame⟩

/-- A poller that is stopped while it fetches a completed job gives the job's URL all the same. -/
theorem completed_poll_when_stopped :
    let policy : PollPolicy Rat :=
      { shortWait := 2, mediumWait := 5, longWait := 20, jitter := 0, maxPolls := 5
        spread := fun _ => 0 }
    let job : Json := .object [("status", .text "completed"), ("progress", .int 100),
      ("downloadUrl", .text "/job-1.mp4")]
    let round : Nat → PollRound
      | 0 => { fetched := .error (.status 503) }
      | _ => { fetched := .ok job, stopsInFetch := true }
    ∃ r, (poll policy "job-1" false round).1 = .ok r ∧ r.isSuccess = true ∧ r.polls = 2 := by
  intro policy job round
  have hjob : job.IsSnapshot := ⟨⟨_, rfl⟩, .inr (.inr ⟨_, rfl⟩)⟩
  have hround : ∀ k, IsAnswer (round k).fetched
    | 0 => .refused 503
    | _ + 1 => .snapshot hjob
  have hlooks : (poll policy "job-1" false round).2.polls = 2 := by decide +kernel
  have hlawful := (lawful_poll (show 0 ≤ policy.maxPolls by decide) "job-1" false hround).1
  obtain ⟨r, hr, hsuccess, -⟩ := hlawful.completed 1 (by rw [hlooks]; decide) job rfl rfl
  refine ⟨r, hr, hsuccess, ?_⟩
  rw [hlawful.polls_eq r hr, hlooks]
  rfl

end TimelineExport

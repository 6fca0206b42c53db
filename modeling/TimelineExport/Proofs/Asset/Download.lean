import Mathlib
import TimelineExport.Proofs.Asset.Fetch
import TimelineExport.Proofs.Number.FloatSum

/-!
# How a download goes on

A download is given a script that says what each of its attempts brings; that of `fetch` is what
the network answers (`fetch_eq_run`). An attempt that fails for a passing reason, `isPassing`, is
followed by a wait and another attempt; any other one ends the download, and only a complete body
changes the target (`run_eventsOf_of_isPassing`, `run_eventsOf_of_not_isPassing`). So after a number
of attempts a download either asks for the next one or has ended before (`asks_or_ends`).

What a download leaves behind is seen event by event: `IsTidy`.
-/

namespace TimelineExport

namespace Download

variable {α γ : Type}

/-! ### Scripts -/

/-- Whether an attempt fails for a reason that may pass: the connection fails, before the answer or
within its body, or the status says so. -/
def isPassing : Except FetchFault (Response γ) → Bool
  | .error (.transport _ _) => true
  | .error _ => false
  | .ok r => retryableStatuses.contains r.status || (r.status < 400 && r.broken.isSome)

theorem isPassing_ok (r : Response γ) : isPassing (.ok r) =
    (retryableStatuses.contains r.status || (r.status < 400 && r.broken.isSome)) := rfl

/-- The file that an attempt brings, if it brings one. -/
def body? [FileContent γ] : Except FetchFault (Response γ) → Option γ
  | .error _ => none
  | .ok r => if r.status < 400 ∧ r.broken = none then some (FileContent.join r.chunks) else none

theorem body?_ok [FileContent γ] (r : Response γ) : body? (.ok r) =
    if r.status < 400 ∧ r.broken = none then some (FileContent.join r.chunks) else none := rfl

/-- A status after which a request is tried again brings no file. -/
theorem le_of_mem_retryableStatuses {status : Nat} (h : status ∈ retryableStatuses) :
    400 ≤ status := by
  simp only [retryableStatuses, List.mem_cons, List.not_mem_nil, or_false] at h
  omega

theorem body?_eq_none_of_isPassing [FileContent γ] {answer : Except FetchFault (Response γ)}
    (h : isPassing answer = true) : body? answer = none := by
  cases answer with
  | error fault => rfl
  | ok r =>
    rw [isPassing_ok, Bool.or_eq_true, Bool.and_eq_true] at h
    refine (body?_ok r).trans (if_neg fun hand => ?_)
    obtain hretryable | ⟨-, hbroken⟩ := h
    · exact (le_of_mem_retryableStatuses (List.mem_of_elem_eq_true hretryable)).not_gt hand.1
    · rw [hand.2] at hbroken
      cases hbroken

section
variable (script : Nat → Except FetchFault (Response γ))

/-- What happens in so many attempts, each of which begins when the wait before it is over. -/
def scriptEvents (attempts : Nat) : List (DownloadEvent γ) :=
  (List.range attempts).flatMap fun i => .wake :: eventsOf (script i)

/-- The number of attempts up to the first that does not fail for a passing reason, or as many as
there may be. -/
def attemptsNeeded (limit : Nat) : Nat :=
  min ((List.range limit).findIdx (fun i => !isPassing (script i)) + 1) limit

theorem scriptEvents_succ (attempts : Nat) :
    scriptEvents script (attempts + 1) =
      scriptEvents script attempts ++ .wake :: eventsOf (script attempts) := by
  unfold scriptEvents
  rw [List.range_succ, List.flatMap_append, List.flatMap_singleton]

theorem scriptEvents_succ' (attempts : Nat) :
    scriptEvents script (attempts + 1) =
      .wake :: eventsOf (script 0) ++ scriptEvents (fun i => script (i + 1)) attempts := by
  unfold scriptEvents
  rw [List.range_succ_eq_map, List.flatMap_cons, List.flatMap_map]

variable {script} {n limit : Nat}

/-- Attempts that all fail for a passing reason are not enough, if there may be more. -/
theorem lt_attemptsNeeded (hn : n < limit) (hpassing : ∀ i < n, isPassing (script i) = true) :
    n < attemptsNeeded script limit := by
  have hle : n ≤ (List.range limit).findIdx fun i => !isPassing (script i) := by
    refine List.le_findIdx_of_not (by rwa [List.length_range]) fun i hi => ?_
    rw [List.getElem_range, hpassing i hi]
    rfl
  unfold attemptsNeeded
  omega

variable (limit) in
/-- No more attempts are needed after one that does not fail for a passing reason. -/
theorem attemptsNeeded_le (h : isPassing (script n) = false) :
    attemptsNeeded script limit ≤ n + 1 := by
  unfold attemptsNeeded
  obtain hfew | hmany := le_or_gt limit n
  · omega
  · have hfound : (List.range limit).findIdx (fun i => !isPassing (script i)) ≤ n := by
      by_contra hlt
      have hnot := List.not_of_lt_findIdx (not_le.mp hlt)
      rw [List.getElem_range, h] at hnot
      cases hnot
    omega

variable (script limit) in
theorem attemptsNeeded_le_limit : attemptsNeeded script limit ≤ limit := min_le_right _ _

theorem attemptsNeeded_le_iff :
    attemptsNeeded script limit ≤ n + 1 ↔
      limit ≤ n + 1 ∨ ∃ i ≤ n, isPassing (script i) = false := by
  constructor
  · intro hle
    by_contra hnot
    obtain ⟨hlimit, hpassing⟩ := not_or.mp hnot
    have hall : ∀ i < n + 1, isPassing (script i) = true := fun i hi =>
      Bool.not_eq_false _ ▸ fun hfalse => hpassing ⟨i, Nat.lt_succ_iff.mp hi, hfalse⟩
    exact hle.not_gt (lt_attemptsNeeded (not_le.mp hlimit) hall)
  · rintro (hlimit | ⟨i, hi, hfalse⟩)
    · exact (attemptsNeeded_le_limit script limit).trans hlimit
    · exact (attemptsNeeded_le limit hfalse).trans (Nat.succ_le_succ hi)

end

/-! ### Events -/

section
variable {policy : RetryPolicy α} {d : Download α γ}

/-- Whether a download is over, or waits until the next attempt. -/
def Rests (d : Download α γ) : Prop :=
  match d.phase with
  | .asking | .receiving _ => False
  | _ => True

/-- Whether a download is over. -/
def IsOver (d : Download α γ) : Prop :=
  match d.phase with
  | .ended _ | .cancelled => True
  | _ => False

theorem isOver_of_ended {result : Except AssetFault Unit} (h : d.phase = .ended result) :
    d.IsOver := by
  unfold IsOver
  rw [h]
  trivial

/-- Whether an event is part of an attempt. -/
def IsWithinAttempt : DownloadEvent γ → Prop
  | .wake | .cancel => False
  | _ => True

theorem eventsOf_ok (r : Response γ) : eventsOf (.ok r) =
    .respond r.status :: (r.chunks.map .chunk ++
      [match r.broken with
        | some reason => .fail (.transport .reading reason)
        | none => .bodyEnd]) := rfl

theorem isWithinAttempt_of_mem_eventsOf (answer : Except FetchFault (Response γ)) :
    ∀ event ∈ eventsOf answer, IsWithinAttempt event := by
  cases answer with
  | error fault => exact List.forall_mem_singleton.mpr trivial
  | ok r =>
    refine List.forall_mem_cons.mpr
      ⟨trivial, List.forall_mem_append.mpr ⟨fun event hevent => ?_, ?_⟩⟩
    · obtain ⟨chunk, -, rfl⟩ := List.mem_map.mp hevent
      trivial
    · refine List.forall_mem_singleton.mpr ?_
      split <;> trivial

theorem rests_finish (result : Except AssetFault Unit) : (d.finish result).Rests := trivial

variable [Scalar α]

theorem rests_retry (reason : String) : (d.retry policy reason).Rests := by
  unfold retry
  split <;> trivial

variable [FileContent γ]

theorem run_append (events events' : List (DownloadEvent γ)) :
    d.run policy (events ++ events') = (d.run policy events).run policy events' :=
  List.foldl_append

theorem run_cons (event : DownloadEvent γ) (events : List (DownloadEvent γ)) :
    d.run policy (event :: events) = (d.step policy event).run policy events := rfl

/-- A download that is over does not change. -/
theorem IsOver.step (h : d.IsOver) (event : DownloadEvent γ) : d.step policy event = d := by
  unfold IsOver at h
  unfold Download.step
  split at h
  · next hphase => rw [hphase]
  · next hphase => rw [hphase]
  · cases h

theorem IsOver.run (h : d.IsOver) (events : List (DownloadEvent γ)) : d.run policy events = d := by
  induction events with
  | nil => rfl
  | cons event events ih => rw [run_cons, h.step, ih]

/-- What remains of an attempt changes nothing when it has failed. -/
theorem Rests.run (h : d.Rests) {events : List (DownloadEvent γ)}
    (hevents : ∀ event ∈ events, IsWithinAttempt event) : d.run policy events = d := by
  have hstep : ∀ event, IsWithinAttempt event → d.step policy event = d := fun event hevent => by
    unfold Rests at h
    unfold Download.step
    split <;> first
      | rfl
      | exact False.elim hevent
      | next hphase =>
        rw [hphase] at h
        exact h.elim
  induction events with
  | nil => rfl
  | cons event events ih =>
    obtain ⟨hevent, hevents⟩ := List.forall_mem_cons.mp hevents
    rw [run_cons, hstep event hevent, ih hevents]

/-- Pieces of a body are written one behind another. -/
theorem run_chunks (received chunks : List γ) :
    ({ d with phase := .receiving received, partialFile := some (FileContent.join received) }).run
        policy (chunks.map .chunk) =
      { d with phase := .receiving (received ++ chunks),
               partialFile := some (FileContent.join (received ++ chunks)) } := by
  induction chunks generalizing received with
  | nil =>
    rw [List.append_nil]
    rfl
  | cons chunk chunks ih =>
    rw [List.map_cons, run_cons, List.append_cons, ← ih]
    rfl

/-! ### Attempts -/

/-- An answer whose status ends the attempt. -/
theorem run_eventsOf_of_rests {r : Response γ} (hd : d.phase = .asking)
    (hrests : (d.respond policy r.status).Rests) :
    d.run policy (eventsOf (.ok r)) = d.respond policy r.status := by
  have hwithin := isWithinAttempt_of_mem_eventsOf (.ok r)
  have hstep : d.step policy (.respond r.status) = d.respond policy r.status := by
    unfold Download.step
    rw [hd]
  rw [eventsOf_ok] at hwithin ⊢
  rw [run_cons, hstep]
  exact hrests.run (List.forall_mem_cons.mp hwithin).2

/-- An answer whose body is received. -/
theorem run_eventsOf_of_ok {r : Response γ} (hd : d.phase = .asking)
    (hstatus : ¬ retryableStatuses.contains r.status = true) (h : r.status < 400) :
    d.run policy (eventsOf (.ok r)) =
      match r.broken with
      | some reason =>
        ({ d with phase := .receiving r.chunks,
                  partialFile := some (FileContent.join r.chunks) }).retry policy reason
      | none => ({ d with target := some (FileContent.join r.chunks) }).finish (.ok ()) := by
  have hstep : d.step policy (.respond r.status) =
      { d with phase := .receiving [], partialFile := some (FileContent.join []) } := by
    unfold Download.step
    rw [hd]
    exact (if_neg hstatus).trans (if_neg (not_le.mpr h))
  rw [eventsOf_ok, run_cons, hstep, run_append, run_chunks, List.nil_append]
  cases r.broken <;> rfl

variable (policy) in
/-- **An attempt that fails for a passing reason** is followed by another one, or is the last. -/
theorem run_eventsOf_of_isPassing {answer : Except FetchFault (Response γ)} (hd : d.phase = .asking)
    (h : isPassing answer = true) :
    ∃ phase part reason, d.run policy (eventsOf answer) =
      ({ d with phase := phase, partialFile := part }).retry policy reason := by
  cases answer with
  | error fault =>
    cases fault with
    | transport sort reason =>
      refine ⟨d.phase, d.partialFile, reason, ?_⟩
      change d.step policy (.fail (.transport sort reason)) = _
      unfold Download.step
      rw [hd]
      rfl
    | tooManyRedirects | address fault => cases h
  | ok r =>
    by_cases hstatus : retryableStatuses.contains r.status = true
    · have hrespond : d.respond policy r.status = d.retry policy ("HTTP " ++ toString r.status) :=
        if_pos hstatus
      refine ⟨d.phase, d.partialFile, "HTTP " ++ toString r.status, ?_⟩
      rw [run_eventsOf_of_rests hd (hrespond ▸ rests_retry _), hrespond]
    · rw [isPassing_ok, Bool.eq_false_iff.mpr hstatus, Bool.false_or, Bool.and_eq_true,
        decide_eq_true_iff] at h
      obtain ⟨reason, hbroken⟩ := Option.isSome_iff_exists.mp h.2
      refine ⟨.receiving r.chunks, some (FileContent.join r.chunks), reason, ?_⟩
      rw [run_eventsOf_of_ok hd hstatus h.1, hbroken]

variable (policy) in
/-- **An attempt that does not fail for a passing reason** ends the download: with the file that it
brings, or with a failure. -/
theorem run_eventsOf_of_not_isPassing {answer : Except FetchFault (Response γ)}
    (hd : d.phase = .asking) (h : isPassing answer = false) :
    match body? answer with
    | some content =>
      d.run policy (eventsOf answer) = ({ d with target := some content }).finish (.ok ())
    | none => ∃ fault, d.run policy (eventsOf answer) = d.finish (.error fault) := by
  cases answer with
  | error fault =>
    refine ⟨.fetch fault, ?_⟩
    change d.step policy (.fail fault) = _
    unfold Download.step
    rw [hd]
    cases fault with
    | transport sort reason => cases h
    | tooManyRedirects | address fault => rfl
  | ok r =>
    rw [isPassing_ok, Bool.or_eq_false_iff, Bool.and_eq_false_iff, decide_eq_false_iff_not] at h
    obtain ⟨hstatus, hbody⟩ := h
    have hstatus := Bool.eq_false_iff.mp hstatus
    rw [body?_ok]
    by_cases hok : r.status < 400
    · have hbroken := Option.not_isSome_iff_eq_none.mp
        (Bool.eq_false_iff.mp (hbody.resolve_left (not_not.mpr hok)))
      rw [if_pos ⟨hok, hbroken⟩]
      dsimp only
      rw [run_eventsOf_of_ok hd hstatus hok, hbroken]
    · have hrespond : d.respond policy r.status = d.finish
          (.error (.resolution (.asset d.url ("HTTP " ++ toString r.status)))) :=
        (if_neg hstatus).trans (if_pos (not_lt.mp hok))
      rw [if_neg fun hand => hok hand.1]
      exact ⟨_, (run_eventsOf_of_rests hd (hrespond ▸ rests_finish _)).trans hrespond⟩

/-! ### All attempts -/

variable {script : Nat → Except FetchFault (Response γ)} {target : Option γ} {n : Nat}

/-- **A download makes an attempt**, of which there are so many before: they have all failed for a
passing reason, and there was a wait after each. -/
structure Tries (policy : RetryPolicy α) (script : Nat → Except FetchFault (Response γ)) (n : Nat)
    (d : Download α γ) : Prop where
  asked : d.asked = n + 1
  waits : d.waits = (List.range n).map policy.delay
  passing : ∀ i < n, isPassing (script i) = true
  allowed : n < policy.attempts
  doubled : n ≤ maxDoublings + 1

/-- **A download asks** for such an attempt. -/
structure Asks (policy : RetryPolicy α) (script : Nat → Except FetchFault (Response γ)) (n : Nat)
    (d : Download α γ) : Prop extends Tries policy script n d where
  asking : d.phase = .asking

/-- **A download has ended** with an attempt: there may be none after it, its wait would be no
number, or the attempt has not failed for a passing reason. -/
structure Ends (policy : RetryPolicy α) (script : Nat → Except FetchFault (Response γ))
    (n : Nat) (d : Download α γ) : Prop extends Tries policy script n d where
  last : isPassing (script n) = false ∨ policy.attempts = n + 1 ∨ n = maxDoublings + 1
  outcome : match body? (script n) with
    | some content => d.phase = .ended (.ok ()) ∧ d.target = some content
    | none => ∃ fault, d.phase = .ended (.error fault)

theorem Ends.isOver (h : d.Ends policy script n) : d.IsOver := by
  have houtcome := h.outcome
  split at houtcome
  · exact isOver_of_ended houtcome.1
  · obtain ⟨fault, hphase⟩ := houtcome
    exact isOver_of_ended hphase

/-- A failure for a passing reason ends the download or leads to the next attempt. -/
theorem Tries.retry (h : d.Tries policy script n) (hlast : isPassing (script n) = true)
    (reason : String) :
    (d.retry policy reason).Ends policy script n ∨
      ((d.retry policy reason).step policy .wake).Asks policy script (n + 1) := by
  obtain ⟨hasked, hwaits, hpassing, hallowed, hdoubled⟩ := h
  have hbody := body?_eq_none_of_isPassing hlast
  have hindex : d.asked - 1 = n := by rw [hasked, Nat.add_sub_cancel]
  unfold Download.retry
  rw [hindex]
  obtain ⟨hgiveUp, hnext⟩ | ⟨-, hoverflow, hnext⟩ | ⟨hmore, hdoublings, hnext⟩ :=
    policy.next_cases n <;> rw [hnext]
  · refine .inl ⟨⟨hasked, hwaits, hpassing, hallowed, hdoubled⟩, .inr (.inl (by omega)), ?_⟩
    rw [hbody]
    exact ⟨_, rfl⟩
  · refine .inl ⟨⟨hasked, hwaits, hpassing, hallowed, hdoubled⟩, .inr (.inr (by omega)), ?_⟩
    rw [hbody]
    exact ⟨_, rfl⟩
  · refine .inr ⟨⟨congrArg (· + 1) hasked, ?_, fun i hi => ?_, hmore,
      Nat.succ_le_succ hdoublings⟩, rfl⟩
    · change d.waits ++ [policy.delay n] = _
      rw [hwaits, List.range_succ, List.map_append, List.map_singleton]
    · exact (Nat.lt_succ_iff_lt_or_eq.mp hi).elim (hpassing i) fun heq => heq ▸ hlast

/-- **One attempt** ends the download or leads to the next one. -/
theorem Asks.run_eventsOf (h : d.Asks policy script n) :
    (d.run policy (eventsOf (script n))).Ends policy script n ∨
      ((d.run policy (eventsOf (script n))).step policy .wake).Asks policy script (n + 1) := by
  cases hlast : isPassing (script n) with
  | false =>
    have hrun := run_eventsOf_of_not_isPassing policy h.asking hlast
    refine .inl ?_
    split at hrun
    · next content hbody =>
      rw [hrun]
      refine ⟨⟨h.asked, h.waits, h.passing, h.allowed, h.doubled⟩, .inl hlast, ?_⟩
      rw [hbody]
      exact ⟨rfl, rfl⟩
    · next hbody =>
      obtain ⟨fault, hrun⟩ := hrun
      rw [hrun]
      refine ⟨⟨h.asked, h.waits, h.passing, h.allowed, h.doubled⟩, .inl hlast, ?_⟩
      rw [hbody]
      exact ⟨fault, rfl⟩
  | true =>
    obtain ⟨phase, part, reason, hrun⟩ := run_eventsOf_of_isPassing policy h.asking hlast
    have hfailed : ({ d with phase := phase, partialFile := part }).Tries policy script n :=
      ⟨h.asked, h.waits, h.passing, h.allowed, h.doubled⟩
    rw [hrun]
    exact hfailed.retry hlast reason

variable (script target) in
/-- **After a number of attempts** a download asks for the next one, or has ended before. -/
theorem asks_or_ends (url : String) (hattempts : 1 ≤ policy.attempts) (attempts : Nat) :
    let d := (start policy url target).run policy (scriptEvents script attempts)
    (d.step policy .wake).Asks policy script attempts ∨
      ∃ n < attempts, d.Ends policy script n := by
  induction attempts with
  | zero =>
    have hstart : start policy url target = { url, asked := 1, phase := .asking, target } :=
      if_neg (by omega)
    rw [hstart]
    exact .inl ⟨⟨rfl, rfl, nofun, by omega, Nat.zero_le _⟩, rfl⟩
  | succ attempts ih =>
    dsimp only at ih ⊢
    rw [scriptEvents_succ, run_append, run_cons]
    obtain hasks | ⟨n, hn, hends⟩ := ih
    · obtain hends | hnext := hasks.run_eventsOf
      · exact .inr ⟨attempts, Nat.lt_succ_self _, hends⟩
      · exact .inl hnext
    -- what the script says after the end does not happen
    · rw [← run_cons, hends.isOver.run]
      exact .inr ⟨n, Nat.lt_succ_of_lt hn, hends⟩

variable (script target) in
/-- **A download ends** within the attempts that there may be. -/
theorem exists_ends (url : String) (hattempts : 1 ≤ policy.attempts) :
    ∃ n, ((start policy url target).run policy
      (scriptEvents script policy.attempts.toNat)).Ends policy script n := by
  obtain hasks | ⟨n, -, hends⟩ := asks_or_ends script target url hattempts policy.attempts.toNat
  · have := hasks.allowed
    omega
  · exact ⟨n, hends⟩

theorem Ends.of_getElem?_waits (h : d.Ends policy script n) {i : Nat} {wait : α}
    (hwait : d.waits[i]? = some wait) : i ≤ maxDoublings ∧ wait = policy.delay i := by
  rw [h.waits, List.getElem?_map] at hwait
  obtain ⟨i', hi', rfl⟩ := Option.map_eq_some_iff.mp hwait
  obtain ⟨hi, rfl⟩ := List.getElem?_eq_some_iff.mp hi'
  have hdoubled := h.doubled
  rw [List.length_range] at hi
  exact ⟨by omega, congrArg policy.delay (List.getElem_range _)⟩

/-- **A download makes as many attempts as it needs**, until the wait before the next one would be
no number. -/
theorem Ends.asked_eq (h : d.Ends policy script n) :
    d.asked = min (attemptsNeeded script policy.attempts.toNat) (maxDoublings + 2) := by
  have hallowed := h.allowed
  have hdoubled := h.doubled
  have hlimit : n < policy.attempts.toNat := by omega
  have hneeded := lt_attemptsNeeded hlimit h.passing
  rw [h.asked]
  obtain hlast | hlast | hlast := h.last
  · have := attemptsNeeded_le policy.attempts.toNat hlast
    omega
  · have := attemptsNeeded_le_limit script policy.attempts.toNat
    omega
  · omega

/-- That is all it needs, unless all attempts before the last doubling fail for a passing reason. -/
theorem Ends.asked_eq_iff (h : d.Ends policy script n) :
    d.asked = attemptsNeeded script policy.attempts.toNat ↔
      policy.attempts ≤ maxDoublings + 2 ∨
        ∃ i ≤ maxDoublings + 1, isPassing (script i) = false := by
  have hlimit : policy.attempts.toNat ≤ maxDoublings + 2 ↔ policy.attempts ≤ maxDoublings + 2 := by
    omega
  rw [h.asked_eq, min_eq_left_iff]
  exact attemptsNeeded_le_iff.trans (or_congr_left hlimit)

end

/-! ### What is left behind -/

section
variable {policy : RetryPolicy α} {d : Download α γ} {target : Option γ}

/-- **A tidy download** has no partial file when it is over, and changes its target only with
success. -/
structure IsTidy (target : Option γ) (d : Download α γ) : Prop where
  removed : d.IsOver → d.partialFile = none
  kept : d.phase = .ended (.ok ()) ∨ d.target = target

variable (policy target) in
theorem isTidy_start (url : String) : (start policy url target).IsTidy target := by
  unfold start
  split <;> exact ⟨fun _ => rfl, .inr rfl⟩

theorem IsTidy.target_eq (h : d.IsTidy target) (hover : ¬ d.IsOver) : d.target = target :=
  h.kept.resolve_left fun hphase => hover (isOver_of_ended hphase)

variable [Scalar α]

theorem isTidy_retry (h : d.target = target) (reason : String) :
    (d.retry policy reason).IsTidy target := by
  unfold Download.retry
  split
  · exact ⟨fun hover => hover.elim, .inr h⟩
  · exact ⟨fun _ => rfl, .inr h⟩
  · exact ⟨fun _ => rfl, .inr h⟩

theorem isTidy_respond [FileContent γ] (h : d.target = target) (status : Nat) :
    (d.respond policy status).IsTidy target := by
  unfold respond
  dsimp only
  split
  · exact isTidy_retry h _
  · split
    · exact ⟨fun _ => rfl, .inr h⟩
    · exact ⟨fun hover => hover.elim, .inr h⟩

theorem isTidy_fail (h : d.target = target) (fault : FetchFault) :
    (d.fail policy fault).IsTidy target := by
  cases fault with
  | transport sort reason => exact isTidy_retry h reason
  | tooManyRedirects | address fault => exact ⟨fun _ => rfl, .inr h⟩

variable [FileContent γ]

variable (policy) in
/-- **No event** leaves a partial file behind, or part of a body in the target. -/
theorem IsTidy.step (h : d.IsTidy target) (event : DownloadEvent γ) :
    (d.step policy event).IsTidy target := by
  by_cases hover : d.IsOver
  · rwa [hover.step]
  · have htarget := h.target_eq hover
    unfold Download.step
    split
    · exact h
    · exact h
    · exact ⟨fun _ => rfl, .inr htarget⟩
    · exact isTidy_respond htarget _
    · exact isTidy_fail htarget _
    · exact ⟨fun hover => hover.elim, .inr htarget⟩
    · exact isTidy_fail htarget _
    · exact ⟨fun _ => rfl, .inl rfl⟩
    · exact ⟨fun hover => hover.elim, .inr htarget⟩
    · exact h

variable (policy) in
theorem IsTidy.run (h : d.IsTidy target) (events : List (DownloadEvent γ)) :
    (d.run policy events).IsTidy target := by
  induction events generalizing d with
  | nil => exact h
  | cons event events ih => exact ih (h.step policy event)

variable (policy) in
theorem step_cancel (h : ¬ d.IsOver) :
    d.step policy .cancel = { d with phase := .cancelled, partialFile := none } := by
  unfold IsOver at h
  unfold Download.step
  cases hphase : d.phase with
  | ended result | cancelled =>
    rw [hphase] at h
    exact absurd trivial h
  | asking | receiving chunks | waiting => rfl

variable (policy) in
/-- **A download that is cancelled** is tidy, unless it was over before. -/
theorem IsTidy.run_cancel (h : d.IsTidy target) (events events' : List (DownloadEvent γ)) :
    d.run policy (events ++ .cancel :: events') = d.run policy (events ++ events') ∨
      (d.run policy (events ++ .cancel :: events')).phase = .cancelled ∧
        (d.run policy (events ++ .cancel :: events')).partialFile = none ∧
        (d.run policy (events ++ .cancel :: events')).target = target := by
  have htidy := h.run policy events
  rw [run_append, run_append]
  generalize d.run policy events = c at htidy
  by_cases hover : c.IsOver
  · rw [hover.run, hover.run]
    exact .inl rfl
  · refine .inr ?_
    have hcancel := step_cancel policy hover
    have hcancelled : (c.step policy .cancel).IsOver := hcancel ▸ trivial
    rw [run_cons, hcancelled.run, hcancel]
    exact ⟨rfl, rfl, htidy.target_eq hover⟩

end

/-! ### Scripts of a network -/

end Download

/-- What a network answers when it is asked the same again and again. -/
def Network.answerAt {γ : Type} (n : Network γ) (r : Request) : Nat → Except FetchFault (Response γ)
  | 0 => (n.follow r).1
  | i + 1 => (n.follow r).2.answerAt r i

namespace Download

section
variable [Scalar α] [FileContent γ] {policy : RetryPolicy α} {d : Download α γ}

theorem rests_run_eventsOf (hd : d.phase = .asking) (answer : Except FetchFault (Response γ)) :
    (d.run policy (eventsOf answer)).Rests := by
  cases h : isPassing answer with
  | true =>
    obtain ⟨phase, part, reason, hrun⟩ := run_eventsOf_of_isPassing policy hd h
    rw [hrun]
    exact rests_retry reason
  | false =>
    have hrun := run_eventsOf_of_not_isPassing policy hd h
    split at hrun
    · rw [hrun]
      exact rests_finish _
    · obtain ⟨fault, hrun⟩ := hrun
      rw [hrun]
      exact rests_finish _

/-- A download is carried on by what the network answers. -/
theorem carryOn_eq_run (hd : d.phase = .asking ∨ d.Rests) (address : Address) (attempts : Nat)
    (n : Network γ) :
    (carryOn policy address attempts d n).1 =
      d.run policy (scriptEvents (n.answerAt { address }) attempts) := by
  induction attempts generalizing d n with
  | zero => rfl
  | succ attempts ih =>
    -- an attempt leaves the script of what the network answers afterwards
    have hnext : (d.step policy .wake).phase = .asking →
        (carryOn policy address attempts
            ((d.step policy .wake).run policy (eventsOf (n.follow { address }).1))
            (n.follow { address }).2).1 =
          d.run policy (scriptEvents (n.answerAt { address }) (attempts + 1)) := fun hasking => by
      rw [ih (.inr (rests_run_eventsOf hasking _)), scriptEvents_succ', run_append, run_cons]
      rfl
    unfold carryOn
    unfold Rests at hd
    cases hphase : d.phase with
    | asking =>
      refine hnext ?_
      unfold Download.step
      rw [hphase]
      exact hphase
    | waiting =>
      refine hnext ?_
      unfold Download.step
      rw [hphase]
    | receiving chunks =>
      rw [hphase] at hd
      obtain hasking | hrests := hd
      · cases hasking
      · exact hrests.elim
    | ended result | cancelled =>
      have hover : d.IsOver := by
        unfold IsOver
        rw [hphase]
        trivial
      exact (hover.run _).symm

/-- **A download in a network** is one whose script is what the network answers. -/
theorem fetch_eq_run {url : String} {address : Address} {n : Network γ}
    (hurl : n.urls.read {} url = .ok address) (target : Option γ) :
    (fetch policy url target n).1 = (start policy url target).run policy
      (scriptEvents (n.answerAt { address }) policy.attempts.toNat) := by
  have hstart : (start policy url target).phase = .asking ∨ (start policy url target).Rests := by
    unfold start
    split
    · exact .inr trivial
    · exact .inl rfl
  unfold fetch
  rw [hurl]
  exact carryOn_eq_run hstart _ _ _

end

end Download

/-! ### Waits -/

theorem exactValue_ofInt_two_pow {n : Nat} (hn : n ≤ maxDoublings) :
    exactValue (Scalar.ofInt (Int.pow 2 n) : Float) = .ok (2 ^ n) := by
  have hpow : Int.pow 2 n = Int.ofNat (2 ^ n) := (Nat.cast_pow 2 n).symm
  rw [hpow]
  exact exactValue_ofNat_two_pow (Nat.lt_succ_of_le hn)

/-- **A wait** is at least the doubled first one, and at most one more. -/
theorem RetryPolicy.delay_mem {p : RetryPolicy Float} {n : Nat} (hn : n ≤ maxDoublings)
    (hbase : p.baseDelay.isNaN = false) (hlow : 0 ≤ p.jitter n) (hhigh : p.jitter n ≤ 1) :
    p.baseDelay * Scalar.ofInt (Int.pow 2 n) ≤ p.delay n ∧
      p.delay n ≤ p.baseDelay * Scalar.ofInt (Int.pow 2 n) + 1 := by
  have hdoubled : (p.baseDelay * Scalar.ofInt (Int.pow 2 n)).isNaN = false :=
    isNaN_mul hbase (exactValue_ofInt_two_pow hn) (by positivity)
  obtain ⟨q, hq, hzero, hone⟩ := exactValue_of_zero_le_of_le_one hlow hhigh
  exact ⟨le_add_of_nonneg hdoubled hq hzero, add_le_add_of_finite hdoubled hq exactValue_one hone⟩

/-! ### Main results -/

namespace Download

/-- **What a download does**, whatever its attempts bring. It makes as many attempts as are needed,
but none after a wait that would be no number; there is one wait fewer, and each is the doubled
first one and at most one more. It brings the complete body of the last attempt if that has one, and
leaves the target alone if not. Nor does it leave a partial file, or change the target, when it is
cancelled at any time. -/
theorem makes_attempts_needed {γ : Type} [FileContent γ] (policy : RetryPolicy Float) (url : String)
    (target : Option γ) (script : Nat → Except FetchFault (Response γ))
    (hattempts : 1 ≤ policy.attempts) (hjitter : ∀ i, 0 ≤ policy.jitter i ∧ policy.jitter i ≤ 1) :
    let events := scriptEvents script policy.attempts.toNat
    let d := (start policy url target).run policy events
    d.asked = min (attemptsNeeded script policy.attempts.toNat) (maxDoublings + 2) ∧
      (d.asked = attemptsNeeded script policy.attempts.toNat ↔
        policy.attempts ≤ maxDoublings + 2 ∨
          ∃ i ≤ maxDoublings + 1, isPassing (script i) = false) ∧
      d.waits.length + 1 = d.asked ∧
      (policy.baseDelay.isNaN = false → ∀ i wait, d.waits[i]? = some wait →
        policy.baseDelay * Scalar.ofInt (Int.pow 2 i) ≤ wait ∧
          wait ≤ policy.baseDelay * Scalar.ofInt (Int.pow 2 i) + 1) ∧
      d.partialFile = none ∧
      (match body? (script (d.asked - 1)) with
        | some content => d.phase = .ended (.ok ()) ∧ d.target = some content
        | none => (∃ fault, d.phase = .ended (.error fault)) ∧ d.target = target) ∧
      ∀ k, let c := (start policy url target).run policy (events.take k ++ .cancel :: events.drop k)
        c = d ∨ c.phase = .cancelled ∧ c.partialFile = none ∧ c.target = target := by
  intro events d
  obtain ⟨n, hends⟩ : ∃ n, d.Ends policy script n := exists_ends script target url hattempts
  have htidy : d.IsTidy target := (isTidy_start policy target url).run policy events
  have hlast : d.asked - 1 = n := by rw [hends.asked, Nat.add_sub_cancel]
  refine ⟨hends.asked_eq, hends.asked_eq_iff, ?_, fun hbase i wait hwait => ?_,
    htidy.removed hends.isOver, ?_, fun k => ?_⟩
  · rw [hends.waits, List.length_map, List.length_range, hends.asked]
  · obtain ⟨hi, rfl⟩ := hends.of_getElem?_waits hwait
    exact RetryPolicy.delay_mem hi hbase (hjitter i).1 (hjitter i).2
  · have houtcome := hends.outcome
    rw [hlast]
    split at houtcome
    · exact houtcome
    · obtain ⟨fault, hphase⟩ := houtcome
      refine ⟨⟨fault, hphase⟩, htidy.kept.resolve_left fun hok => ?_⟩
      rw [hphase] at hok
      cases hok
  · have hcancel := (isTidy_start policy target url).run_cancel policy (events.take k)
      (events.drop k)
    rw [List.take_append_drop] at hcancel
    exact hcancel

/-- The connection fails, then a body breaks off, and then one is complete. -/
def recovering : Nat → Except FetchFault (Response (List UInt8))
  | 0 => .error (.transport .connection "refused")
  | 1 => .ok { chunks := [[1]], broken := some "reset" }
  | _ => .ok { chunks := [[1], [2, 3]] }

/-- Five attempts at most, and half a second of jitter. -/
def patient : RetryPolicy Float := { attempts := 5, baseDelay := 1, jitter := fun _ => 0.5 }

/-- What becomes of a download that recovers. -/
def recovered : Download Float (List UInt8) :=
  (start patient "http://cdn.test/a.mp4" none).run patient
    (scriptEvents recovering patient.attempts.toNat)

/-- The target has the complete body, and nothing of the one that broke off. -/
theorem makes_attempts_needed_recovering :
    (1 ≤ patient.attempts ∧ ∀ i, 0 ≤ patient.jitter i ∧ patient.jitter i ≤ 1) ∧
      recovered.asked = 3 ∧ recovered.waits.length + 1 = 3 ∧ recovered.partialFile = none ∧
        recovered.target = some [1, 2, 3] := by
  have hattempts : 1 ≤ patient.attempts := by decide
  have hhalf : (0 : Float) ≤ 0.5 ∧ (0.5 : Float) ≤ 1 := by decide +kernel
  obtain ⟨hasked, -, hwaits, -, hpart, hbody, -⟩ :=
    makes_attempts_needed patient "http://cdn.test/a.mp4" none recovering hattempts fun _ => hhalf
  have hthree : recovered.asked = 3 := hasked.trans (by decide)
  change recovered.waits.length + 1 = recovered.asked at hwaits
  change match body? (recovering (recovered.asked - 1)) with
    | some content => recovered.phase = .ended (.ok ()) ∧ recovered.target = some content
    | none => (∃ fault, recovered.phase = .ended (.error fault)) ∧ recovered.target = none at hbody
  rw [hthree] at hbody hwaits
  exact ⟨⟨hattempts, fun _ => hhalf⟩, hthree, hwaits, hpart, hbody.2⟩

/-- An attempt of which the status says that it may be made again. -/
def unavailable : Nat → Except FetchFault (Response (List UInt8)) := fun _ => .ok { status := 503 }

/-- A thousand attempts and some more at most, with no time between the first two. -/
def persistent : RetryPolicy Float := { attempts := 1026, baseDelay := 0, jitter := fun _ => 0 }

/-- A download stops before its last attempt although all have failed for a passing reason: the wait
would be no number, even if the first one is zero. -/
theorem stops_before_last_attempt :
    ((start persistent "http://cdn.test/a.mp4" none).run persistent
        (scriptEvents unavailable persistent.attempts.toNat)).asked ≠
      attemptsNeeded unavailable persistent.attempts.toNat := by
  intro hasked
  have hattempts : 1 ≤ persistent.attempts := by decide
  obtain ⟨n, hends⟩ := exists_ends unavailable none "http://cdn.test/a.mp4" hattempts
  obtain hfew | ⟨i, -, hpassing⟩ := hends.asked_eq_iff.mp hasked
  · exact absurd hfew (by decide)
  · cases hpassing

end Download

end TimelineExport

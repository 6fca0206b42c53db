import TimelineExport.Asset.Load
import TimelineExport.Proofs.Lookup

/-!
# How a load fails

As long as requests are answered or fail as connections do, the probe program gives a description or
fails, and the waits between attempts are numbers, a source that names no host or a proper one is
either loaded or fails to be resolved. A source whose host, port or characters make no sense fails
in another way, and nobody is prepared for that (`loadSource_spec`).
-/

namespace TimelineExport

variable {γ : Type}

/-! ### Results that a lenient resolution is prepared for -/

/-- Whether a result is there, or is missing because a source could not be resolved. -/
def IsJoinable {β : Type} (result : Except AssetFault β) : Prop :=
  ∀ fault, result = .error fault → fault.resolution?.isSome

theorem isJoinable_ok {β : Type} (b : β) : IsJoinable (.ok b : Except AssetFault β) :=
  fun _ h => nomatch h

theorem isJoinable_error_iff {β : Type} {fault : AssetFault} :
    IsJoinable (.error fault : Except AssetFault β) ↔ fault.resolution?.isSome :=
  ⟨fun h => h fault rfl, fun h _ heq => Except.error.inj heq ▸ h⟩

/-! ### Networks that settle -/

namespace Network

variable {n : Network γ}

/-- A network after some requests. -/
def afterAsking (n : Network γ) (requests : List Request) : Network γ :=
  requests.foldl (fun n r => (n.ask r).2) n

/-- Whether every request to a network, whatever was asked before, is answered or fails as
connections do. Redirects may be answered too, but none leads on for ever or to no address. -/
def Settles (n : Network γ) : Prop :=
  ∀ requests r fault, ((n.afterAsking requests).follow r).1 = .error fault →
    ∃ sort reason, fault = .transport sort reason

theorem exists_afterAsking_followFrom (left : Nat) (n : Network γ) (r : Request) :
    ∃ requests, (followFrom left n r).2 = n.afterAsking requests := by
  induction left generalizing n r with
  | zero => exact ⟨[], rfl⟩
  | succ left ih =>
    unfold followFrom
    have hask : ∀ n', (n.ask r).2 = n' → n' = n.afterAsking [r] := fun _ h => h.symm
    split
    · next n' h => exact ⟨[r], hask n' (congrArg (·.2) h)⟩
    · next response n' h =>
      have hn' := hask n' (congrArg (·.2) h)
      split
      · exact ⟨[r], hn'⟩
      · exact ⟨[r], hn'⟩
      · split
        · exact ⟨[r], hn'⟩
        -- The redirect is one more request, and what follows from there is known.
        · rw [hn']
          exact (ih _ _).elim fun requests hrequests => ⟨r :: requests, hrequests⟩

/-- Requests do not change how URLs are read. -/
theorem urls_afterAsking (n : Network γ) (requests : List Request) :
    (n.afterAsking requests).urls = n.urls := by
  induction requests generalizing n with
  | nil => rfl
  | cons r requests ih => exact ih (n.ask r).2

theorem urls_follow (n : Network γ) (r : Request) : (n.follow r).2.urls = n.urls := by
  obtain ⟨requests, hrequests⟩ := exists_afterAsking_followFrom (maxRedirects + 1) n r
  exact (congrArg urls hrequests).trans (n.urls_afterAsking requests)

/-- A network that settles does so after a request. -/
theorem Settles.follow (h : n.Settles) (r : Request) : (n.follow r).2.Settles := by
  obtain ⟨requests, hrequests⟩ := exists_afterAsking_followFrom (maxRedirects + 1) n r
  intro requests' r' fault hfault
  have hafter : (n.follow r).2.afterAsking requests' = n.afterAsking (requests ++ requests') := by
    unfold Network.follow
    rw [hrequests]
    exact List.foldl_append.symm
  rw [hafter] at hfault
  exact h _ r' fault hfault

/-- Whether no answer of a network is a redirect. -/
def IsDirect (n : Network γ) : Prop :=
  ∀ script ∈ n.answers, ∀ response, .response response ∈ script.2 →
    ∀ urls r, redirect? urls r response = none

/-- The next answer of a script is one of the script, or says that nothing was found; what is left
is of the script. -/
theorem takeAnswer_spec (script : List (NetworkAnswer γ)) :
    ((takeAnswer script).1 ∈ script ∨ (takeAnswer script).1 = .response { status := 404 }) ∧
      ∀ answer ∈ (takeAnswer script).2, answer ∈ script := by
  match script with
  | [] => exact ⟨.inr rfl, fun _ h => absurd h List.not_mem_nil⟩
  | [answer] => exact ⟨.inl (List.mem_singleton_self answer), fun _ h => h⟩
  | answer :: next :: rest =>
    exact ⟨.inl List.mem_cons_self, fun _ h => List.mem_cons_of_mem answer h⟩

/-- A network without redirects answers with none, and stays so. -/
theorem IsDirect.ask (h : n.IsDirect) (r : Request) :
    (∀ response urls r', (n.ask r).1 = .response response →
      redirect? urls r' response = none) ∧
      (n.ask r).2.IsDirect := by
  have hscript : ∀ response, .response response ∈ (n.answers.lookup (n.scriptName r)).getD [] →
      ∀ urls r', redirect? urls r' response = none := by
    intro response hmem
    cases hlookup : n.answers.lookup (n.scriptName r) with
    | none =>
      rw [hlookup] at hmem
      cases hmem
    | some script =>
      rw [hlookup] at hmem
      exact h _ (mem_of_lookup hlookup) response hmem
  obtain ⟨hanswer, hrest⟩ := takeAnswer_spec ((n.answers.lookup (n.scriptName r)).getD [])
  refine ⟨fun response urls r' hask => ?_, fun script hmem response hresponse => ?_⟩
  · obtain hanswer | hanswer := hanswer
    · exact hscript response (hask ▸ hanswer) urls r'
    · cases hask.symm.trans hanswer
      rfl
  · obtain ⟨script', hscript', rfl⟩ := List.mem_map.mp hmem
    split at hresponse
    · exact hscript response (hrest _ hresponse)
    · exact h script' hscript' response hresponse

/-- A network without redirects settles. -/
theorem IsDirect.settles (h : n.IsDirect) : n.Settles := by
  intro requests r fault hfault
  have hdirect : (n.afterAsking requests).IsDirect := by
    induction requests generalizing n with
    | nil => exact h
    | cons r' requests ih => exact ih (h.ask r').2 hfault
  obtain ⟨hresponse, -⟩ := hdirect.ask r
  unfold Network.follow followFrom at hfault
  split at hfault
  · cases hfault
    exact ⟨_, _, rfl⟩
  · next response _ hask =>
    rw [hresponse response _ r (congrArg (·.1) hask)] at hfault
    cases hfault

end Network

/-! ### Downloads -/

namespace RetryPolicy

variable {α : Type} [Scalar α]

/-- The wait after a failed attempt, if there is one. -/
def delay (p : RetryPolicy α) (attempt : Nat) : α :=
  p.baseDelay * Scalar.ofInt (Int.pow 2 attempt) + p.jitter attempt

/-- **What follows a failed attempt.** -/
theorem next_cases (p : RetryPolicy α) (attempt : Nat) :
    (p.attempts ≤ attempt + 1 ∧ p.next attempt = .giveUp) ∨
      (attempt + 1 < p.attempts ∧ maxDoublings < attempt ∧ p.next attempt = .overflow) ∨
      (attempt + 1 < p.attempts ∧ attempt ≤ maxDoublings ∧
        p.next attempt = .wait (p.delay attempt)) := by
  unfold next
  by_cases hgiveUp : p.attempts ≤ (attempt : Int) + 1
  · exact .inl ⟨hgiveUp, if_pos hgiveUp⟩
  · have hmore := Int.not_le.mp hgiveUp
    rw [if_neg hgiveUp]
    by_cases hoverflow : maxDoublings < attempt
    · exact .inr (.inl ⟨hmore, hoverflow, if_pos hoverflow⟩)
    · exact .inr (.inr ⟨hmore, Nat.not_lt.mp hoverflow, if_neg hoverflow⟩)

/-- How often a wait can be doubled is no concern if there are not too many attempts. -/
theorem next_ne_overflow {p : RetryPolicy α} (h : p.attempts ≤ maxDoublings + 2) (attempt : Nat) :
    p.next attempt ≠ .overflow := by
  obtain ⟨-, hnext⟩ | ⟨hmore, hoverflow, -⟩ | ⟨-, -, hnext⟩ := p.next_cases attempt
  · exact hnext ▸ nofun
  · omega
  · exact hnext ▸ nofun

end RetryPolicy

/-- Whether something that happens to a download is usual: requests and connections fail as
connections do. -/
def DownloadEvent.IsUsual : DownloadEvent γ → Prop
  | .fail fault => ∃ sort reason, fault = .transport sort reason
  | _ => True

theorem isUsual_of_mem_eventsOf {answer : Except FetchFault (Response γ)}
    (h : ∀ fault, answer = .error fault → ∃ sort reason, fault = .transport sort reason) :
    ∀ event ∈ Download.eventsOf answer, event.IsUsual := by
  cases answer with
  | error fault => exact List.forall_mem_singleton.mpr (h fault rfl)
  | ok r =>
    refine List.forall_mem_cons.mpr
      ⟨trivial, List.forall_mem_append.mpr ⟨fun event hevent => ?_, ?_⟩⟩
    · obtain ⟨data, -, rfl⟩ := List.mem_map.mp hevent
      trivial
    · refine List.forall_mem_singleton.mpr ?_
      split
      · exact ⟨_, _, rfl⟩
      · trivial

namespace Download

section
variable {α : Type} {policy : RetryPolicy α} {d : Download α γ}

/-- Whether a download that has ended has brought its file or failed to be resolved. -/
def EndsJoinable (d : Download α γ) : Prop := ∀ result, d.phase = .ended result → IsJoinable result

theorem endsJoinable_finish {result : Except AssetFault Unit} (h : IsJoinable result) :
    (d.finish result).EndsJoinable := fun _ hphase => DownloadPhase.ended.inj hphase ▸ h

variable [Scalar α]

/-- What follows a failed attempt, if there are not too many. -/
theorem endsJoinable_retry (h : policy.attempts ≤ maxDoublings + 2) (reason : String) :
    (d.retry policy reason).EndsJoinable := by
  unfold retry
  split
  · exact fun _ hphase => nomatch hphase
  · exact endsJoinable_finish (isJoinable_error_iff.mpr rfl)
  · next hnext => exact absurd hnext (RetryPolicy.next_ne_overflow h _)

variable [FileContent γ]

theorem endsJoinable_respond (h : policy.attempts ≤ maxDoublings + 2) (status : Nat) :
    (d.respond policy status).EndsJoinable := by
  unfold respond
  dsimp only
  split
  · exact endsJoinable_retry h _
  · split
    · exact endsJoinable_finish (isJoinable_error_iff.mpr rfl)
    · exact fun _ hphase => nomatch hphase

/-- **A usual event** lets a download end with its file or unresolved, and in no other way. -/
theorem EndsJoinable.step (h : d.EndsJoinable) (hattempts : policy.attempts ≤ maxDoublings + 2)
    {event : DownloadEvent γ} (hevent : event.IsUsual) : (d.step policy event).EndsJoinable := by
  unfold Download.step
  split
  · exact h
  · exact h
  · exact fun _ hphase => nomatch hphase
  · exact endsJoinable_respond hattempts _
  · obtain ⟨sort, reason, rfl⟩ := hevent
    exact endsJoinable_retry hattempts reason
  · exact fun _ hphase => nomatch hphase
  · obtain ⟨sort, reason, rfl⟩ := hevent
    exact endsJoinable_retry hattempts reason
  · exact endsJoinable_finish (isJoinable_ok ())
  · exact fun _ hphase => nomatch hphase
  · exact h

theorem EndsJoinable.run (h : d.EndsJoinable) (hattempts : policy.attempts ≤ maxDoublings + 2)
    {events : List (DownloadEvent γ)} (hevents : ∀ event ∈ events, event.IsUsual) :
    (d.run policy events).EndsJoinable := by
  induction events generalizing d with
  | nil => exact h
  | cons event events ih =>
    obtain ⟨hevent, hevents⟩ := List.forall_mem_cons.mp hevents
    exact ih (h.step hattempts hevent) hevents

/-- **All attempts** in a network that settles. -/
theorem EndsJoinable.carryOn (h : d.EndsJoinable) (hattempts : policy.attempts ≤ maxDoublings + 2)
    (address : Address) (attempts : Nat) {n : Network γ} (hn : n.Settles) :
    (carryOn policy address attempts d n).1.EndsJoinable ∧
      (carryOn policy address attempts d n).2.Settles ∧
      (carryOn policy address attempts d n).2.urls = n.urls := by
  induction attempts generalizing d n with
  | zero => exact ⟨h, hn, rfl⟩
  | succ attempts ih =>
    unfold Download.carryOn
    dsimp only
    have hwake : (.wake : DownloadEvent γ).IsUsual := trivial
    have hnext := (h.step hattempts hwake).run hattempts
      (isUsual_of_mem_eventsOf (hn [] { address }))
    obtain ⟨hends, hsettles, hurls⟩ := ih hnext (hn.follow { address })
    have hurls := hurls.trans (n.urls_follow { address })
    split
    · exact ⟨hends, hsettles, hurls⟩
    · exact ⟨hends, hsettles, hurls⟩
    · exact ⟨h, hn, rfl⟩

/-- **A download of something that can be asked for** ends with its file or unresolved, in a network
that settles. -/
theorem endsJoinable_fetch (hpositive : 1 ≤ policy.attempts)
    (hattempts : policy.attempts ≤ maxDoublings + 2) {url : String} {address : Address}
    {n : Network γ} (hurl : n.urls.read {} url = .ok address) (target : Option γ)
    (hn : n.Settles) :
    (fetch policy url target n).1.EndsJoinable ∧ (fetch policy url target n).2.Settles ∧
      (fetch policy url target n).2.urls = n.urls := by
  have hstart : ¬ policy.attempts ≤ 0 := by omega
  unfold fetch start
  rw [hurl, if_neg hstart]
  have hasking : ({ url, asked := 1, phase := .asking, target } : Download α γ).EndsJoinable :=
    fun _ hphase => nomatch hphase
  exact hasking.carryOn hattempts _ _ hn

/-- A download of something that cannot be asked for fails in another way. -/
theorem fetch_of_read_eq_error (hpositive : 1 ≤ policy.attempts) {url reason : String}
    {n : Network γ} (hurl : n.urls.read {} url = .error reason) (target : Option γ) :
    (fetch policy url target n).1.phase = .ended (.error (.fetch (.address reason))) ∧
      (fetch policy url target n).2 = n := by
  have hstart : ¬ policy.attempts ≤ 0 := by omega
  unfold fetch start
  rw [hurl, if_neg hstart]
  exact ⟨rfl, rfl⟩

end

end Download

/-! ### Loads -/

/-- What is outside of an export, as it usually is: URLs are read by a library, requests are answered
or fail as connections do, and the probe program gives a description or fails. -/
structure Outside.IsUsual (urls : UrlLibrary) (o : Outside γ) : Prop where
  reads : o.network.urls = urls
  network : o.network.Settles
  probe : ∀ path fault, (o.probe path).readMedia path = .error fault →
    ∃ message, fault = .failed message

/-- Whether a source can be asked for: it is read as a path or a URL, and if it is to be downloaded,
the library for URLs takes it for the address of a request. -/
def isFetchable (urls : UrlLibrary) (source : String) : Bool :=
  match SourceUrl.read source with
  | .error _ => false
  | .ok url =>
    if url.scheme = "http" ∨ url.scheme = "https" then (urls.read {} source).isOk else true

section
variable [FileContent γ] {options : LoadOptions} {urls : UrlLibrary} {o : Outside γ}

theorem isJoinable_inspect (source path : String) (content : γ) (downloaded : Bool)
    {run : Option ProbeRun} (h : ∀ r ∈ run, ∀ fault, r.readMedia path = .error fault →
      ∃ message, fault = .failed message) :
    IsJoinable (inspect source path content downloaded run) := by
  unfold inspect
  dsimp only
  split
  · exact isJoinable_ok _
  · next r =>
    split
    · exact isJoinable_ok _
    · exact isJoinable_error_iff.mpr rfl
    · next fault hother hfault =>
      obtain ⟨message, rfl⟩ := h r rfl fault hfault
      exact absurd rfl (hother message)

/-- **A load fails to be resolved, or not at all, exactly if its source can be asked for**, as long
as what is outside is as usual; and it leaves that so. -/
theorem loadSource_spec (hpositive : 1 ≤ options.retries.attempts)
    (hattempts : options.retries.attempts ≤ maxDoublings + 2) (ho : o.IsUsual urls)
    (files : FileTree γ) (probed : Bool) (source target : String) :
    (isFetchable urls source = true ↔
        IsJoinable (loadSource options files probed source target o).1) ∧
      (loadSource options files probed source target o).2.IsUsual urls := by
  have hinspect : ∀ path (content : γ) downloaded, IsJoinable
      (inspect source path content downloaded (if probed then some (o.probe path) else none)) := by
    intro path content downloaded
    refine isJoinable_inspect _ _ _ _ fun r hr fault hfault => ?_
    split at hr
    · cases hr
      exact ho.probe path fault hfault
    · cases hr
  unfold loadSource isFetchable
  cases hurl : SourceUrl.read source with
  | error fault =>
    refine ⟨iff_of_false Bool.false_ne_true fun h => ?_, ho⟩
    cases isJoinable_error_iff.mp h
  | ok url =>
    dsimp only
    split
    · rw [← ho.reads]
      cases haddress : o.network.urls.read {} source with
      | error reason =>
        obtain ⟨hphase, hnetwork⟩ := Download.fetch_of_read_eq_error hpositive haddress
          (files.content? (resolvePath options.cwd target))
        have hurls := congrArg Network.urls hnetwork
        have hsettles := hnetwork.symm ▸ ho.network
        split
        · next h _ => cases hphase.symm.trans h
        · next h =>
          cases hphase.symm.trans h
          refine ⟨iff_of_false Bool.false_ne_true fun h => ?_, hurls, hsettles, ho.probe⟩
          cases isJoinable_error_iff.mp h
        · next hfailed _ => exact absurd hphase (hfailed _)
      | ok address =>
        obtain ⟨hends, hsettles, hurls⟩ := Download.endsJoinable_fetch hpositive hattempts haddress
          (files.content? (resolvePath options.cwd target)) ho.network
        split
        · exact ⟨iff_of_true rfl (hinspect _ _ _), hurls, hsettles, ho.probe⟩
        · next h =>
          exact ⟨iff_of_true rfl (isJoinable_error_iff.mpr
            (isJoinable_error_iff.mp (hends _ h))), hurls, hsettles, ho.probe⟩
        · exact ⟨iff_of_true rfl (isJoinable_error_iff.mpr rfl), hurls, hsettles, ho.probe⟩
    · split
      · exact ⟨iff_of_true rfl (isJoinable_error_iff.mpr rfl), ho⟩
      · exact ⟨iff_of_true rfl (hinspect _ _ _), ho⟩

end

end TimelineExport

import Mathlib.Algebra.BigOperators.Group.List.Basic
import Mathlib.Tactic.Linarith
import TimelineExport.Proofs.Compile.Placement

/-!
# Lead-ins place the clips of a track

The segments of a track are played back to back, so nothing but the lead-ins keeps a clip at its
place. Here the times are read off the emitted chains, in seconds: `Chain.cuts` are the lengths to
which a chain is cut, `Chain.leads` its lead-ins. Where the clips of a track are apart in time, the
lead-ins up to a clip and the lengths before it add up to the clip's start
(`SegmentRun.sum_leads_cuts`), and so they do in whatever order the clips were given
(`assembleTrack_places_clips`).
-/

namespace TimelineExport

/-! ### Times of chains -/

namespace Filter

/-- A time among the options of a filter, in seconds. -/
def secondsOf? (f : Filter Rat) (key : String) : Option Rat := (f.timeOf? key).map (· / 1000)

/-- The length to which a filter cuts its stream. -/
def cut? (f : Filter Rat) : Option Rat :=
  if f.name = "trim" then f.secondsOf? "duration" else none

/-- The lead-in that a filter puts before its stream. -/
def lead? (f : Filter Rat) : Option Rat :=
  if f.name = "tpad" then f.secondsOf? "start_duration" else none

theorem cut?_of_name_mem {f : Filter Rat} (h : f.name ∈ pictureFilterNames) : f.cut? = none := by
  have hnames : ∀ name ∈ pictureFilterNames, name ≠ "trim" := by decide
  exact if_neg (hnames f.name h)

theorem name_ne_tpad_of_name_mem {f : Filter Rat} (h : f.name ∈ pictureFilterNames) :
    f.name ≠ "tpad" := by
  have hnames : ∀ name ∈ pictureFilterNames, name ≠ "tpad" := by decide
  exact hnames f.name h

end Filter

namespace Chain

/-- The lengths to which a chain is cut. -/
def cuts (c : Chain Rat) : List Rat := c.filters.filterMap (·.cut?)

/-- The lead-ins of a chain; there are none without a `tpad`. -/
def leads (c : Chain Rat) : List Rat := c.filters.filterMap (·.lead?)

end Chain

/-! ### Segments -/

/-- **A segment that is cut to its clip**, once and to the clip's length; its lead-in comes after
everything else. -/
structure IsCutSegmentOf (settings : ExportSettings) (sources : List String) (e : Element Rat)
    (c : Chain Rat) : Prop where
  segment : IsSegmentOf settings sources e c
  cuts : c.cuts = [e.duration / 1000]
  lead_last : c.filters =
    c.filters.filter (·.name ≠ "tpad") ++ c.filters.filter (·.name = "tpad")

namespace Element

theorem filterMap_cut?_sourceFilters (settings : ExportSettings) (e : Element Rat) :
    (e.sourceFilters settings).filterMap (·.cut?) = [] := by
  unfold sourceFilters
  split <;> simp [Filter.cut?, Filter.secondsOf?, Filter.timeOf?, List.lookup_cons]

theorem name_ne_tpad_of_mem_sourceFilters (settings : ExportSettings) (e : Element Rat) :
    ∀ f ∈ e.sourceFilters settings, f.name ≠ "tpad" := by
  unfold sourceFilters
  split <;> simp

theorem filterMap_cut?_leadIn (gapMs : Rat) : (leadIn gapMs).filterMap (·.cut?) = [] := by
  unfold leadIn
  split <;> simp [Filter.cut?]

theorem name_of_mem_leadIn {gapMs : Rat} : ∀ f ∈ leadIn gapMs, f.name = "tpad" := by
  unfold leadIn
  split <;> simp

/-- A gap is filled by its whole length, and no gap by nothing. -/
theorem sum_filterMap_lead?_leadIn {gapMs : Rat} (h : 0 ≤ gapMs) :
    ((leadIn gapMs).filterMap (·.lead?)).sum = gapMs / 1000 := by
  unfold leadIn
  split
  · simp [Filter.lead?, Filter.secondsOf?, Filter.timeOf?, Arg.seconds]
  · next hnone =>
    have hzero : gapMs = 0 := le_antisymm (not_lt.mp hnone) h
    rw [hzero, List.filterMap_nil, List.sum_nil, zero_div]

/-- The filters of a segment are those without a lead-in, cut to the clip's length, and the
lead-in. -/
theorem segmentFilters_eq_append {settings : ExportSettings} {gapMs : Rat} {e : Element Rat}
    {fs : List (Filter Rat)} (h : e.segmentFilters settings gapMs = .ok fs) :
    ∃ before, fs = before ++ leadIn gapMs ∧ (∀ f ∈ before, f.name ≠ "tpad") ∧
      before.filterMap (·.cut?) = [e.duration / 1000] := by
  obtain ⟨shown, hshown, rfl⟩ := (e.meets_segmentFilters_split settings gapMs).of_eq_ok h
  refine ⟨_, rfl, fun f hf => ?_, ?_⟩
  · simp only [List.mem_append, List.mem_cons, List.not_mem_nil, or_false] at hf
    rcases hf with (hf | hf) | rfl | rfl
    · exact e.name_ne_tpad_of_mem_sourceFilters settings f hf
    · exact Filter.name_ne_tpad_of_name_mem (hshown f hf)
    · exact (by decide : "trim" ≠ "tpad")
    · exact (by decide : "setpts" ≠ "tpad")
  · have hnone : shown.filterMap (·.cut?) = [] :=
      List.filterMap_eq_nil_iff.mpr fun f hf => Filter.cut?_of_name_mem (hshown f hf)
    rw [List.filterMap_append, List.filterMap_append, filterMap_cut?_sourceFilters, hnone]
    simp [Filter.cut?, Filter.secondsOf?, Filter.timeOf?, Arg.seconds]

end Element

section
variable {settings : ExportSettings} {sources : List String} {previousEnd : Rat}
  {es : List (Element Rat)} {cs : List (Chain Rat)}

/-- A chain that was built for a clip is its segment, and its lead-in fills the gap. -/
theorem isCutSegmentOf_of_segmentFilters {gapMs : Rat} {e : Element Rat} {index : Nat}
    {fs : List (Filter Rat)} (hindex : sourceIndex sources e = .ok index)
    (hfilters : e.segmentFilters settings gapMs = .ok fs) (label : String) :
    IsCutSegmentOf settings sources e ⟨[streamLabel index "v"], fs, [label]⟩ ∧
      (0 ≤ gapMs → (Chain.leads ⟨[streamLabel index "v"], fs, [label]⟩).sum = gapMs / 1000) := by
  obtain ⟨before, rfl, hbefore, hcuts⟩ := Element.segmentFilters_eq_append hfilters
  refine ⟨⟨⟨index, gapMs, _, hindex, rfl, hfilters, List.prefix_rfl⟩, ?_, ?_⟩, fun hgap => ?_⟩
  · change (before ++ Element.leadIn gapMs).filterMap (·.cut?) = _
    rw [List.filterMap_append, hcuts, Element.filterMap_cut?_leadIn, List.append_nil]
  · have hkept : before.filter (·.name ≠ "tpad") = before :=
      List.filter_eq_self.mpr fun f hf => decide_eq_true (hbefore f hf)
    have hnone : before.filter (·.name = "tpad") = [] :=
      List.filter_eq_nil_iff.mpr fun f hf => by simpa using hbefore f hf
    have hlead : (Element.leadIn gapMs).filter (·.name = "tpad") = Element.leadIn gapMs :=
      List.filter_eq_self.mpr fun f hf => decide_eq_true (Element.name_of_mem_leadIn f hf)
    have hnone' : (Element.leadIn gapMs).filter (·.name ≠ "tpad") = [] :=
      List.filter_eq_nil_iff.mpr fun f hf => by simpa using Element.name_of_mem_leadIn f hf
    change before ++ Element.leadIn gapMs = (before ++ Element.leadIn gapMs).filter _ ++
      (before ++ Element.leadIn gapMs).filter _
    rw [List.filter_append, List.filter_append, hkept, hnone, hlead, hnone', List.append_nil,
      List.nil_append]
  · have hnone : before.filterMap (·.lead?) = [] :=
      List.filterMap_eq_nil_iff.mpr fun f hf => if_neg (hbefore f hf)
    change ((before ++ Element.leadIn gapMs).filterMap (·.lead?)).sum = gapMs / 1000
    rw [List.filterMap_append, hnone, List.nil_append, Element.sum_filterMap_lead?_leadIn hgap]

theorem SegmentRun.isCutSegmentOf (h : SegmentRun settings sources previousEnd es cs) :
    List.Forall₂ (IsCutSegmentOf settings sources) es cs := by
  induction h with
  | nil => exact .nil
  | cons hindex hfilters _ ih =>
    exact .cons (isCutSegmentOf_of_segmentFilters hindex hfilters _).1 ih

/-- **The lead-ins telescope.** After some time, the lead-ins up to a clip and the lengths of the
clips before it lead to the clip's start, and those of all clips to the end of the last. -/
theorem SegmentRun.sum_leads_cuts (h : SegmentRun settings sources previousEnd es cs)
    (hfirst : ∀ e ∈ es.head?, previousEnd ≤ e.startMs)
    (hchain : es.IsChain fun e f => ¬ e.endMs > f.startMs) :
    (∀ i e, es[i]? = some e →
      previousEnd / 1000 + ((cs.take (i + 1)).flatMap (·.leads)).sum +
        ((cs.take i).flatMap (·.cuts)).sum = e.startMs / 1000) ∧
    ∀ e ∈ es.getLast?, previousEnd / 1000 + (cs.flatMap (·.leads)).sum +
      (cs.flatMap (·.cuts)).sum = e.endMs / 1000 := by
  -- each lead-in is measured from the end of the clip before, which is where the rest begins
  induction h with
  | nil => exact ⟨fun _ _ he => (nomatch he), fun _ he => (nomatch he)⟩
  | @cons previousEnd e es cs index filters label hindex hfilters htail ih =>
    obtain ⟨hsegment, hleads⟩ := isCutSegmentOf_of_segmentFilters hindex hfilters label
    have hgap := hleads (sub_nonneg.mpr (hfirst e rfl))
    have hduration : e.duration = e.endMs - e.startMs := rfl
    have hnext : ∀ f ∈ es.head?, e.endMs ≤ f.startMs := by
      intro f hf
      obtain ⟨rest, rfl⟩ : ∃ rest, es = f :: rest := List.head?_eq_some_iff.mp hf
      exact not_lt.mp (List.isChain_cons_cons.mp hchain).1
    obtain ⟨hstarts, hlast⟩ := ih hnext hchain.tail
    refine ⟨fun i f hf => ?_, fun f hf => ?_⟩
    · cases i with
      | zero =>
        cases hf
        simp only [zero_add, List.take_succ_cons, List.take_zero, List.flatMap_cons,
          List.flatMap_nil, List.append_nil, List.sum_nil, hgap]
        ring
      | succ i =>
        have hstart := hstarts i f hf
        rw [List.take_succ_cons, List.take_succ_cons, List.flatMap_cons, List.flatMap_cons,
          List.sum_append, List.sum_append, hgap, hsegment.cuts, List.sum_singleton, hduration]
        linarith
    · rw [List.flatMap_cons, List.flatMap_cons, List.sum_append, List.sum_append, hgap,
        hsegment.cuts, List.sum_singleton, hduration]
      cases es with
      | nil =>
        obtain rfl : e = f := by simpa using hf
        cases htail
        simp only [List.flatMap_nil, List.sum_nil]
        ring
      | cons e' es =>
        have hend := hlast f (by rwa [List.getLast?_cons_cons] at hf)
        linarith

end

/-! ### Tracks -/

/-- What joins segments to one stream: nothing if there is just one, else a concatenation in their
order. -/
def joinChains (cs : List (Chain Rat)) (label : String) : List (Chain Rat) :=
  if cs.length = 1 then [] else [⟨cs.flatMap (·.outputs), [concatFilter cs.length], [label]⟩]

/-- The chains of a track are its segments and what joins them. -/
theorem TrackRun.exists_segments {settings : ExportSettings} {sources : List String}
    {clips : List (Element Rat)} {ds : List (Chain Rat)} {label : String}
    (h : TrackRun settings sources clips ds label) :
    ∃ cs, SegmentRun settings sources (0 : Rat) (sortByStart clips) cs ∧
      ds = cs ++ joinChains cs label ∧ (cs.length = 1 → cs.flatMap (·.outputs) = [label]) := by
  rw [← Scalar.zero_rat]
  cases h with
  | @single c _ hsegments houtput =>
    exact ⟨[c], hsegments, rfl, fun _ => by simpa using houtput⟩
  | @concat cs _ hsegments hlength =>
    exact ⟨cs, hsegments, by rw [joinChains, if_neg hlength], fun hone => absurd hone hlength⟩

/-- Clips that are apart start one after the other. -/
theorem sortByStart_pairwise_lt {clips : List (Element Rat)}
    (hspan : ∀ e ∈ clips, e.startMs < e.endMs) (hapart : clips.Pairwise AreApart) :
    (sortByStart clips).Pairwise fun e f => e.startMs < f.startMs := by
  have hchain := (isSuccessive_iff_pairwise hspan).mpr hapart
  refine (pairwise_ends_of_isChain (sortByStart_pairwise clips) hchain).imp_of_mem
    fun {e f} he _ hends => ?_
  exact (hspan e ((sortByStart_perm clips).mem_iff.mp he)).trans_le hends

/-- **A track plays its clips at their places.** Clips that are apart in time, in any order, make
one segment each in the order of their starts, joined back to back. Every segment is cut to the
length of its clip, and the lead-ins up to it and the lengths of all segments before add up to the
start of its clip; in all they add up to the end of the last. -/
theorem assembleTrack_places_clips (settings : ExportSettings) {sources : List String}
    {clips : List (Element Rat)}
    (hsources : ∀ e ∈ clips, ∃ path ∈ sources, e.assetSource = some path)
    (hspan : ∀ e ∈ clips, 0 ≤ e.startMs ∧ e.startMs < e.endMs)
    (hapart : clips.Pairwise AreApart) (g : Graph Rat) :
    ∃ label g' cs played,
      assembleTrack settings sources g clips = .ok (label, g') ∧
      g'.chains = g.chains ++ cs ++ joinChains cs label ∧
      (cs.length = 1 → cs.flatMap (·.outputs) = [label]) ∧
      played.Perm clips ∧ played.Pairwise (fun e f => e.startMs < f.startMs) ∧
      List.Forall₂ (IsCutSegmentOf settings sources) played cs ∧
      (∀ i e, played[i]? = some e →
        ((cs.take (i + 1)).flatMap (·.leads)).sum + ((cs.take i).flatMap (·.cuts)).sum =
          e.startMs / 1000) ∧
      ∀ e ∈ played.getLast?,
        (cs.flatMap (·.leads)).sum + (cs.flatMap (·.cuts)).sum = e.endMs / 1000 := by
  obtain ⟨⟨label, g'⟩, hok⟩ := succeeds_assembleTrack settings g hsources
  obtain ⟨ds, hrun, hchains⟩ := (meets_assembleTrack_run settings sources g clips).of_eq_ok hok
  obtain ⟨cs, hsegments, rfl, hsingle⟩ := hrun.exists_segments
  have hspan' := fun e he => (hspan e he).2
  have hfirst : ∀ e ∈ (sortByStart clips).head?, 0 ≤ e.startMs := fun e he =>
    (hspan e ((sortByStart_perm clips).mem_iff.mp (List.mem_of_head? he))).1
  obtain ⟨hstarts, hend⟩ :=
    hsegments.sum_leads_cuts hfirst ((isSuccessive_iff_pairwise hspan').mpr hapart)
  simp only [zero_div, zero_add] at hstarts hend
  exact ⟨label, g', cs, sortByStart clips, hok, by rw [hchains, List.append_assoc], hsingle,
    sortByStart_perm clips, sortByStart_pairwise_lt hspan' hapart, hsegments.isCutSegmentOf,
    hstarts, hend⟩

/-- Three clips out of order, the first of which follows a gap and the last another. -/
theorem three_clips_are_placed :
    let a : Element Rat := .plain .video "a" "main" "a.mp4" 500 1500
    let b : Element Rat := .plain .video "b" "main" "a.mp4" 1500 2000
    let c : Element Rat := .plain .image "c" "main" "c.png" 2500 4000
    ∃ label g' cs,
      assembleTrack {} ["a.mp4", "c.png"] {} [c, a, b] = .ok (label, g') ∧
      g'.chains = cs ++ joinChains cs label ∧
      List.Forall₂ (IsCutSegmentOf {} ["a.mp4", "c.png"]) [a, b, c] cs ∧
      ((cs.take 3).flatMap (·.leads)).sum + ((cs.take 2).flatMap (·.cuts)).sum = 5 / 2 ∧
      (cs.flatMap (·.leads)).sum + (cs.flatMap (·.cuts)).sum = 4 := by
  intro a b c
  have hsources : ∀ e ∈ [c, a, b], ∃ path ∈ ["a.mp4", "c.png"], e.assetSource = some path := by
    decide +kernel
  have hapart : [c, a, b].Pairwise AreApart := by
    unfold AreApart
    decide +kernel
  obtain ⟨label, g', cs, played, hok, hchains, -, hperm, hsorted, hcut, hstarts, hend⟩ :=
    assembleTrack_places_clips {} hsources (by decide +kernel) hapart {}
  have hperm' : [c, a, b].Perm [a, b, c] := (List.perm_append_comm : ([c] ++ [a, b]).Perm _)
  obtain rfl : played = [a, b, c] := (hperm.trans hperm').eq_of_pairwise
    (fun _ _ _ _ h h' => absurd (h.trans h') (lt_irrefl _)) hsorted (by decide +kernel)
  exact ⟨label, g', cs, hok, hchains, hcut, (hstarts 2 c rfl).trans (by decide +kernel),
    (hend c rfl).trans (by decide +kernel)⟩

end TimelineExport

import Mathlib.Data.List.Dedup
import TimelineExport.Proofs.Asset.History

/-!
# Which entries a cache evicts

What is evicted for a new entry is the shortest beginning of the list of entries without leases
after which there is room for it, or the whole list if there is room after none of them
(`AssetCache.exists_insert_eq`). The entries are in the order in which they were last handed out
(`CacheScene.InOrder.of_does`), so what goes is what was not acquired for the longest time; all
others keep their leases and their order (`CacheScene.evicts_oldest_idle`).
-/

namespace TimelineExport

variable {γ : Type}

namespace AssetCache

variable {c : AssetCache} {e : CachedAsset}

/-! ### Making room -/

/-- A cache without some of its entries. -/
def without (c : AssetCache) (gone : List CachedAsset) : AssetCache :=
  { c with entries := c.entries.filter (·.key ∉ gone.map (·.key)) }

theorem isOver_congr {c' : AssetCache} (hlimits : c'.limits = c.limits)
    (hentries : c'.entries = c.entries) : c'.isOver = c.isOver := by
  unfold isOver totalBytes
  rw [hlimits, hentries]

theorem isOver_without_nil (c : AssetCache) : (c.without []).isOver = c.isOver :=
  isOver_congr rfl (List.filter_eq_self.mpr fun _ _ => decide_eq_true List.not_mem_nil)

/-- Entries may go one after another. -/
theorem isOver_without_cons (c : AssetCache) (e : CachedAsset) (gone : List CachedAsset) :
    (c.without (e :: gone)).isOver =
      ({ c.remove e.key with evictions := c.evictions + 1 }.without gone).isOver := by
  refine isOver_congr rfl ?_
  unfold without remove
  dsimp only
  rw [List.filter_filter]
  refine List.filter_congr fun x _ => ?_
  simp only [List.map_cons, List.mem_cons, not_or, ne_eq, Bool.decide_and, Bool.and_comm]

/-- The entries of a list that may be evicted. -/
def evictable (keep : String) (es : List CachedAsset) : List CachedAsset :=
  es.filter fun e => e.key ≠ keep ∧ e.leases = 0

theorem evictable_cons_of_kept {keep : String} (h : e.key = keep ∨ 0 < e.leases)
    (es : List CachedAsset) : evictable keep (e :: es) = evictable keep es := by
  refine List.filter_cons_of_neg ?_
  rw [decide_eq_true_eq, not_and]
  exact fun hkey => Nat.ne_of_gt (h.resolve_left hkey)

theorem evictable_cons_of_gone {keep : String} (h : ¬ (e.key = keep ∨ 0 < e.leases))
    (es : List CachedAsset) : evictable keep (e :: es) = e :: evictable keep es := by
  rw [not_or, Nat.not_lt, Nat.le_zero] at h
  exact List.filter_cons_of_pos (decide_eq_true h)

/-- **What is evicted** is the shortest beginning of what may be evicted after which the budgets
are met, or all of it. -/
theorem exists_evict_eq (keep : String) (es : List CachedAsset) (c : AssetCache) :
    ∃ n ≤ (evictable keep es).length, (evict keep es c).2 = (evictable keep es).take n ∧
      (∀ m < n, (c.without ((evictable keep es).take m)).isOver = true) ∧
      ((c.without ((evictable keep es).take n)).isOver = true →
        n = (evictable keep es).length) := by
  induction es generalizing c with
  | nil => exact ⟨0, le_rfl, rfl, fun m hm => absurd hm (Nat.not_lt_zero m), fun _ => rfl⟩
  | cons e es ih =>
    unfold evict
    split
    · next hwithin =>
      rw [Bool.not_eq_true'] at hwithin
      refine ⟨0, Nat.zero_le _, rfl, fun m hm => absurd hm (Nat.not_lt_zero m), fun hover => ?_⟩
      rw [List.take_zero, isOver_without_nil, hwithin] at hover
      cases hover
    · next hover =>
      rw [Bool.not_eq_true', Bool.not_eq_false] at hover
      split
      · next hkept =>
        rw [evictable_cons_of_kept hkept]
        exact ih c
      -- the rest is evicted from a cache without this entry
      · next hgone =>
        obtain ⟨n, hn, hdropped, hbefore, hafter⟩ :=
          ih { c.remove e.key with evictions := c.evictions + 1 }
        rw [evictable_cons_of_gone hgone]
        refine ⟨n + 1, Nat.succ_le_succ hn, ?_, fun m hm => ?_, fun hover => ?_⟩
        · rw [List.take_succ_cons]
          dsimp only
          rw [hdropped]
        · cases m with
          | zero => rw [List.take_zero, isOver_without_nil, hover]
          | succ m =>
            rw [List.take_succ_cons, isOver_without_cons]
            exact hbefore m (Nat.lt_of_succ_lt_succ hm)
        · rw [List.take_succ_cons, isOver_without_cons] at hover
          rw [List.length_cons, hafter hover]

/-- The entries without leases. The first one is that which was not acquired for the longest
time. -/
def idle (c : AssetCache) : List CachedAsset := c.entries.filter (·.leases = 0)

/-- What stays in a cache if some entries go. -/
def others (c : AssetCache) (gone : List CachedAsset) : List CachedAsset :=
  c.entries.filter (· ∉ gone)

/-- Whether the budgets allow a new entry if some entries go. -/
structure HasRoom (c : AssetCache) (e : CachedAsset) (gone : List CachedAsset) : Prop where
  entries : ((c.others gone).length + 1 : Int) ≤ c.limits.entries
  bytes : (((c.others gone).map (·.size)).sum + e.size : Int) ≤ c.limits.bytes

theorem hasRoom_iff {gone : List CachedAsset} :
    c.HasRoom e gone ↔ isOver { c with entries := c.others gone ++ [e] } = false := by
  rw [isOver_eq_false_iff, totalBytes_eq_sum]
  dsimp only
  rw [List.length_append, List.map_append, List.sum_append]
  simp only [List.length_singleton, List.map_singleton, List.sum_singleton]
  rw [Int.natCast_add, Int.natCast_add, Int.natCast_one]
  exact ⟨fun h => ⟨h.entries, h.bytes⟩, fun h => ⟨h.1, h.2⟩⟩

/-- The entries of a cache with a new one, without some of the old ones. -/
theorem entries_without (hkeys : (c.entries.map (·.key)).Nodup) (hnew : c.IsVacant e.key)
    {gone : List CachedAsset} (hgone : ∀ d ∈ gone, d ∈ c.entries) :
    (c.entries ++ [e]).filter (·.key ∉ gone.map (·.key)) = c.others gone ++ [e] := by
  rw [List.filter_append]
  congr 1
  · refine List.filter_congr fun x hx => decide_eq_decide.mpr (not_congr ?_)
    refine ⟨fun hmem => ?_, List.mem_map_of_mem⟩
    obtain ⟨d, hd, hkey⟩ := List.mem_map.mp hmem
    exact eq_of_key_eq hkeys (hgone d hd) hx hkey ▸ hd
  · refine List.filter_cons_of_pos (decide_eq_true fun hmem => ?_)
    obtain ⟨d, hd, hkey⟩ := List.mem_map.mp hmem
    exact isVacant_iff.mp hnew (hkey ▸ List.mem_map_of_mem (hgone d hd))

/-- **What is evicted for a new entry**: as many of the entries without leases as it takes. -/
theorem exists_evicted (hkeys : (c.entries.map (·.key)).Nodup) (hnew : c.IsVacant e.key) :
    ∃ n ≤ c.idle.length, (c.makeRoom e).2 = c.idle.take n ∧
      (∀ m < n, ¬ c.HasRoom e (c.idle.take m)) ∧
      (c.makeRoom e).1 = { c with
        entries := c.others (c.idle.take n) ++ [e], evictions := c.evictions + n } ∧
      (c.IsRefused e ↔ ¬ c.HasRoom e (c.idle.take n)) ∧
      (c.IsRefused e → n = c.idle.length) := by
  have hfree : evictable e.key (c.entries ++ [e]) = c.idle := by
    unfold evictable idle
    rw [List.filter_append, List.filter_cons_of_neg (by simp), List.filter_nil, List.append_nil]
    refine List.filter_congr fun x hx => decide_eq_decide.mpr (and_iff_right ?_)
    exact fun hkey => isVacant_iff.mp hnew (hkey ▸ List.mem_map_of_mem hx)
  have hidle : ∀ m, ∀ d ∈ c.idle.take m, d ∈ c.entries := fun m d hd =>
    List.mem_of_mem_filter (List.mem_of_mem_take hd)
  have hover : ∀ m, ¬ c.HasRoom e (c.idle.take m) ↔
      ({ c with entries := c.entries ++ [e] }.without (c.idle.take m)).isOver = true := by
    intro m
    rw [hasRoom_iff, Bool.not_eq_false, ← entries_without hkeys hnew (hidle m)]
    rfl
  obtain ⟨n, hn, hdropped, hbefore, hafter⟩ :=
    exists_evict_eq e.key (c.entries ++ [e]) { c with entries := c.entries ++ [e] }
  rw [hfree] at hn hdropped hbefore hafter
  have hdropped : (c.makeRoom e).2 = c.idle.take n := hdropped
  have hroom : (c.makeRoom e).1 = { c with
      entries := c.others (c.idle.take n) ++ [e], evictions := c.evictions + n } := by
    rw [makeRoom_fst, hdropped, entries_without hkeys hnew (hidle n), List.length_take_of_le hn]
  have hrefused : c.IsRefused e ↔ ¬ c.HasRoom e (c.idle.take n) := by
    unfold IsRefused
    rw [hroom, hasRoom_iff, Bool.not_eq_false]
    exact Eq.congr_left (isOver_congr rfl rfl)
  refine ⟨n, hn, hdropped, fun m hm => (hover m).mpr (hbefore m hm), hroom, hrefused, fun h => ?_⟩
  exact hafter ((hover n).mp (hrefused.mp h))

/-- What stays is not of the source of a new entry. -/
theorem filter_others_concat (hnew : c.IsVacant e.key) (gone : List CachedAsset) :
    (c.others gone ++ [e]).filter (·.key ≠ e.key) = c.others gone := by
  rw [List.filter_append, List.filter_cons_of_neg (by simp), List.filter_nil, List.append_nil]
  refine List.filter_eq_self.mpr fun d hd => decide_eq_true fun hkey => ?_
  exact isVacant_iff.mp hnew (hkey ▸ List.mem_map_of_mem (List.mem_of_mem_filter hd))

/-- **Taking in a new entry**: entries without leases are evicted until there is room for it, and
if there is none after the last of them, it is refused. -/
theorem exists_insert_eq (hkeys : (c.entries.map (·.key)).Nodup) (hnew : c.IsVacant e.key) :
    ∃ n ≤ c.idle.length, (∀ m < n, ¬ c.HasRoom e (c.idle.take m)) ∧
      (¬ c.IsRefused e ∧ c.HasRoom e (c.idle.take n) ∧ (c.insert e).1 = { c with
          entries := c.others (c.idle.take n) ++ [e], evictions := c.evictions + n } ∨
        c.IsRefused e ∧ n = c.idle.length ∧ ¬ c.HasRoom e c.idle ∧ (c.insert e).1 = { c with
          entries := c.others c.idle, evictions := c.evictions + n }) := by
  obtain ⟨n, hn, -, hbefore, hroom, hrefused, hall⟩ := exists_evicted hkeys hnew
  refine ⟨n, hn, hbefore, ?_⟩
  by_cases h : c.IsRefused e
  · have hfull := hrefused.mp h
    have hn := hall h
    subst hn
    rw [List.take_length] at hfull hroom
    refine .inr ⟨h, rfl, hfull, ?_⟩
    rw [insert_of_isRefused h, hroom]
    unfold remove
    dsimp only
    rw [filter_others_concat hnew]
  · refine .inl ⟨h, not_not.mp fun hfull => h (hrefused.mpr hfull), ?_⟩
    rw [insert_of_not_isRefused h, hroom]

theorem evictions_lease (c : AssetCache) (key : String) :
    (c.lease key).evictions = c.evictions := by
  unfold lease
  split <;> rfl

/-- The sources of the entries once one of them is leased. -/
theorem keys_lease {key : String} (he : c.entry? key = some e) :
    (c.lease key).entries.map (·.key) = (c.entries.map (·.key)).filter (· ≠ key) ++ [key] := by
  obtain ⟨-, rfl⟩ := of_entry?_eq_some he
  unfold lease
  rw [he]
  dsimp only
  rw [List.map_append, List.filter_map]
  rfl

/-- Giving back a lease leaves the sources as they are. -/
theorem keys_release (c : AssetCache) (key : String) :
    (c.release key).entries.map (·.key) = c.entries.map (·.key) := by
  unfold release
  rw [List.map_map]
  refine List.map_congr_left fun e _ => ?_
  dsimp only [Function.comp_apply]
  split <;> rfl

/-- A new entry that is leased at once. -/
theorem entries_lease_concat {c' : AssetCache} {gone : List CachedAsset}
    (hnew : c.IsVacant e.key) (hentries : c'.entries = c.others gone ++ [e]) :
    (c'.lease e.key).entries = c.others gone ++ [{ e with leases := e.leases + 1 }] := by
  have he : c'.entry? e.key = some e := by
    have hnone : (c.others gone).find? (·.key = e.key) = none := by
      refine List.find?_eq_none.mpr fun d hd hkey => isVacant_iff.mp hnew ?_
      exact of_decide_eq_true hkey ▸ List.mem_map_of_mem (List.mem_of_mem_filter hd)
    unfold entry?
    rw [hentries, List.find?_append, hnone, Option.none_or]
    exact List.find?_cons_of_pos (decide_eq_true rfl)
  unfold lease
  rw [he]
  dsimp only
  rw [hentries, filter_others_concat hnew]

end AssetCache

/-! ### The order of the entries -/

/-- What came last comes last among what came. -/
theorem dedup_concat (keys : List String) (key : String) :
    (keys ++ [key]).dedup = keys.dedup.filter (· ≠ key) ++ [key] := by
  induction keys with
  | nil => rfl
  | cons first keys ih =>
    rw [List.cons_append, List.dedup_cons, List.dedup_cons, ih]
    by_cases hfirst : first = key
    · subst hfirst
      rw [if_pos (by simp)]
      split
      · rfl
      · rw [List.filter_cons_of_neg (by simp)]
    · simp only [List.mem_append, List.mem_singleton, hfirst, or_false]
      split
      · rfl
      · rw [List.filter_cons_of_pos (by simpa using hfirst), List.cons_append]

namespace CacheScene

variable {s s' start : CacheScene γ} {event : CacheEvent γ} {c : CacheCaller}

/-- The sources that have an entry are in the order in which their entries were last handed out. -/
def InOrder (start : CacheScene γ) (events : List (CacheEvent γ)) (s : CacheScene γ) : Prop :=
  (s.cache.entries.map (·.key)).Sublist (start.observed handsOut events).dedup

/-- A step that hands nothing out keeps the order if it adds no entry. -/
theorem InOrder.of_none {events : List (CacheEvent γ)} (h : start.InOrder events (start.run events))
    (hnone : (start.run events).handsOut event = none)
    (hkeys : (s'.cache.entries.map (·.key)).Sublist
      ((start.run events).cache.entries.map (·.key))) :
    start.InOrder (events ++ [event]) s' := by
  unfold InOrder
  rw [observed_concat, hnone, Option.toList_none, List.append_nil]
  exact hkeys.trans h

/-- A step that hands out an entry takes it to the end. -/
theorem InOrder.of_some {events : List (CacheEvent γ)} (h : start.InOrder events (start.run events))
    {key : String} (hsome : (start.run events).handsOut event = some key) {kept : List String}
    (hkept : kept.Sublist (((start.run events).cache.entries.map (·.key)).filter (· ≠ key)))
    (hkeys : s'.cache.entries.map (·.key) = kept ++ [key]) :
    start.InOrder (events ++ [event]) s' := by
  unfold InOrder
  rw [observed_concat, hsome, Option.toList_some, dedup_concat, hkeys]
  exact (hkept.trans (h.filter _)).append_right [key]

/-- **A step** keeps the order. -/
theorem InOrder.of_does {events : List (CacheEvent γ)} (h : start.InOrder events (start.run events))
    (hsound : (start.run events).Sound)
    (hdoes : (start.run events).Does event ((start.run events).step event)) :
    start.InOrder (events ++ [event]) ((start.run events).step event) := by
  generalize hstep : (start.run events).step event = s' at hdoes ⊢
  have hcallers := congrArg CacheScene.callers hstep
  cases hdoes with
  | idle => exact h.of_none (becomes_of_step_eq hstep) (.refl _)
  | arrive => exact h.of_none (becomes_of_caller?_eq_none rfl) (.refl _)
  | hit hid hwaiting _ he =>
    refine h.of_some ((becomes_eq rfl hid hcallers).trans ?_) (.refl _)
      (AssetCache.keys_lease (c := { (start.run events).cache with hits := _ }) he)
    rw [hwaiting]
    rfl
  | miss hid hwaiting _ _ hstate =>
    refine h.of_none ((becomes_eq rfl hid hcallers).trans ?_) (.refl _)
    obtain rfl | ⟨_, _, rfl⟩ := hstate <;> rfl
  | fail fault hid =>
    refine h.of_none ((becomes_eq rfl hid hcallers).trans ?_) (.refl _)
    rfl
  | @refuse c loaded files hid hloading hrefused =>
    have hnew := hsound.vacant c (of_caller?_eq_some hid).1 hloading
    refine h.of_none ((becomes_eq rfl hid hcallers).trans ?_) ?_
    · rfl
    · obtain ⟨n, -, -, ⟨htaken, -⟩ | ⟨-, -, -, heq⟩⟩ :=
        AssetCache.exists_insert_eq (e := loaded.entry c.key) hsound.keys hnew
      · exact absurd hrefused htaken
      · dsimp only [setCaller]
        rw [heq]
        exact List.filter_sublist.map _
  | @takeIn c loaded files hid hloading htaken =>
    have hnew := hsound.vacant c (of_caller?_eq_some hid).1 hloading
    obtain ⟨n, -, -, ⟨-, -, heq⟩ | ⟨hrefused, -⟩⟩ :=
      AssetCache.exists_insert_eq (e := loaded.entry c.key) hsound.keys hnew
    · have hentries := AssetCache.entries_lease_concat (e := loaded.entry c.key) hnew
        (congrArg AssetCache.entries heq)
      refine h.of_some ((becomes_eq rfl hid hcallers).trans ?_) ?_
        ((congrArg (List.map (·.key)) hentries).trans List.map_append)
      · rw [hloading]
        rfl
      · have hothers : ((start.run events).cache.entries.map (·.key)).filter (· ≠ c.key) =
            (start.run events).cache.entries.map (·.key) :=
          List.filter_eq_self.mpr fun key hkey => decide_eq_true fun heq =>
            AssetCache.isVacant_iff.mp hnew (heq ▸ hkey)
        exact hothers.symm ▸ List.filter_sublist.map _
    · exact absurd hrefused htaken
  | release key =>
    refine h.of_none (becomes_of_caller?_eq_none rfl) ?_
    dsimp only
    rw [AssetCache.keys_release]
  | close => exact h.of_none (becomes_of_caller?_eq_none rfl) (List.nil_sublist _)

/-- **What is evicted.** At any time, the entries are in the order in which they were last acquired.
When a source was loaded, which then has no entry, entries without leases are evicted from the
oldest on, no more of them than it takes to have room for the new one. If there is no room without
all of them, they are evicted all the same, and the new entry is refused. All others stay as they
are. -/
theorem evicts_oldest_idle (cwd : Place) (files : FileTree γ) (directory : String)
    (limits : CacheLimits) (events : List (CacheEvent γ)) (c : CacheCaller)
    (loaded : LoadedAsset γ)
    (hid : ((inDirectory cwd files directory limits).run events).caller? c.id = some c)
    (hloading : c.state = .loading) :
    let start := inDirectory cwd files directory limits
    let s := start.run events
    let s' := s.step (.finish c.id (.ok loaded))
    let e := loaded.entry c.key
    start.InOrder events s ∧ s.cache.IsVacant c.key ∧
      ∃ n ≤ s.cache.idle.length, (∀ m < n, ¬ s.cache.HasRoom e (s.cache.idle.take m)) ∧
        s'.cache.evictions = s.cache.evictions + n ∧
        (s.cache.HasRoom e (s.cache.idle.take n) ∧
            s'.cache.entries = s.cache.others (s.cache.idle.take n) ++ [{ e with leases := 1 }] ∧
            s'.result? c.id = some (.ok { e with leases := 1 }) ∨
          n = s.cache.idle.length ∧ ¬ s.cache.HasRoom e s.cache.idle ∧
            s'.cache.entries = s.cache.others s.cache.idle ∧
            ∃ usage, s'.result? c.id = some (.error (.resolution (.cacheFull c.key usage)))) := by
  intro start s s' e
  have hstart : start.Sound := sound_of_callers_eq_nil List.nodup_nil rfl
  obtain ⟨hsound, horder⟩ := hstart.run_does (P := fun events s => start.InOrder events s) events
    (List.Sublist.refl _) fun before event _ hsound horder hdoes => horder.of_does hsound hdoes
  have hid : s.caller? c.id = some c := hid
  have hsound : s.Sound := hsound
  have hnew : s.cache.IsVacant c.key := hsound.vacant c (of_caller?_eq_some hid).1 hloading
  refine ⟨horder, hnew, ?_⟩
  have hstep : s' = s.finish c (.ok loaded) := step_finish hid hloading _
  clear_value s s'
  obtain ⟨n, hn, hbefore, hcases⟩ := AssetCache.exists_insert_eq (e := e) hsound.keys hnew
  refine ⟨n, hn, hbefore, ?_⟩
  obtain ⟨htaken, hroom, heq⟩ | ⟨hrefused, hall, hfull, heq⟩ := hcases
  · obtain ⟨files, hfinish⟩ := hsound.finish_taken hid hloading htaken
    have hentries := AssetCache.entries_lease_concat hnew (congrArg AssetCache.entries heq)
    rw [hstep, hfinish]
    refine ⟨?_, .inl ⟨hroom, hentries, result?_setCaller hid rfl _⟩⟩
    exact (AssetCache.evictions_lease _ _).trans (congrArg AssetCache.evictions heq)
  · obtain ⟨files, hfinish⟩ := finish_refused hrefused
    rw [hstep, hfinish]
    refine ⟨congrArg AssetCache.evictions heq,
      .inr ⟨hall, hfull, ?_, _, result?_setCaller hid rfl _⟩⟩
    exact congrArg AssetCache.entries heq

/-- Two sources are acquired and given back, and the first of them is acquired once more. A third
one is loaded. -/
def crowded : List (CacheEvent Unit) :=
  [.arrive 0 "a", .serve 0, .finish 0 (.ok { path := "a", size := 10, owned := false }),
    .arrive 1 "b", .serve 1, .finish 1 (.ok { path := "b", size := 10, owned := false }),
    .release "a", .release "b", .arrive 2 "a", .serve 2, .release "a", .arrive 3 "c", .serve 3]

/-- The source that was acquired first is not the one that goes. -/
theorem evicts_oldest_idle_crowded :
    let start := inDirectory [] {} "cache" { entries := 2 }
    let s := start.run crowded
    let c : CacheCaller := { id := 3, key := "c", state := .loading }
    let s' := s.step (.finish 3 (.ok { path := "c", size := 10, owned := false }))
    s.caller? c.id = some c ∧ c.state = .loading ∧ start.InOrder crowded s ∧
      (∃ n ≤ s.cache.idle.length, s'.cache.evictions = s.cache.evictions + n) ∧
      s.cache.idle.map (·.key) = ["b", "a"] ∧ s'.cache.entries.map (·.key) = ["a", "c"] := by
  have hid : ((inDirectory [] {} "cache" { entries := 2 }).run crowded).caller? 3 =
      some { id := 3, key := "c", state := .loading } := rfl
  obtain ⟨horder, -, n, hn, -, hevictions, -⟩ := evicts_oldest_idle [] {} "cache" { entries := 2 }
    crowded ⟨3, "c", .loading⟩ { path := "c", size := 10, owned := false } hid rfl
  exact ⟨hid, rfl, horder, ⟨n, hn, hevictions⟩, by decide +kernel, by decide +kernel⟩

end CacheScene

end TimelineExport

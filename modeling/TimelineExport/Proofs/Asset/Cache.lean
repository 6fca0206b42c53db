import Mathlib.Algebra.Order.BigOperators.Group.List
import Mathlib.Algebra.Order.Ring.Nat
import Mathlib.Data.List.Nodup
import TimelineExport.Asset.Cache

/-!
# Taking entries in and out of a cache

What an insertion leaves in a cache is what it did not drop (`AssetCache.entries_insert`). It drops
entries without leases, and the new entry if that is refused (`AssetCache.of_mem_dropped`); a cache
that was within its budgets is so again (`AssetCache.isOver_insert`). Leasing and giving back
change the number of leases and the order, and nothing else.
-/

namespace TimelineExport

/-- An entry without its leases. -/
def CachedAsset.unleased (e : CachedAsset) : CachedAsset := { e with leases := 0 }

namespace AssetCache

variable {c : AssetCache} {e : CachedAsset} {key : String}

/-! ### Entries -/

theorem totalBytes_eq_sum (c : AssetCache) : c.totalBytes = (c.entries.map (·.size)).sum := by
  rw [List.sum, List.foldr_map]
  rfl

/-- A cache is within its budgets unless it exceeds one of them. -/
theorem isOver_eq_false_iff :
    c.isOver = false ↔
      (c.entries.length : Int) ≤ c.limits.entries ∧ (c.totalBytes : Int) ≤ c.limits.bytes := by
  simp [isOver]

/-- Fewer entries exceed no budget. -/
theorem isOver_of_sublist {c' : AssetCache} (hlimits : c'.limits = c.limits)
    (hentries : c'.entries.Sublist c.entries) (h : c.isOver = false) : c'.isOver = false := by
  rw [isOver_eq_false_iff] at h ⊢
  rw [hlimits]
  have hbytes : c'.totalBytes ≤ c.totalBytes := by
    rw [totalBytes_eq_sum, totalBytes_eq_sum]
    exact (hentries.map _).sum_le_sum fun _ _ => Nat.zero_le _
  have hlength := hentries.length_le
  omega

/-- Whether there is no entry of a source. -/
def IsVacant (c : AssetCache) (key : String) : Prop := c.entry? key = none

theorem isVacant_iff : c.IsVacant key ↔ key ∉ c.entries.map (·.key) := by
  unfold IsVacant entry?
  simp [List.find?_eq_none]

theorem exists_entry_of_mem (h : e ∈ c.entries) : ∃ e', c.entry? e.key = some e' := by
  refine Option.ne_none_iff_exists'.mp fun hnone => ?_
  exact isVacant_iff.mp hnone (List.mem_map_of_mem h)

theorem of_entry?_eq_some (h : c.entry? key = some e) : e ∈ c.entries ∧ e.key = key :=
  ⟨List.mem_of_find?_eq_some h, by simpa using List.find?_some h⟩

/-- A source has one entry. -/
theorem eq_of_key_eq (hkeys : (c.entries.map (·.key)).Nodup) {e e' : CachedAsset}
    (he : e ∈ c.entries) (he' : e' ∈ c.entries) (h : e.key = e'.key) : e = e' :=
  List.inj_on_of_nodup_map hkeys he he' h

/-! ### Insertion -/

/-- **Evicted entries** are taken from those that are looked at, have no leases and are not the one
to keep; all others stay. -/
theorem evict_spec (keep : String) (es : List CachedAsset) (c : AssetCache) :
    (evict keep es c).1 = { c with
      entries := c.entries.filter (·.key ∉ (evict keep es c).2.map (·.key))
      evictions := c.evictions + (evict keep es c).2.length } ∧
    (evict keep es c).2.Sublist es ∧
    ∀ d ∈ (evict keep es c).2, d.key ≠ keep ∧ d.leases = 0 := by
  induction es generalizing c with
  | nil => simp [evict]
  | cons e es ih =>
    unfold evict
    split
    · simp
    · split
      · obtain ⟨heq, hsublist, hdropped⟩ := ih c
        exact ⟨heq, hsublist.cons e, hdropped⟩
      · next hkeep =>
        obtain ⟨heq, hsublist, hdropped⟩ :=
          ih { c.remove e.key with evictions := c.evictions + 1 }
        rw [not_or, Nat.not_lt, Nat.le_zero] at hkeep
        refine ⟨?_, hsublist.cons_cons e, List.forall_mem_cons.mpr ⟨hkeep, hdropped⟩⟩
        dsimp only
        generalize evict keep es { c.remove e.key with evictions := c.evictions + 1 } = rest at heq ⊢
        rw [heq]
        simp only [remove, List.filter_filter, List.map_cons, List.length_cons, mk.injEq, true_and]
        refine ⟨List.filter_congr fun x _ => ?_, by omega⟩
        simp only [List.mem_cons, not_or, ne_eq, Bool.decide_and, Bool.and_comm]

/-- Evicts what has to go for a new entry. -/
def makeRoom (c : AssetCache) (e : CachedAsset) : AssetCache × List CachedAsset :=
  evict e.key (c.entries ++ [e]) { c with entries := c.entries ++ [e] }

theorem insert_eq (c : AssetCache) (e : CachedAsset) :
    c.insert e = if (c.makeRoom e).1.isOver then
      ((c.makeRoom e).1.remove e.key, some (.cacheFull e.key (c.makeRoom e).1.usage),
        (c.makeRoom e).2 ++ [e])
    else ((c.makeRoom e).1, none, (c.makeRoom e).2) := rfl

theorem makeRoom_fst (c : AssetCache) (e : CachedAsset) :
    (c.makeRoom e).1 = { c with
      entries := (c.entries ++ [e]).filter (·.key ∉ (c.makeRoom e).2.map (·.key))
      evictions := c.evictions + (c.makeRoom e).2.length } :=
  (evict_spec _ _ _).1

theorem of_mem_makeRoom {d : CachedAsset} (h : d ∈ (c.makeRoom e).2) :
    d ∈ c.entries ∧ d.key ≠ e.key ∧ d.leases = 0 := by
  obtain ⟨-, hsublist, hdropped⟩ := evict_spec e.key (c.entries ++ [e])
    { c with entries := c.entries ++ [e] }
  obtain ⟨hkey, hleases⟩ := hdropped d h
  obtain hmem | hmem := List.mem_append.mp (hsublist.subset h)
  · exact ⟨hmem, hkey, hleases⟩
  · exact absurd (congrArg (·.key) (List.mem_singleton.mp hmem)) hkey

/-- The entries that an insertion drops. -/
def dropped (c : AssetCache) (e : CachedAsset) : List CachedAsset := (c.insert e).2.2

/-- Whether a new entry is refused. -/
def IsRefused (c : AssetCache) (e : CachedAsset) : Prop := (c.makeRoom e).1.isOver = true

theorem insert_of_isRefused (h : c.IsRefused e) :
    c.insert e = ((c.makeRoom e).1.remove e.key, some (.cacheFull e.key (c.makeRoom e).1.usage),
      (c.makeRoom e).2 ++ [e]) := by
  rw [insert_eq]
  exact if_pos h

theorem insert_of_not_isRefused (h : ¬ c.IsRefused e) :
    c.insert e = ((c.makeRoom e).1, none, (c.makeRoom e).2) := by
  rw [insert_eq]
  exact if_neg h

/-- An insertion changes neither the place of a cache nor its budgets. -/
theorem insert_kept : (c.insert e).1.directory = c.directory ∧ (c.insert e).1.limits = c.limits := by
  by_cases h : c.IsRefused e
  · rw [insert_of_isRefused h]
    dsimp only [remove]
    rw [makeRoom_fst]
    exact ⟨rfl, rfl⟩
  · rw [insert_of_not_isRefused h, makeRoom_fst]
    exact ⟨rfl, rfl⟩

/-- **What an insertion leaves** is what it did not drop. -/
theorem entries_insert :
    (c.insert e).1.entries =
      (c.entries ++ [e]).filter (·.key ∉ (c.dropped e).map (·.key)) := by
  unfold dropped
  by_cases h : c.IsRefused e
  · rw [insert_of_isRefused h]
    dsimp only [remove]
    rw [makeRoom_fst]
    dsimp only
    rw [List.filter_filter]
    refine List.filter_congr fun x _ => ?_
    simp only [List.map_append, List.map_singleton, List.mem_append, List.mem_singleton, not_or,
      ne_eq, Bool.decide_and, Bool.and_comm]
  · rw [insert_of_not_isRefused h, makeRoom_fst]

/-- **An insertion drops** entries without leases, and the new entry if it is refused. -/
theorem of_mem_dropped {d : CachedAsset} (h : d ∈ c.dropped e) :
    (d ∈ c.entries ∧ d.key ≠ e.key ∧ d.leases = 0) ∨ (c.IsRefused e ∧ d = e) := by
  unfold dropped at h
  by_cases hrefused : c.IsRefused e
  · rw [insert_of_isRefused hrefused] at h
    obtain h | h := List.mem_append.mp h
    · exact .inl (of_mem_makeRoom h)
    · exact .inr ⟨hrefused, List.mem_singleton.mp h⟩
  · rw [insert_of_not_isRefused hrefused] at h
    exact .inl (of_mem_makeRoom h)

theorem IsRefused.mem_dropped (h : c.IsRefused e) : e ∈ c.dropped e := by
  unfold dropped
  rw [insert_of_isRefused h]
  exact List.mem_append_right _ (List.mem_singleton_self e)

/-- A new entry that is not refused is there. -/
theorem mem_insert_of_not_isRefused (h : ¬ c.IsRefused e) : e ∈ (c.insert e).1.entries := by
  rw [entries_insert]
  refine List.mem_filter.mpr ⟨List.mem_append_right _ (List.mem_singleton_self e), ?_⟩
  refine decide_eq_true fun hmem => ?_
  obtain ⟨d, hd, hkey⟩ := List.mem_map.mp hmem
  obtain ⟨-, hne, -⟩ | ⟨hrefused, -⟩ := of_mem_dropped hd
  · exact hne hkey
  · exact h hrefused

/-- An insertion adds no entry of another source. -/
theorem isVacant_insert_of_ne (hkey : key ≠ e.key) (h : c.IsVacant key) :
    (c.insert e).1.IsVacant key := by
  rw [isVacant_iff] at h ⊢
  rw [entries_insert]
  intro hmem
  obtain ⟨x, hx, rfl⟩ := List.mem_map.mp hmem
  obtain hx | hx := List.mem_append.mp (List.mem_of_mem_filter hx)
  · exact h (List.mem_map_of_mem hx)
  · exact hkey (congrArg (·.key) (List.mem_singleton.mp hx))

/-- **A cache is within its budgets after an insertion** if it was so before. -/
theorem isOver_insert (h : c.isOver = false) : (c.insert e).1.isOver = false := by
  by_cases hrefused : c.IsRefused e
  · refine isOver_of_sublist insert_kept.2 ?_ h
    have hnew : [e].filter (·.key ∉ (c.dropped e).map (·.key)) = [] := by
      simpa using ⟨e, hrefused.mem_dropped, rfl⟩
    rw [entries_insert, List.filter_append, hnew, List.append_nil]
    exact List.filter_sublist
  · rw [insert_of_not_isRefused hrefused]
    exact Bool.not_eq_true _ ▸ hrefused

theorem nodup_insert (hkeys : (c.entries.map (·.key)).Nodup) (hnew : c.IsVacant e.key) :
    ((c.insert e).1.entries.map (·.key)).Nodup := by
  rw [entries_insert]
  refine (List.filter_sublist.map _).nodup ?_
  rw [List.map_append, List.map_singleton]
  refine List.nodup_append.mpr ⟨hkeys, List.nodup_singleton _, ?_⟩
  rintro key hkey _ hmem rfl
  exact isVacant_iff.mp hnew (List.mem_singleton.mp hmem ▸ hkey)

/-- **The dropped entries** are those that are no longer there. -/
theorem mem_dropped_iff (hkeys : (c.entries.map (·.key)).Nodup) (hnew : c.IsVacant e.key)
    {d : CachedAsset} :
    d ∈ c.dropped e ↔ (d ∈ c.entries ∨ d = e) ∧ (c.insert e).1.IsVacant d.key := by
  have hmem : ∀ x ∈ c.dropped e, x ∈ c.entries ∨ x = e := fun x hx =>
    (of_mem_dropped hx).imp (·.1) (·.2)
  rw [isVacant_iff, entries_insert]
  refine ⟨fun hd => ⟨hmem d hd, fun hkey => ?_⟩, fun ⟨hd, hgone⟩ => ?_⟩
  · obtain ⟨x, hx, hxd⟩ := List.mem_map.mp hkey
    refine of_decide_eq_true (List.mem_filter.mp hx).2 ?_
    rw [hxd]
    exact List.mem_map_of_mem hd
  · by_contra hkept
    refine hgone (List.mem_map_of_mem (List.mem_filter.mpr ⟨?_, decide_eq_true fun hkey => ?_⟩))
    · rw [List.mem_append, List.mem_singleton]
      exact hd
    · obtain ⟨x, hx, hxd⟩ := List.mem_map.mp hkey
      suffices x = d from hkept (this ▸ hx)
      have hother : ∀ y ∈ c.entries, y.key ≠ e.key := fun y hy hye =>
        isVacant_iff.mp hnew (hye ▸ List.mem_map_of_mem hy)
      obtain hd | rfl := hd <;> obtain hx | rfl := hmem x hx
      · exact eq_of_key_eq hkeys hx hd hxd
      · exact absurd hxd.symm (hother d hd)
      · exact absurd hxd (hother x hx)
      · rfl

/-- What is dropped has no leases if the new entry has none. -/
theorem leases_eq_zero_of_mem_dropped (he : e.leases = 0) {d : CachedAsset}
    (hd : d ∈ c.dropped e) : d.leases = 0 := by
  obtain ⟨-, -, h⟩ | ⟨-, rfl⟩ := of_mem_dropped hd
  · exact h
  · exact he

/-- **A leased entry** stays when another source is taken in. -/
theorem mem_insert_of_leased (hkeys : (c.entries.map (·.key)).Nodup)
    (hnew : c.IsVacant e.key) (he : e.leases = 0) {d : CachedAsset} (hd : d ∈ c.entries)
    (hleases : 0 < d.leases) : d ∈ (c.insert e).1.entries := by
  rw [entries_insert]
  refine List.mem_filter.mpr ⟨List.mem_append_left _ hd, decide_eq_true fun hkey => ?_⟩
  obtain ⟨x, hx, hxd⟩ := List.mem_map.mp hkey
  have hdropped : d ∈ c.dropped e := by
    refine (mem_dropped_iff hkeys hnew).mpr ⟨.inl hd, ?_⟩
    rw [← hxd]
    exact ((mem_dropped_iff hkeys hnew).mp hx).2
  exact hleases.ne' (leases_eq_zero_of_mem_dropped he hdropped)

/-! ### Leases -/

/-- Whether two caches hold the same entries but for their leases and their order. -/
structure Alike (c c' : AssetCache) : Prop where
  directory : c'.directory = c.directory
  limits : c'.limits = c.limits
  entries : (c'.entries.map (·.unleased)).Perm (c.entries.map (·.unleased))

namespace Alike

variable {c' : AssetCache}

theorem map_perm {α : Type} (h : c.Alike c') (f : CachedAsset → α)
    (hf : ∀ e : CachedAsset, f e.unleased = f e) :
    (c'.entries.map f).Perm (c.entries.map f) := by
  have hperm := h.entries.map f
  simpa only [List.map_map, Function.comp_def, hf] using hperm

theorem isOver_eq (h : c.Alike c') : c'.isOver = c.isOver := by
  have hsizes := h.map_perm (·.size) fun _ => rfl
  have hlength := hsizes.length_eq
  rw [List.length_map, List.length_map] at hlength
  unfold isOver
  rw [h.limits, hlength, totalBytes_eq_sum, totalBytes_eq_sum, hsizes.sum_eq]

theorem nodup_iff (h : c.Alike c') :
    (c'.entries.map (·.key)).Nodup ↔ (c.entries.map (·.key)).Nodup :=
  (h.map_perm (·.key) fun _ => rfl).nodup_iff

theorem isVacant_iff (h : c.Alike c') : c'.IsVacant key ↔ c.IsVacant key := by
  rw [AssetCache.isVacant_iff, AssetCache.isVacant_iff,
    (h.map_perm (·.key) fun _ => rfl).mem_iff]

theorem symm (h : c.Alike c') : c'.Alike c :=
  ⟨h.directory.symm, h.limits.symm, h.entries.symm⟩

/-- An entry is there after as before. -/
theorem exists_mem (h : c.Alike c') (he : e ∈ c.entries) :
    ∃ e' ∈ c'.entries, e'.unleased = e.unleased :=
  List.mem_map.mp (h.entries.mem_iff.mpr (List.mem_map_of_mem he))

end Alike

/-- Taking the entry of a source to the end keeps all entries. -/
theorem entries_perm (hkeys : (c.entries.map (·.key)).Nodup) (he : c.entry? key = some e) :
    (c.entries.filter (·.key ≠ key) ++ [e]).Perm c.entries := by
  obtain ⟨hmem, rfl⟩ := of_entry?_eq_some he
  have hnodup := List.Nodup.of_map _ hkeys
  refine (List.perm_ext_iff_of_nodup ?_ hnodup).mpr fun x => ?_
  · refine List.nodup_append.mpr ⟨hnodup.filter _, List.nodup_singleton e, ?_⟩
    rintro x hx _ hx' rfl
    rw [List.mem_singleton] at hx'
    subst hx'
    simpa using (List.mem_filter.mp hx).2
  · rw [List.mem_append, List.mem_filter, List.mem_singleton]
    refine ⟨?_, fun hx => ?_⟩
    · rintro (⟨hx, -⟩ | rfl)
      · exact hx
      · exact hmem
    · by_cases hkey : x.key = e.key
      · exact .inr (eq_of_key_eq hkeys hx hmem hkey)
      · exact .inl ⟨hx, decide_eq_true hkey⟩

theorem alike_lease (hkeys : (c.entries.map (·.key)).Nodup) (key : String) :
    c.Alike (c.lease key) := by
  unfold lease
  split
  · exact ⟨rfl, rfl, .refl _⟩
  · next e he =>
    refine ⟨rfl, rfl, ?_⟩
    have hperm := (entries_perm hkeys he).map (·.unleased)
    rw [List.map_append, List.map_singleton] at hperm ⊢
    exact hperm

theorem alike_release (c : AssetCache) (key : String) : c.Alike (c.release key) := by
  refine ⟨rfl, rfl, .of_eq ?_⟩
  unfold release
  rw [List.map_map]
  refine List.map_congr_left fun e _ => ?_
  dsimp only [Function.comp_apply]
  split <;> rfl

end AssetCache

end TimelineExport

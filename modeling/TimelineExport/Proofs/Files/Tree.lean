import TimelineExport.Files.Tree
import TimelineExport.Proofs.Lookup
import TimelineExport.Proofs.Outcome

/-!
# What is in a tree after a change

Putting something at a place and removing what is there change that place and no other
(`FileTree.node?_put`, `FileTree.node?_erase`). The root stays a directory throughout. Making a
directory puts directories at the places above it that are bare, and never replaces a file
(`FileTree.node?_makeDirectories`, `FileTree.content?_makeDirectories`).

How an operation at a place ends depends on the place and those above it only, so it ends alike in
trees that agree there.
-/

namespace TimelineExport

namespace FileTree

variable {γ : Type} {t : FileTree γ} {p q : Place}

theorem node?_of_ne (hq : q ≠ []) : t.node? q = t.nodes.lookup q := if_neg hq

/-- What is put at a place is there, and everything else stays. -/
theorem node?_put (t : FileTree γ) (p : Place) (node : FileNode γ) (hq : q ≠ []) :
    (t.put p node).node? q = if q = p then some node else t.node? q := by
  have hnodes : (t.put p node).nodes = if t.nodes.any (·.1 = p) then
      t.nodes.map fun entry => if entry.1 = p then (p, node) else entry
    else t.nodes ++ [(p, node)] := by
    unfold put
    split <;> rfl
  rw [node?_of_ne hq, node?_of_ne hq, hnodes, lookup_set]

/-- What is removed is gone, and everything else stays. -/
theorem node?_erase (t : FileTree γ) (p : Place) (hq : q ≠ []) :
    (t.erase p).node? q = if q = p then none else t.node? q := by
  rw [node?_of_ne hq, node?_of_ne hq, erase, lookup_erase]

/-- What is put at a place changes nothing elsewhere. -/
theorem node?_put_of_ne {node : FileNode γ} (h : q ≠ p) : (t.put p node).node? q = t.node? q := by
  by_cases hq : q = []
  · subst hq
    rfl
  · rw [node?_put t p node hq, if_neg h]

/-- What is removed changes nothing elsewhere. -/
theorem node?_erase_of_ne (h : q ≠ p) : (t.erase p).node? q = t.node? q := by
  by_cases hq : q = []
  · subst hq
    rfl
  · rw [node?_erase t p hq, if_neg h]

/-! ### Directories -/

theorem isDirectory_eq_true_iff : t.isDirectory p = true ↔ t.node? p = some .directory := by
  unfold isDirectory
  split
  · next h => exact iff_of_true rfl h
  · next h => exact iff_of_false Bool.false_ne_true h

/-- Nothing is at a place or below it. -/
def IsBare (t : FileTree γ) (p : Place) : Prop := ∀ entry ∈ t.nodes, ¬ p <+: entry.1

/-- A directory that is removed leaves nothing. -/
theorem isBare_eraseAll (t : FileTree γ) (p : Place) : (t.eraseAll p).IsBare p := by
  intro entry hentry hbelow
  have hkept := (List.mem_filter.mp hentry).2
  rw [List.isPrefixOf_iff_prefix.mpr hbelow] at hkept
  cases hkept

/-! ### Files -/

theorem isFile_eq_true_iff : t.isFile p = true ↔ ∃ content, t.node? p = some (.file content) := by
  unfold isFile content?
  split
  · next content h => simp [h]
  · next h => exact iff_of_false (by simp) fun ⟨content, hnode⟩ => h content hnode

/-- Removing a file removes no other one. -/
theorem isFile_erase_iff : (t.erase p).isFile q = true ↔ t.isFile q = true ∧ q ≠ p := by
  by_cases hq : q = []
  · subst hq
    exact iff_of_false nofun fun h => nomatch h.1
  · rw [isFile_eq_true_iff, isFile_eq_true_iff, node?_erase t p hq]
    split
    · next heq => exact iff_of_false nofun fun h => h.2 heq
    · next hne => exact (and_iff_left hne).symm

theorem content?_eq_some_iff {content : γ} :
    t.content? p = some content ↔ t.node? p = some (.file content) := by
  unfold content?
  split
  · next h => simp [h]
  · next h => exact iff_of_false nofun (h content)

/-! ### Directories that are made -/

/-- The places above a place, together with it, are those that lead to it. -/
theorem mem_above_append_iff : q ∈ above p ++ [p] ↔ q <+: p := by
  rw [above, List.mem_append, List.mem_map, List.mem_singleton]
  constructor
  · rintro (⟨i, -, rfl⟩ | rfl)
    · exact List.take_prefix i p
    · exact List.prefix_refl q
  · intro h
    rcases Nat.lt_or_ge q.length p.length with hlt | hge
    · exact .inl ⟨q.length, List.mem_range.mpr hlt, (List.prefix_iff_eq_take.mp h).symm⟩
    · exact .inr (h.eq_of_length_le hge)

/-- A directory that is made where there is none. -/
theorem node?_makeDirectory (t : FileTree γ) (p q : Place) :
    (if t.isDirectory p then t else t.put p .directory).node? q =
      if q = p then some .directory else t.node? q := by
  by_cases hq : q = p
  · subst hq
    rw [if_pos rfl]
    split
    · next h => exact isDirectory_eq_true_iff.mp h
    · next h =>
      have hne : q ≠ [] := fun hnil => h (hnil ▸ rfl)
      rw [node?_put t q _ hne, if_pos rfl]
  · rw [if_neg hq]
    split
    · rfl
    · exact node?_put_of_ne hq

theorem node?_foldl_makeDirectory (ps : List Place) (t : FileTree γ) (q : Place) :
    (ps.foldl (fun t p => if t.isDirectory p then t else t.put p .directory) t).node? q =
      if q ∈ ps then some .directory else t.node? q := by
  induction ps generalizing t with
  | nil => rfl
  | cons p ps ih =>
    rw [List.foldl_cons, ih, node?_makeDirectory]
    by_cases hmem : q ∈ ps
    · rw [if_pos hmem, if_pos (List.mem_cons_of_mem p hmem)]
    · simp only [hmem, List.mem_cons, or_false, if_false]

/-- A directory can be made exactly if there is no file at its place or above. -/
theorem makeDirectories_isOk_iff :
    (t.makeDirectories p).isOk = true ↔ ∀ q, q <+: p → t.isFile q = false := by
  have hfiles : (∀ q, q <+: p → t.isFile q = false) ↔
      t.isBlocked p = false ∧ t.isFile p = false := by
    rw [isBlocked, List.any_eq_false]
    simp only [← mem_above_append_iff, List.mem_append, List.mem_singleton, or_imp, forall_and,
      forall_eq, Bool.not_eq_true]
  rw [hfiles, makeDirectories]
  cases t.isBlocked p <;> cases t.isFile p <;> simp [Except.isOk, Except.toBool]

/-- **Directories that are made** stand at the place and above it, and everything else stays. -/
theorem node?_makeDirectories {t' : FileTree γ} (h : t.makeDirectories p = .ok t') (q : Place) :
    t'.node? q = if q <+: p then some .directory else t.node? q := by
  unfold makeDirectories at h
  split at h
  · cases h
  · split at h
    · cases h
    · cases h
      rw [node?_foldl_makeDirectory]
      simp only [mem_above_append_iff]

/-- Making a directory leaves every file as it is. -/
theorem content?_makeDirectories {t' : FileTree γ} (h : t.makeDirectories p = .ok t') (q : Place) :
    t'.content? q = t.content? q := by
  have hfiles := makeDirectories_isOk_iff.mp (by rw [h]; rfl)
  by_cases hq : q <+: p
  · have hnone : t.content? q = none := Option.not_isSome_iff_eq_none.mp (by
      rw [← isFile, hfiles q hq]
      exact Bool.false_ne_true)
    rw [hnone, content?, node?_makeDirectories h, if_pos hq]
  · rw [content?, content?, node?_makeDirectories h, if_neg hq]

/-! ### Files that are written -/

theorem node?_of_read {path : String} {content : γ} (h : t.read p path = .ok content) :
    t.node? p = some (.file content) := by
  unfold read at h
  split at h
  · cases h
  split at h
  · cases h
  · cases h
  · next hnode => cases h; exact hnode

theorem write_eq_ok {path : String} {content : γ} {t' : FileTree γ}
    (h : t.write p path content = .ok t') : p ≠ [] ∧ t' = t.put p (.file content) := by
  unfold write at h
  split at h
  · cases h
  split at h
  · cases h
  · next hdirectory =>
    split at h
    · cases h
    · cases h
      exact ⟨fun hnil => hdirectory (hnil ▸ rfl), rfl⟩

/-- A file that is copied stands at the place with the content that was read. -/
theorem copy_eq_ok {source : Place} {path : String} {t' : FileTree γ}
    (h : t.copy source path p = .ok t') :
    ∃ content, t.node? source = some (.file content) ∧ p ≠ [] ∧ t' = t.put p (.file content) := by
  unfold copy at h
  split at h
  · cases h
  · obtain ⟨content, hread, hwrite⟩ := bind_eq_ok.mp h
    exact ⟨content, node?_of_read hread, write_eq_ok hwrite⟩

/-- What is removed was a file; where nothing is, nothing is removed. -/
theorem removeFile_eq_ok {t' : FileTree γ} {found : Bool} (h : t.removeFile p = .ok (t', found)) :
    t' = t ∨ t' = t.erase p := by
  unfold removeFile at h
  split at h <;> cases h
  · exact .inl rfl
  · exact .inr rfl

/-! ### Trees that agree above a place -/

section
variable {t' : FileTree γ}

theorem isFile_congr (h : t.node? p = t'.node? p) : t.isFile p = t'.isFile p := by
  rw [isFile, isFile, content?, content?, h]

theorem isDirectory_congr (h : t.node? p = t'.node? p) : t.isDirectory p = t'.isDirectory p := by
  rw [isDirectory, isDirectory, h]

theorem isBlocked_congr (h : ∀ q, q <+: p → t.node? q = t'.node? q) :
    t.isBlocked p = t'.isBlocked p := by
  have habove : ∀ q ∈ above p, t.isFile q = t'.isFile q := fun q hq =>
    isFile_congr (h q (mem_above_append_iff.mp (List.mem_append_left _ hq)))
  rw [Bool.eq_iff_iff, isBlocked, isBlocked, List.any_eq_true, List.any_eq_true]
  exact exists_congr fun q => and_congr_right fun hq => by rw [habove q hq]

/-- What is read at a place. -/
theorem read_congr (h : ∀ q, q <+: p → t.node? q = t'.node? q) (path : String) :
    t.read p path = t'.read p path := by
  rw [read, read, isBlocked_congr h, h p (List.prefix_refl p)]

/-- **Two changes end alike**: with the same fault, or in trees that agree wherever the trees did
before. -/
def EndAlike (t t' : FileTree γ) :
    Except FileFault (FileTree γ) → Except FileFault (FileTree γ) → Prop
  | .ok u, .ok u' => ∀ q, t.node? q = t'.node? q → u.node? q = u'.node? q
  | .error fault, .error fault' => fault = fault'
  | _, _ => False

/-- The same thing is put at a place. -/
theorem node?_put_congr (p : Place) (node : FileNode γ) (hq : t.node? q = t'.node? q) :
    (t.put p node).node? q = (t'.put p node).node? q := by
  by_cases hnil : q = []
  · subst hnil
    rfl
  · rw [node?_put t p node hnil, node?_put t' p node hnil, hq]

/-- What is at a place is removed. -/
theorem node?_erase_congr (p : Place) (hq : t.node? q = t'.node? q) :
    (t.erase p).node? q = (t'.erase p).node? q := by
  by_cases hnil : q = []
  · subst hnil
    rfl
  · rw [node?_erase t p hnil, node?_erase t' p hnil, hq]

theorem makeDirectories_endAlike (h : ∀ q, q <+: p → t.node? q = t'.node? q) :
    EndAlike t t' (t.makeDirectories p) (t'.makeDirectories p) := by
  rw [makeDirectories, makeDirectories, isBlocked_congr h, isFile_congr (h p (List.prefix_refl p))]
  split
  · rfl
  split
  · rfl
  · intro q hq
    rw [node?_foldl_makeDirectory, node?_foldl_makeDirectory, hq]

theorem write_endAlike (h : ∀ q, q <+: p → t.node? q = t'.node? q) (path : String) (content : γ) :
    EndAlike t t' (t.write p path content) (t'.write p path content) := by
  rw [write, write, isBlocked_congr h, isDirectory_congr (h p (List.prefix_refl p)),
    isDirectory_congr (h p.dropLast (List.dropLast_prefix p))]
  split
  · rfl
  split
  · rfl
  split
  · rfl
  · exact fun q hq => node?_put_congr p _ hq

/-- A file is copied alike if it is read alike. -/
theorem copy_endAlike {source : Place} {path : String}
    (h : ∀ q, q <+: p → t.node? q = t'.node? q)
    (hread : t.read source path = t'.read source path) :
    EndAlike t t' (t.copy source path p) (t'.copy source path p) := by
  have hsame : (source = p ∧ (t.node? source).isSome) ↔ (source = p ∧ (t'.node? source).isSome) :=
    and_congr_right fun heq => by rw [heq, h p (List.prefix_refl p)]
  rw [copy, copy, hread]
  simp only [hsame]
  split
  · rfl
  · cases t'.read source path with
    | error fault => rfl
    | ok content => exact write_endAlike h _ content

end

end FileTree

end TimelineExport

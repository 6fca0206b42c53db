import Mathlib.Data.List.Basic

/-!
# Values by name

Lists of pairs serve as tables, in which the first value of a name counts. A value is set in place
if its name is there and at the end if it is not (`lookup_set`); names are removed by a filter
(`lookup_erase`).
-/

namespace TimelineExport

variable {κ β : Type} [DecidableEq κ] [BEq κ] [LawfulBEq κ] {name other : κ}

/-- Writing over a value changes what is found under its name only. -/
theorem lookup_overwrite (value : β) (l : List (κ × β)) :
    (l.map fun entry => if entry.1 = name then (name, value) else entry).lookup other =
      if other = name then (l.lookup name).map fun _ => value else l.lookup other := by
  induction l with
  | nil => simp
  | cons entry l ih =>
    obtain ⟨key, found⟩ := entry
    by_cases hkey : key = name
    · subst hkey
      rw [List.map_cons, if_pos rfl, List.lookup_cons, ih]
      split
      · next heq => simp [beq_iff_eq.mp heq]
      · next hne => simp [beq_eq_false_iff_ne.mp hne, List.lookup_cons, hne]
    · rw [List.map_cons, if_neg hkey, List.lookup_cons, ih]
      have hne : (name == key) = false := beq_eq_false_iff_ne.mpr (Ne.symm hkey)
      split
      · next heq => simp [beq_iff_eq.mp heq, hkey]
      · next hne' => simp [List.lookup_cons, hne, hne']

/-- Removing a name removes what is found under it only. -/
theorem lookup_erase (l : List (κ × β)) :
    (l.filter fun entry => entry.1 ≠ name).lookup other =
      if other = name then none else l.lookup other := by
  induction l with
  | nil => simp
  | cons entry l ih =>
    obtain ⟨key, found⟩ := entry
    by_cases hkey : key = name
    · subst hkey
      rw [List.filter_cons_of_neg (by simp), ih]
      split
      · rfl
      · next hne => simp [List.lookup_cons, beq_eq_false_iff_ne.mpr hne]
    · rw [List.filter_cons_of_pos (by simpa using hkey), List.lookup_cons, ih]
      split
      · next heq => simp [beq_iff_eq.mp heq, hkey]
      · next hne => simp [List.lookup_cons, hne]

theorem isSome_lookup_iff (l : List (κ × β)) :
    (l.lookup name).isSome ↔ l.any (·.1 = name) = true := by
  induction l with
  | nil => simp
  | cons entry l ih =>
    obtain ⟨key, found⟩ := entry
    rw [List.lookup_cons, List.any_cons, Bool.or_eq_true, ← ih, decide_eq_true_eq]
    split
    · next heq => exact iff_of_true rfl (.inl (beq_iff_eq.mp heq).symm)
    · next hne => exact (or_iff_right (Ne.symm (beq_eq_false_iff_ne.mp hne))).symm

/-- **A value that is set** is found under its name, and everything else stays. -/
theorem lookup_set (value : β) (l : List (κ × β)) :
    (if l.any (·.1 = name) then
        l.map fun entry => if entry.1 = name then (name, value) else entry
      else l ++ [(name, value)]).lookup other =
      if other = name then some value else l.lookup other := by
  have hsome : (l.lookup name).isSome ↔ l.any (·.1 = name) = true := isSome_lookup_iff l
  split
  · next hany =>
    rw [lookup_overwrite]
    obtain ⟨old, hold⟩ := Option.isSome_iff_exists.mp (hsome.mpr hany)
    rw [hold, Option.map_some]
  · next hany =>
    have hnone : l.lookup name = none := Option.not_isSome_iff_eq_none.mp (mt hsome.mp hany)
    rw [List.lookup_append]
    split
    · next heq => simp [heq, hnone]
    · next hne => simp [List.lookup_cons, beq_eq_false_iff_ne.mpr hne]

omit [DecidableEq κ]

theorem mem_of_lookup {l : List (κ × β)} {value : β} (h : l.lookup name = some value) :
    (name, value) ∈ l := by
  obtain ⟨before, after, rfl, -⟩ := List.lookup_eq_some_iff.mp h
  exact List.mem_append_right _ List.mem_cons_self

/-- What is listed under a name of its own is found under it. -/
theorem lookup_of_mem {l : List (κ × β)} (h : (l.map (·.1)).Nodup) {p : κ × β} (hp : p ∈ l) :
    l.lookup p.1 = some p.2 := by
  induction l with
  | nil => cases hp
  | cons q l ih =>
    obtain ⟨hq, hnodup⟩ := List.nodup_cons.mp h
    obtain rfl | hp := List.mem_cons.mp hp
    · exact List.lookup_cons_self
    · have hne : (p.1 == q.1) = false := beq_false_of_ne fun heq =>
        hq (List.mem_map.mpr ⟨p, hp, heq⟩)
      rw [List.lookup_cons, hne]
      exact ih hnodup hp

/-- In a table of one value this value is found under every name that is there. -/
theorem lookup_eq_some_of_forall {l : List (κ × β)} {value : β} (hname : name ∈ l.map (·.1))
    (h : ∀ p ∈ l, p.2 = value) : l.lookup name = some value := by
  obtain ⟨found, hfound⟩ := Option.ne_none_iff_exists'.mp fun hnone => by
    obtain ⟨p, hp, hkey⟩ := List.mem_map.mp hname
    exact bne_iff_ne.mp (List.lookup_eq_none_iff.mp hnone p hp) hkey.symm
  rw [hfound]
  exact congrArg some (h (name, found) (mem_of_lookup hfound))

end TimelineExport

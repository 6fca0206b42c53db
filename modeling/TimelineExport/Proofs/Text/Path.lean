import TimelineExport.Text.Path

/-!
# Resolving a path that was joined

A path is resolved component by component, so resolving one path appended to another comes to the
same place as resolving the second one seen from where the first one leads
(`resolvePath_joinPath`), whether the second one is relative, empty or absolute.
-/

namespace TimelineExport

/-- Components are followed one after another. -/
theorem followPath_append (place : List String) (parts rest : List String) :
    followPath place (parts ++ rest) = followPath (followPath place parts) rest := by
  fun_induction followPath place parts with
  | case1 => rfl
  | case2 place parts ih => rw [List.cons_append, followPath, ih]
  | case3 place part parts hpart ih => rw [List.cons_append, followPath.eq_3 _ _ _ hpart, ih]

/-! ### Components of joined paths -/

theorem pathParts_append_slash (path rest : String) :
    pathParts (path ++ "/" ++ rest) = pathParts path ++ pathParts rest := by
  have hlist : (path ++ "/" ++ rest).toList = path.toList ++ '/' :: rest.toList := by simp
  rw [pathParts, hlist, List.splitOn_append_cons_self, List.map_append]
  rfl

theorem pathComponents_append_slash (path rest : String) :
    pathComponents (path ++ "/" ++ rest) = pathComponents path ++ pathComponents rest := by
  rw [pathComponents, pathParts_append_slash, List.filter_append]
  rfl

theorem pathComponents_empty : pathComponents "" = [] := by decide

/-- A path that ends in a slash. -/
theorem endsWith_slash_iff {path : String} :
    path.endsWith "/" = true ↔ ∃ start, path = start ++ "/" := by
  rw [String.endsWith_eq_endsWith_toSlice, String.Slice.endsWith_string_iff, String.copy_toSlice]
  constructor
  · rintro ⟨cs, hcs⟩
    refine ⟨String.ofList cs, ?_⟩
    rw [← String.ofList_toList (s := path), ← hcs]
    simp
  · rintro ⟨start, rfl⟩
    rw [String.toList_append]
    exact List.suffix_append _ _

/-- A path that is not absolute adds its components to those of the path that it is joined to. -/
theorem pathComponents_joinPath {path : String} (base : String)
    (h : path.startsWith "/" = false) :
    pathComponents (joinPath base path) = pathComponents base ++ pathComponents path := by
  unfold joinPath
  split
  · next hbase =>
    have hempty : base = "" := by simpa [h] using hbase
    rw [hempty, pathComponents_empty, List.nil_append]
  split
  · next hend =>
    obtain ⟨start, rfl⟩ := endsWith_slash_iff.mp hend
    -- the slash at the end of the base has no component behind it
    have hbase : pathComponents (start ++ "/") = pathComponents start := by
      rw [← String.append_empty (s := start ++ "/"), pathComponents_append_slash,
        pathComponents_empty, List.append_nil]
    rw [pathComponents_append_slash, hbase]
  · exact pathComponents_append_slash base path

/-- Whether a path is absolute is seen at its first character. -/
theorem startsWith_slash_eq (path : String) :
    path.startsWith "/" = (path.toList.head? == some '/') := by
  rw [Bool.eq_iff_iff, String.startsWith_string_iff]
  cases h : path.toList with
  | nil => simp
  | cons c cs => simpa using eq_comm

/-- A joined path starts where its first part does. -/
theorem startsWith_joinPath {path : String} (base : String) (h : path.startsWith "/" = false) :
    (joinPath base path).startsWith "/" = base.startsWith "/" := by
  unfold joinPath
  split
  · next hbase =>
    have hempty : base = "" := by simpa [h] using hbase
    rw [h, hempty]
    decide
  · next hbase =>
    have hne : base.toList ≠ [] := by simpa [h] using hbase
    obtain ⟨c, cs, hcs⟩ := List.exists_cons_of_ne_nil hne
    split <;> simp [startsWith_slash_eq, hcs]

/-- **A joined path is resolved in two steps.** -/
theorem resolvePath_joinPath (place : List String) (base path : String) :
    resolvePath place (joinPath base path) = resolvePath (resolvePath place base) path := by
  cases h : path.startsWith "/" with
  | true => simp [joinPath, resolvePath, h]
  | false =>
    have hrelative : resolvePath (resolvePath place base) path =
        followPath (resolvePath place base) (pathComponents path) := by
      simp [resolvePath, h]
    rw [hrelative, resolvePath, startsWith_joinPath base h, pathComponents_joinPath base h,
      followPath_append]
    rfl

end TimelineExport

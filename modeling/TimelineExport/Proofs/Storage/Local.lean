import TimelineExport.Proofs.Files.Tree
import TimelineExport.Proofs.Text.Path
import TimelineExport.Storage.Local

/-!
# A storage keeps to its directory

Whatever a storage is asked for, it follows the key first and goes on only if the key leads below
the root (`LocalStorage.perform_eq`). Then it makes the directories above the place of the key, and
works at that place alone (`StorageRequest.act`). So a key that leads anywhere else is refused
before anything is touched; nothing outside of the root is ever written, and nothing there has a
bearing on an answer; and a file that was uploaded stays as long as no other key leads to its place
(`LocalStorage.isConfined`).

The root has to be there (`FileTree.IsOpen`). It is made when the storage is set up, and no request
removes it.
-/

namespace TimelineExport

variable {γ : Type} {root p q : Place}

/-! ### Places below a root -/

/-- A place strictly **below** another one. -/
def IsBelow (root p : Place) : Prop := root <+: p ∧ p ≠ root

instance (root p : Place) : Decidable (IsBelow root p) := inferInstanceAs (Decidable (_ ∧ _))

namespace IsBelow

/-- What is at or below a place below the root is below the root. -/
theorem of_prefix (h : IsBelow root q) (hqp : q <+: p) : IsBelow root p := by
  refine ⟨h.1.trans hqp, fun heq => h.2 ?_⟩
  subst heq
  exact hqp.eq_of_length_le h.1.length_le

/-- What leads to a place is not below it. -/
theorem not_of_prefix (h : q <+: root) : ¬ IsBelow root q := fun hbelow =>
  hbelow.2 (h.eq_of_length_le hbelow.1.length_le)

/-- The way to a place below the root leads to the root, and goes on below it. -/
theorem prefix_or_isBelow (h : IsBelow root p) (hqp : q <+: p) : q <+: root ∨ IsBelow root q := by
  rcases List.prefix_or_prefix_of_prefix hqp h.1 with hup | hdown
  · exact .inl hup
  · by_cases heq : q = root
    · exact .inl (heq ▸ List.prefix_refl q)
    · exact .inr ⟨hdown, heq⟩

end IsBelow

namespace FileTree

variable {t t' u : FileTree γ}

/-- A root that is **open**: it is a directory, and so is everything above it. -/
def IsOpen (t : FileTree γ) (root : Place) : Prop := ∀ q, q <+: root → t.node? q = some .directory

/-- Two trees that agree below a root. -/
def AgreesBelow (t t' : FileTree γ) (root : Place) : Prop :=
  ∀ q, IsBelow root q → t.node? q = t'.node? q

/-- A root that was made is open. -/
theorem isOpen_of_makeDirectories (h : t.makeDirectories root = .ok u) : u.IsOpen root :=
  fun q hq => by rw [node?_makeDirectories h, if_pos hq]

/-- A tree that differs below the root only is as open as before. -/
theorem IsOpen.congr (h : t.IsOpen root) (hsame : ∀ q, ¬ IsBelow root q → u.node? q = t.node? q) :
    u.IsOpen root := fun q hq => (hsame q (IsBelow.not_of_prefix hq)).trans (h q hq)

/-- Open trees that agree below the root agree on the whole way to a place below it. -/
theorem AgreesBelow.of_prefix (h : t.AgreesBelow t' root) (hopen : t.IsOpen root)
    (hopen' : t'.IsOpen root) (hp : IsBelow root p) (hqp : q <+: p) : t.node? q = t'.node? q := by
  rcases hp.prefix_or_isBelow hqp with hup | hbelow
  · rw [hopen q hup, hopen' q hup]
  · exact h q hbelow

/-- The directories above a place below the root are made below the root. -/
theorem node?_makeDirectories_of_not_isBelow (hopen : t.IsOpen root) (hp : IsBelow root p)
    (h : t.makeDirectories p.dropLast = .ok u) (hq : ¬ IsBelow root q) :
    u.node? q = t.node? q := by
  rw [node?_makeDirectories h]
  split
  · next hup =>
    have hroot := (hp.prefix_or_isBelow (hup.trans (List.dropLast_prefix p))).resolve_right hq
    exact (hopen q hroot).symm
  · rfl

end FileTree

/-! ### Requests -/

/-- What a storage is asked for. -/
inductive StorageRequest where
  /-- To store the file at a path, seen from the working directory. -/
  | upload (path key : String)
  | locate (key : String)
  | fileExists (key : String)
  | delete (key : String)
  deriving DecidableEq, Repr

/-- What a storage answers. -/
inductive StorageAnswer where
  | url (url : String)
  | place (p : Place)
  | found (found : Bool)
  deriving DecidableEq, Repr

namespace StorageRequest

/-- The key that a request is about. -/
def key : StorageRequest → String
  | upload _ key | locate key | fileExists key | delete key => key

/-- The local file that a request brings: what there is to be read of it. -/
def localFile (cwd : Place) (t : FileTree γ) : StorageRequest → Option (Except FileFault γ)
  | upload path _ => some (t.read (resolvePath cwd path) path)
  | _ => none

/-- What is done at the place of the key, once the directories above it are there. -/
def act (s : LocalStorage) (cwd p : Place) (t : FileTree γ) :
    StorageRequest → Except StorageFault StorageAnswer × FileTree γ
  | upload path key =>
    match t.copy (resolvePath cwd path) path p with
    | .error fault =>
      (.error (.storage (.storage ("Failed to store " ++ key ++ ": " ++ fault.message))), t)
    | .ok t => (.ok (.url (s.url key)), t)
  | locate _ => (.ok (.place p), t)
  | fileExists _ => (.ok (.found (t.node? p).isSome), t)
  | delete _ =>
    match t.removeFile p with
    | .error fault => (.error (.files fault), t)
    | .ok (t, found) => (.ok (.found found), t)

variable {s : LocalStorage} {cwd : Place} {t t' : FileTree γ}

/-- What is done at a place changes nothing elsewhere. -/
theorem node?_act (r : StorageRequest) (hq : q ≠ p) : (r.act s cwd p t).2.node? q = t.node? q := by
  cases r with
  | upload path key =>
    rw [act]
    split
    · rfl
    · next hcopy =>
      obtain ⟨content, -, -, rfl⟩ := FileTree.copy_eq_ok hcopy
      exact FileTree.node?_put_of_ne hq
  | locate key => rfl
  | fileExists key => rfl
  | delete key =>
    rw [act]
    split
    · rfl
    · next hremove =>
      obtain rfl | rfl := FileTree.removeFile_eq_ok hremove
      · rfl
      · exact FileTree.node?_erase_of_ne hq

/-- What is done at a place is the same in trees that agree on the way there, and from which the
same is read of the local file. -/
theorem act_congr (r : StorageRequest) (h : ∀ q, q <+: p → t.node? q = t'.node? q)
    (hlocal : r.localFile cwd t = r.localFile cwd t') :
    (r.act s cwd p t).1 = (r.act s cwd p t').1 ∧
      ∀ q, t.node? q = t'.node? q →
        (r.act s cwd p t).2.node? q = (r.act s cwd p t').2.node? q := by
  have hp := h p (List.prefix_refl p)
  cases r with
  | upload path key =>
    have hcopy := FileTree.copy_endAlike h (Option.some.inj hlocal)
    simp only [act]
    revert hcopy
    cases t.copy (resolvePath cwd path) path p <;> cases t'.copy (resolvePath cwd path) path p
    · rintro rfl
      exact ⟨rfl, fun _ hq => hq⟩
    · exact False.elim
    · exact False.elim
    · exact fun hagree => ⟨rfl, hagree⟩
  | locate key => exact ⟨rfl, fun _ hq => hq⟩
  | fileExists key => exact ⟨by rw [act, act, hp], fun _ hq => hq⟩
  | delete key =>
    simp only [act, FileTree.removeFile, hp]
    cases t'.node? p with
    | none => exact ⟨rfl, fun _ hq => hq⟩
    | some node =>
      cases node with
      | directory => exact ⟨rfl, fun _ hq => hq⟩
      | file content => exact ⟨rfl, fun q hq => FileTree.node?_erase_congr p hq⟩

/-- The directories that are made below the root do not change what is read of the local file:
outside of the root they are not seen, and below it the trees agree. -/
theorem localFile_makeDirectories {root : Place} {u u' : FileTree γ} (r : StorageRequest)
    (hopen : t.IsOpen root) (hopen' : t'.IsOpen root) (hagree : t.AgreesBelow t' root)
    (hp : IsBelow root p) (hmade : t.makeDirectories p.dropLast = .ok u)
    (hmade' : t'.makeDirectories p.dropLast = .ok u')
    (hmadeAlike : ∀ q, t.node? q = t'.node? q → u.node? q = u'.node? q)
    (hlocal : r.localFile cwd t = r.localFile cwd t') :
    r.localFile cwd u = r.localFile cwd u' := by
  cases r with
  | upload path key =>
    have hread := Option.some.inj hlocal
    refine congrArg some ?_
    by_cases hsource : IsBelow root (resolvePath cwd path)
    · exact FileTree.read_congr
        (fun q hq => hmadeAlike q (hagree.of_prefix hopen hopen' hsource hq)) path
    · have houtside : ∀ q, q <+: resolvePath cwd path → ¬ IsBelow root q := fun q hq hbelow =>
        hsource (hbelow.of_prefix hq)
      calc u.read (resolvePath cwd path) path
          = t.read (resolvePath cwd path) path := FileTree.read_congr (fun q hq =>
            FileTree.node?_makeDirectories_of_not_isBelow hopen hp hmade (houtside q hq)) path
        _ = t'.read (resolvePath cwd path) path := hread
        _ = u'.read (resolvePath cwd path) path := FileTree.read_congr (fun q hq =>
            (FileTree.node?_makeDirectories_of_not_isBelow hopen' hp hmade'
              (houtside q hq)).symm) path
  | locate key | fileExists key | delete key => rfl

end StorageRequest

/-! ### What a request does -/

/-- The fault of a key that leads out of the root. -/
def StorageFault.escapes (key : String) : StorageFault :=
  .storage (.storage ("Storage key escapes storage root: " ++ key))

namespace LocalStorage

variable {s : LocalStorage} {cwd : Place} {t t' : FileTree γ} {r : StorageRequest}

/-- Does what a storage is asked for. -/
def perform (s : LocalStorage) (cwd : Place) (t : FileTree γ) :
    StorageRequest → Except StorageFault StorageAnswer × FileTree γ
  | .upload path key => ((s.upload t cwd path key).1.map .url, (s.upload t cwd path key).2)
  | .locate key =>
    match s.locate t key with
    | .error fault => (.error fault, t)
    | .ok (p, t) => (.ok (.place p), t)
  | .fileExists key => ((s.fileExists t key).1.map .found, (s.fileExists t key).2)
  | .delete key => ((s.delete t key).1.map .found, (s.delete t key).2)

/-- The tree after a list of requests. -/
def performAll (s : LocalStorage) (cwd : Place) (t : FileTree γ) (rs : List StorageRequest) :
    FileTree γ :=
  rs.foldl (fun t r => (s.perform cwd t r).2) t

theorem place?_eq (s : LocalStorage) (key : String) :
    s.place? key =
      if IsBelow s.root (resolvePath s.root key) then some (resolvePath s.root key) else none := by
  by_cases h : IsBelow s.root (resolvePath s.root key)
  · rw [if_pos h]
    exact if_pos ⟨List.isPrefixOf_iff_prefix.mpr h.1, h.2⟩
  · rw [if_neg h]
    exact if_neg fun hp => h ⟨List.isPrefixOf_iff_prefix.mp hp.1, hp.2⟩

theorem locate_eq (s : LocalStorage) (t : FileTree γ) (key : String) :
    s.locate t key =
      if IsBelow s.root (resolvePath s.root key) then
        match t.makeDirectories (resolvePath s.root key).dropLast with
        | .error fault => .error (.files fault)
        | .ok u => .ok (resolvePath s.root key, u)
      else .error (.escapes key) := by
  rw [locate, place?_eq]
  by_cases h : IsBelow s.root (resolvePath s.root key)
  · simp only [if_pos h]
    cases t.makeDirectories (resolvePath s.root key).dropLast <;> rfl
  · simp only [if_neg h]
    rfl

/-- **Every request** looks up its key, and acts at the place that it finds. -/
theorem perform_eq_act (s : LocalStorage) (cwd : Place) (t : FileTree γ) (r : StorageRequest) :
    s.perform cwd t r =
      match s.locate t r.key with
      | .error fault => (.error fault, t)
      | .ok (p, u) => r.act s cwd p u := by
  cases r with
  | upload path key =>
    rw [perform, upload, StorageRequest.key]
    cases s.locate t key with
    | error fault => rfl
    | ok found =>
      dsimp only [StorageRequest.act]
      cases found.2.copy (resolvePath cwd path) path found.1 <;> rfl
  | locate key => rfl
  | fileExists key =>
    rw [perform, fileExists, StorageRequest.key]
    cases s.locate t key <;> rfl
  | delete key =>
    rw [perform, delete, StorageRequest.key]
    cases s.locate t key with
    | error fault => rfl
    | ok found =>
      dsimp only [StorageRequest.act]
      cases found.2.removeFile found.1 <;> rfl

/-- **A key that leads out of the root** is refused, and nothing happens. -/
theorem perform_of_not_isBelow (h : ¬ IsBelow s.root (resolvePath s.root r.key)) :
    s.perform cwd t r = (.error (.escapes r.key), t) := by
  rw [perform_eq_act, locate_eq, if_neg h]

/-- **A key that leads below the root**: the directories above its place are made, and the request
acts there. -/
theorem perform_of_isBelow (h : IsBelow s.root (resolvePath s.root r.key)) :
    s.perform cwd t r =
      match t.makeDirectories (resolvePath s.root r.key).dropLast with
      | .error fault => (.error (.files fault), t)
      | .ok u => r.act s cwd (resolvePath s.root r.key) u := by
  rw [perform_eq_act, locate_eq, if_pos h]
  cases t.makeDirectories (resolvePath s.root r.key).dropLast <;> rfl

/-- A request changes nothing outside of the root. -/
theorem node?_perform (r : StorageRequest) (hopen : t.IsOpen s.root) (hq : ¬ IsBelow s.root q) :
    (s.perform cwd t r).2.node? q = t.node? q := by
  by_cases h : IsBelow s.root (resolvePath s.root r.key)
  · rw [perform_of_isBelow h]
    split
    · rfl
    · next u hmade =>
      rw [r.node?_act fun heq => hq (by rwa [heq])]
      exact FileTree.node?_makeDirectories_of_not_isBelow hopen h hmade hq
  · rw [perform_of_not_isBelow h]

/-- A request leaves the files alone to which its key does not lead. -/
theorem content?_perform (r : StorageRequest) (hq : q ≠ resolvePath s.root r.key) :
    (s.perform cwd t r).2.content? q = t.content? q := by
  by_cases h : IsBelow s.root (resolvePath s.root r.key)
  · rw [perform_of_isBelow h]
    split
    · rfl
    · next u hmade =>
      rw [← FileTree.content?_makeDirectories hmade, FileTree.content?, FileTree.content?,
        r.node?_act hq]
  · rw [perform_of_not_isBelow h]

/-- A request ends alike in open trees that agree below the root, and from which the same is read
of the local file. -/
theorem perform_congr (r : StorageRequest) (hopen : t.IsOpen s.root) (hopen' : t'.IsOpen s.root)
    (hagree : t.AgreesBelow t' s.root) (hlocal : r.localFile cwd t = r.localFile cwd t') :
    (s.perform cwd t r).1 = (s.perform cwd t' r).1 ∧
      (s.perform cwd t r).2.AgreesBelow (s.perform cwd t' r).2 s.root := by
  by_cases h : IsBelow s.root (resolvePath s.root r.key)
  · rw [perform_of_isBelow h, perform_of_isBelow h]
    generalize resolvePath s.root r.key = p at h ⊢
    have hway : ∀ q, q <+: p → t.node? q = t'.node? q := fun q hq =>
      hagree.of_prefix hopen hopen' h hq
    have hmade := FileTree.makeDirectories_endAlike fun q hq =>
      hway q (hq.trans (List.dropLast_prefix p))
    cases hu : t.makeDirectories p.dropLast <;> cases hu' : t'.makeDirectories p.dropLast <;>
      rw [hu, hu'] at hmade
    · obtain rfl := hmade
      exact ⟨rfl, hagree⟩
    · exact hmade.elim
    · exact hmade.elim
    · have hact := r.act_congr (s := s) (fun q hq => hmade q (hway q hq))
        (r.localFile_makeDirectories hopen hopen' hagree h hu hu' hmade hlocal)
      exact ⟨hact.1, fun q hq => hact.2 q (hmade q (hagree q hq))⟩
  · rw [perform_of_not_isBelow h, perform_of_not_isBelow h]
    exact ⟨rfl, hagree⟩

/-! ### Refused keys -/

/-- A file that cannot be stored is no reason to call its key refused. -/
theorem escapes_ne_failed (key reason : String) :
    StorageFault.escapes key ≠
      .storage (.storage ("Failed to store " ++ key ++ ": " ++ reason)) := by
  intro heq
  have hmessage := congrArg (·.message.toList.head?) (StorageFault.storage.inj heq)
  simp [ExportError.storage, ExportError.ofSort] at hmessage

theorem act_ne_escapes (r : StorageRequest) (u : FileTree γ) :
    (r.act s cwd p u).1 ≠ .error (.escapes r.key) := by
  cases r with
  | upload path key =>
    rw [StorageRequest.act]
    split
    · exact fun heq => escapes_ne_failed key _ (Except.error.inj heq).symm
    · nofun
  | locate key => nofun
  | fileExists key => nofun
  | delete key =>
    rw [StorageRequest.act]
    split <;> nofun

/-- **A key is refused** exactly if it does not lead below the root. -/
theorem perform_eq_escapes_iff :
    (s.perform cwd t r).1 = .error (.escapes r.key) ↔
      ¬ IsBelow s.root (resolvePath s.root r.key) := by
  constructor
  · intro heq h
    rw [perform_of_isBelow h] at heq
    split at heq
    · cases heq
    · exact act_ne_escapes r _ heq
  · exact fun h => by rw [perform_of_not_isBelow h]

/-! ### Files that were uploaded -/

/-- A file that was uploaded stands at the place of its key, with the content of the local file. -/
theorem content?_upload {path key url : String} {u : FileTree γ}
    (h : s.upload t cwd path key = (.ok url, u)) :
    ∃ content, t.content? (resolvePath cwd path) = some content ∧
      u.content? (resolvePath s.root key) = some content := by
  rw [upload, locate_eq] at h
  by_cases hbelow : IsBelow s.root (resolvePath s.root key)
  · simp only [if_pos hbelow] at h
    cases hmade : t.makeDirectories (resolvePath s.root key).dropLast with
    | error fault => simp [hmade] at h
    | ok made =>
      simp only [hmade] at h
      split at h
      · simp at h
      · next hcopy =>
        obtain ⟨content, hsource, hne, rfl⟩ := FileTree.copy_eq_ok hcopy
        obtain rfl : _ = u := congrArg Prod.snd h
        refine ⟨content, ?_, ?_⟩
        · rw [← FileTree.content?_makeDirectories hmade]
          exact FileTree.content?_eq_some_iff.mpr hsource
        · rw [FileTree.content?_eq_some_iff, FileTree.node?_put _ _ _ hne, if_pos rfl]
  · simp [if_neg hbelow] at h

/-! ### Confinement -/

theorem node?_performAll (rs : List StorageRequest) (hopen : t.IsOpen s.root)
    (hq : ¬ IsBelow s.root q) : (s.performAll cwd t rs).node? q = t.node? q := by
  -- the root is open at every request, because those before it changed nothing outside
  induction rs generalizing t with
  | nil => rfl
  | cons r rs ih =>
    have hopen' : (s.perform cwd t r).2.IsOpen s.root :=
      hopen.congr fun p hp => node?_perform r hopen hp
    exact (ih hopen').trans (node?_perform r hopen hq)

theorem content?_performAll (rs : List StorageRequest)
    (hq : ∀ r ∈ rs, q ≠ resolvePath s.root r.key) :
    (s.performAll cwd t rs).content? q = t.content? q := by
  induction rs generalizing t with
  | nil => rfl
  | cons r rs ih =>
    obtain ⟨hr, hrs⟩ := List.forall_mem_cons.mp hq
    exact (ih hrs).trans (content?_perform r hr)

/-- A storage that is **confined** to its root, which a path leads to from the working directory. A
key leads to where the path joined with the key does. -/
structure IsConfined (γ : Type) (s : LocalStorage) (cwd : Place) (path : String) : Prop where
  /-- Exactly the keys that do not lead below the root are refused, whatever is asked for. -/
  refuses (t : FileTree γ) (r : StorageRequest) :
    (s.perform cwd t r).1 = .error (.escapes r.key) ↔
      ¬ IsBelow s.root (resolvePath cwd (joinPath path r.key))
  /-- For a key that is refused nothing happens. -/
  leaves (t : FileTree γ) (r : StorageRequest)
    (h : ¬ IsBelow s.root (resolvePath cwd (joinPath path r.key))) : (s.perform cwd t r).2 = t
  /-- The root is open once it was made, and stays so whatever is asked for. -/
  opens (t u : FileTree γ) (rs : List StorageRequest) (h : t.makeDirectories s.root = .ok u) :
    (s.performAll cwd u rs).IsOpen s.root
  /-- Nothing outside of the root is created, written over or removed. -/
  writes (t : FileTree γ) (rs : List StorageRequest) (hopen : t.IsOpen s.root) (q : Place)
    (hq : ¬ IsBelow s.root q) : (s.performAll cwd t rs).node? q = t.node? q
  /-- Nothing outside of the root is read, but for the local file of an upload: neither the answer
  nor what comes about below the root depends on it. -/
  reads (t t' : FileTree γ) (r : StorageRequest) (hopen : t.IsOpen s.root)
    (hopen' : t'.IsOpen s.root) (hagree : t.AgreesBelow t' s.root)
    (hlocal : r.localFile cwd t = r.localFile cwd t') :
    (s.perform cwd t r).1 = (s.perform cwd t' r).1 ∧
      (s.perform cwd t r).2.AgreesBelow (s.perform cwd t' r).2 s.root
  /-- A file that was uploaded keeps the content of the local file as long as every key that is
  asked for leads elsewhere. -/
  keeps (t u : FileTree γ) (source key url : String) (rs : List StorageRequest)
    (hupload : s.upload t cwd source key = (.ok url, u))
    (hrs : ∀ r ∈ rs, resolvePath cwd (joinPath path r.key) ≠ resolvePath cwd (joinPath path key)) :
    ∃ content, t.content? (resolvePath cwd source) = some content ∧
      (s.performAll cwd u rs).content? (resolvePath cwd (joinPath path key)) = some content

/-- **A storage is confined to its root**, from wherever and by whatever path it was set up. -/
theorem isConfined (γ : Type) (cwd : Place) (path publicUrl : String) :
    IsConfined γ ⟨resolvePath cwd path, publicUrl⟩ cwd path where
  refuses t r := by
    rw [resolvePath_joinPath]
    exact perform_eq_escapes_iff
  leaves t r h := by
    rw [resolvePath_joinPath] at h
    rw [perform_of_not_isBelow h]
  opens t u rs h := by
    have hopen := FileTree.isOpen_of_makeDirectories h
    exact hopen.congr fun q hq => node?_performAll rs hopen hq
  writes t rs hopen q hq := node?_performAll rs hopen hq
  reads t t' r hopen hopen' hagree hlocal := perform_congr r hopen hopen' hagree hlocal
  keeps t u source key url rs hupload hrs := by
    obtain ⟨content, hsource, hstored⟩ := content?_upload hupload
    simp only [resolvePath_joinPath] at hrs ⊢
    have hkept : (performAll ⟨resolvePath cwd path, publicUrl⟩ cwd u rs).content?
        (resolvePath (resolvePath cwd path) key) =
          u.content? (resolvePath (resolvePath cwd path) key) :=
      content?_performAll rs fun r hr => (hrs r hr).symm
    exact ⟨content, hsource, hkept.trans hstored⟩

/-- A working directory with a file to be stored, and a directory to store it in. -/
def workplace : FileTree (List UInt8) where
  nodes := [
    (["srv"], .directory), (["srv", "in.mp4"], .file [1, 2]), (["srv", "store"], .directory)]

/-- The storage in that directory. -/
def workStorage : LocalStorage := ⟨resolvePath ["srv"] "store", "http://localhost"⟩

/-- A key that climbs out is refused. One that climbs out and back is not, and what was uploaded
under it stays through requests with other keys. -/
theorem upload_outlasts_other_keys :
    (workStorage.perform ["srv"] workplace (.delete "../in.mp4")).1 =
        .error (.escapes "../in.mp4") ∧
      (workStorage.perform ["srv"] workplace (.delete "../in.mp4")).2 = workplace ∧
      (workStorage.upload workplace ["srv"] "in.mp4" "../store/a.mp4").1.isOk = true ∧
      (workStorage.performAll ["srv"]
        (workStorage.upload workplace ["srv"] "in.mp4" "../store/a.mp4").2
        [.delete "a.mp4/..", .upload "in.mp4" "a.mp4/b.mp4", .delete "/srv/store/b.mp4",
          .delete "../../srv/in.mp4"]).content? ["srv", "store", "a.mp4"] = some [1, 2] := by
  have hconfined : workStorage.IsConfined (List UInt8) ["srv"] "store" := isConfined _ _ _ _
  have hescape : ¬ IsBelow workStorage.root
      (resolvePath ["srv"] (joinPath "store" "../in.mp4")) := by
    rw [show workStorage.root = ["srv", "store"] by decide +kernel,
      show resolvePath ["srv"] (joinPath "store" "../in.mp4") = ["srv", "in.mp4"] by decide +kernel]
    decide
  have hok : (workStorage.upload workplace ["srv"] "in.mp4" "../store/a.mp4").1.isOk = true := by
    decide +kernel
  refine ⟨(hconfined.refuses _ _).mpr hescape, hconfined.leaves _ _ hescape, hok, ?_⟩
  obtain ⟨url, hurl⟩ := Succeeds.of_isOk hok
  obtain ⟨content, hsource, hstored⟩ := hconfined.keeps workplace _ "in.mp4" "../store/a.mp4" url
    [.delete "a.mp4/..", .upload "in.mp4" "a.mp4/b.mp4", .delete "/srv/store/b.mp4",
      .delete "../../srv/in.mp4"] (Prod.ext hurl rfl) (by decide +kernel)
  have hcontent : workplace.content? (resolvePath ["srv"] "in.mp4") = some [1, 2] := by
    decide +kernel
  have hplace : resolvePath ["srv"] (joinPath "store" "../store/a.mp4") =
      ["srv", "store", "a.mp4"] := by decide +kernel
  rw [hplace] at hstored
  exact hstored.trans (hsource.symm.trans hcontent)

end LocalStorage

end TimelineExport

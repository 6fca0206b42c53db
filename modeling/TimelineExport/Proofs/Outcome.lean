import Mathlib.Data.List.Forall2

/-!
# Outcomes of computations that may fail

`Meets x good bad` says of a computation both what holds of its result and what holds of its
fault, so one induction over a builder settles both. The rules follow the way in which
computations are put together.
-/

namespace TimelineExport

variable {ε ε' β γ : Type}

/-- The result of a computation is `good`, or its fault is `bad`. -/
def Meets (x : Except ε β) (good : β → Prop) (bad : ε → Prop) : Prop :=
  match x with
  | .ok b => good b
  | .error e => bad e

namespace Meets

variable {x : Except ε β} {good good' : β → Prop} {bad : ε → Prop}

/-- The property of a result. -/
theorem of_eq_ok (h : Meets x good bad) {b : β} (hx : x = .ok b) : good b := by
  rw [hx] at h
  exact h

/-- The property of a fault. -/
theorem of_eq_error (h : Meets x good bad) {e : ε} (hx : x = .error e) : bad e := by
  rw [hx] at h
  exact h

/-- A weaker property holds as well. -/
theorem mono (h : Meets x good bad) (himp : ∀ b, x = .ok b → good b → good' b) :
    Meets x good' bad := by
  cases x with
  | ok b => exact himp b rfl h
  | error e => exact h

/-- One computation after another. -/
theorem bind {f : β → Except ε γ} {good' : γ → Prop} (h : Meets x good bad)
    (hf : ∀ b, x = .ok b → good b → Meets (f b) good' bad) : Meets (x >>= f) good' bad := by
  cases x with
  | ok b => exact hf b rfl h
  | error e => exact h

/-- A computation whose faults are reported as other ones. -/
theorem mapError {f : ε → ε'} {bad' : ε' → Prop} (h : Meets x good bad)
    (hf : ∀ e, bad e → bad' (f e)) : Meets (x.mapError f) good bad' := by
  cases x with
  | ok b => exact h
  | error e => exact hf e h

/-- The same computation for each member of a list. -/
theorem mapM {δ : Type} {f : δ → Except ε β} {good : δ → β → Prop} {xs : List δ}
    (h : ∀ x ∈ xs, Meets (f x) (good x) bad) :
    Meets (xs.mapM f) (fun ys => List.Forall₂ good xs ys) bad := by
  induction xs with
  | nil => exact List.Forall₂.nil
  | cons x xs ih =>
    rw [List.mapM_cons]
    refine (h x List.mem_cons_self).bind fun y _ hy => ?_
    refine (ih fun z hz => h z (List.mem_cons_of_mem x hz)).bind fun ys _ hys => ?_
    exact List.Forall₂.cons hy hys

/-- Of any computation it is known which result or fault it has. -/
theorem trivially (x : Except ε β) : Meets x (fun _ => True) fun _ => True := by
  cases x <;> trivial

end Meets

/-- What holds of every second member of a relation holds of a list of them. -/
theorem forall_of_forall₂ {R : β → γ → Prop} {P : γ → Prop} {xs : List β} {ys : List γ}
    (h : List.Forall₂ R xs ys) (himp : ∀ x y, R x y → P y) : ∀ y ∈ ys, P y := by
  induction h with
  | nil => exact fun _ hy => absurd hy List.not_mem_nil
  | cons hxy _ ih => exact List.forall_mem_cons.mpr ⟨himp _ _ hxy, ih⟩

/-- What related members of two lists have in common, the lists have. -/
theorem forall_mem_iff_of_forall₂ {P : β → Prop} {Q : γ → Prop} {xs : List β} {ys : List γ}
    (h : List.Forall₂ (fun x y => P x ↔ Q y) xs ys) : (∀ x ∈ xs, P x) ↔ ∀ y ∈ ys, Q y := by
  induction h with
  | nil =>
    exact iff_of_true (fun _ hx => absurd hx List.not_mem_nil)
      fun _ hy => absurd hy List.not_mem_nil
  | cons hxy _ ih => rw [List.forall_mem_cons, List.forall_mem_cons, hxy, ih]

/-- A computation that is put together has a result if both parts have one. -/
theorem bind_eq_ok {x : Except ε β} {f : β → Except ε γ} {c : γ} :
    (x >>= f) = .ok c ↔ ∃ b, x = .ok b ∧ f b = .ok c := by
  cases x with
  | ok b =>
    constructor
    · exact fun h => ⟨b, rfl, h⟩
    · rintro ⟨_, hb, h⟩
      cases hb
      exact h
  | error e =>
    constructor
    · exact fun h => nomatch h
    · rintro ⟨_, hb, -⟩
      cases hb

/-- A guard before a computation. -/
theorem ite_throw_bind_eq_ok {p : Prop} [Decidable p] {fault : ε} {f : β → Except ε γ}
    {x : Except ε γ} {c : γ} :
    (if p then (throw fault >>= f) else x) = .ok c ↔ ¬ p ∧ x = .ok c := by
  split
  · next h => exact iff_of_false nofun fun hn => hn.1 h
  · next h => exact (and_iff_right h).symm

/-- A guard at the end of a computation. -/
theorem ite_throw_eq_ok {p : Prop} [Decidable p] {fault : ε} {x : Except ε γ} {c : γ} :
    (if p then throw fault else x) = .ok c ↔ ¬ p ∧ x = .ok c := by
  split
  · next h => exact iff_of_false nofun fun hn => hn.1 h
  · next h => exact (and_iff_right h).symm

/-- The results of a computation for each member of a list. -/
theorem mapM_eq_ok_iff {f : β → Except ε γ} {xs : List β} {ys : List γ} :
    xs.mapM f = .ok ys ↔ List.Forall₂ (fun x y => f x = .ok y) xs ys := by
  induction xs generalizing ys with
  | nil =>
    rw [List.mapM_nil, List.forall₂_nil_left_iff]
    exact ⟨fun h => (Except.ok.inj h).symm, fun h => h ▸ rfl⟩
  | cons x xs ih =>
    rw [List.mapM_cons, List.forall₂_cons_left_iff]
    constructor
    · intro h
      obtain ⟨y, hy, h⟩ := bind_eq_ok.mp h
      obtain ⟨rest, hrest, h⟩ := bind_eq_ok.mp h
      exact ⟨y, rest, hy, ih.mp hrest, (Except.ok.inj h).symm⟩
    · rintro ⟨y, rest, hy, hrest, rfl⟩
      exact bind_eq_ok.mpr ⟨y, hy, bind_eq_ok.mpr ⟨rest, ih.mpr hrest, rfl⟩⟩

/-- A computation without a result of its own, before another one. -/
theorem unit_bind_eq_ok {x : Except ε Unit} {y : Except ε γ} {c : γ} :
    (x >>= fun _ => y) = .ok c ↔ x = .ok () ∧ y = .ok c := by
  cases x with
  | ok _ => exact (and_iff_right rfl).symm
  | error e => exact iff_of_false nofun nofun

/-- Renaming faults changes no result. -/
theorem mapError_eq_ok {x : Except ε β} {f : ε → ε'} {b : β} :
    x.mapError f = .ok b ↔ x = .ok b := by
  cases x with
  | ok c =>
    constructor
    · rintro ⟨⟩
      rfl
    · rintro ⟨⟩
      rfl
  | error e => exact ⟨(nomatch ·), (nomatch ·)⟩

/-- A computation whose result is known has it. -/
theorem eq_ok_of_toOption {x : Except ε β} {b : β} (h : x.toOption = some b) : x = .ok b := by
  cases x with
  | ok c => exact congrArg Except.ok (Option.some.inj h)
  | error e => cases h

/-! ### Success -/

/-- A computation that has a result. -/
def Succeeds (x : Except ε β) : Prop := ∃ b, x = .ok b

namespace Succeeds

variable {x : Except ε β}

theorem of_isOk (h : x.isOk) : Succeeds x := by
  cases x with
  | ok b => exact ⟨b, rfl⟩
  | error e => cases h

/-- One computation after another. -/
theorem bind {f : β → Except ε γ} (h : Succeeds x) (hf : ∀ b, x = .ok b → Succeeds (f b)) :
    Succeeds (x >>= f) := by
  obtain ⟨b, rfl⟩ := h
  exact hf b rfl

/-- A computation whose faults are reported as other ones. -/
theorem mapError {f : ε → ε'} (h : Succeeds x) : Succeeds (x.mapError f) := by
  obtain ⟨b, rfl⟩ := h
  exact ⟨b, rfl⟩

/-- The same computation for each member of a list. -/
theorem mapM {δ : Type} {f : δ → Except ε β} {xs : List δ} (h : ∀ x ∈ xs, Succeeds (f x)) :
    Succeeds (xs.mapM f) := by
  induction xs with
  | nil => exact ⟨[], rfl⟩
  | cons x xs ih =>
    rw [List.mapM_cons]
    obtain ⟨hx, hxs⟩ := List.forall_mem_cons.mp h
    exact hx.bind fun y _ => (ih hxs).bind fun ys _ => ⟨y :: ys, rfl⟩

end Succeeds

end TimelineExport

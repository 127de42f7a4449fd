import Mathlib
import ChartPackage.Job

/-!
Work in several steps. A step that fails ends the work with the state it leaves; work that succeeds
is made of steps that all do.
-/

namespace ChartPackage

theorem Except.bind_eq_ok_iff {ε α β : Type} {x : Except ε α} {f : α → Except ε β} {b : β} :
    (x >>= f) = .ok b ↔ ∃ a, x = .ok a ∧ f a = .ok b := by
  cases x with
  | error e => simp [bind, Except.bind]
  | ok a => simp [bind, Except.bind]

namespace Work

variable {ε τ α β : Type}

theorem bind_apply (x : ExceptT ε (StateM τ) α) (f : α → ExceptT ε (StateM τ) β) (s : τ) :
    (x >>= f) s = match x s with
      | (.ok a, s₁) => f a s₁
      | (.error e, s₁) => (.error e, s₁) := by
  change (match x s with
    | (a, s₁) => (ExceptT.bindCont f a : StateM τ (Except ε β)) s₁) = _
  cases x s with
  | mk result s₁ =>
      cases result with
      | ok a => rfl
      | error e => rfl

theorem bind_eq_ok_iff {x : ExceptT ε (StateM τ) α} {f : α → ExceptT ε (StateM τ) β} {s s' : τ}
    {b : β} :
    (x >>= f) s = (.ok b, s') ↔ ∃ a s₁, x s = (.ok a, s₁) ∧ f a s₁ = (.ok b, s') := by
  rw [bind_apply]
  constructor
  · intro h
    split at h
    · next a s₁ hx => exact ⟨a, s₁, hx, h⟩
    · cases h
  · intro h
    obtain ⟨a, s₁, hx, hf⟩ := h
    rw [hx]
    exact hf

theorem bind_eq_error_iff {x : ExceptT ε (StateM τ) α} {f : α → ExceptT ε (StateM τ) β} {s s' : τ}
    {e : ε} :
    (x >>= f) s = (.error e, s') ↔
      x s = (.error e, s') ∨ ∃ a s₁, x s = (.ok a, s₁) ∧ f a s₁ = (.error e, s') := by
  rw [bind_apply]
  constructor
  · intro h
    split at h
    · next a s₁ hx => exact Or.inr ⟨a, s₁, hx, h⟩
    · next e₁ s₁ hx =>
        cases h
        exact Or.inl hx
  · intro h
    cases h with
    | inl hx => rw [hx]
    | inr hx =>
        obtain ⟨a, s₁, hx, hf⟩ := hx
        rw [hx]
        exact hf

theorem tryCatch_apply (x : ExceptT ε (StateM τ) α) (f : ε → ExceptT ε (StateM τ) α) (s : τ) :
    tryCatch x f s = match x s with
      | (.ok a, s₁) => (.ok a, s₁)
      | (.error e, s₁) => f e s₁ := by
  change (ExceptT.tryCatch x f : StateM τ (Except ε α)) s = _
  rw [ExceptT.tryCatch]
  change (match x s with
    | (a, s₁) => (match a with
      | .ok a => pure (Except.ok a)
      | .error e => f e : StateM τ (Except ε α)) s₁) = _
  cases x s with
  | mk result s₁ =>
      cases result with
      | ok a => rfl
      | error e => rfl

theorem pure_eq_ok_iff {a b : α} {s s' : τ} :
    (pure a : ExceptT ε (StateM τ) α) s = (.ok b, s') ↔ a = b ∧ s = s' := by
  change (Except.ok a, s) = (Except.ok b, s') ↔ _
  rw [Prod.mk.injEq, Except.ok.injEq]

theorem forM_cons_eq_ok_iff {f : α → ExceptT ε (StateM τ) PUnit} {a : α} {xs : List α} {s s' : τ} :
    (a :: xs).forM f s = (.ok (), s') ↔ ∃ s₁, f a s = (.ok (), s₁) ∧ xs.forM f s₁ = (.ok (), s') :=
  (bind_eq_ok_iff (x := f a) (f := fun _ => xs.forM f)).trans
    ⟨fun h => h.elim fun _ h => h, fun h => ⟨(), h⟩⟩

/-- A loop that succeeds is made of rounds that all do, in states that meet what they keep up. -/
theorem forM_eq_ok {P : τ → Prop} {f : α → ExceptT ε (StateM τ) PUnit} {xs : List α} {s s' : τ}
    (hs : P s) (hP : ∀ a ∈ xs, ∀ s s', P s → f a s = (.ok (), s') → P s')
    (h : xs.forM f s = (.ok (), s')) : ∀ a ∈ xs, ∃ s₁ s₂, P s₁ ∧ f a s₁ = (.ok (), s₂) := by
  induction xs generalizing s with
  | nil => simp
  | cons a xs ih =>
      obtain ⟨s₁, hfirst, hrest⟩ := forM_cons_eq_ok_iff.mp h
      rw [List.forall_mem_cons] at hP ⊢
      exact ⟨⟨s, s₁, hs, hfirst⟩, ih (hP.1 s s₁ hs hfirst) hP.2 hrest⟩

/-! A relation between the state before and after that every step keeps, as long as the state it
starts in meets an assertion that the relation preserves, is kept by the whole work. -/

section Within

variable {P : τ → Prop} {R : τ → τ → Prop} (htrans : ∀ a b c, R a b → R b c → R a c)
  (hP : ∀ a b, P a → R a b → P b)

include htrans hP in
theorem bind_within {x : ExceptT ε (StateM τ) α} {f : α → ExceptT ε (StateM τ) β} {s : τ} (hs : P s)
    (hx : R s (x s).2) (hf : ∀ a s₁, x s = (.ok a, s₁) → P s₁ → R s₁ (f a s₁).2) :
    R s ((x >>= f) s).2 := by
  rw [bind_apply]
  split
  · next a s₁ h =>
      rw [h] at hx
      exact htrans _ _ _ hx (hf a s₁ h (hP _ _ hs hx))
  · next e s₁ h =>
      rw [h] at hx
      exact hx

include htrans hP in
theorem forM_within (hrefl : ∀ a, R a a) {f : α → ExceptT ε (StateM τ) PUnit} {xs : List α}
    (hf : ∀ a ∈ xs, ∀ s, P s → R s (f a s).2) {s : τ} (hs : P s) : R s (xs.forM f s).2 := by
  induction xs generalizing s with
  | nil => exact hrefl s
  | cons a xs ih =>
      refine bind_within (x := f a) (f := fun _ => xs.forM f) htrans hP hs
        (hf a List.mem_cons_self s hs) ?_
      intro _ s₁ _ hs₁
      exact ih (fun b hb => hf b (List.mem_cons_of_mem a hb)) hs₁

include htrans hP in
theorem mapM_within (hrefl : ∀ a, R a a) {f : α → ExceptT ε (StateM τ) β} {xs : List α}
    (hf : ∀ a ∈ xs, ∀ s, P s → R s (f a s).2) {s : τ} (hs : P s) : R s (xs.mapM f s).2 := by
  induction xs generalizing s with
  | nil => exact hrefl s
  | cons a xs ih =>
      rw [List.mapM_cons]
      refine bind_within htrans hP hs (hf a List.mem_cons_self s hs) ?_
      intro b s₁ _ hs₁
      refine bind_within htrans hP hs₁ (ih (fun b hb => hf b (List.mem_cons_of_mem a hb)) hs₁) ?_
      intro bs s₂ _ _
      exact hrefl s₂

end Within

theorem adapt_apply {ε' : Type} (f : ε → ε') (x : ExceptT ε (StateM τ) α) (s : τ) :
    (x.adapt f) s = ((x s).1.mapError f, (x s).2) := rfl

theorem adapt_eq_ok_iff {ε' : Type} {f : ε → ε'} {x : ExceptT ε (StateM τ) α} {s s' : τ} {a : α} :
    (x.adapt f) s = (.ok a, s') ↔ x s = (.ok a, s') := by
  change (match x s with
    | (result, s₁) => (result.mapError f, s₁)) = _ ↔ _
  cases x s with
  | mk result s₁ =>
      cases result with
      | ok b =>
          constructor
          · intro h
            cases h
            rfl
          · intro h
            cases h
            rfl
      | error e =>
          constructor
          · intro h
            cases h
          · intro h
            cases h

theorem snd_adapt {ε' : Type} (f : ε → ε') (x : ExceptT ε (StateM τ) α) (s : τ) :
    ((x.adapt f) s).2 = (x s).2 := rfl

end Work

end ChartPackage

namespace ChartPackage.Job

variable {σ α : Type} {s s' : Stage σ}

theorem of_onDisk {act : Disk.Act α} {a : α} (h : onDisk act s = (.ok a, s')) :
    act s.disk = (.ok a, s'.disk) := by
  rw [onDisk] at h
  cases hact : act s.disk with
  | mk result d =>
      rw [hact] at h
      cases result with
      | ok b =>
          cases h
          rfl
      | error e => cases h

theorem error_of_onDisk {act : Disk.Act α} {f : Fault} (h : onDisk act s = (.error f, s')) :
    ∃ e, act s.disk = (.error e, s'.disk) := by
  rw [onDisk] at h
  cases hact : act s.disk with
  | mk result d =>
      rw [hact] at h
      cases result with
      | ok b => cases h
      | error e =>
          cases h
          exact ⟨e, rfl⟩

theorem disk_ask (chore : Chore σ α) (s : Stage σ) : (ask chore s).2.disk = s.disk := rfl

theorem look_eq_ok_iff {f : Disk → α} {a : α} :
    look f s = (.ok a, s') ↔ f s.disk = a ∧ s = s' := by
  rw [look]
  constructor
  · intro h
    cases h
    exact ⟨rfl, rfl⟩
  · intro h
    rw [h.1, h.2]

end ChartPackage.Job

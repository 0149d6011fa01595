import Mathlib.Data.List.Basic

/-!
# Lib.Runs — runs of a partial machine with emitted events

`Machine σ α ε`: a call `a : α` in state `σ` either never returns (`none`) or ends in a new state and
emits events.  `run` executes a list of calls, `Along P` says that every call of the run meets the
condition `P` in the state it is made in.  The rules below carry an invariant over states and event
histories from one call to whole runs, termination included.  The steps of interleaved threads are calls
too: a schedule names the thread that moves, and `none` says that it cannot.
-/

namespace LuspUpload.Lib

universe u v w

/-- A deterministic machine: `none` is a call that never returns, or a step that is not enabled. -/
structure Machine (σ : Type u) (α : Type v) (ε : Type w) where
  step : σ → α → Option (σ × List ε)

namespace Machine

variable {σ : Type u} {α : Type v} {ε : Type w} (M : Machine σ α ε)

/-- The calls `as` one after another; the events in order. -/
def run : σ → List α → Option (σ × List ε)
  | s, [] => some (s, [])
  | s, a :: as => (M.step s a).bind fun p => (run p.1 as).map fun q => (q.1, p.2 ++ q.2)

/-- Every call of the run from `s` meets `P` in the state it is made in. -/
def Along (P : σ → α → Prop) : σ → List α → Prop
  | _, [] => True
  | s, a :: as => P s a ∧ ∀ s' es, M.step s a = some (s', es) → Along P s' as

variable {M}

@[simp] theorem run_nil (s : σ) : M.run s [] = some (s, []) := rfl

theorem run_cons {s s₁ s₂ : σ} {a : α} {as : List α} {es₁ es₂ : List ε}
    (h₁ : M.step s a = some (s₁, es₁)) (h₂ : M.run s₁ as = some (s₂, es₂)) :
    M.run s (a :: as) = some (s₂, es₁ ++ es₂) := by
  simp [run, h₁, h₂]

theorem run_singleton {s s' : σ} {a : α} {es : List ε} (h : M.step s a = some (s', es)) :
    M.run s [a] = some (s', es) := by
  simp [run, h]

theorem run_cons_inv {s s₂ : σ} {a : α} {as : List α} {es : List ε}
    (h : M.run s (a :: as) = some (s₂, es)) :
    ∃ s₁ es₁ es₂, M.step s a = some (s₁, es₁) ∧ M.run s₁ as = some (s₂, es₂) ∧ es = es₁ ++ es₂ := by
  simp only [run, Option.bind_eq_some_iff, Option.map_eq_some_iff] at h
  obtain ⟨⟨s₁, es₁⟩, h₁, ⟨s₃, es₃⟩, h₂, h₃⟩ := h
  simp only [Prod.mk.injEq] at h₃
  obtain ⟨rfl, rfl⟩ := h₃
  exact ⟨s₁, es₁, es₃, h₁, h₂, rfl⟩

/-- Runs compose. -/
theorem run_append {s s₁ s₂ : σ} {as bs : List α} {es₁ es₂ : List ε}
    (h₁ : M.run s as = some (s₁, es₁)) (h₂ : M.run s₁ bs = some (s₂, es₂)) :
    M.run s (as ++ bs) = some (s₂, es₁ ++ es₂) := by
  induction as generalizing s es₁ with
  | nil =>
    simp only [run_nil, Option.some.injEq, Prod.mk.injEq] at h₁
    obtain ⟨rfl, rfl⟩ := h₁
    exact h₂
  | cons a as ih =>
    obtain ⟨s₃, es₃, es₄, h₃, h₄, rfl⟩ := run_cons_inv h₁
    rw [List.append_assoc]
    exact run_cons h₃ (ih h₄)

theorem run_append_inv {s s₂ : σ} {as bs : List α} {es : List ε} (h : M.run s (as ++ bs) = some (s₂, es)) :
    ∃ s₁ es₁ es₂, M.run s as = some (s₁, es₁) ∧ M.run s₁ bs = some (s₂, es₂) ∧ es = es₁ ++ es₂ := by
  induction as generalizing s es with
  | nil => exact ⟨s, [], es, rfl, h, rfl⟩
  | cons a as ih =>
    obtain ⟨s₃, es₃, es₄, h₃, h₄, rfl⟩ := run_cons_inv h
    obtain ⟨s₁, es₁, es₂, h₁, h₂, rfl⟩ := ih h₄
    exact ⟨s₁, es₃ ++ es₁, es₂, run_cons h₃ h₁, h₂, (List.append_assoc _ _ _).symm⟩

theorem along_cons {P : σ → α → Prop} {s : σ} {a : α} {as : List α} :
    M.Along P s (a :: as) ↔ P s a ∧ ∀ p, M.step s a = some p → M.Along P p.1 as :=
  and_congr_right fun _ => ⟨fun h p hp => h p.1 p.2 hp, fun h s' es hs => h (s', es) hs⟩

instance decidableAlong {P : σ → α → Prop} [∀ s a, Decidable (P s a)] :
    ∀ (s : σ) (as : List α), Decidable (M.Along P s as)
  | _, [] => isTrue trivial
  | s, a :: as =>
    match hs : M.step s a with
    | none => decidable_of_iff (P s a) (by simp [along_cons, hs])
    | some p =>
      have : Decidable (M.Along P p.1 as) := decidableAlong p.1 as
      decidable_of_iff (P s a ∧ M.Along P p.1 as) (by simp [along_cons, hs])

theorem Along.and {P Q : σ → α → Prop} {s : σ} {as : List α} (hP : M.Along P s as)
    (hQ : M.Along Q s as) : M.Along (fun s a => P s a ∧ Q s a) s as := by
  induction as generalizing s with
  | nil => trivial
  | cons a as ih => exact ⟨⟨hP.1, hQ.1⟩, fun s' es hs => ih (hP.2 s' es hs) (hQ.2 s' es hs)⟩

theorem Along.mono {P Q : σ → α → Prop} (h : ∀ s a, P s a → Q s a) {s : σ} {as : List α}
    (hP : M.Along P s as) : M.Along Q s as := by
  induction as generalizing s with
  | nil => trivial
  | cons a as ih => exact ⟨h s a hP.1, fun s' es hs => ih (hP.2 s' es hs)⟩

/-- A condition along a run and what follows it. -/
theorem along_append {P : σ → α → Prop} {s s' : σ} {as bs : List α} {es : List ε}
    (h : M.run s as = some (s', es)) : M.Along P s (as ++ bs) ↔ M.Along P s as ∧ M.Along P s' bs := by
  induction as generalizing s es with
  | nil =>
    obtain ⟨rfl, rfl⟩ := Prod.mk.inj (Option.some.inj h)
    exact (and_iff_right trivial).symm
  | cons a as ih =>
    obtain ⟨s₁, es₁, es₂, h₁, h₂, rfl⟩ := run_cons_inv h
    rw [List.cons_append, along_cons, along_cons, h₁]
    simp only [Option.some.injEq, forall_eq']
    rw [ih h₂, and_assoc]

/-- Conditions that agree along a run hold along it together. -/
theorem Along.congr {P Q R : σ → α → Prop} (h : ∀ s a, R s a → (P s a ↔ Q s a)) {s : σ} {as : List α}
    (hR : M.Along R s as) : M.Along P s as ↔ M.Along Q s as := by
  induction as generalizing s with
  | nil => exact Iff.rfl
  | cons a as ih =>
    rw [along_cons, along_cons, h s a hR.1]
    refine and_congr_right fun _ => forall_congr' fun p => imp_congr_right fun hp => ?_
    exact ih (hR.2 p.1 p.2 hp)

/-- Conditions that agree where an invariant holds, and keep it, hold along the same runs. -/
theorem Along.iff_of_invariant {P Q : σ → α → Prop} {J : σ → Prop}
    (h : ∀ s a, J s → (P s a ↔ Q s a))
    (hstep : ∀ s a s' es, J s → P s a → M.step s a = some (s', es) → J s') {s : σ} (hJ : J s)
    (as : List α) : M.Along P s as ↔ M.Along Q s as := by
  induction as generalizing s with
  | nil => exact Iff.rfl
  | cons a as ih =>
    rw [along_cons, along_cons, ← h s a hJ]
    refine and_congr_right fun hP => forall_congr' fun p => imp_congr_right fun hp => ?_
    exact ih (hstep s a p.1 p.2 hJ hP hp)

/-- A condition on the calls alone holds along every run of them. -/
theorem along_of_forall {P : α → Prop} {as : List α} (h : ∀ a ∈ as, P a) (s : σ) :
    M.Along (fun _ a => P a) s as := by
  induction as generalizing s with
  | nil => trivial
  | cons a as ih =>
    exact ⟨h a (by simp), fun s' _ _ => ih (fun b hb => h b (by simp [hb])) s'⟩

/-- **Run rule**: if a call that meets `P` returns and keeps the invariant `I` over the state and the
history, then so does every run along `P`. -/
theorem run_of_along {P : σ → α → Prop} {I : σ → List ε → Prop}
    (hstep : ∀ s h a, I s h → P s a → ∃ s' es, M.step s a = some (s', es) ∧ I s' (h ++ es))
    {s : σ} {h : List ε} {as : List α} (hI : I s h) (hP : M.Along P s as) :
    ∃ s' es, M.run s as = some (s', es) ∧ I s' (h ++ es) := by
  induction as generalizing s h with
  | nil => exact ⟨s, [], rfl, by simpa using hI⟩
  | cons a as ih =>
    obtain ⟨s₁, es₁, h₁, hI₁⟩ := hstep s h a hI hP.1
    obtain ⟨s₂, es₂, h₂, hI₂⟩ := ih hI₁ (hP.2 s₁ es₁ h₁)
    exact ⟨s₂, es₁ ++ es₂, run_cons h₁ h₂, by simpa using hI₂⟩

/-- **Invariant rule**: what the steps that meet `P` keep holds at the end of every run along `P` that
gets there. -/
theorem Along.invariant {P : σ → α → Prop} {I : σ → List ε → Prop}
    (hstep : ∀ s h a s' es, I s h → P s a → M.step s a = some (s', es) → I s' (h ++ es))
    {s s' : σ} {h es : List ε} {as : List α} (hP : M.Along P s as) (hI : I s h)
    (hrun : M.run s as = some (s', es)) : I s' (h ++ es) := by
  induction as generalizing s h es with
  | nil =>
    simp only [run_nil, Option.some.injEq, Prod.mk.injEq] at hrun
    obtain ⟨rfl, rfl⟩ := hrun
    simpa using hI
  | cons a as ih =>
    obtain ⟨s₁, es₁, es₂, h₁, h₂, rfl⟩ := run_cons_inv hrun
    rw [← List.append_assoc]
    exact ih (hP.2 s₁ es₁ h₁) (hstep s h a s₁ es₁ hI hP.1 h₁) h₂

/-- The invariant rule, with the calls made so far. -/
theorem Along.invariant_calls {P : σ → α → Prop} {I : σ → List α → List ε → Prop}
    (hstep : ∀ s cs h a s' es, I s cs h → P s a → M.step s a = some (s', es) → I s' (cs ++ [a]) (h ++ es))
    {s s' : σ} {cs as : List α} {h es : List ε} (hP : M.Along P s as) (hI : I s cs h)
    (hrun : M.run s as = some (s', es)) : I s' (cs ++ as) (h ++ es) := by
  induction as generalizing s cs h es with
  | nil =>
    simp only [run_nil, Option.some.injEq, Prod.mk.injEq] at hrun
    obtain ⟨rfl, rfl⟩ := hrun
    simpa using hI
  | cons a as ih =>
    obtain ⟨s₁, es₁, es₂, h₁, h₂, rfl⟩ := run_cons_inv hrun
    rw [← List.append_assoc, List.append_cons cs a as]
    exact ih (hP.2 s₁ es₁ h₁) (hstep s cs h a s₁ es₁ hI hP.1 h₁) h₂

/-- **Breaking rule**: steps that meet `P` keep `I`, a step that does not turns `I` into `J`, and `J` stays.
So a run ends in `I` if it is along `P`, and in `J` if it is not. -/
theorem run_split {P : σ → α → Prop} {I J : σ → List ε → Prop}
    (hkeep : ∀ s h a s' es, I s h → P s a → M.step s a = some (s', es) → I s' (h ++ es))
    (hbreak : ∀ s h a s' es, I s h → ¬ P s a → M.step s a = some (s', es) → J s' (h ++ es))
    (hstay : ∀ s h a s' es, J s h → M.step s a = some (s', es) → J s' (h ++ es))
    {s s' : σ} {h es : List ε} {as : List α} (hI : I s h) (hrun : M.run s as = some (s', es)) :
    M.Along P s as ∧ I s' (h ++ es) ∨ ¬ M.Along P s as ∧ J s' (h ++ es) := by
  have hstays : ∀ (as : List α) {s s' : σ} {h es : List ε}, J s h → M.run s as = some (s', es) →
      J s' (h ++ es) := by
    intro as s s' h es hJ hrun
    exact Along.invariant (P := fun _ _ => True) (fun s h a s' es hJ _ hs => hstay s h a s' es hJ hs)
      (along_of_forall (P := fun _ => True) (fun _ _ => trivial) s) hJ hrun
  induction as generalizing s h es with
  | nil =>
    simp only [run_nil, Option.some.injEq, Prod.mk.injEq] at hrun
    obtain ⟨rfl, rfl⟩ := hrun
    exact Or.inl ⟨trivial, by simpa using hI⟩
  | cons a as ih =>
    obtain ⟨s₁, es₁, es₂, h₁, h₂, rfl⟩ := run_cons_inv hrun
    have hcons : P s a → (M.Along P s (a :: as) ↔ M.Along P s₁ as) := by
      intro ha
      refine ⟨fun hall => hall.2 s₁ es₁ h₁, fun hall => ⟨ha, ?_⟩⟩
      intro s₂ es₃ h₃
      obtain ⟨rfl, -⟩ := Prod.mk.inj (Option.some.inj (h₁.symm.trans h₃))
      exact hall
    rw [← List.append_assoc]
    by_cases ha : P s a
    · rw [hcons ha]
      exact ih (hkeep s h a s₁ es₁ hI ha h₁) h₂
    · refine Or.inr ⟨fun hall => ha hall.1, ?_⟩
      exact hstays as (hbreak s h a s₁ es₁ hI ha h₁) h₂

/-- The breaking rule under a condition `Q` that holds along the run. -/
theorem Along.split {P Q : σ → α → Prop} {I J : σ → Prop}
    (hkeep : ∀ s a s' es, I s → Q s a → P s a → M.step s a = some (s', es) → I s')
    (hbreak : ∀ s a s' es, I s → Q s a → ¬ P s a → M.step s a = some (s', es) → J s')
    (hstay : ∀ s a s' es, J s → Q s a → M.step s a = some (s', es) → J s')
    {s s' : σ} {es : List ε} {as : List α} (hQ : M.Along Q s as) (hI : I s)
    (hrun : M.run s as = some (s', es)) : M.Along P s as ∧ I s' ∨ ¬ M.Along P s as ∧ J s' := by
  induction as generalizing s es with
  | nil =>
    simp only [run_nil, Option.some.injEq, Prod.mk.injEq] at hrun
    obtain ⟨rfl, rfl⟩ := hrun
    exact Or.inl ⟨trivial, hI⟩
  | cons a as ih =>
    obtain ⟨s₁, es₁, es₂, h₁, h₂, rfl⟩ := run_cons_inv hrun
    rw [along_cons]
    by_cases ha : P s a
    · have htail : (P s a ∧ ∀ p, M.step s a = some p → M.Along P p.1 as) ↔ M.Along P s₁ as := by
        refine ⟨fun h => h.2 (s₁, es₁) h₁, fun h => ⟨ha, ?_⟩⟩
        intro p hp
        obtain rfl := Option.some.inj (h₁.symm.trans hp)
        exact h
      rw [htail]
      exact ih (hQ.2 s₁ es₁ h₁) (hkeep s a s₁ es₁ hI hQ.1 ha h₁) h₂
    · refine Or.inr ⟨fun h => ha h.1, ?_⟩
      exact Along.invariant (I := fun s _ => J s) (fun s _ a s' es hJ hq hs => hstay s a s' es hJ hq hs)
        (hQ.2 s₁ es₁ h₁) (h := []) (hbreak s a s₁ es₁ hI hQ.1 ha h₁) h₂

/-- **Measure rule**: calls of the kind `p` lower a measure and the others raise it by at most `k`, so a run has
no more calls of the kind `p` than the measure and the others allow. -/
theorem Along.countP_le {Q : σ → α → Prop} {I : σ → Prop} {μ : σ → ℕ} {p : α → Bool} {k : ℕ}
    (hkeep : ∀ s a s' es, I s → Q s a → M.step s a = some (s', es) → I s')
    (hlower : ∀ s a s' es, I s → Q s a → M.step s a = some (s', es) → p a = true → μ s' < μ s)
    (hraise : ∀ s a s' es, I s → Q s a → M.step s a = some (s', es) → p a = false → μ s' ≤ μ s + k)
    {s s' : σ} {as : List α} {es : List ε} (hQ : M.Along Q s as) (hI : I s)
    (hrun : M.run s as = some (s', es)) :
    μ s' + as.countP p ≤ μ s + k * as.countP (fun a => !p a) := by
  induction as generalizing s es with
  | nil =>
    simp only [run_nil, Option.some.injEq, Prod.mk.injEq] at hrun
    obtain ⟨rfl, rfl⟩ := hrun
    exact Nat.le_refl _
  | cons a as ih =>
    obtain ⟨s₁, es₁, es₂, h₁, h₂, rfl⟩ := run_cons_inv hrun
    have hrest := ih (hQ.2 s₁ es₁ h₁) (hkeep s a s₁ es₁ hI hQ.1 h₁) h₂
    cases hp : p a with
    | true =>
      have hone := hlower s a s₁ es₁ hI hQ.1 h₁ hp
      rw [List.countP_cons_of_pos hp, List.countP_cons_of_neg (by simp [hp])]
      omega
    | false =>
      have hone := hraise s a s₁ es₁ hI hQ.1 h₁ hp
      rw [List.countP_cons_of_neg (by simp [hp]), List.countP_cons_of_pos (by simp [hp]), Nat.mul_succ]
      omega

/-- The measure rule for every run. -/
theorem run_countP_le {I : σ → Prop} {μ : σ → ℕ} {p : α → Bool} {k : ℕ}
    (hkeep : ∀ s a s' es, I s → M.step s a = some (s', es) → I s')
    (hlower : ∀ s a s' es, I s → M.step s a = some (s', es) → p a = true → μ s' < μ s)
    (hraise : ∀ s a s' es, I s → M.step s a = some (s', es) → p a = false → μ s' ≤ μ s + k)
    {s s' : σ} {as : List α} {es : List ε} (hI : I s) (hrun : M.run s as = some (s', es)) :
    μ s' + as.countP p ≤ μ s + k * as.countP (fun a => !p a) :=
  Along.countP_le (fun s a s' es hI _ => hkeep s a s' es hI) (fun s a s' es hI _ => hlower s a s' es hI)
    (fun s a s' es hI _ => hraise s a s' es hI)
    (along_of_forall (P := fun _ => True) (fun _ _ => trivial) s) hI hrun

/-- What every step under `P` keeps holds in every state of a run under `P`. -/
theorem Along.holds {P : σ → α → Prop} {I : σ → Prop}
    (hstep : ∀ s a s' es, I s → P s a → M.step s a = some (s', es) → I s') {s : σ} {as : List α}
    (hP : M.Along P s as) (hI : I s) : M.Along (fun s _ => I s) s as := by
  induction as generalizing s with
  | nil => trivial
  | cons a as ih => exact ⟨hI, fun s' es hs => ih (hP.2 s' es hs) (hstep s a s' es hI hP.1 hs)⟩

/-- A relation between the two ends of a call composes to the two ends of a run. -/
theorem run_induction {R : σ → List ε → σ → Prop} (hrefl : ∀ s, R s [] s)
    (htrans : ∀ s₁ s₂ s₃ es₁ es₂, R s₁ es₁ s₂ → R s₂ es₂ s₃ → R s₁ (es₁ ++ es₂) s₃)
    (hstep : ∀ s a s' es, M.step s a = some (s', es) → R s es s')
    {s s' : σ} {as : List α} {es : List ε} (h : M.run s as = some (s', es)) : R s es s' := by
  induction as generalizing s es with
  | nil =>
    simp only [run_nil, Option.some.injEq, Prod.mk.injEq] at h
    obtain ⟨rfl, rfl⟩ := h
    exact hrefl s
  | cons a as ih =>
    obtain ⟨s₁, es₁, es₂, h₁, h₂, rfl⟩ := run_cons_inv h
    exact htrans _ _ _ _ _ (hstep _ _ _ _ h₁) (ih h₂)

/-- A run from `s` ends in `s'`. -/
def Reaches (M : Machine σ α ε) (s s' : σ) : Prop := ∃ as es, M.run s as = some (s', es)

/-- **Reachability rule**: what holds initially and is kept by every step holds of every state reached. -/
theorem Reaches.invariant {I : σ → Prop}
    (hstep : ∀ s a s' es, I s → M.step s a = some (s', es) → I s') {s s' : σ}
    (h : M.Reaches s s') (hI : I s) : I s' := by
  obtain ⟨as, es, hrun⟩ := h
  have hkeep : I s → I s' := by
    refine run_induction (R := fun s _ s' => I s → I s') ?_ ?_ ?_ hrun
    · intro s hs
      exact hs
    · intro s₁ s₂ s₃ _ _ h₁ h₂ hs
      exact h₂ (h₁ hs)
    · intro s a s' es hs hI
      exact hstep s a s' es hI hs
  exact hkeep hI

/-! ### The last value that was written -/

/-- The value of a register: that of the last event that writes it, or the one it had. -/
def lastOf {β : Type*} (write : ε → Option β) (x : β) (es : List ε) : β :=
  (es.reverse.findSome? write).getD x

section LastOf

variable {β : Type*} (write : ε → Option β) (x : β)

@[simp] theorem lastOf_nil : lastOf write x [] = x := rfl

theorem lastOf_singleton (e : ε) : lastOf write x [e] = (write e).getD x := by
  rw [lastOf, List.reverse_singleton, List.findSome?_singleton]

theorem lastOf_append (es fs : List ε) :
    lastOf write x (es ++ fs) = lastOf write (lastOf write x es) fs := by
  rw [lastOf, List.reverse_append, List.findSome?_append]
  cases hlast : fs.reverse.findSome? write with
  | none => simp [lastOf, hlast]
  | some y => simp [lastOf, hlast]

end LastOf

/-- **Register rule**: a register that every step sets as the events of the step say is set so by a run. -/
theorem run_lastOf {β : Type*} (get : σ → β) {write : ε → Option β}
    (hstep : ∀ s a s' es, M.step s a = some (s', es) → get s' = lastOf write (get s) es)
    {s s' : σ} {as : List α} {es : List ε} (h : M.run s as = some (s', es)) :
    get s' = lastOf write (get s) es := by
  refine run_induction (R := fun s es s' => get s' = lastOf write (get s) es) ?_ ?_ hstep h
  · intro s
    rfl
  · intro s₁ s₂ s₃ es₁ es₂ h₁ h₂
    rw [lastOf_append, ← h₁]
    exact h₂

end Machine

end LuspUpload.Lib

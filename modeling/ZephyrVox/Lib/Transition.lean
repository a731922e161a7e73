import Mathlib

/-!
# Runs of a partial step function

A system is a step function `step : σ → α → Option σ`; an action that is not
enabled in a state steps to `none`. A schedule is a list of actions, and `exec`
runs it. Interleavings of several tasks are schedules whose actions name the
task that moves, so a statement about every interleaving quantifies over
schedules.

## Main definitions

* `exec step s as` — the state a schedule reaches, if every action was enabled.
* `Along step P s as` — `P` holds of every state and action a schedule passes;
  `checkAlong` decides it on a given schedule.
* `invariant`, `invariant_along` — the induction rules for whole runs.
* `along_iff_reached` — a condition on the steps as a property of the states.
* `Latches`, `latches_along` — conditions of which a run fails at most one, at one step.
-/

namespace ZephyrVox.Transition

universe u v

variable {σ : Type u} {α : Type v} {step : σ → α → Option σ}

/-- The state reached by a schedule, or `none` once an action is not enabled. -/
def exec (step : σ → α → Option σ) : σ → List α → Option σ
  | s, [] => some s
  | s, a :: as => (step s a).bind fun t => exec step t as

/-- `P` holds at each state of the run and the action taken there. -/
def Along (step : σ → α → Option σ) (P : σ → α → Prop) : σ → List α → Prop
  | _, [] => True
  | s, a :: as => P s a ∧ ∀ t, step s a = some t → Along step P t as

/-- A state that some schedule reaches from `s`. -/
def Reachable (step : σ → α → Option σ) (s t : σ) : Prop := ∃ as, exec step s as = some t

@[simp] theorem exec_nil (s : σ) : exec step s [] = some s := rfl

@[simp] theorem exec_cons (s : σ) (a : α) (as : List α) :
    exec step s (a :: as) = (step s a).bind fun t => exec step t as := rfl

theorem exec_append (s : σ) (as bs : List α) :
    exec step s (as ++ bs) = (exec step s as).bind fun t => exec step t bs := by
  induction as generalizing s with
  | nil => rfl
  | cons a as ih =>
      simp only [List.cons_append, exec_cons]
      cases step s a with
      | none => rfl
      | some t => simpa using ih t

/-- A condition met along a whole schedule is met along its prefixes. -/
theorem Along.of_append {P : σ → α → Prop} {s : σ} {as bs : List α}
    (h : Along step P s (as ++ bs)) : Along step P s as := by
  induction as generalizing s with
  | nil => exact trivial
  | cons a as ih => exact ⟨h.1, fun t ht => ih (h.2 t ht)⟩

/-- A condition met along a whole schedule is met along the rest of it, from the
state its first part reached. -/
theorem Along.after {P : σ → α → Prop} {s t : σ} {as bs : List α}
    (h : Along step P s (as ++ bs)) (ht : exec step s as = some t) : Along step P t bs := by
  induction as generalizing s with
  | nil => cases ht; exact h
  | cons a as ih =>
      obtain ⟨m, hm, ht⟩ := Option.bind_eq_some_iff.mp ht
      exact ih (h.2 m hm) ht

/-- A condition on the actions alone can be added. -/
theorem Along.and_forall {P : σ → α → Prop} {Q : α → Prop} {s : σ} {as : List α}
    (h : Along step P s as) (hQ : ∀ a ∈ as, Q a) :
    Along step (fun s a => P s a ∧ Q a) s as := by
  induction as generalizing s with
  | nil => exact trivial
  | cons a as ih =>
      refine ⟨⟨h.1, hQ a List.mem_cons_self⟩, fun t ht => ih (h.2 t ht) ?_⟩
      exact fun b hb => hQ b (List.mem_cons_of_mem _ hb)

/-- A condition met along a schedule is a condition on every state that a part of
the schedule reaches and the action that comes next. -/
theorem along_iff {P : σ → α → Prop} {s : σ} {as : List α} :
    Along step P s as ↔ ∀ done a rest, as = done ++ a :: rest →
      ∀ t, exec step s done = some t → P t a := by
  constructor
  · rintro h done a rest rfl t ht
    exact (h.after ht).1
  · intro h
    induction as generalizing s with
    | nil => exact trivial
    | cons a as ih =>
        refine ⟨h [] a as rfl s rfl, fun t ht => ih ?_⟩
        rintro done b rest rfl u hu
        exact h (a :: done) b rest rfl u (by simpa [ht] using hu)

/-- A test of every state and action a schedule passes. -/
def checkAlong (step : σ → α → Option σ) (check : σ → α → Bool) : σ → List α → Bool
  | _, [] => true
  | s, a :: as => check s a && (step s a).all fun t => checkAlong step check t as

/-- A condition that a test guarantees is met along a schedule that passes it. -/
theorem along_of_check {P : σ → α → Prop} {check : σ → α → Bool}
    (hcheck : ∀ s a, check s a = true → P s a) {s : σ} {as : List α}
    (h : checkAlong step check s as = true) : Along step P s as := by
  induction as generalizing s with
  | nil => exact trivial
  | cons a as ih =>
      simp only [checkAlong, Bool.and_eq_true] at h
      refine ⟨hcheck s a h.1, fun t ht => ih ?_⟩
      simpa [ht] using h.2

/-- Along a schedule that meets `P`, an invariant may be used to show what else it
meets. -/
theorem Along.imp_of_invariant {P Q : σ → α → Prop} {I : σ → Prop}
    (hstep : ∀ s a t, I s → P s a → step s a = some t → I t)
    (himp : ∀ s a, I s → P s a → Q s a) {s : σ} {as : List α} (hs : I s)
    (h : Along step P s as) : Along step Q s as := by
  induction as generalizing s with
  | nil => exact trivial
  | cons a as ih =>
      exact ⟨himp s a hs h.1, fun t ht => ih (hstep s a t hs h.1 ht) (h.2 t ht)⟩

/-- A test may rely on an invariant of the steps that pass it. -/
theorem along_of_check_invariant {P : σ → α → Prop} {check : σ → α → Bool} {I : σ → Prop}
    (hstep : ∀ s a t, I s → check s a = true → step s a = some t → I t)
    (hcheck : ∀ s a, I s → check s a = true → P s a) {s : σ} {as : List α} (hs : I s)
    (h : checkAlong step check s as = true) : Along step P s as :=
  (along_of_check (P := fun s a => check s a = true) (fun _ _ hc => hc) h).imp_of_invariant hstep
    hcheck hs

/-- A property that every step keeps, where the step meets `P`, holds in the
state a run reaches when the run meets `P` throughout. -/
theorem invariant_along {P : σ → α → Prop} {I : σ → Prop}
    (hstep : ∀ s a t, I s → P s a → step s a = some t → I t) {s t : σ} {as : List α}
    (hs : I s) (hP : Along step P s as) (h : exec step s as = some t) : I t := by
  induction as generalizing s with
  | nil => cases h; exact hs
  | cons a as ih =>
      obtain ⟨m, hm, h⟩ := Option.bind_eq_some_iff.mp h
      exact ih (hstep s a m hs hP.1 hm) (hP.2 m hm) h

/-- A property that every step keeps holds in every reachable state. -/
theorem invariant {I : σ → Prop} (hstep : ∀ s a t, I s → step s a = some t → I t)
    {s t : σ} {as : List α} (hs : I s) (h : exec step s as = some t) : I t := by
  induction as generalizing s with
  | nil => cases h; exact hs
  | cons a as ih =>
      obtain ⟨m, hm, h⟩ := Option.bind_eq_some_iff.mp h
      exact ih (hstep s a m hs hm) h

/-- The condition along a schedule whose first action is enabled. -/
theorem along_cons_iff {P : σ → α → Prop} {s t : σ} {a : α} {as : List α} (h : step s a = some t) :
    Along step P s (a :: as) ↔ P s a ∧ Along step P t as := by
  constructor
  · exact fun hP => ⟨hP.1, hP.2 t h⟩
  · refine fun hP => ⟨hP.1, fun u hu => ?_⟩
    rw [h] at hu
    cases hu
    exact hP.2

/-- A property that a step gives exactly when it meets `P` holds in all states of a run
exactly when the run meets `P` throughout. -/
theorem along_iff_reached {P : σ → α → Prop} {I Q : σ → Prop}
    (hstep : ∀ s a t, I s → step s a = some t → I t)
    (hiff : ∀ s a t, I s → Q s → step s a = some t → (P s a ↔ Q t)) {s u : σ} {as : List α}
    (hs : I s) (hq : Q s) (h : exec step s as = some u) :
    Along step P s as ↔ ∀ done t, done <+: as → exec step s done = some t → Q t := by
  induction as generalizing s with
  | nil =>
      refine iff_of_true trivial ?_
      intro done t hdone ht
      rw [List.prefix_nil.mp hdone] at ht
      cases ht
      exact hq
  | cons a as ih =>
      obtain ⟨m, hm, hrun⟩ := Option.bind_eq_some_iff.mp h
      have him := hstep s a m hs hm
      rw [along_cons_iff hm]
      constructor
      · rintro ⟨hP, hrest⟩ done t hdone ht
        have hqm := (hiff s a m hs hq hm).mp hP
        cases done with
        | nil =>
            cases ht
            exact hq
        | cons b done =>
            obtain ⟨rfl, hprefix⟩ := List.cons_prefix_cons.mp hdone
            rw [exec_cons, hm] at ht
            exact (ih him hqm hrun).mp hrest done t hprefix ht
      · intro hall
        have hqm : Q m := hall [a] m ⟨as, rfl⟩ (by simp [hm])
        refine ⟨(hiff s a m hs hq hm).mpr hqm, (ih him hqm hrun).mpr ?_⟩
        intro done t hdone ht
        exact hall (a :: done) t (List.cons_prefix_cons.mpr ⟨rfl, hdone⟩) (by simp [hm, ht])

/-! ## Conditions that fail at most once -/

variable {β : Type v} {P : β → σ → α → Prop}

/-- A step that fails at most the condition it records in `o'`, where `o` recorded none. -/
structure Latches (P : β → σ → α → Prop) (o : Option β) (s : σ) (a : α) (o' : Option β) :
    Prop where
  kept : o ≠ none → o' = o
  spares : ∀ b, P b s a ↔ o = some b ∨ o' ≠ some b

/-- A step that meets all conditions. -/
theorem Latches.of_forall (o : Option β) {s : σ} {a : α} (h : ∀ b, P b s a) : Latches P o s a o :=
  ⟨fun _ => rfl, fun b => iff_of_true (h b) (em _)⟩

/-- A run fails the condition it records, and no other. -/
theorem latches_along {Φ : Option β → σ → Prop} {Q : σ → α → Prop}
    (hstep : ∀ o s a t, Φ o s → Q s a → step s a = some t → ∃ o', Φ o' t ∧ Latches P o s a o')
    {o : Option β} {s t : σ} {as : List α} (hs : Φ o s) (hQ : Along step Q s as)
    (h : exec step s as = some t) :
    ∃ o', Φ o' t ∧ (o ≠ none → o' = o) ∧
      ∀ b, Along step (P b) s as ↔ o = some b ∨ o' ≠ some b := by
  induction as generalizing s o with
  | nil =>
      cases h
      exact ⟨o, hs, fun _ => rfl, fun b => iff_of_true trivial (em _)⟩
  | cons a as ih =>
      obtain ⟨m, hm, h⟩ := Option.bind_eq_some_iff.mp h
      obtain ⟨o', ho', hlatch⟩ := hstep o s a m hs hQ.1 hm
      obtain ⟨o'', ho'', hkept, hspares⟩ := ih ho' (hQ.2 m hm) h
      refine ⟨o'', ho'', fun hsome => ?_, fun b => ?_⟩
      · have heq : o' = o := hlatch.kept hsome
        rw [hkept (heq ▸ hsome), heq]
      · rw [along_cons_iff hm, hlatch.spares b, hspares b]
        by_cases hb : o = some b
        · have heq : o' = o := hlatch.kept (by simp [hb])
          simp [hb, heq]
        · by_cases hb' : o' = some b
          · have heq : o'' = o' := hkept (by simp [hb'])
            simp [hb, hb', heq]
          · simp [hb, hb']

end ZephyrVox.Transition

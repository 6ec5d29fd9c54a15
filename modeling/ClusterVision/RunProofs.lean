import Mathlib.Data.List.Basic

/-! # Runs of a step function

    A run applies a step function to one call after the other.  `after` is the
    state a run leaves, and `Along P` says that `P` holds at every step of it,
    of the state before the step and of the call.  The rules below carry an
    invariant, possibly one that needs a guard at each step, through a run. -/

namespace CvRun

variable {σ κ : Type}

/-- The state after a run of calls. -/
def after (step : κ → σ → σ) : List κ → σ → σ
  | [], s => s
  | k :: ks, s => after step ks (step k s)

/-- `P` holds at every step of a run. -/
def Along (step : κ → σ → σ) (P : σ → κ → Prop) : List κ → σ → Prop
  | [], _ => True
  | k :: ks, s => P s k ∧ Along step P ks (step k s)

variable {step : κ → σ → σ} {P Q : σ → κ → Prop} {Inv : σ → Prop}

@[simp] theorem after_nil (s : σ) : after step [] s = s := rfl

@[simp] theorem after_cons (k : κ) (ks : List κ) (s : σ) :
    after step (k :: ks) s = after step ks (step k s) := rfl

/-- A run in two parts. -/
theorem after_append (ks ls : List κ) (s : σ) :
    after step (ks ++ ls) s = after step ls (after step ks s) := by
  induction ks generalizing s with
  | nil => rfl
  | cons k ks ih => exact ih (step k s)

/-- A property that follows from another at each step. -/
theorem Along.imp (hPQ : ∀ s k, P s k → Q s k) {ks : List κ} {s : σ}
    (h : Along step P ks s) : Along step Q ks s := by
  induction ks generalizing s with
  | nil => exact trivial
  | cons k ks ih => exact ⟨hPQ s k h.1, ih h.2⟩

/-- The same, when it follows wherever an invariant holds, which `P` lets each
    step keep. -/
theorem Along.imp_of_kept (hstep : ∀ s k, Inv s → P s k → Inv (step k s))
    (hPQ : ∀ s k, Inv s → P s k → Q s k) {ks : List κ} {s : σ} (hs : Inv s)
    (h : Along step P ks s) : Along step Q ks s := by
  induction ks generalizing s with
  | nil => exact trivial
  | cons k ks ih => exact ⟨hPQ s k hs h.1, ih (hstep s k hs h.1) h.2⟩

/-- The same, when every step keeps the invariant. -/
theorem Along.imp_of_inv (hstep : ∀ s k, Inv s → Inv (step k s))
    (hPQ : ∀ s k, Inv s → P s k → Q s k) {ks : List κ} {s : σ} (hs : Inv s)
    (h : Along step P ks s) : Along step Q ks s :=
  h.imp_of_kept (fun s k hs _ => hstep s k hs) hPQ hs

/-- An invariant that every step keeps holds after every run. -/
theorem after_inv (hstep : ∀ s k, Inv s → Inv (step k s)) {s : σ}
    (hs : Inv s) (ks : List κ) : Inv (after step ks s) := by
  induction ks generalizing s with
  | nil => exact hs
  | cons k ks ih => exact ih (hstep s k hs)

/-- The same, when the steps of this run keep it. -/
theorem after_inv_of_mem {ks : List κ}
    (hstep : ∀ s k, k ∈ ks → Inv s → Inv (step k s)) {s : σ} (hs : Inv s) :
    Inv (after step ks s) := by
  induction ks generalizing s with
  | nil => exact hs
  | cons k ks ih =>
      exact ih (fun s l hl => hstep s l (List.mem_cons_of_mem k hl))
        (hstep s k (List.mem_cons_self ..) hs)

/-- What an invariant gives at every step holds along every run. -/
theorem along_of_inv (hstep : ∀ s k, Inv s → Inv (step k s))
    (hP : ∀ s k, Inv s → P s k) {s : σ} (hs : Inv s) (ks : List κ) :
    Along step P ks s := by
  induction ks generalizing s with
  | nil => exact trivial
  | cons k ks ih => exact ⟨hP s k hs, ih (hstep s k hs)⟩

/-- Two properties that agree wherever an invariant holds, which the first
    one keeps, hold along the same runs. -/
theorem along_congr (hstep : ∀ s k, Inv s → P s k → Inv (step k s))
    (hPQ : ∀ s k, Inv s → (P s k ↔ Q s k)) {s : σ} (hs : Inv s)
    (ks : List κ) : Along step P ks s ↔ Along step Q ks s := by
  induction ks generalizing s with
  | nil => exact Iff.rfl
  | cons k ks ih =>
      constructor
      · intro h
        exact ⟨(hPQ s k hs).1 h.1, (ih (hstep s k hs h.1)).1 h.2⟩
      · intro h
        have hp : P s k := (hPQ s k hs).2 h.1
        exact ⟨hp, (ih (hstep s k hs hp)).2 h.2⟩

/-- Two properties at once. -/
theorem along_and {ks : List κ} {s : σ} :
    Along step (fun s k => P s k ∧ Q s k) ks s ↔
      Along step P ks s ∧ Along step Q ks s := by
  induction ks generalizing s with
  | nil => exact (and_self_iff).symm
  | cons k ks ih => exact (and_congr_right (fun _ => ih)).trans and_and_and_comm

/-- What holds at every step of a run, by the run before the step. -/
theorem along_iff_split {ks : List κ} {s : σ} :
    Along step P ks s ↔
      ∀ pre k post, ks = pre ++ k :: post → P (after step pre s) k := by
  induction ks generalizing s with
  | nil =>
      refine iff_of_true trivial (fun pre k post h => ?_)
      exact absurd h.symm (List.append_ne_nil_of_right_ne_nil pre
        (List.cons_ne_nil k post))
  | cons k ks ih =>
      constructor
      · rintro ⟨hk, hks⟩ pre l post h
        cases pre with
        | nil =>
            obtain ⟨rfl, -⟩ := List.cons.inj h
            exact hk
        | cons j pre =>
            obtain ⟨rfl, htail⟩ := List.cons.inj h
            exact ih.mp hks pre l post htail
      · intro h
        refine ⟨h [] k ks rfl, ih.mpr (fun pre l post htail => ?_)⟩
        exact h (k :: pre) l post (congrArg (k :: ·) htail)

/-- A property holds in every state that a run reaches when it holds at the
    start and after every step. -/
theorem reached_iff {I : σ → Prop} {ks : List κ} {s : σ} :
    (∀ pre, pre <+: ks → I (after step pre s)) ↔
      I s ∧ Along step (fun s k => I (step k s)) ks s := by
  induction ks generalizing s with
  | nil =>
      constructor
      · intro h
        exact ⟨h [] (List.prefix_refl []), trivial⟩
      · rintro ⟨hs, -⟩ pre hpre
        rw [List.prefix_nil.mp hpre]
        exact hs
  | cons k ks ih =>
      constructor
      · intro h
        have htail := ih.mp (fun pre hpre => h (k :: pre)
          ((List.prefix_cons_inj k).mpr hpre))
        exact ⟨h [] List.nil_prefix, htail.1, htail.2⟩
      · rintro ⟨hs, hk, hks⟩ pre hpre
        cases pre with
        | nil => exact hs
        | cons j pre =>
            obtain ⟨rfl, htail⟩ := List.cons_prefix_cons.mp hpre
            exact ih.mpr ⟨hk, hks⟩ pre htail

/-- What an invariant gives holds in every state that a run reaches, when a
    guard that lets the steps keep it holds along the run. -/
theorem reached_of_along {I : σ → Prop}
    (hstep : ∀ s k, Inv s → P s k → Inv (step k s)) (hI : ∀ s, Inv s → I s)
    {ks : List κ} {s : σ} (hs : Inv s) (h : Along step P ks s) :
    ∀ pre, pre <+: ks → I (after step pre s) :=
  reached_iff.mpr ⟨hI s hs, h.imp_of_kept hstep
    (fun s k hs hk => hI (step k s) (hstep s k hs hk)) hs⟩

/-- A property that a run acquires is acquired at one of its steps. -/
theorem exists_switch {I : σ → Prop} {ks : List κ} {s : σ} (hs : ¬ I s)
    (hks : I (after step ks s)) :
    ∃ pre k post, ks = pre ++ k :: post ∧ ¬ I (after step pre s) ∧
      I (step k (after step pre s)) := by
  induction ks generalizing s with
  | nil => exact absurd hks hs
  | cons k ks ih =>
      by_cases hk : I (step k s)
      · exact ⟨[], k, ks, rfl, hs, hk⟩
      · obtain ⟨pre, l, post, hsplit, hn, hp⟩ := ih hk hks
        exact ⟨k :: pre, l, post, by rw [hsplit]; rfl, hn, hp⟩

/-! ## Outputs -/

/-- What the calls of a run put out, the oldest one first. -/
def outputs {ω : Type} (step : κ → σ → σ) (out : κ → σ → List ω) :
    List κ → σ → List ω
  | [], _ => []
  | k :: ks, s => out k s ++ outputs step out ks (step k s)

/-- The outputs of a run in two parts. -/
theorem outputs_append {ω : Type} {out : κ → σ → List ω} (ks ls : List κ)
    (s : σ) :
    outputs step out (ks ++ ls) s
      = outputs step out ks s ++ outputs step out ls (after step ks s) := by
  induction ks generalizing s with
  | nil => rfl
  | cons k ks ih =>
      show out k s ++ outputs step out (ks ++ ls) (step k s) = _
      rw [ih, ← List.append_assoc]
      rfl

/-- A run puts out nothing when no step does, as long as an invariant holds. -/
theorem outputs_eq_nil {ω : Type} {out : κ → σ → List ω}
    (hstep : ∀ s k, Inv s → Inv (step k s))
    (hout : ∀ s k, Inv s → out k s = []) {s : σ} (hs : Inv s)
    (ks : List κ) : outputs step out ks s = [] := by
  induction ks generalizing s with
  | nil => rfl
  | cons k ks ih =>
      show out k s ++ outputs step out ks (step k s) = []
      rw [hout s k hs, ih (hstep s k hs)]
      rfl

/-- What every step keeps of the state and of the outputs so far holds after
    every run. -/
theorem outputs_inv {ω : Type} {out : κ → σ → List ω}
    {J : List ω → σ → Prop}
    (hstep : ∀ log s k, J log s → J (log ++ out k s) (step k s)) {s : σ}
    {log : List ω} (hs : J log s) (ks : List κ) :
    J (log ++ outputs step out ks s) (after step ks s) := by
  induction ks generalizing s log with
  | nil =>
      rw [show outputs step out [] s = [] from rfl, List.append_nil]
      exact hs
  | cons k ks ih =>
      have hrest := ih (hstep log s k hs)
      rw [List.append_assoc] at hrest
      exact hrest

end CvRun

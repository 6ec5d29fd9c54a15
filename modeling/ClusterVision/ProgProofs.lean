import Mathlib.Data.List.Basic

/-! # Programs that issue calls

    A program is a tree of calls: it stops with a value, stops with an error,
    or issues one call and continues with whatever the call answered.  The
    calls themselves stay uninterpreted, so one program text can be run

    * by a handler, one call after the other (`Prog.run`);
    * by the same handler under a plan of faults (`faulty`);
    * and interleaved with other programs, call by call.

    This file gives the programs, the sequential runs and their traces, and
    the equations that evaluate them. -/

namespace CvProg

/-- An interface: the calls a program may issue, and what each one answers. -/
structure Iface where
  Op : Type
  Res : Op → Type

/-- A program over the interface `I` with errors in `ε`. -/
inductive Prog (I : Iface) (ε α : Type) : Type where
  | ret (a : α) : Prog I ε α
  | raise (e : ε) : Prog I ε α
  | call (op : I.Op) (k : Except ε (I.Res op) → Prog I ε α) : Prog I ε α

variable {I : Iface} {ε α β σ : Type}

namespace Prog

/-- Sequencing: an error of the first program skips the second one. -/
def bind : Prog I ε α → (α → Prog I ε β) → Prog I ε β
  | ret a, f => f a
  | raise e, _ => raise e
  | call op k, f => call op (fun r => (k r).bind f)

/-- `try p except`: the handler sees the error that `p` stopped with. -/
def catching : Prog I ε α → (ε → Prog I ε α) → Prog I ε α
  | ret a, _ => ret a
  | raise e, f => f e
  | call op k, f => call op (fun r => (k r).catching f)

/-- `try p finally q`: `q` runs however `p` stopped; its own error wins. -/
def ensuring : Prog I ε α → Prog I ε Unit → Prog I ε α
  | ret a, q => q.bind (fun _ => ret a)
  | raise e, q => q.bind (fun _ => raise e)
  | call op k, q => call op (fun r => (k r).ensuring q)

/-- What a program does with the answer of a call: continue or raise. -/
def ofExcept : Except ε α → Prog I ε α
  | .ok a => ret a
  | .error e => raise e

/-- Issue one call and return its answer, or raise its error. -/
def perform (op : I.Op) : Prog I ε (I.Res op) := call op ofExcept

instance : Monad (Prog I ε) where
  pure := ret
  bind := bind

instance : MonadExcept ε (Prog I ε) where
  throw := raise
  tryCatch := catching

theorem bind_ret (p : Prog I ε α) : p.bind ret = p := by
  induction p with
  | ret a => rfl
  | raise e => rfl
  | call op k ih => exact congrArg (call op) (funext ih)

theorem bind_assoc {γ : Type} (p : Prog I ε α) (f : α → Prog I ε β)
    (g : β → Prog I ε γ) :
    (p.bind f).bind g = p.bind (fun a => (f a).bind g) := by
  induction p with
  | ret a => rfl
  | raise e => rfl
  | call op k ih => exact congrArg (call op) (funext ih)

instance : LawfulMonad (Prog I ε) :=
  LawfulMonad.mk' (Prog I ε) bind_ret (fun _ _ => rfl) bind_assoc

/-- An error skips what follows. -/
@[simp] theorem throw_bind (e : ε) (f : α → Prog I ε β) :
    ((throw e : Prog I ε α) >>= f) = throw e := rfl

end Prog

/-- A handler answers each call and moves the state. -/
abbrev Handler (I : Iface) (ε σ : Type) :=
  (op : I.Op) → σ → Except ε (I.Res op) × σ

namespace Prog

/-- Run a program from a state: how it stopped, and the state it left. -/
def run (h : Handler I ε σ) : Prog I ε α → σ → Except ε α × σ
  | ret a, s => (.ok a, s)
  | raise e, s => (.error e, s)
  | call op k, s => run h (k (h op s).1) (h op s).2

variable (h : Handler I ε σ)

@[simp] theorem run_pure (a : α) (s : σ) :
    run h (pure a : Prog I ε α) s = (.ok a, s) := rfl

@[simp] theorem run_throw (e : ε) (s : σ) :
    run h (throw e : Prog I ε α) s = (.error e, s) := rfl

@[simp] theorem run_ret (a : α) (s : σ) :
    run h (ret a : Prog I ε α) s = (.ok a, s) := rfl

@[simp] theorem run_raise (e : ε) (s : σ) :
    run h (raise e : Prog I ε α) s = (.error e, s) := rfl

@[simp] theorem run_call (op : I.Op) (k : Except ε (I.Res op) → Prog I ε α)
    (s : σ) : run h (call op k) s = run h (k (h op s).1) (h op s).2 := rfl

/-- A choice runs as the branch that is taken. -/
theorem run_ite (c : Prop) [Decidable c] (p q : Prog I ε α) (s : σ) :
    run h (if c then p else q) s = if c then run h p s else run h q s := by
  by_cases hc : c
  · rw [if_pos hc, if_pos hc]
  · rw [if_neg hc, if_neg hc]

@[simp] theorem run_ofExcept (r : Except ε α) (s : σ) :
    run h (ofExcept r : Prog I ε α) s = (r, s) := by
  cases r with
  | ok a => rfl
  | error e => rfl

/-- A single call runs as its handler does. -/
@[simp] theorem run_perform (op : I.Op) (s : σ) :
    run h (perform op : Prog I ε (I.Res op)) s = h op s := by
  show run h (ofExcept (h op s).1) (h op s).2 = h op s
  rw [run_ofExcept]

/-- What the rest of a run does with the way its first part stopped. -/
def andThen (r : Except ε α × σ) (f : α → σ → Except ε β × σ) :
    Except ε β × σ :=
  match r with
  | (.ok a, s) => f a s
  | (.error e, s) => (.error e, s)

@[simp] theorem andThen_ok (a : α) (s : σ) (f : α → σ → Except ε β × σ) :
    andThen (.ok a, s) f = f a s := rfl

@[simp] theorem andThen_error (e : ε) (s : σ) (f : α → σ → Except ε β × σ) :
    andThen (.error e, s) f = (.error e, s) := rfl

/-- A run of two parts that returned has returned from the first. -/
theorem andThen_eq_ok {r : Except ε α × σ} {f : α → σ → Except ε β × σ}
    {b : β} {t : σ} (h : andThen r f = (.ok b, t)) :
    ∃ a s, r = (.ok a, s) ∧ f a s = (.ok b, t) := by
  obtain ⟨r, s⟩ := r
  cases r with
  | ok a => exact ⟨a, s, rfl, h⟩
  | error e => exact nomatch congrArg Prod.fst h

/-- What an `except` clause does with the way its body stopped. -/
def orElse (r : Except ε α × σ) (f : ε → σ → Except ε α × σ) :
    Except ε α × σ :=
  match r with
  | (.ok a, s) => (.ok a, s)
  | (.error e, s) => f e s

@[simp] theorem orElse_ok (a : α) (s : σ) (f : ε → σ → Except ε α × σ) :
    orElse (.ok a, s) f = (.ok a, s) := rfl

@[simp] theorem orElse_error (e : ε) (s : σ) (f : ε → σ → Except ε α × σ) :
    orElse (.error e, s) f = f e s := rfl

/-- Runs compose along sequencing. -/
@[simp] theorem run_bind (p : Prog I ε α) (f : α → Prog I ε β) (s : σ) :
    run h (p >>= f) s = andThen (run h p s) (fun a => run h (f a)) := by
  show run h (p.bind f) s = _
  induction p generalizing s with
  | ret a => rfl
  | raise e => rfl
  | call op k ih => exact ih (h op s).1 (h op s).2

@[simp] theorem run_map (f : α → β) (p : Prog I ε α) (s : σ) :
    run h (f <$> p) s
      = andThen (run h p s) (fun a s => (.ok (f a), s)) := by
  rw [map_eq_pure_bind, run_bind]
  rfl

/-- What a `finally` clause does after its body stopped: its own error wins. -/
def atLast (r : Except ε α × σ) (q : σ → Except ε Unit × σ) :
    Except ε α × σ :=
  match q r.2 with
  | (.ok _, t) => (r.1, t)
  | (.error e, t) => (.error e, t)

/-- Runs compose along `finally` clauses. -/
theorem run_ensuring (p : Prog I ε α) (q : Prog I ε Unit) (s : σ) :
    run h (p.ensuring q) s = atLast (run h p s) (run h q) := by
  have hlast : ∀ (f : Unit → Prog I ε α) (r : Except ε α) (t : σ),
      (∀ u v, run h (f u) v = (r, v)) →
        run h (q >>= f) t = atLast (r, t) (run h q) := by
    intro f r t hf
    rw [run_bind, atLast]
    rcases run h q t with ⟨res, v⟩
    cases res with
    | ok u => exact hf u v
    | error e => rfl
  induction p generalizing s with
  | ret a => exact hlast _ _ s (fun _ _ => rfl)
  | raise e => exact hlast _ _ s (fun _ _ => rfl)
  | call op k ih => exact ih (h op s).1 (h op s).2

/-- Runs compose along `except` clauses. -/
@[simp] theorem run_catching (p : Prog I ε α) (f : ε → Prog I ε α) (s : σ) :
    run h (tryCatch p f) s = orElse (run h p s) (fun e => run h (f e)) := by
  show run h (p.catching f) s = _
  induction p generalizing s with
  | ret a => rfl
  | raise e => rfl
  | call op k ih => exact ih (h op s).1 (h op s).2

end Prog

namespace Prog

/-- A program without its value. -/
def void (p : Prog I ε α) : Prog I ε Unit := p >>= fun _ => pure ()

/-- A program without its value ends as the program does. -/
theorem run_void_fst (h : Handler I ε σ) (p : Prog I ε α) (s : σ) :
    ((void p).run h s).1 = (p.run h s).1.map (fun _ => ()) := by
  rw [void, run_bind]
  rcases p.run h s with ⟨r, t⟩
  cases r with
  | ok a => rfl
  | error e => rfl

/-- Leaving the value out leaves the same state. -/
theorem run_void_snd (h : Handler I ε σ) (p : Prog I ε α) (s : σ) :
    ((void p).run h s).2 = (p.run h s).2 := by
  rw [void]
  rw [run_bind]
  rcases p.run h s with ⟨r, t⟩
  cases r with
  | ok a => rfl
  | error e => rfl

end Prog

/-! ## Faults -/

/-- How a call can go wrong: refused before it takes effect, or its answer
    lost after it took effect. -/
inductive Fault (ε : Type) where
  | refuse (e : ε)
  | lose (e : ε)
deriving DecidableEq

/-- A plan of faults: for the `n`-th call of a run, and the call itself,
    the fault it meets. -/
abbrev Plan (I : Iface) (ε : Type) := Nat → I.Op → Option (Fault ε)

/-- The handler `h` under a plan of faults; the counter numbers the calls. -/
def faulty (plan : Plan I ε) (h : Handler I ε σ) : Handler I ε (Nat × σ) :=
  fun op s =>
    match plan s.1 op with
    | none => ((h op s.2).1, (s.1 + 1, (h op s.2).2))
    | some (.refuse e) => (.error e, (s.1 + 1, s.2))
    | some (.lose e) => (.error e, (s.1 + 1, (h op s.2).2))

theorem faulty_none {plan : Plan I ε} {op : I.Op} {s : Nat × σ}
    (h : Handler I ε σ) (hp : plan s.1 op = none) :
    faulty plan h op s = ((h op s.2).1, (s.1 + 1, (h op s.2).2)) := by
  simp only [faulty, hp]

theorem faulty_refuse {plan : Plan I ε} {op : I.Op} {s : Nat × σ} {e : ε}
    (h : Handler I ε σ) (hp : plan s.1 op = some (.refuse e)) :
    faulty plan h op s = (.error e, (s.1 + 1, s.2)) := by
  simp only [faulty, hp]

theorem faulty_lose {plan : Plan I ε} {op : I.Op} {s : Nat × σ} {e : ε}
    (h : Handler I ε σ) (hp : plan s.1 op = some (.lose e)) :
    faulty plan h op s = (.error e, (s.1 + 1, (h op s.2).2)) := by
  simp only [faulty, hp]

/-- Under any plan a call leaves the state as it was, or as its handler
    leaves it; and an answer that arrives is the handler's. -/
theorem faulty_cases (plan : Plan I ε) (h : Handler I ε σ) (op : I.Op)
    (s : Nat × σ) :
    (faulty plan h op s = ((h op s.2).1, (s.1 + 1, (h op s.2).2))) ∨
    (∃ e, faulty plan h op s = (.error e, (s.1 + 1, s.2))) ∨
    (∃ e, faulty plan h op s = (.error e, (s.1 + 1, (h op s.2).2))) := by
  cases hp : plan s.1 op with
  | none => exact Or.inl (faulty_none h hp)
  | some f =>
      cases f with
      | refuse e => exact Or.inr (Or.inl ⟨e, faulty_refuse h hp⟩)
      | lose e => exact Or.inr (Or.inr ⟨e, faulty_lose h hp⟩)

/-- `g` does what `h` does on the state that `view` shows, except that a call
    can fail, before or after it takes effect. -/
def Mostly {τ : Type} (h : Handler I ε σ) (g : Handler I ε τ)
    (view : τ → σ) : Prop :=
  ∀ op s,
    ((g op s).1 = (h op (view s)).1 ∧ view (g op s).2 = (h op (view s)).2) ∨
    ∃ e, (g op s).1 = .error e ∧
      (view (g op s).2 = view s ∨ view (g op s).2 = (h op (view s)).2)

/-- A handler does what it does itself. -/
theorem mostly_refl (h : Handler I ε σ) : Mostly h h id :=
  fun _ _ => Or.inl ⟨rfl, rfl⟩

/-- A plan of faults lets calls fail and does nothing else. -/
theorem mostly_faulty (plan : Plan I ε) (h : Handler I ε σ) :
    Mostly h (faulty plan h) Prod.snd := by
  intro op s
  rcases faulty_cases plan h op s with hf | ⟨e, hf⟩ | ⟨e, hf⟩
  · exact Or.inl (by rw [hf]; exact ⟨rfl, rfl⟩)
  · exact Or.inr ⟨e, by rw [hf]; exact ⟨rfl, Or.inl rfl⟩⟩
  · exact Or.inr ⟨e, by rw [hf]; exact ⟨rfl, Or.inr rfl⟩⟩

/-- An answer that arrives is the true one, and the call took effect. -/
theorem Mostly.ok {τ : Type} {h : Handler I ε σ} {g : Handler I ε τ}
    {view : τ → σ} (hg : Mostly h g view) {op : I.Op} {s t : τ}
    {a : I.Res op} (ha : g op s = (.ok a, t)) :
    h op (view s) = (.ok a, view t) := by
  rcases hg op s with ⟨hres, hst⟩ | ⟨e, hres, -⟩
  · rw [ha] at hres hst
    exact Prod.ext hres.symm hst.symm
  · rw [ha] at hres
    exact nomatch hres

/-- What `h` keeps, `g` keeps. -/
theorem Mostly.keeps {τ : Type} {h : Handler I ε σ} {g : Handler I ε τ}
    {view : τ → σ} (hg : Mostly h g view) {R : σ → σ → Prop}
    (hrefl : ∀ s, R s s) {op : I.Op} (hop : ∀ s, R s (h op s).2) (s : τ) :
    R (view s) (view (g op s).2) := by
  rcases hg op s with ⟨-, hst⟩ | ⟨e, -, hst | hst⟩
  · rw [hst]
    exact hop _
  · rw [hst]
    exact hrefl _
  · rw [hst]
    exact hop _

/-! ## Traces -/

/-- One answered call. -/
structure Event (I : Iface) (ε : Type) where
  op : I.Op
  res : Except ε (I.Res op)

namespace Prog

variable (h : Handler I ε σ)

/-- The answered calls of a run, the oldest one first. -/
def trace : Prog I ε α → σ → List (Event I ε)
  | ret _, _ => []
  | raise _, _ => []
  | call op k, s => ⟨op, (h op s).1⟩ :: trace (k (h op s).1) (h op s).2

@[simp] theorem trace_pure (a : α) (s : σ) :
    trace h (pure a : Prog I ε α) s = [] := rfl

@[simp] theorem trace_throw (e : ε) (s : σ) :
    trace h (throw e : Prog I ε α) s = [] := rfl

/-- The trace of a single call. -/
theorem trace_perform (op : I.Op) (s : σ) :
    trace h (perform op : Prog I ε (I.Res op)) s = [⟨op, (h op s).1⟩] := by
  show _ :: trace h (ofExcept (h op s).1) (h op s).2 = _
  cases (h op s).1 with
  | ok a => rfl
  | error e => rfl

/-- The trace that follows when the first part of a run has returned. -/
def traceThen (r : Except ε α × σ) (f : α → σ → List (Event I ε)) :
    List (Event I ε) :=
  match r with
  | (.ok a, s) => f a s
  | (.error _, _) => []

@[simp] theorem traceThen_ok (a : α) (s : σ)
    (f : α → σ → List (Event I ε)) : traceThen (.ok a, s) f = f a s := rfl

@[simp] theorem traceThen_error (e : ε) (s : σ)
    (f : α → σ → List (Event I ε)) : traceThen (.error e, s) f = [] := rfl

/-- Traces compose along sequencing. -/
theorem trace_bind (p : Prog I ε α) (f : α → Prog I ε β) (s : σ) :
    trace h (p >>= f) s
      = trace h p s ++ traceThen (run h p s) (fun a => trace h (f a)) := by
  show trace h (p.bind f) s = _
  induction p generalizing s with
  | ret a => rfl
  | raise e => rfl
  | call op k ih => exact congrArg (_ :: ·) (ih (h op s).1 (h op s).2)

theorem trace_void (p : Prog I ε α) (s : σ) :
    trace h (void p) s = trace h p s := by
  rw [void]
  rw [trace_bind]
  rcases run h p s with ⟨r, t⟩
  cases r with
  | ok a => exact List.append_nil _
  | error e => exact List.append_nil _

end Prog

/-! ## What a program uses -/

namespace Prog

/-- Every call the program can ever issue satisfies `P`. -/
def Uses (P : I.Op → Prop) : Prog I ε α → Prop
  | ret _ => True
  | raise _ => True
  | call op k => P op ∧ ∀ r, (k r).Uses P

variable {P Q : I.Op → Prop}

theorem uses_pure (a : α) : (pure a : Prog I ε α).Uses P := trivial

theorem uses_throw (e : ε) : (throw e : Prog I ε α).Uses P := trivial

theorem uses_ofExcept (r : Except ε α) :
    (ofExcept r : Prog I ε α).Uses P := by
  cases r with
  | ok a => exact trivial
  | error e => exact trivial

/-- A single call uses itself. -/
theorem uses_perform {op : I.Op} (h : P op) :
    (perform op : Prog I ε (I.Res op)).Uses P := ⟨h, uses_ofExcept⟩

/-- Sequencing uses what its two parts use. -/
theorem uses_bind {p : Prog I ε α} {f : α → Prog I ε β} (hp : p.Uses P)
    (hf : ∀ a, (f a).Uses P) : (p >>= f).Uses P := by
  show (p.bind f).Uses P
  induction p with
  | ret a => exact hf a
  | raise e => exact trivial
  | call op k ih => exact ⟨hp.1, fun r => ih r (hp.2 r)⟩

/-- An `except` clause uses what its two parts use. -/
theorem uses_catching {p : Prog I ε α} {f : ε → Prog I ε α}
    (hp : p.Uses P) (hf : ∀ e, (f e).Uses P) : (tryCatch p f).Uses P := by
  show (p.catching f).Uses P
  induction p with
  | ret a => exact trivial
  | raise e => exact hf e
  | call op k ih => exact ⟨hp.1, fun r => ih r (hp.2 r)⟩

/-- A `finally` clause uses what its two parts use. -/
theorem uses_ensuring {p : Prog I ε α} {q : Prog I ε Unit}
    (hp : p.Uses P) (hq : q.Uses P) : (p.ensuring q).Uses P := by
  induction p with
  | ret a => exact uses_bind hq (fun _ => trivial)
  | raise e => exact uses_bind hq (fun _ => trivial)
  | call op k ih => exact ⟨hp.1, fun r => ih r (hp.2 r)⟩

/-- A choice uses what its branches use. -/
theorem uses_ite {c : Prop} [Decidable c] {p q : Prog I ε α}
    (hp : p.Uses P) (hq : q.Uses P) : (if c then p else q).Uses P := by
  by_cases hc : c
  · rw [if_pos hc]
    exact hp
  · rw [if_neg hc]
    exact hq

/-- A loop over a list uses what its body uses. -/
theorem uses_foldlM {f : β → α → Prog I ε β} {xs : List α}
    (hf : ∀ b x, x ∈ xs → (f b x).Uses P) (b : β) :
    (xs.foldlM f b).Uses P := by
  induction xs generalizing b with
  | nil => exact trivial
  | cons x xs ih =>
      rw [List.foldlM_cons]
      refine uses_bind (hf b x (List.mem_cons_self ..)) ?_
      exact fun c => ih (fun d y hy => hf d y (List.mem_cons_of_mem x hy)) c

/-- Every program uses calls. -/
theorem uses_any (p : Prog I ε α) : p.Uses (fun _ => True) := by
  induction p with
  | ret a => exact trivial
  | raise e => exact trivial
  | call op k ih => exact ⟨trivial, ih⟩

theorem Uses.imp {p : Prog I ε α} (hPQ : ∀ op, P op → Q op)
    (h : p.Uses P) : p.Uses Q := by
  induction p with
  | ret a => exact trivial
  | raise e => exact trivial
  | call op k ih => exact ⟨hPQ op h.1, fun r => ih r (h.2 r)⟩

/-- A trace holds only calls that the program uses. -/
theorem Uses.trace {p : Prog I ε α} (hp : p.Uses P) (h : Handler I ε σ)
    (s : σ) : ∀ ev ∈ Prog.trace h p s, P ev.op := by
  induction p generalizing s with
  | ret a => exact fun ev hev => nomatch hev
  | raise e => exact fun ev hev => nomatch hev
  | call op k ih =>
      intro ev hev
      rcases List.mem_cons.mp hev with hev | hev
      · rw [hev]
        exact hp.1
      · exact ih _ (hp.2 _) _ ev hev

/-- A relation between states that every used call keeps, a run keeps. -/
theorem Uses.run_keeps {R : σ → σ → Prop} {h : Handler I ε σ}
    {p : Prog I ε α} (hp : p.Uses P) (hrefl : ∀ s, R s s)
    (htrans : ∀ {s t u}, R s t → R t u → R s u)
    (hstep : ∀ op s, P op → R s (h op s).2) (s : σ) :
    R s (p.run h s).2 := by
  induction p generalizing s with
  | ret a => exact hrefl s
  | raise e => exact hrefl s
  | call op k ih =>
      exact htrans (hstep op s hp.1) (ih (h op s).1 (hp.2 _) (h op s).2)

/-- Two states that every used call cannot tell apart, a run cannot tell
    apart. -/
theorem Uses.run_agree {R : σ → σ → Prop} {h : Handler I ε σ}
    {p : Prog I ε α} (hp : p.Uses P)
    (hstep : ∀ op s t, P op → R s t →
      (h op s).1 = (h op t).1 ∧ R (h op s).2 (h op t).2) {s t : σ}
    (hst : R s t) :
    (p.run h s).1 = (p.run h t).1 ∧ R (p.run h s).2 (p.run h t).2 := by
  induction p generalizing s t with
  | ret a => exact ⟨rfl, hst⟩
  | raise e => exact ⟨rfl, hst⟩
  | call op k ih =>
      obtain ⟨hres, hrel⟩ := hstep op s t hp.1 hst
      have hrun : (call op k).run h s
          = (k (h op t).1).run h (h op s).2 := by
        show (k (h op s).1).run h (h op s).2 = _
        rw [hres]
      rw [hrun]
      exact ih (h op t).1 (hp.2 _) hrel

/-- A plan without faults for the calls that a program uses does not change
    its run. -/
theorem Uses.run_faulty {p : Prog I ε α} (hp : p.Uses P) {plan : Plan I ε}
    (hplan : ∀ n op, P op → plan n op = none) (h : Handler I ε σ) :
    ∀ (n : Nat) (s : σ), ∃ m, p.run (faulty plan h) (n, s)
      = ((p.run h s).1, (m, (p.run h s).2)) := by
  induction p with
  | ret a => exact fun n s => ⟨n, rfl⟩
  | raise e => exact fun n s => ⟨n, rfl⟩
  | call op k ih =>
      intro n s
      obtain ⟨m, hm⟩ := ih (h op s).1 (hp.2 _) (n + 1) (h op s).2
      refine ⟨m, ?_⟩
      rw [run_call, faulty_none h (hplan n op hp.1)]
      exact hm

/-! ## What holds at every call -/

/-- Every call of a run satisfies `R`, together with the state before it. -/
def Meets (h : Handler I ε σ) (R : σ → I.Op → Prop) : Prog I ε α → σ → Prop
  | ret _, _ => True
  | raise _, _ => True
  | call op k, s => R s op ∧ Meets h R (k (h op s).1) (h op s).2

section Meets

variable {h : Handler I ε σ} {R : σ → I.Op → Prop}

theorem meets_ofExcept (r : Except ε α) (s : σ) :
    (ofExcept r : Prog I ε α).Meets h R s := by
  cases r with
  | ok a => exact trivial
  | error e => exact trivial

theorem meets_perform {op : I.Op} {s : σ} :
    (perform op : Prog I ε (I.Res op)).Meets h R s ↔ R s op :=
  and_iff_left (meets_ofExcept _ _)

/-- What the calls of the second part meet, when the first part returns. -/
def MeetsOk (h : Handler I ε σ) (R : σ → I.Op → Prop) (f : α → Prog I ε β)
    (o : Except ε α × σ) : Prop :=
  match o.1 with
  | .ok a => (f a).Meets h R o.2
  | .error _ => True

/-- Sequencing. -/
theorem meets_bind {p : Prog I ε α} {f : α → Prog I ε β} {s : σ} :
    (p >>= f).Meets h R s ↔ p.Meets h R s ∧ MeetsOk h R f (p.run h s) := by
  show (p.bind f).Meets h R s ↔ _
  induction p generalizing s with
  | ret a => exact (and_iff_right trivial).symm
  | raise e => exact (and_iff_right trivial).symm
  | call op k ih => exact (and_congr_right (fun _ => ih _)).trans and_assoc.symm

/-- A program all of whose calls satisfy `R` in every state. -/
theorem meets_of_uses {p : Prog I ε α} (hp : p.Uses (fun op => ∀ s, R s op))
    (s : σ) : p.Meets h R s := by
  induction p generalizing s with
  | ret a => exact trivial
  | raise e => exact trivial
  | call op k ih => exact ⟨hp.1 s, ih _ (hp.2 _) _⟩

/-- An `except` clause. -/
theorem meets_catching {p : Prog I ε α} {f : ε → Prog I ε α} {s : σ}
    (hf : ∀ e s, (f e).Meets h R s) :
    (tryCatch p f).Meets h R s ↔ p.Meets h R s := by
  show (p.catching f).Meets h R s ↔ _
  induction p generalizing s with
  | ret a => exact Iff.rfl
  | raise e => exact iff_of_true (hf e s) trivial
  | call op k ih => exact and_congr_right (fun _ => ih _)

end Meets

end Prog

end CvProg

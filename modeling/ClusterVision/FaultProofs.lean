import ClusterVision.PagingProofs
import ClusterVision.RunProofs

/-! # Runs that are cut short

    One call of a run meets a fault, and the program does not recover from its
    error.  Then the run leaves what the first calls of the undisturbed run
    leave: those before the fault, and the faulty one too when only its answer
    was lost. -/

namespace CvProg

open CvRun CvPage

variable {I : Iface} {ε α β σ : Type}

/-! ## One fault -/

/-- The error of a fault. -/
def Fault.error : Fault ε → ε
  | refuse e => e
  | lose e => e

/-- How many calls take effect when a call meets the fault. -/
def Fault.effects : Fault ε → Nat
  | refuse _ => 0
  | lose _ => 1

/-- The plan in which the `n`-th call of a run meets a fault. -/
def failAt (n : Nat) (f : Fault ε) : Plan I ε :=
  fun m _ => if m = n then some f else none

/-- The state after a list of calls. -/
abbrev stateAfter (h : Handler I ε σ) (ops : List I.Op) (s : σ) : σ :=
  after (fun op s => (h op s).2) ops s

theorem stateAfter_append (h : Handler I ε σ) (xs ys : List I.Op) (s : σ) :
    stateAfter h (xs ++ ys) s = stateAfter h ys (stateAfter h xs s) :=
  after_append xs ys s

namespace Prog

/-- The calls of an undisturbed run, the oldest one first. -/
def calls (h : Handler I ε σ) (p : Prog I ε α) (s : σ) : List I.Op :=
  (p.trace h s).map Event.op

theorem calls_call (h : Handler I ε σ) (op : I.Op)
    (k : Except ε (I.Res op) → Prog I ε α) (s : σ) :
    (call op k).calls h s = op :: (k (h op s).1).calls h (h op s).2 := rfl

/-- The calls of a run in two parts, the first of which has returned. -/
theorem calls_bind_ok {h : Handler I ε σ} {p : Prog I ε α}
    {f : α → Prog I ε β} {s t : σ} {a : α} (hp : p.run h s = (.ok a, t)) :
    (p >>= f).calls h s = p.calls h s ++ (f a).calls h t := by
  rw [calls, trace_bind, hp, traceThen_ok, List.map_append]
  rfl

/-- The calls of a run whose first part has raised. -/
theorem calls_bind_error {h : Handler I ε σ} {p : Prog I ε α}
    {f : α → Prog I ε β} {s t : σ} {e : ε} (hp : p.run h s = (.error e, t)) :
    (p >>= f).calls h s = p.calls h s := by
  rw [calls, trace_bind, hp, traceThen_error, List.append_nil]
  rfl

/-- A run leaves what its calls leave. -/
theorem run_calls (h : Handler I ε σ) (p : Prog I ε α) (s : σ) :
    (p.run h s).2 = stateAfter h (p.calls h s) s := by
  induction p generalizing s with
  | ret a => rfl
  | raise e => rfl
  | call op k ih => exact ih (h op s).1 (h op s).2

/-- The calls of a run are calls that the program uses. -/
theorem Uses.calls {P : I.Op → Prop} {p : Prog I ε α} (hp : p.Uses P)
    (h : Handler I ε σ) (s : σ) : ∀ op ∈ p.calls h s, P op := by
  intro op hop
  obtain ⟨ev, hev, rfl⟩ := List.mem_map.mp hop
  exact hp.trace h s ev hev

/-! ## Programs that give up -/

variable {P : I.Op → Prop} {e : ε}

/-- The program stops with an error, whatever its calls answer, and they
    satisfy `P`. -/
def Halts (P : I.Op → Prop) : Prog I ε α → Prop
  | ret _ => False
  | raise _ => True
  | call op k => P op ∧ ∀ r, (k r).Halts P

/-- Wherever a call raises the error `e`, the program stops with an error, and
    the calls it still makes satisfy `P`. -/
def GivesUp (P : I.Op → Prop) (e : ε) : Prog I ε α → Prop
  | ret _ => True
  | raise _ => True
  | call _ k => (k (.error e)).Halts P ∧ ∀ r, (k r).GivesUp P e

theorem Halts.uses {p : Prog I ε α} (hp : p.Halts P) : p.Uses P := by
  induction p with
  | ret a => exact trivial
  | raise e => exact trivial
  | call op k ih => exact ⟨hp.1, fun r => ih r (hp.2 r)⟩

/-- What follows a program that stops with an error is not reached. -/
theorem Halts.bind {p : Prog I ε α} (hp : p.Halts P) (f : α → Prog I ε β) :
    (p >>= f).Halts P := by
  show (p.bind f).Halts P
  induction p with
  | ret a => exact hp.elim
  | raise e => exact trivial
  | call op k ih => exact ⟨hp.1, fun r => ih r (hp.2 r)⟩

theorem halts_of_uses {p : Prog I ε α} {f : α → Prog I ε β}
    (hp : p.Uses P) (hf : ∀ a, (f a).Halts P) : (p >>= f).Halts P := by
  show (p.bind f).Halts P
  induction p with
  | ret a => exact hf a
  | raise e => exact trivial
  | call op k ih => exact ⟨hp.1, fun r => ih r (hp.2 r)⟩

/-- A `finally` clause does not take an error back. -/
theorem Halts.ensuring {p : Prog I ε α} {q : Prog I ε Unit}
    (hp : p.Halts P) (hq : q.Uses P) : (p.ensuring q).Halts P := by
  induction p with
  | ret a => exact hp.elim
  | raise e => exact halts_of_uses hq (fun _ => trivial)
  | call op k ih => exact ⟨hp.1, fun r => ih r (hp.2 r)⟩

theorem givesUp_ofExcept (r : Except ε α) :
    (ofExcept r : Prog I ε α).GivesUp P e := by
  cases r with
  | ok a => exact trivial
  | error x => exact trivial

theorem givesUp_perform (op : I.Op) :
    (perform op : Prog I ε (I.Res op)).GivesUp P e :=
  ⟨trivial, givesUp_ofExcept⟩

/-- An `except` clause that does not take the error of its call back. -/
theorem givesUp_catching {op : I.Op} {f : ε → Prog I ε (I.Res op)}
    (he : (f e).Halts P) (hf : ∀ x, (f x).GivesUp P e) :
    (tryCatch (perform op) f : Prog I ε (I.Res op)).GivesUp P e := by
  refine ⟨he, fun r => ?_⟩
  cases r with
  | ok a => exact trivial
  | error x => exact hf x

theorem givesUp_bind {p : Prog I ε α} {f : α → Prog I ε β}
    (hp : p.GivesUp P e) (hf : ∀ a, (f a).GivesUp P e) :
    (p >>= f).GivesUp P e := by
  show (p.bind f).GivesUp P e
  induction p with
  | ret a => exact hf a
  | raise x => exact trivial
  | call op k ih => exact ⟨hp.1.bind f, fun r => ih r (hp.2 r)⟩

theorem givesUp_ite {c : Prop} [Decidable c] {p q : Prog I ε α}
    (hp : p.GivesUp P e) (hq : q.GivesUp P e) :
    (if c then p else q).GivesUp P e := by
  by_cases hc : c
  · rw [if_pos hc]
    exact hp
  · rw [if_neg hc]
    exact hq

theorem givesUp_ensuring {p : Prog I ε α} {q : Prog I ε Unit}
    (hp : p.GivesUp P e) (hq : q.GivesUp P e) (huses : q.Uses P) :
    (p.ensuring q).GivesUp P e := by
  induction p with
  | ret a => exact givesUp_bind hq (fun _ => trivial)
  | raise x => exact givesUp_bind hq (fun _ => trivial)
  | call op k ih => exact ⟨hp.1.ensuring huses, fun r => ih r (hp.2 r)⟩

/-- A loop over a list gives up where its body does. -/
theorem givesUp_foldlM {f : β → α → Prog I ε β} {xs : List α}
    (hf : ∀ b x, (f b x).GivesUp P e) (b : β) :
    (xs.foldlM f b).GivesUp P e := by
  induction xs generalizing b with
  | nil => exact trivial
  | cons x xs ih =>
      rw [List.foldlM_cons]
      exact givesUp_bind (hf b x) ih

/-- A loop over pages gives up where its two parts do. -/
theorem givesUp_followPages {stuck : ε}
    {fetch : Option (Cursor α) → Prog I ε (Page α)}
    {body : β → α → Prog I ε β}
    (hfetch : ∀ cursor, (fetch cursor).GivesUp P e)
    (hbody : ∀ b x, (body b x).GivesUp P e) :
    ∀ (fuel : Nat) (cursor : Option (Cursor α)) (b : β),
      (followPages stuck fetch body fuel cursor b).GivesUp P e := by
  intro fuel
  induction fuel with
  | zero => exact fun cursor b => trivial
  | succ fuel ih =>
      intro cursor b
      rw [followPages]
      refine givesUp_bind (hfetch cursor) (fun page => ?_)
      refine givesUp_bind (givesUp_foldlM hbody b) (fun c => ?_)
      cases page.next with
      | none => exact trivial
      | some next => exact ih (some next) c

/-- A program that gives up, run with one fault, leaves what the first calls
    of its undisturbed run leave. -/
theorem run_failAt {h : Handler I ε σ} (hP : ∀ op s, P op → (h op s).2 = s)
    {f : Fault ε} {p : Prog I ε α} (hp : p.GivesUp P f.error) :
    ∀ (n k : Nat) (s : σ),
      (p.run (faulty (failAt (n + k) f) h) (n, s)).2.2
        = stateAfter h ((p.calls h s).take (k + f.effects)) s := by
  -- after its error the program changes nothing
  have hrest : ∀ {plan : Plan I ε} {q : Prog I ε α} (t : Nat × σ),
      q.Uses P → (q.run (faulty plan h) t).2.2 = t.2 := by
    intro plan q t hq
    have htrans : ∀ {u v x : Nat × σ}, v.2 = u.2 → x.2 = v.2 → x.2 = u.2 :=
      fun h h' => h'.trans h
    refine hq.run_keeps (R := fun u v => v.2 = u.2) (fun _ => rfl) htrans ?_ t
    intro op u hop
    have hkeep : (h op u.2).2 = u.2 := hP op u.2 hop
    rcases faulty_cases plan h op u with hf | ⟨x, hf⟩ | ⟨x, hf⟩
    · rw [hf]
      exact hkeep
    · rw [hf]
    · rw [hf]
      exact hkeep
  induction p with
  | ret a =>
      intro n k s
      rw [calls, trace, List.map_nil, List.take_nil]
      rfl
  | raise x =>
      intro n k s
      rw [calls, trace, List.map_nil, List.take_nil]
      rfl
  | call op c ih =>
      intro n k s
      rw [calls_call, run_call]
      cases k with
      | zero =>
          have hplan : failAt (n + 0) f n op = some f := if_pos rfl
          cases f with
          | refuse x =>
              rw [faulty_refuse h hplan]
              exact hrest _ hp.1.uses
          | lose x =>
              rw [faulty_lose h hplan]
              exact hrest _ hp.1.uses
      | succ k =>
          have hplan : failAt (n + (k + 1)) f n op = none :=
            if_neg (by omega)
          rw [faulty_none h hplan]
          have hindex : n + (k + 1) = n + 1 + k := by omega
          have hlength : k + 1 + f.effects = k + f.effects + 1 := by omega
          rw [hindex, hlength, List.take_succ_cons]
          exact ih _ (hp.2 _) (n + 1) k (h op s).2

/-! ## Programs with a last call -/

/-- The calls of the program satisfy `P`, except that the last one may satisfy
    `Q` instead. -/
def EndsWith (P Q : I.Op → Prop) : Prog I ε α → Prop
  | ret _ => True
  | raise _ => True
  | call op k => (P op ∧ ∀ r, (k r).EndsWith P Q) ∨
      (Q op ∧ ∀ r, (k r).Uses (fun _ => False))

variable {Q : I.Op → Prop}

theorem endsWith_perform {op : I.Op} (h : Q op) :
    (perform op : Prog I ε (I.Res op)).EndsWith P Q :=
  Or.inr ⟨h, uses_ofExcept⟩

/-- Calls that satisfy `P` may come first. -/
theorem endsWith_bind {p : Prog I ε α} {f : α → Prog I ε β}
    (hp : p.Uses P) (hf : ∀ a, (f a).EndsWith P Q) :
    (p >>= f).EndsWith P Q := by
  show (p.bind f).EndsWith P Q
  induction p with
  | ret a => exact hf a
  | raise e => exact trivial
  | call op k ih => exact Or.inl ⟨hp.1, fun r => ih r (hp.2 r)⟩

/-- What follows may make no call. -/
theorem EndsWith.andThen {p : Prog I ε α} {f : α → Prog I ε β}
    (hp : p.EndsWith P Q) (hf : ∀ a, ∃ b, f a = pure b) :
    (p >>= f).EndsWith P Q := by
  show (p.bind f).EndsWith P Q
  induction p with
  | ret a =>
      obtain ⟨b, hb⟩ := hf a
      show (f a).EndsWith P Q
      rw [hb]
      exact trivial
  | raise e => exact trivial
  | call op k ih =>
      rcases hp with ⟨hop, hk⟩ | ⟨hop, hk⟩
      · exact Or.inl ⟨hop, fun r => ih r (hk r)⟩
      · refine Or.inr ⟨hop, fun r => uses_bind (hk r) (fun a => ?_)⟩
        obtain ⟨b, hb⟩ := hf a
        rw [hb]
        exact trivial

/-- The calls of its runs. -/
theorem EndsWith.calls {p : Prog I ε α} (hp : p.EndsWith P Q)
    (h : Handler I ε σ) (s : σ) :
    (∀ op ∈ p.calls h s, P op) ∨
      ∃ init op, p.calls h s = init ++ [op] ∧ Q op ∧ ∀ o ∈ init, P o := by
  induction p generalizing s with
  | ret a => exact Or.inl (fun op hop => absurd hop List.not_mem_nil)
  | raise e => exact Or.inl (fun op hop => absurd hop List.not_mem_nil)
  | call op k ih =>
      rw [calls_call]
      rcases hp with ⟨hop, hk⟩ | ⟨hop, hk⟩
      · rcases ih _ (hk _) (h op s).2 with hall | ⟨init, last, heq, hlast, hinit⟩
        · refine Or.inl (fun o ho => ?_)
          rcases List.mem_cons.mp ho with rfl | ho
          · exact hop
          · exact hall o ho
        · refine Or.inr ⟨op :: init, last, by rw [heq]; rfl, hlast, ?_⟩
          intro o ho
          rcases List.mem_cons.mp ho with rfl | ho
          · exact hop
          · exact hinit o ho
      · -- nothing is called after the last call
        have hnil : (k (h op s).1).calls h (h op s).2 = [] := by
          rw [List.eq_nil_iff_forall_not_mem]
          exact fun o ho => (hk _).calls h _ o ho
        refine Or.inr ⟨[], op, by rw [hnil]; rfl, hop, ?_⟩
        exact fun o ho => absurd ho List.not_mem_nil

theorem Meets.imp {h : Handler I ε σ} {R R' : σ → I.Op → Prop}
    (hR : ∀ s op, R s op → R' s op) {p : Prog I ε α} {s : σ}
    (hp : p.Meets h R s) : p.Meets h R' s := by
  induction p generalizing s with
  | ret a => exact trivial
  | raise e => exact trivial
  | call op k ih => exact ⟨hR s op hp.1, ih _ hp.2⟩

/-- What the other calls keep holds when the last one is made. -/
theorem EndsWith.meets {h : Handler I ε σ} {K : σ → Prop}
    {R : σ → I.Op → Prop} {p : Prog I ε α} (hp : p.EndsWith P Q)
    (hkeep : ∀ op s, P op → K s → K (h op s).2)
    (hother : ∀ op s, P op → R s op) (hlast : ∀ op s, Q op → K s → R s op)
    {s : σ} (hs : K s) : p.Meets h R s := by
  induction p generalizing s with
  | ret a => exact trivial
  | raise e => exact trivial
  | call op k ih =>
      rcases hp with ⟨hop, hk⟩ | ⟨hop, hk⟩
      · exact ⟨hother op s hop, ih _ (hk _) (hkeep op s hop hs)⟩
      · exact ⟨hlast op s hop hs,
          meets_of_uses ((hk _).imp (fun _ h => h.elim)) _⟩

/-! ## Values and errors -/

/-- Wherever its calls raise only errors in `E`, the program returns only
    values in `V` and raises only errors in `E`. -/
def Yields (V : α → Prop) (E : ε → Prop) : Prog I ε α → Prop
  | ret a => V a
  | raise e => E e
  | call _ k => (∀ a, (k (.ok a)).Yields V E) ∧
      ∀ e, E e → (k (.error e)).Yields V E

variable {V : α → Prop} {W : β → Prop} {E : ε → Prop}

/-- A single call returns anything. -/
theorem yields_perform (op : I.Op) :
    (perform op : Prog I ε (I.Res op)).Yields (fun _ => True) E :=
  ⟨fun _ => trivial, fun _ he => he⟩

/-- Sequencing: what follows may rely on the value. -/
theorem yields_bind {p : Prog I ε α} {f : α → Prog I ε β}
    (hp : p.Yields V E) (hf : ∀ a, V a → (f a).Yields W E) :
    (p >>= f).Yields W E := by
  show (p.bind f).Yields W E
  induction p with
  | ret a => exact hf a hp
  | raise e => exact hp
  | call op k ih =>
      exact ⟨fun a => ih _ (hp.1 a), fun e he => ih _ (hp.2 e he)⟩

/-- An `except` clause sees only errors in `E`. -/
theorem yields_catching {p : Prog I ε α} {f : ε → Prog I ε α}
    (hp : p.Yields V E) (hf : ∀ e, E e → (f e).Yields V E) :
    (tryCatch p f).Yields V E := by
  show (p.catching f).Yields V E
  induction p with
  | ret a => exact hp
  | raise e => exact hf e hp
  | call op k ih =>
      exact ⟨fun a => ih _ (hp.1 a), fun e he => ih _ (hp.2 e he)⟩

theorem yields_ite {c : Prop} [Decidable c] {p q : Prog I ε α}
    (hp : p.Yields V E) (hq : q.Yields V E) :
    (if c then p else q).Yields V E := by
  by_cases hc : c
  · rw [if_pos hc]
    exact hp
  · rw [if_neg hc]
    exact hq

/-- A loop over a list whose body keeps `W`. -/
theorem yields_foldlM {f : β → α → Prog I ε β} {xs : List α}
    (hf : ∀ b x, x ∈ xs → W b → (f b x).Yields W E) {b : β} (hb : W b) :
    (xs.foldlM f b).Yields W E := by
  induction xs generalizing b with
  | nil => exact hb
  | cons x xs ih =>
      rw [List.foldlM_cons]
      refine yields_bind (hf b x (List.mem_cons_self ..) hb) (fun c hc => ?_)
      exact ih (fun d y hy => hf d y (List.mem_cons_of_mem x hy)) hc

theorem Yields.imp {V' : α → Prop} {p : Prog I ε α}
    (hV : ∀ a, V a → V' a) (hp : p.Yields V E) : p.Yields V' E := by
  induction p with
  | ret a => exact hV a hp
  | raise e => exact hp
  | call op k ih =>
      exact ⟨fun a => ih _ (hp.1 a), fun e he => ih _ (hp.2 e he)⟩

/-- A run raises only errors in `E` when its calls do, from states in `K`. -/
theorem Yields.run {p : Prog I ε α} (hp : p.Yields V E) (hu : p.Uses P)
    {h : Handler I ε σ} {K : σ → Prop}
    (hkeep : ∀ op s, P op → K s → K (h op s).2)
    (hh : ∀ op s e, P op → K s → (h op s).1 = .error e → E e)
    {s : σ} (hs : K s) {e : ε} (he : (p.run h s).1 = .error e) : E e := by
  induction p generalizing s with
  | ret a => exact nomatch he
  | raise e' =>
      obtain rfl := Except.error.inj he
      exact hp
  | call op k ih =>
      refine ih (h op s).1 ?_ (hu.2 _) (hkeep op s hu.1 hs) he
      cases hans : (h op s).1 with
      | ok a => exact hp.1 a
      | error e' => exact hp.2 e' (hh op s e' hu.1 hs hans)

end Prog

end CvProg

import ClusterVision.ProgProofs

/-! # Lists that are served in pages

    A server answers a list call with one page and, when more follows, a
    continuation token.  The token names a snapshot of the list and a position
    in it, so later writes do not change the pages that are still to come.
    `followPages` is the client's loop: it fetches a page, handles its items,
    and goes on while a token comes back.  `run_followPages` says that this
    loop handles the snapshot of its first call, item by item. -/

namespace CvPage

open CvProg

/-- A continuation token: what remains of the snapshot it names. -/
structure Cursor (α : Type) where
  rest : List α
deriving DecidableEq

/-- One page of a list, with the token of the next page if there is one. -/
structure Page (α : Type) where
  items : List α
  next : Option (Cursor α)
deriving DecidableEq

/-- The page of at most `limit` items (no limit, and `limit=0`: all items)
    that starts the list `xs`, or that a token asks for. -/
def servePage {α : Type} (limit : Option Nat) (cursor : Option (Cursor α))
    (xs : List α) : Page α :=
  let rest := match cursor with
    | none => xs
    | some c => c.rest
  match limit with
  | none => ⟨rest, none⟩
  | some 0 => ⟨rest, none⟩
  | some (n + 1) =>
      ⟨rest.take (n + 1),
        if n + 1 < rest.length then some ⟨rest.drop (n + 1)⟩ else none⟩

variable {I : Iface} {ε σ α β : Type}

/-- The loop over all pages: at most `fuel` of them, then it gives up with
    the error `stuck`. -/
def followPages (stuck : ε) (fetch : Option (Cursor α) → Prog I ε (Page α))
    (body : β → α → Prog I ε β) :
    Nat → Option (Cursor α) → β → Prog I ε β
  | 0, _, _ => throw stuck
  | fuel + 1, cursor, b => do
      let page ← fetch cursor
      let b ← page.items.foldlM body b
      match page.next with
      | none => pure b
      | some c => followPages stuck fetch body fuel (some c) b

/-- A loop over a list in two parts. -/
theorem run_foldlM_append (h : Handler I ε σ) (body : β → α → Prog I ε β)
    (xs ys : List α) (b : β) (s : σ) :
    ((xs ++ ys).foldlM body b).run h s
      = Prog.andThen ((xs.foldlM body b).run h s)
          (fun b => (ys.foldlM body b).run h) := by
  induction xs generalizing b s with
  | nil => rfl
  | cons x xs ih =>
      rw [List.cons_append, List.foldlM_cons, List.foldlM_cons,
        Prog.run_bind, Prog.run_bind]
      cases (body b x).run h s with
      | mk r t =>
          cases r with
          | ok c => exact ih c t
          | error e => rfl

/-- What one page holds, and what its token leaves, is the whole rest. -/
theorem servePage_token (n : Nat) (xs ys : List α) :
    servePage (some (n + 1)) (some ⟨xs⟩) ys
      = servePage (some (n + 1)) none xs := rfl

/-- From a token on, the loop handles what remains of the snapshot. -/
theorem run_followPages_rest {h : Handler I ε σ} {stuck : ε} {n : Nat}
    {fetch : Option (Cursor α) → Prog I ε (Page α)}
    (hnext : ∀ xs s, (fetch (some ⟨xs⟩)).run h s
      = (.ok (servePage (some (n + 1)) none xs), s))
    (body : β → α → Prog I ε β) :
    ∀ (fuel : Nat) (xs : List α) (b : β) (s : σ), xs.length < fuel →
      (followPages stuck fetch body fuel (some ⟨xs⟩) b).run h s
        = (xs.foldlM body b).run h s := by
  intro fuel
  induction fuel with
  | zero => exact fun xs b s hlen => absurd hlen (Nat.not_lt_zero _)
  | succ fuel ih =>
      intro xs b s hlen
      rw [followPages]
      rw [Prog.run_bind, hnext, Prog.andThen_ok, Prog.run_bind]
      -- the items of the page first, then the rest behind its token
      have hsplit : xs = xs.take (n + 1) ++ xs.drop (n + 1) :=
        (List.take_append_drop (n + 1) xs).symm
      conv_rhs => rw [hsplit]
      rw [run_foldlM_append]
      congr 1
      funext c t
      by_cases hn : n + 1 < xs.length
      · simp only [servePage, if_pos hn]
        exact ih _ c t (by rw [List.length_drop]; omega)
      · simp only [servePage, if_neg hn]
        rw [List.drop_eq_nil_of_le (Nat.le_of_not_lt hn)]
        rfl

/-- The loop handles the snapshot of its first call, item by item. -/
theorem run_followPages {h : Handler I ε σ} {stuck : ε} {n : Nat}
    {fetch : Option (Cursor α) → Prog I ε (Page α)} (view : σ → List α)
    (hfirst : ∀ s, (fetch none).run h s
      = (.ok (servePage (some (n + 1)) none (view s)), s))
    (hnext : ∀ xs s, (fetch (some ⟨xs⟩)).run h s
      = (.ok (servePage (some (n + 1)) none xs), s))
    (body : β → α → Prog I ε β) {fuel : Nat} (b : β) (s : σ)
    (hfuel : (view s).length < fuel) :
    (followPages stuck fetch body fuel none b).run h s
      = ((view s).foldlM body b).run h s := by
  rw [← run_followPages_rest hnext body fuel (view s) b s hfuel]
  cases fuel with
  | zero => exact absurd hfuel (Nat.not_lt_zero _)
  | succ fuel =>
      unfold followPages
      rw [Prog.run_bind, Prog.run_bind, hfirst, hnext]

/-- The loop uses what its two parts use. -/
theorem uses_followPages {P : I.Op → Prop} {stuck : ε}
    {fetch : Option (Cursor α) → Prog I ε (Page α)}
    {body : β → α → Prog I ε β} (hfetch : ∀ cursor, (fetch cursor).Uses P)
    (hbody : ∀ b x, (body b x).Uses P) :
    ∀ (fuel : Nat) (cursor : Option (Cursor α)) (b : β),
      (followPages stuck fetch body fuel cursor b).Uses P := by
  intro fuel
  induction fuel with
  | zero => exact fun cursor b => trivial
  | succ fuel ih =>
      intro cursor b
      rw [followPages]
      refine Prog.uses_bind (hfetch cursor) (fun page => ?_)
      refine Prog.uses_bind (Prog.uses_foldlM (fun b x _ => hbody b x) b) ?_
      intro c
      cases page.next with
      | none => exact trivial
      | some next => exact ih (some next) c

/-! ## Tokens that are texts

    On the wire a token is a text of the server's own making, and the client
    takes a missing token and an empty one for the end of the list.  How many
    items a page has, and whether it has any, is the server's choice too:
    `ServedIn` only says that its answers are linked. -/

/-- One page, as a client of the Kubernetes API reads it. -/
structure ListResult (α : Type) where
  items : List α
  token : Option String
deriving DecidableEq

/-- Does the loop go on with this token?  A missing token and an empty one
    are false in a condition. -/
def goesOn (token : Option String) : Bool :=
  token.isSome && token != some ""

/-- The loop over all pages that texts link: the call passes the token on
    only when it is true, and only a true token makes the loop go on. -/
def followTokens (stuck : ε) (list : Option String → Prog I ε (ListResult α))
    (body : β → α → Prog I ε β) :
    Nat → Option String → β → Prog I ε β
  | 0, _, _ => throw stuck
  | fuel + 1, cursor, b => do
      let result ← list (if goesOn cursor then cursor else none)
      let b ← result.items.foldlM body b
      if goesOn result.token then
        followTokens stuck list body fuel result.token b
      else pure b

/-- From `s` on, the answers to the token `cursor` and to the tokens that
    come back are the pages `pages`; the last one leaves the server in `t`. -/
inductive ServedIn (h : Handler I ε σ)
    (list : Option String → Prog I ε (ListResult α)) :
    Option String → σ → List (List α) → σ → Prop
  | last {cursor token : Option String} {s t : σ} {items : List α}
      (hpage : (list cursor).run h s = (.ok ⟨items, token⟩, t))
      (hend : goesOn token = false) : ServedIn h list cursor s [items] t
  | more {cursor token : Option String} {s t u : σ} {items : List α}
      {pages : List (List α)}
      (hpage : (list cursor).run h s = (.ok ⟨items, token⟩, t))
      (hnext : goesOn token = true)
      (hrest : ServedIn h list token t pages u) :
      ServedIn h list cursor s (items :: pages) u

/-- A loop whose body issues no call. -/
theorem run_foldlM_pure (h : Handler I ε σ) (f : β → α → β) (xs : List α) :
    ∀ (b : β) (s : σ),
      (xs.foldlM (fun b x => (pure (f b x) : Prog I ε β)) b).run h s
        = (.ok (xs.foldl f b), s) := by
  induction xs with
  | nil => exact fun b s => rfl
  | cons x xs ih =>
      intro b s
      rw [List.foldlM_cons, Prog.run_bind, Prog.run_pure, Prog.andThen_ok,
        List.foldl_cons]
      exact ih (f b x) s

/-- The token of the next call: a true one is passed on as it is. -/
theorem cursor_passed {cursor : Option String}
    (hcursor : cursor = none ∨ goesOn cursor = true) :
    (if goesOn cursor = true then cursor else none) = cursor := by
  rcases hcursor with hnone | htrue
  · rw [hnone, ite_self]
  · rw [if_pos htrue]

/-- As many rounds as there are pages are enough, and they hand over every
    item of every page once, in the order of the pages. -/
theorem run_followTokens {h : Handler I ε σ} {stuck : ε}
    {list : Option String → Prog I ε (ListResult α)} (f : β → α → β)
    {cursor : Option String} {s t : σ} {pages : List (List α)}
    (hserved : ServedIn h list cursor s pages t) :
    ∀ (fuel : Nat) (b : β), cursor = none ∨ goesOn cursor = true →
      pages.length ≤ fuel →
        (followTokens stuck list (fun b x => pure (f b x)) fuel cursor b).run
            h s
          = (.ok (pages.flatten.foldl f b), t) := by
  induction hserved with
  | last hpage hend =>
      intro fuel b hcursor hfuel
      obtain ⟨fuel, rfl⟩ : ∃ n, fuel = n + 1 := Nat.exists_eq_add_of_le' hfuel
      rw [followTokens, Prog.run_bind, cursor_passed hcursor, hpage,
        Prog.andThen_ok, Prog.run_bind, run_foldlM_pure, Prog.andThen_ok,
        if_neg (Bool.not_eq_true _ ▸ hend), Prog.run_pure,
        List.flatten_singleton]
  | more hpage hnext hrest ih =>
      intro fuel b hcursor hfuel
      obtain ⟨fuel, rfl⟩ := Nat.exists_eq_add_of_le'
        (Nat.le_trans (Nat.le_add_left 1 _) hfuel)
      rw [followTokens, Prog.run_bind, cursor_passed hcursor, hpage,
        Prog.andThen_ok, Prog.run_bind, run_foldlM_pure, Prog.andThen_ok,
        if_pos hnext, List.flatten_cons, List.foldl_append]
      exact ih fuel _ (Or.inr hnext) (Nat.le_of_succ_le_succ hfuel)

end CvPage

import ClusterVision.Backend
import ClusterVision.PoolProofs

/-! # The limit on logins

    `check_login_rate_limit` of `services/auth_service.py`.  A call is one
    transaction on `login_attempts`: it prunes the old attempts of an address,
    counts those that are left, and writes its own.  Transactions are read
    committed: a statement sees what others have committed before it, and what
    its own transaction has done. -/

namespace CvLimit

open CvProg CvPool CvIso CvBackend

/-! ## The service -/

/-- `LoginAttempt`. -/
structure LoginAttempt where
  id : String
  ip : String
  attemptedAt : Time
deriving DecidableEq

/-- What a call asks of the clock, of `uuid` and of its session. -/
inductive LimitOp where
  | now
  | uuid4
  | deleteAttempts (ip : String) (windowStart : Time)
  | countAttempts (ip : String)
  | insertAttempt (a : LoginAttempt)
  | commit
  | close

/-- What is answered. -/
def LimitOp.Res : LimitOp → Type
  | .now => Time
  | .uuid4 => String
  | .countAttempts _ => Nat
  | .deleteAttempts _ _ | .insertAttempt _ | .commit | .close => Unit

def limitCalls : Iface := ⟨LimitOp, LimitOp.Res⟩

/-- `_LOGIN_RATE_LIMIT`. -/
def loginRateLimit : Nat := 10

/-- `_LOGIN_RATE_WINDOW`, in minutes. -/
def loginRateWindow : Nat := 5

/-- The answer to one attempt too many. -/
def tooManyAttempts : Exn :=
  .httpException 429 "Too many login attempts — try again later"

/-- A statement or another call. -/
def ask (op : LimitOp) : Prog limitCalls Exn op.Res :=
  Prog.perform (I := limitCalls) op

/-- `t - timedelta(minutes=n)`. -/
def minusMinutes (t : Time) (n : Int) : Except Exn Time :=
  match t.addMinutes (-n) with
  | some start => .ok start
  | none => .error .overflowError

/-- `now - _LOGIN_RATE_WINDOW`. -/
def windowStart (now : Time) : Except Exn Time :=
  minusMinutes now loginRateWindow

/-- The end of `check_login_rate_limit` at the limit: the old attempts are gone
    all the same. -/
def refuseAttempt : Prog limitCalls Exn Unit := do
  let _ : Unit ← ask .commit
  throw tooManyAttempts

/-- Its end below the limit: an attempt of its own. -/
def recordAttempt (ip : String) (now : Time) : Prog limitCalls Exn Unit := do
  let id : String ← ask .uuid4
  let _ : Unit ← ask (.insertAttempt ⟨id, ip, now⟩)
  ask .commit

/-- `check_login_rate_limit`. -/
def checkLoginRateLimit (ip : String) : Prog limitCalls Exn Unit := do
  let now : Time ← ask .now
  let start ← Prog.ofExcept (windowStart now)
  Prog.ensuring (do
    let _ : Unit ← ask (.deleteAttempts ip start)
    let count : Nat ← ask (.countAttempts ip)
    if loginRateLimit ≤ count then refuseAttempt
    else recordAttempt ip now) (ask .close)

/-! ## The address -/

/-- `ch.isspace()`. -/
def isSpace (ch : Char) : Bool :=
  decide ((9 ≤ ch.toNat ∧ ch.toNat ≤ 13) ∨ (28 ≤ ch.toNat ∧ ch.toNat ≤ 32) ∨
    (8192 ≤ ch.toNat ∧ ch.toNat ≤ 8202) ∨
    ch.toNat ∈ [133, 160, 5760, 8232, 8233, 8239, 8287, 12288])

/-- `text.strip()`. -/
def strip (text : List Char) : List Char :=
  ((text.dropWhile isSpace).reverse.dropWhile isSpace).reverse

/-- `_client_ip`, given the header `x-forwarded-for` and the host of
    `request.client`. -/
def clientIp (forwarded host : Option String) : String :=
  match forwarded.filter (fun text => decide (text ≠ "")) with
  | some text =>
      String.ofList (strip (((text.toList.splitOn ',').getLast?).getD []))
  | none => host.getD "unknown"

/-! ## Transactions -/

/-- What a transaction has deleted and inserted so far. -/
structure Tx where
  deleted : List LoginAttempt
  inserted : List LoginAttempt

def Tx.empty : Tx := ⟨[], []⟩

/-- The clock, the ids that `uuid4` has given, the committed attempts, and the
    transaction of each call. -/
structure LimitStore (ι : Type) where
  clock : Time
  ids : List String
  committed : List LoginAttempt
  tx : ι → Tx

/-- Between calls: nobody has a transaction open. -/
def LimitStore.idle (ι : Type) (clock : Time) (ids : List String)
    (committed : List LoginAttempt) : LimitStore ι :=
  ⟨clock, ids, committed, fun _ => .empty⟩

variable {ι : Type} [DecidableEq ι]

/-- The attempts of an address that a call sees. -/
def LimitStore.visible (s : LimitStore ι) (t : ι) (ip : String) :
    List LoginAttempt :=
  (s.committed ++ (s.tx t).inserted).filter
    (fun a => decide (a.ip = ip ∧ a ∉ (s.tx t).deleted))

/-- The store with another transaction of a call. -/
def LimitStore.withTx (s : LimitStore ι) (t : ι) (tx : Tx) : LimitStore ι :=
  { s with tx := Function.update s.tx t tx }

/-- The attempts after the commit of a call. -/
def LimitStore.published (s : LimitStore ι) (t : ι) : List LoginAttempt :=
  (s.committed ++ (s.tx t).inserted).filter
    (fun a => decide (a ∉ (s.tx t).deleted))

/-- What a statement leaves.  A `DELETE` that waits for another transaction
    finds its rows gone, so not to wait adds no outcome. -/
def LimitStore.next (s : LimitStore ι) (t : ι) : LimitOp → LimitStore ι
  | .deleteAttempts ip start =>
      s.withTx t { s.tx t with
        deleted := (s.tx t).deleted ++ (s.visible t ip).filter
          (fun a => decide (a.attemptedAt.instant < start.instant)) }
  | .insertAttempt a =>
      s.withTx t { s.tx t with inserted := (s.tx t).inserted ++ [a] }
  | .commit =>
      { s.withTx t .empty with committed := s.published t }
  | .close => s.withTx t .empty
  | _ => s

/-- How a call can be answered.  All workers read one clock, which is never set
    back, and `uuid4` never repeats itself. -/
def answers : Answers limitCalls Exn (LimitStore ι) ι :=
  fun t op s r s' =>
    match op, r with
    | .now, .ok now => s.clock ≤ now ∧ s' = { s with clock := now }
    | .uuid4, .ok id => id ∉ s.ids ∧ s' = { s with ids := id :: s.ids }
    | .countAttempts ip, .ok n => n = (s.visible t ip).length ∧ s' = s
    | op, .ok _ => s' = s.next t op
    | _, .error _ => False

end CvLimit

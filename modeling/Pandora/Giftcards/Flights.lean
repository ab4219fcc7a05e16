import Pandora.Foundation.Locks
import Pandora.Giftcards.Redeem

/-!
# Redemptions, interleaved

Many users redeem cards at once.  A redemption is one transaction, but not one step: it waits for
the lock on the row of its code and keeps it to its end; it reads the template; where there is a
limit for each user it waits for the advisory lock of the user and the template, keeps that as well,
and counts; it finds where the card lands; then it marks the code, gives what the card gives and
commits (`give`).  Between any two of these others commit, and each statement sees what has been
committed by then.

What the subscription module, the ledger and the administrators do meanwhile is one step, of which
nothing is known but that it leaves the codes and the redemptions alone.
-/

namespace Pandora.Giftcards

open Database Function Tx
open Subscriptions (Entitlement)

/-- What the rest of the program does not touch. -/
structure Frame (s s' : State) : Prop where
  codes : s'.codes = s.codes
  templates : s'.templates = s.templates
  redemptions : s'.redemptions = s.redemptions

instance : Std.Refl Frame := ⟨fun _ => ⟨rfl, rfl, rfl⟩⟩

instance : IsTrans State Frame :=
  ⟨fun _ _ _ h h' => ⟨h'.codes.trans h.codes, h'.templates.trans h.templates,
    h'.redemptions.trans h.redemptions⟩⟩

structure Request where
  env : Env
  input : Input

/-- What a redemption does next. -/
inductive Stage
  /-- It waits for the code. -/
  | begun (hash : ℕ)
  | locked (code : Code)
  /-- It waits for the lock of the user and the template. -/
  | limited (code : Code) (t : Template)
  | counting (code : Code) (t : Template)
  | checked (code : Code) (t : Template)
  | placed (code : Code) (t : Template) (place : Place)

structure Flight where
  req : Request
  user : UUID
  stage : Stage

/-- How a redemption has ended. -/
inductive Outcome
  | failed
  | expired
  | granted
  deriving DecidableEq

/-- The tables, the transactions that are open, and the holders of the locks.  The codes whose grant
has been committed and the outcomes are written down for the statements. -/
structure Config where
  tables : State
  flights : ℕ → Option Flight
  codeLocks : Locks UUID
  userLocks : Locks (UUID × UUID)
  grants : List UUID := []
  outcomes : List (ℕ × Outcome) := []

open Config

/-- Nothing is being redeemed. -/
def Config.idle (s : State) : Config := {
  tables := s, flights := fun _ => none, codeLocks := fun _ => none, userLocks := fun _ => none }

/-- The mark on the code, and what follows it. -/
def give (env : Env) (k : Ticket) : Action Granted := do
  mark env k
  finish env k

variable {outcome : Outcome} {stage : Stage} {f : Flight} {t' : ℕ}

namespace Config

variable (c : Config)

def advance (t : ℕ) (f : Flight) (stage : Stage) : Config :=
  { c with flights := update c.flights t (some { f with stage := stage }) }

/-- The transaction is over, and its locks are free again. -/
def close (t : ℕ) (outcome : Outcome) : Config :=
  { c with
    flights := update c.flights t none
    codeLocks := c.codeLocks.release t
    userLocks := c.userLocks.release t
    outcomes := (t, outcome) :: c.outcomes }

variable {t : ℕ}

variable {c} in
@[simp] theorem advance_self :
    (c.advance t f stage).flights t = some { f with stage := stage } := update_self _ _ _

variable {c} in
theorem advance_of_ne (hne : t' ≠ t) :
    (c.advance t f stage).flights t' = c.flights t' := update_of_ne hne _ _

variable {c} in
@[simp] theorem close_self : (c.close t outcome).flights t = none :=
  update_self _ _ _

variable {c} in
theorem close_of_ne (hne : t' ≠ t) :
    (c.close t outcome).flights t' = c.flights t' := update_of_ne hne _ _

/-- The checks before the transaction, and of the account. -/
def begin (t : ℕ) (req : Request) : Config :=
  match c.flights t, portalUser req.env, normalizeCode req.input.code with
  | none, .ok user, some code =>
    if req.env.isDeleted user = .ok false then
      c.advance t ⟨req, user, .begun (req.env.hash code)⟩ (.begun (req.env.hash code))
    else { c with outcomes := (t, .failed) :: c.outcomes }
  | none, _, _ => { c with outcomes := (t, .failed) :: c.outcomes }
  | some _, _, _ => c

/-- `CodeByHash` with the lock, and the checks of the row. -/
def lockCode (t : ℕ) (f : Flight) (hash : ℕ) : Config :=
  match c.tables.codes.find? (·.hash = hash) with
  | none => c.close t .failed
  | some code =>
    if c.codeLocks code.id ≠ none then c
    else if code.status ≠ .unused then c.close t .failed
    else if ∃ e ∈ code.expiresAt, e ≤ f.req.env.now then
      close { c with
        tables := (updateCodeStatus code.id .unused .expired none).commit c.tables } t .expired
    else
      Config.advance { c with codeLocks := c.codeLocks.take t code.id } t f (.locked code)

/-- `loadTemplate` and `checkConditions`. -/
def readTemplate (t : ℕ) (f : Flight) (code : Code) : Config :=
  match c.tables.templates.find? (·.id = code.templateId) with
  | none => c.close t .failed
  | some tmpl =>
    if tmpl.status = .active ∧ checkConditions f.req.env f.user tmpl = .ok () then
      c.advance t f (if 0 < tmpl.maxUsePerUser then .limited code tmpl else .checked code tmpl)
    else c.close t .failed

/-- `LockUserTemplate`. -/
def lockUser (t : ℕ) (f : Flight) (code : Code) (tmpl : Template) : Config :=
  if c.userLocks (f.user, tmpl.id) = none then
    Config.advance { c with userLocks := c.userLocks.take t (f.user, tmpl.id) } t f
      (.counting code tmpl)
  else c

/-- The next statement of a redemption. -/
def turn (t : ℕ) (f : Flight) : Config :=
  match f.stage with
  | .begun hash => c.lockCode t f hash
  | .locked code => c.readTemplate t f code
  | .limited code tmpl => c.lockUser t f code tmpl
  | .counting code tmpl => match checkLimits c.tables f.user tmpl with
    | .ok _ => c.advance t f (.checked code tmpl)
    | .error _ => c.close t .failed
  | .checked code tmpl => match settlePlace f.req.env c.tables f.user tmpl f.req.input.choice with
    | .ok place => c.advance t f (.placed code tmpl place)
    | .error _ => c.close t .failed
  | .placed code tmpl place => match give f.req.env ⟨place, f.user, code.id, tmpl⟩ c.tables with
    | .ok (_, s') => close { c with tables := s', grants := c.grants ++ [code.id] } t .granted
    | .error _ => c.close t .failed

end Config

/-- What others may do to the tables. -/
structure Elsewhere where
  templates : List Template
  subs : List Entitlement
  subIds : (subs.map (·.id)).Nodup
  ledger : Ledger.State

inductive Label
  | begin (t : ℕ) (req : Request)
  | turn (t : ℕ)
  /-- A statement fails, or the request is cancelled. -/
  | abort (t : ℕ)
  | elsewhere (e : Elsewhere)

def Config.next (c : Config) : Label → Config
  | .begin t req => c.begin t req
  | .turn t => match c.flights t with
    | some f => c.turn t f
    | none => c
  | .abort t => match c.flights t with
    | some _ => c.close t .failed
    | none => c
  | .elsewhere e => { c with tables := { c.tables with
      templates := e.templates, subs := e.subs, subIds := e.subIds, ledger := e.ledger } }

/-! ## A redemption that nobody interrupts -/

/-- The next statements of the redemption 0. -/
def Config.turns (n : ℕ) (c : Config) : Config := (List.replicate n (Label.turn 0)).foldl next c

variable {input : Input} {s : State} {env : Env} {text : String}

section Alone

variable {c : Config} {n : ℕ}

theorem turns_over (h : c.flights 0 = none) : c.turns n = c := by
  induction n with
  | zero => rfl
  | succ n ih =>
    have hnext : c.next (.turn 0) = c := by
      show (match c.flights 0 with | some f => c.turn 0 f | none => c) = c
      rw [h]
    show turns n (c.next (.turn 0)) = c
    rw [hnext, ih]

theorem turns_succ (h : c.flights 0 = some f) : c.turns (n + 1) = (c.turn 0 f).turns n := by
  have hnext : c.next (.turn 0) = c.turn 0 f := by
    show (match c.flights 0 with | some f => c.turn 0 f | none => c) = c.turn 0 f
    rw [h]
  show turns n (c.next (.turn 0)) = _
  rw [hnext]

theorem turns_close : ((c.close 0 outcome).turns n).tables = c.tables := by
  rw [turns_over close_self]
  rfl

variable {req : Request} {user : UUID} {code : Code} {tmpl : Template}

theorem turns_placed {place : Place}
    (h : c.flights 0 = some ⟨req, user, .placed code tmpl place⟩) : (c.turns (n + 1)).tables =
      (give req.env ⟨place, user, code.id, tmpl⟩).commit c.tables := by
  rw [turns_succ h]
  simp only [turn, commit]
  cases give req.env ⟨place, user, code.id, tmpl⟩ c.tables with
  | error | ok => exact turns_close

/-- What a redemption leaves, from what its checks have found. -/
def leave (env : Env) (s : State) : Except Error (Code ⊕ Ticket) → State
  | .error _ => s
  | .ok (.inl code) => (updateCodeStatus code.id .unused .expired none).commit s
  | .ok (.inr k) => (give env k).commit s

theorem redeem_commit (env : Env) (input : Input) (s : State) :
    (redeem env input).commit s = leave env s (examine env input s) := by
  rw [commit, redeem, bind_eq, accept, read_bind]
  cases examine env input s with
  | error => rfl
  | ok x =>
    rw [ofExcept_bind_of_ok rfl]
    cases x with
    | inl => rfl
    | inr k =>
      rw [leave, commit, give, admission, bind_eq, bind_eq]
      rcases mark env k s with e | ⟨u, s₁⟩
      · rfl
      · have hadmitted : (pure (.admitted k) : Action Admission) s₁ = .ok (.admitted k, s₁) := rfl
        simp only [hadmitted]
        rw [bind_eq]
        cases finish env k s₁ with
        | error | ok => rfl

/-- From the limits on, the statements are those of `examineCard`. -/
theorem turns_checked (h : c.flights 0 = some ⟨req, user, .checked code tmpl⟩) :
    (c.turns (n + 2)).tables = leave req.env c.tables (do
      let place ← settlePlace req.env c.tables user tmpl req.input.choice
      pure (.inr ⟨place, user, code.id, tmpl⟩)) := by
  rw [turns_succ h]
  simp only [turn]
  cases settlePlace req.env c.tables user tmpl req.input.choice with
  | error => exact turns_close
  | ok => exact turns_placed advance_self

theorem turns_locked (h : c.flights 0 = some ⟨req, user, .locked code⟩)
    (hfree : ∀ p, c.userLocks p = none) : (c.turns (n + 5)).tables =
      leave req.env c.tables (examineCard req.env req.input user code c.tables) := by
  rw [turns_succ h, examineCard]
  simp only [turn, readTemplate]
  cases c.tables.templates.find? (·.id = code.templateId) with
  | none => exact turns_close
  | some t =>
    dsimp only
    split_ifs with hok hlimit
    · rw [turns_succ advance_self, hok.2, ensure_eq_ok (u := ()) |>.mpr hok.1]
      simp only [turn, lockUser]
      rw [if_pos (show (c.advance 0 _ _).userLocks _ = none from hfree _), turns_succ advance_self]
      show (turns _ (match checkLimits c.tables user t with | .ok _ => _ | .error _ => _)).tables =
        _
      cases checkLimits c.tables user t with
      | error => exact turns_close
      | ok => exact turns_checked advance_self
    · have hnone : checkLimits c.tables user t = .ok () :=
        ensure_eq_ok.mpr (.inl (Nat.eq_zero_of_not_pos hlimit))
      rw [hok.2, ensure_eq_ok (u := ()) |>.mpr hok.1, hnone]
      exact turns_checked advance_self
    · rw [turns_close]
      by_cases hactive : t.status = .active
      · rw [ensure_eq_ok (u := ()) |>.mpr hactive]
        cases hcond : checkConditions req.env user t with
        | error => rfl
        | ok => exact absurd ⟨hactive, hcond⟩ hok
      · rw [ensure, if_neg hactive]
        rfl

theorem turns_begun (h : c.flights 0 = some ⟨req, user, .begun (req.env.hash text)⟩)
    (hcodes : ∀ id, c.codeLocks id = none) (husers : ∀ p, c.userLocks p = none) :
    (c.turns 6).tables =
      leave req.env c.tables (examineCode req.env req.input user c.tables text) := by
  rw [turns_succ h, examineCode]
  simp only [turn, lockCode]
  cases c.tables.codes.find? (·.hash = req.env.hash text) with
  | none => exact turns_close
  | some code =>
    dsimp only
    rw [if_neg (not_not.mpr (hcodes code.id))]
    split_ifs with hused hexpired
    · exact turns_close
    · exact turns_close
    · exact turns_locked advance_self husers

/-- **A redemption that nobody interrupts is the transaction `redeem`.** -/
theorem turns_redeem (req : Request) (s : State) :
    (((idle s).next (.begin 0 req)).turns 6).tables = (redeem req.env req.input).commit s := by
  have hfails : turns 6 { idle s with outcomes := (0, .failed) :: [] } = _ := turns_over rfl
  rw [redeem_commit, examine]
  show (((idle s).begin 0 req).turns 6).tables = _
  unfold begin
  cases portalUser req.env with
  | error => exact congrArg tables hfails
  | ok user =>
    cases normalizeCode req.input.code with
    | none => exact congrArg tables hfails
    | some text =>
      show (turns 6 (if req.env.isDeleted user = .ok false then _ else _)).tables =
        leave req.env s (req.env.isDeleted user >>= _)
      cases req.env.isDeleted user with
      | error => exact congrArg tables hfails
      | ok deleted => cases deleted with
        | true => exact congrArg tables hfails
        | false => exact turns_begun advance_self (fun _ => rfl) fun _ => rfl

end Alone

end Pandora.Giftcards

import Mathlib.Algebra.BigOperators.Intervals
import Pandora.Dataplane.Uplink
import Pandora.Foundation.Clock
import Pandora.Foundation.Runs

/-!
# The sessions of an inbound

The broker of an inbound keeps the queues of its sessions across requests.  A session is there
before anybody has been authenticated, so sessions that are not count against limits: how many
there are, how many bytes the uplink of one may hold, and how many all of them.

A call takes the lock of the broker and then those of the queues, one after another.  What is left
of a call when it has let go of the lock of the broker is a `Task`.

Numbers have 64 bits.  A packet with the largest number makes the queue think that the next number
is zero, and `AppendWait` then puts its packet over the one that is there (`overwritten`).
-/

namespace Pandora.Dataplane.Broker

open List Function Keyed Nat Finset

/-! ## Calls -/

/-- `xhttpPacketSession`. -/
structure Session where
  id : String
  uplink : ℕ
  lastSeen : Time
  unauth : Bool

/-- What a call has yet to do when it has let go of the broker. -/
inductive Task
  /-- `Authenticated`: `leaveBudget`. -/
  | leave (i : ℕ)
  /-- `Close` and `GC`: `Close` of the uplink. -/
  | close (i : ℕ) (err : Option String)
  /-- `Close` and `GC`: `discard` of the uplink. -/
  | discard (i : ℕ)
  deriving DecidableEq

def Task.uplink : Task → ℕ
  | .leave i | .close i _ | .discard i => i

/-- `XHTTPPacketBroker`, with its limits, and the uplinks that have been made. -/
structure Config where
  maxPending : ℕ
  idleTimeout : ℤ
  maxSessions : ℕ
  maxUnauth : ℕ
  unauthSessionBytes : ℤ
  budget : Budget
  sessions : Keyed Session.id := ∅
  unauth : ℤ := 0
  uplinks : ℕ → Uplink := fun _ => { queue := { maxPending := 0 } }
  made : ℕ := 0
  tasks : List Task := []

def xhttpBrokerIdle : ℤ := 5 * 60 * 1000000000

def xhttpMaxSessions : ℕ := 8192

def xhttpMaxUnauthSessions : ℕ := 256

/-- `newXHTTPSessionBroker`, from `MaxBufferedPosts`, which has to be positive, and the end of
`MaxPost`. -/
def newXHTTPSessionBroker (maxBufferedPosts : ℕ) (maxPost : ℤ) : Config :=
  let post := if maxPost ≤ 0 then 1000000 else maxPost
  { maxPending := maxBufferedPosts
    idleTimeout := xhttpBrokerIdle
    maxSessions := xhttpMaxSessions
    maxUnauth := xhttpMaxUnauthSessions
    unauthSessionBytes := 2 * post
    budget := { limit := 16 * post } }

/-- `admit`: there is room for another session. -/
def Config.HasRoom (c : Config) : Prop :=
  ¬(0 < c.maxSessions ∧ c.maxSessions ≤ c.sessions.values.length) ∧
    ¬(0 < c.maxUnauth ∧ (c.maxUnauth : ℤ) ≤ c.unauth)

instance (c : Config) : Decidable c.HasRoom := inferInstanceAs (Decidable (_ ∧ _))

namespace Config

def openDuplex (c : Config) (id : String) (now : Time) : Config :=
  if id = "" then c
  else
    match c.sessions.get id with
    | some s => { c with sessions := c.sessions.put { s with lastSeen := now } }
    | none =>
      if c.HasRoom then
        { c with
          sessions := c.sessions.put ⟨id, c.made, now, true⟩
          unauth := c.unauth + 1
          uplinks := update c.uplinks c.made (.fresh c.maxPending c.unauthSessionBytes)
          made := c.made + 1 }
      else c

/-- `Authenticated`, up to the queue. -/
def authenticated (c : Config) (id : String) : Config :=
  match c.sessions.get id with
  | none => c
  | some s =>
    if s.unauth then
      { c with
        sessions := c.sessions.put { s with unauth := false }
        unauth := c.unauth - 1
        tasks := .leave s.uplink :: c.tasks }
    else c

/-- The sessions are taken out, and their uplinks are to be closed. -/
def drop (c : Config) (out : List Session) (err : Option String) : Config :=
  { c with
    sessions := c.sessions.eraseAll (out.map (·.id))
    unauth := c.unauth - (out.countP (·.unauth) : ℕ)
    tasks := out.map (fun s => Task.close s.uplink err) ++ c.tasks }

/-- `Close`, up to the queues. -/
def close (c : Config) (id : String) (err : Option String) : Config :=
  match c.sessions.get id with
  | none => c
  | some s => c.drop [s] err

/-- The sessions that have been idle for too long. -/
def expired (c : Config) (now : Time) : List Session :=
  c.sessions.values.filter fun s => c.idleTimeout ≤ Time.sub now s.lastSeen

/-- `GC`, up to the queues. -/
def gc (c : Config) (now : Time) : Config :=
  c.drop (c.expired now) (some "xhttp packet session expired")

/-- An uplink and the budget after a call. -/
def set (c : Config) (i : ℕ) (r : Budget × Uplink) : Config :=
  { c with budget := r.1, uplinks := update c.uplinks i r.2 }

/-- A call to an uplink that has been made. -/
def onUplink (c : Config) (i : ℕ) (f : Uplink → Budget → Budget × Uplink) : Config :=
  if i < c.made then c.set i (f (c.uplinks i) c.budget) else c

/-- The next thing a call has to do. -/
def work (c : Config) (t : Task) : Config :=
  let rest := c.tasks.erase t
  match t with
  | .leave i => { c.set i ((c.uplinks i).leave c.budget) with tasks := rest }
  | .close i err =>
    { c.set i (c.budget, (c.uplinks i).close err) with tasks := .discard i :: rest }
  | .discard i => { c.set i ((c.uplinks i).discard c.budget) with tasks := rest }

end Config

inductive Label
  | openDuplex (id : String) (now : Time)
  | push (i : ℕ) (p : Packet)
  /-- A round of `AppendWait`. -/
  | append (i : ℕ) (payload : List UInt8)
  | read (i : ℕ)
  | resume (i : ℕ) (seq : ℕ)
  | authenticated (id : String)
  | close (id : String) (err : Option String)
  | gc (now : Time)
  | work (t : Task)

def next (c : Config) : Label → Config
  | .openDuplex id now => c.openDuplex id now
  | .push i p => c.onUplink i fun u b => u.push b p
  | .append i payload => c.onUplink i fun u b => u.append b payload
  | .read i => c.onUplink i Uplink.read
  | .resume i seq => c.onUplink i fun u b => u.resume b seq
  | .authenticated id => c.authenticated id
  | .close id err => c.close id err
  | .gc now => c.gc now
  | .work t => if t ∈ c.tasks then c.work t else c

/-! ## What is claimed -/

/-- **The order of the packets and the limits.** -/
structure Config.Sound (c : Config) : Prop where
  order : ∀ i < c.made, ∃ n, Follows (c.uplinks i).log n
  payload : ∀ i < c.made, ∀ p, .read p ∈ (c.uplinks i).log →
    (c.uplinks i).first p.seq = some p.payload
  used : c.budget.used = ∑ i ∈ Finset.range c.made,
    if (c.uplinks i).queue.budgeted then totalSize (c.uplinks i).queue.pending.values else 0
  limit : c.budget.used ≤ c.budget.limit
  cap : ∀ i < c.made, (c.uplinks i).queue.budgeted = true →
    totalSize (c.uplinks i).queue.pending.values ≤ c.unauthSessionBytes
  sessions : c.sessions.values.length ≤ c.maxSessions
  unauth : c.unauth = (c.sessions.values.countP (·.unauth) : ℕ)
  unauthMax : c.unauth ≤ c.maxUnauth
  closed : c.sessions.values = [] → c.tasks = [] → c.budget.used = 0 ∧ c.unauth = 0

/-- **When this holds.**  No packet is offered with the largest number. -/
def Config.Clear (c : Config) : Label → Prop
  | .push _ p => p.seq + 1 < 2 ^ 64
  | .append i _ => (c.uplinks i).queue.appendSeq + 1 < 2 ^ 64
  | _ => True

instance (c : Config) : DecidablePred c.Clear
  | .push _ p => inferInstanceAs (Decidable (p.seq + 1 < 2 ^ 64))
  | .append i _ => inferInstanceAs (Decidable ((c.uplinks i).queue.appendSeq + 1 < 2 ^ 64))
  | .openDuplex _ _ | .read _ | .resume _ _ | .authenticated _ | .close _ _ | .gc _ | .work _ =>
    .isTrue trivial

/-! ## The invariant -/

structure Config.Inv (c : Config) : Prop where
  positive : 0 ≤ c.unauthSessionBytes
  bounded : 0 < c.maxSessions ∧ 0 < c.maxUnauth
  uplink : ∀ i < c.made, (c.uplinks i).Sound c.unauthSessionBytes
  used : c.budget.used = ∑ i ∈ Finset.range c.made, (c.uplinks i).weight
  limit : c.budget.used ≤ c.budget.limit
  sessions : c.sessions.values.length ≤ c.maxSessions
  unauth : c.unauth = (c.sessions.values.countP (·.unauth) : ℕ)
  unauthMax : c.unauth ≤ c.maxUnauth
  owned : ∀ s ∈ c.sessions, s.uplink < c.made
  tasks : ∀ t ∈ c.tasks, t.uplink < c.made
  discards : ∀ i, .discard i ∈ c.tasks → (c.uplinks i).queue.closed = true
  held : ∀ i < c.made, (c.uplinks i).queue.budgeted = true →
    (∃ s ∈ c.sessions, s.uplink = i ∧ s.unauth = true) ∨ ∃ t ∈ c.tasks, t.uplink = i

theorem inv_new (maxBufferedPosts : ℕ) (maxPost : ℤ) :
    (newXHTTPSessionBroker maxBufferedPosts maxPost).Inv := by
  refine ⟨?_, ?_, nofun, rfl, ?_, zero_le _, rfl, ?_, ?_, nofun, nofun, nofun⟩
  · show 0 ≤ 2 * _
    omega
  · exact ⟨show 0 < xhttpMaxSessions by decide, show 0 < xhttpMaxUnauthSessions by decide⟩
  · show 0 ≤ 16 * _
    omega
  · exact Int.natCast_nonneg _
  · exact fun s hs => absurd hs (not_mem_empty s)

variable {c : Config} {m : Keyed Session.id}

theorem Config.Inv.sound (hc : c.Inv) : c.Sound where
  __ := hc
  order i hi := ⟨_, (hc.uplink i hi).log⟩
  payload i hi := (hc.uplink i hi).reads
  used := by
    rw [hc.used]
    refine sum_congr rfl fun i hi => ?_
    rw [Uplink.weight, (hc.uplink i (Finset.mem_range.mp hi)).bytes]
  cap i hi hin := (hc.uplink i hi).bytes ▸ (hc.uplink i hi).cap hin
  closed hnone hidle := by
    have hzero : ∀ i ∈ Finset.range c.made, (c.uplinks i).weight = 0 := by
      intro i hi
      refine if_neg fun hin => ?_
      rcases hc.held i (Finset.mem_range.mp hi) hin with ⟨s, hs, -⟩ | ⟨t, ht, -⟩
      · have hmem := mem_values.mpr hs
        rw [hnone] at hmem
        cases hmem
      · rw [hidle] at ht
        cases ht
    refine ⟨hc.used.trans (sum_eq_zero hzero), ?_⟩
    rw [hc.unauth, hnone]
    rfl

/-! ## Uplinks -/

theorem sum_update (uplinks : ℕ → Uplink) {made i : ℕ} (hi : i < made) (u : Uplink) :
    ∑ j ∈ range made, (update uplinks i u j).weight =
      ∑ j ∈ range made, (uplinks j).weight - (uplinks i).weight + u.weight := by
  have hmem : i ∈ Finset.range made := Finset.mem_range.mpr hi
  rw [← add_sum_erase _ _ hmem, ← add_sum_erase _ (fun j => (uplinks j).weight) hmem,
    update_self]
  have hrest : ∑ j ∈ (Finset.range made).erase i, (update uplinks i u j).weight =
      ∑ j ∈ (Finset.range made).erase i, (uplinks j).weight := by
    refine sum_congr rfl fun j hj => ?_
    rw [update_of_ne (ne_of_mem_erase hj)]
  rw [hrest]
  omega

/-- A call to one uplink; what it had to do is done if the uplink has left the budget. -/
theorem Config.Inv.set (hc : c.Inv) {i : ℕ} (hi : i < c.made) {r : Budget × Uplink}
    (hsound : r.2.Sound c.unauthSessionBytes) (hmoves : (c.uplinks i).Moves c.budget r.2 r.1)
    {tasks : List Task} (htasks : ∀ t ∈ tasks, t.uplink < c.made)
    (hdiscards : ∀ j, .discard j ∈ tasks → .discard j ∈ c.tasks ∨ j = i ∧ r.2.queue.closed = true)
    (hheld : ∀ t ∈ c.tasks, t ∈ tasks ∨ t.uplink = i ∧
      (r.2.queue.budgeted = false ∨ ∃ t' ∈ tasks, t'.uplink = i)) :
    Config.Inv { c.set i r with tasks := tasks } := by
  have hget : ∀ j, update c.uplinks i r.2 j = if j = i then r.2 else c.uplinks j :=
    update_apply _ _ _
  refine ⟨hc.positive, hc.bounded, ?_, ?_, ?_, hc.sessions, hc.unauth, hc.unauthMax,
    hc.owned, htasks, ?_, ?_⟩
  · intro j hj
    show (update c.uplinks i r.2 j).Sound _
    rw [hget]
    split_ifs
    · exact hsound
    · exact hc.uplink j hj
  · have hused := hmoves.used
    have hsum := hc.used
    show r.1.used = ∑ j ∈ range c.made, (update c.uplinks i r.2 j).weight
    rw [sum_update c.uplinks hi]
    omega
  · show r.1.used ≤ r.1.limit
    rw [hmoves.limit]
    exact hmoves.within hc.limit
  · intro j hj
    show (update c.uplinks i r.2 j).queue.closed = true
    rw [hget]
    rcases hdiscards j hj with hold | ⟨rfl, hclosed⟩
    · split_ifs with heq
      · subst heq
        exact hmoves.closed (hc.discards j hold)
      · exact hc.discards j hold
    · rw [if_pos rfl]
      exact hclosed
  · intro j hj hin
    replace hin : (update c.uplinks i r.2 j).queue.budgeted = true := hin
    rw [hget] at hin
    have hbefore : (c.uplinks j).queue.budgeted = true := by
      split_ifs at hin with heq
      · exact heq ▸ hmoves.budgeted hin
      · exact hin
    rcases hc.held j hj hbefore with hs | ⟨t, ht, htj⟩
    · exact .inl hs
    · refine .inr ?_
      rcases hheld t ht with hin' | ⟨hti, hdone⟩
      · exact ⟨t, hin', htj⟩
      · have heq : j = i := htj.symm.trans hti
        rw [if_pos heq] at hin
        rcases hdone with hout | ⟨t', ht', hti'⟩
        · rw [hout] at hin
          cases hin
        · exact ⟨t', ht', heq ▸ hti'⟩

theorem Config.Inv.onUplink (hc : c.Inv) (i : ℕ) {f : Uplink → Budget → Budget × Uplink}
    (hf : (c.uplinks i).Sound c.unauthSessionBytes →
      (f (c.uplinks i) c.budget).2.Sound c.unauthSessionBytes ∧
        (c.uplinks i).Moves c.budget (f (c.uplinks i) c.budget).2 (f (c.uplinks i) c.budget).1) :
    (c.onUplink i f).Inv := by
  unfold Config.onUplink
  split_ifs with hi
  · obtain ⟨hsound, hmoves⟩ := hf (hc.uplink i hi)
    exact hc.set hi hsound hmoves hc.tasks (fun _ h => .inl h) fun _ h => .inl h
  · exact hc

theorem Config.Inv.work (hc : c.Inv) {t : Task} (ht : t ∈ c.tasks) : (c.work t).Inv := by
  have hi : t.uplink < c.made := hc.tasks t ht
  have hold := hc.uplink t.uplink hi
  have hrest : ∀ t' ∈ c.tasks, t' ∈ c.tasks.erase t ∨ t'.uplink = t.uplink := by
    intro t' ht'
    by_cases heq : t' = t
    · exact .inr (heq ▸ rfl)
    · exact .inl ((mem_erase_of_ne heq).mpr ht')
  have hbound : ∀ t' ∈ c.tasks.erase t, t'.uplink < c.made := fun t' h =>
    hc.tasks t' (mem_of_mem_erase h)
  cases t with
  | leave =>
    obtain ⟨hsound, hmoves, hout⟩ := hold.leave c.budget
    exact hc.set hi hsound hmoves hbound (fun _ h => .inl (mem_of_mem_erase h))
      fun t' h => (hrest t' h).imp_right fun heq => ⟨heq, .inl hout⟩
  | discard i =>
    obtain ⟨hsound, hmoves, hout⟩ := hold.discard c.budget (hc.discards i ht)
    exact hc.set hi hsound hmoves hbound (fun _ h => .inl (mem_of_mem_erase h))
      fun t' h => (hrest t' h).imp_right fun heq => ⟨heq, .inl hout⟩
  | close i err =>
    obtain ⟨hsound, hmoves, hclosed⟩ := hold.close c.budget err
    refine hc.set (r := (c.budget, (c.uplinks i).close err)) hi hsound hmoves ?_ ?_ ?_
    · exact forall_mem_cons.mpr ⟨hi, hbound⟩
    · intro j hj
      rcases mem_cons.mp hj with heq | hj
      · cases heq
        exact .inr ⟨rfl, hclosed⟩
      · exact .inl (mem_of_mem_erase hj)
    · intro t' ht'
      rcases hrest t' ht' with hin | heq
      · exact .inl (mem_cons_of_mem _ hin)
      · exact .inr ⟨heq, .inr ⟨.discard i, mem_cons_self, rfl⟩⟩

/-! ## Sessions -/

theorem countP_put {s : Session} (h : m.get s.id = none) :
    (m.put s).values.length = m.values.length + 1 ∧ (m.put s).values.countP (·.unauth) =
        m.values.countP (·.unauth) + if s.unauth then 1 else 0 := by
  have hperm : (m.put s).values.Perm (s :: m.values) :=
    (m.values_put s).trans ((values_erase_of_none h).cons s)
  exact ⟨hperm.length_eq, (hperm.countP_eq _).trans countP_cons⟩

theorem countP_replace {s t : Session} (h : s ∈ m) (hid : t.id = s.id) :
    (m.put t).values.length = m.values.length ∧
      (m.put t).values.countP (·.unauth) + (if s.unauth then 1 else 0) =
        m.values.countP (·.unauth) + if t.unauth then 1 else 0 := by
  have hnew : (m.put t).values.Perm (t :: (m.erase s.id).values) := hid ▸ m.values_put t
  have hold : m.values.Perm (s :: (m.erase s.id).values) := values_of_mem h
  have hlength := hnew.length_eq.trans hold.length_eq.symm
  have hcount := (hnew.countP_eq (·.unauth)).trans countP_cons
  have hcount' := (hold.countP_eq (·.unauth)).trans countP_cons
  exact ⟨hlength, by omega⟩

theorem Config.Inv.openDuplex (hc : c.Inv) (id : String) (now : Time) :
    (c.openDuplex id now).Inv := by
  unfold Config.openDuplex
  by_cases hid : id = ""
  · rw [if_pos hid]
    exact hc
  rw [if_neg hid]
  cases hget : c.sessions.get id with
  | some s =>
    -- Only the time changes.
    have hs : s ∈ c.sessions := mem_of_get hget
    obtain ⟨hlength, hcount⟩ := countP_replace (t := { s with lastSeen := now }) hs rfl
    have hcount' : (c.sessions.put { s with lastSeen := now }).values.countP (·.unauth) =
        c.sessions.values.countP (·.unauth) := add_right_cancel hcount
    refine { hc with sessions := ?_, unauth := ?_, owned := ?_, held := ?_ }
    · exact hlength.le.trans hc.sessions
    · rw [hc.unauth]
      exact congrArg Nat.cast hcount'.symm
    · exact forall_mem_put (hc.owned s hs) hc.owned
    · intro i hi hin
      refine (hc.held i hi hin).imp_left ?_
      rintro ⟨s', hs', hsi, hunauth⟩
      by_cases heq : s'.id = s.id
      · cases eq_of_mem hs' hs heq
        exact ⟨_, mem_put.mpr (.inl rfl), hsi, hunauth⟩
      · exact ⟨s', mem_put.mpr (.inr ⟨heq, hs'⟩), hsi, hunauth⟩
  | none =>
    split_ifs with hroom
    · obtain ⟨hlength, hcount⟩ := countP_put (s := ⟨id, c.made, now, true⟩) hget
      obtain ⟨hsessions, hunauth⟩ := hroom
      have hbounded := hc.bounded
      have hold : ∀ i < c.made, update c.uplinks c.made
          (.fresh c.maxPending c.unauthSessionBytes) i = c.uplinks i := fun i hi =>
        update_of_ne hi.ne _ _
      have hnew : update c.uplinks c.made (.fresh c.maxPending c.unauthSessionBytes) c.made =
          .fresh c.maxPending c.unauthSessionBytes := update_self ..
      refine ⟨hc.positive, hc.bounded, ?_, ?_, hc.limit, ?_, ?_, ?_, ?_, ?_, ?_, ?_⟩
      · intro i hi
        show (update c.uplinks c.made _ i).Sound _
        rcases Nat.lt_succ_iff_lt_or_eq.mp hi with hlt | rfl
        · rw [hold i hlt]
          exact hc.uplink i hlt
        · rw [hnew]
          exact Uplink.sound_fresh hc.positive
      · show c.budget.used = ∑ i ∈ range (c.made + 1), (update c.uplinks c.made _ i).weight
        rw [Finset.sum_range_succ, hnew, hc.used]
        have hsum : ∑ i ∈ range c.made, (c.uplinks i).weight =
            ∑ i ∈ range c.made, (update c.uplinks c.made
              (.fresh c.maxPending c.unauthSessionBytes) i).weight := by
          refine sum_congr rfl fun i hi => ?_
          rw [hold i (Finset.mem_range.mp hi)]
        rw [← hsum]
        exact (add_zero _).symm
      · show (c.sessions.put _).values.length ≤ c.maxSessions
        omega
      · rw [hcount, hc.unauth]
        rfl
      · show c.unauth + 1 ≤ c.maxUnauth
        omega
      · exact forall_mem_put (lt_succ_self _) fun s hs => (hc.owned s hs).trans (lt_succ_self _)
      · exact fun t ht => (hc.tasks t ht).trans (lt_succ_self _)
      · intro i hi
        show (update c.uplinks c.made _ i).queue.closed = true
        rw [hold i (hc.tasks _ hi)]
        exact hc.discards i hi
      · intro i hi hin
        rcases Nat.lt_succ_iff_lt_or_eq.mp hi with hlt | rfl
        · replace hin : (update c.uplinks c.made
            (.fresh c.maxPending c.unauthSessionBytes) i).queue.budgeted = true := hin
          rw [hold i hlt] at hin
          refine (hc.held i hlt hin).imp_left ?_
          rintro ⟨s, hs, hsi⟩
          refine ⟨s, mem_put.mpr (.inr ⟨?_, hs⟩), hsi⟩
          rintro (rfl : s.id = id)
          rw [show c.sessions.get s.id = some s from hs] at hget
          cases hget
        · exact .inl ⟨_, mem_put.mpr (.inl rfl), rfl, rfl⟩
    · exact hc

theorem Config.Inv.authenticated (hc : c.Inv) (id : String) : (c.authenticated id).Inv := by
  unfold Config.authenticated
  cases hget : c.sessions.get id with
  | none => exact hc
  | some s =>
    dsimp only
    split_ifs with hunauth
    · have hs : s ∈ c.sessions := mem_of_get hget
      obtain ⟨hlength, hcount⟩ := countP_replace (t := { s with unauth := false }) hs rfl
      rw [if_pos hunauth] at hcount
      have hold := hc.unauth
      have hmax := hc.unauthMax
      have hcount' : (c.sessions.put { s with unauth := false }).values.countP (·.unauth) + 1 =
          c.sessions.values.countP (·.unauth) := hcount
      refine { hc with
        sessions := ?_, unauth := ?_, unauthMax := ?_, owned := ?_, tasks := ?_, discards := ?_
        held := ?_ }
      · exact hlength.le.trans hc.sessions
      · rw [hold, ← hcount', cast_succ]
        exact Int.add_sub_cancel _ _
      · show c.unauth - 1 ≤ (c.maxUnauth : ℤ)
        omega
      · exact forall_mem_put (hc.owned s hs) hc.owned
      · exact forall_mem_cons.mpr ⟨hc.owned s hs, hc.tasks⟩
      · intro i hi
        rcases mem_cons.mp hi with heq | hi
        · cases heq
        · exact hc.discards i hi
      · intro i hi hin
        rcases hc.held i hi hin with ⟨s', hs', hsi, hu⟩ | ⟨t, ht, hti⟩
        · by_cases heq : s'.id = s.id
          · cases eq_of_mem hs' hs heq
            exact .inr ⟨_, mem_cons_self, hsi⟩
          · exact .inl ⟨s', mem_put.mpr (.inr ⟨heq, hs'⟩), hsi, hu⟩
        · exact .inr ⟨t, mem_cons_of_mem _ ht, hti⟩
    · exact hc

theorem Config.Inv.drop (hc : c.Inv) {out rest : List Session}
    (hsplit : c.sessions.values.Perm (out ++ rest)) (err : Option String) :
    (c.drop out err).Inv := by
  have hleft : (c.sessions.eraseAll (out.map (·.id))).values.Perm rest :=
    values_eraseAll hsplit
  have hlength := hsplit.length_eq
  rw [length_append] at hlength
  have hcount := hsplit.countP_eq (·.unauth)
  rw [countP_append] at hcount
  have hsessions := hc.sessions
  have hunauth := hc.unauth
  have hmax := hc.unauthMax
  have hmem : ∀ s ∈ out, s ∈ c.sessions := fun s hs =>
    mem_values.mp (hsplit.mem_iff.mpr (mem_append_left rest hs))
  refine { hc with
    sessions := ?_, unauth := ?_, unauthMax := ?_, owned := ?_, tasks := ?_, discards := ?_
    held := ?_ }
  · show (c.sessions.eraseAll _).values.length ≤ c.maxSessions
    rw [hleft.length_eq]
    omega
  · show c.unauth - (out.countP (·.unauth) : ℕ) = ((c.sessions.eraseAll _).values.countP _ : ℕ)
    rw [hleft.countP_eq]
    omega
  · show c.unauth - (out.countP (·.unauth) : ℕ) ≤ (c.maxUnauth : ℤ)
    omega
  · exact fun s hs => hc.owned s (mem_eraseAll.mp hs).1
  · exact forall_mem_append.mpr ⟨forall_mem_map.mpr fun s hs => hc.owned s (hmem s hs), hc.tasks⟩
  · intro i hi
    rcases mem_append.mp hi with hi | hi
    · obtain ⟨s, -, heq⟩ := mem_map.mp hi
      cases heq
    · exact hc.discards i hi
  · intro i hi hin
    rcases hc.held i hi hin with ⟨s, hs, hsi, hu⟩ | ⟨t, ht, hti⟩
    · by_cases hout : s.id ∈ out.map (·.id)
      · obtain ⟨s', hs', heq⟩ := mem_map.mp hout
        obtain rfl := eq_of_mem (hmem s' hs') hs heq
        exact .inr ⟨_, mem_append_left _ (mem_map.mpr ⟨_, hs', rfl⟩), hsi⟩
      · exact .inl ⟨s, mem_eraseAll.mpr ⟨hs, hout⟩, hsi, hu⟩
    · exact .inr ⟨t, mem_append_right _ ht, hti⟩

/-! ## All runs -/

theorem Config.Inv.next (hc : c.Inv) {l : Label} (hclear : c.Clear l) : (next c l).Inv := by
  cases l with
  | openDuplex id now => exact hc.openDuplex id now
  | push i p => exact hc.onUplink i (f := fun u b => u.push b p) fun h => h.push hclear
  | append i payload =>
    exact hc.onUplink i (f := fun u b => u.append b payload) fun h => h.append hclear
  | read i => exact hc.onUplink i fun h => h.read c.budget
  | resume i seq =>
    exact hc.onUplink i (f := fun u b => u.resume b seq) fun h => h.resume c.budget seq
  | authenticated id => exact hc.authenticated id
  | close id err =>
    show (c.close id err).Inv
    unfold Config.close
    cases hget : c.sessions.get id with
    | none => exact hc
    | some => exact hc.drop (values_of_mem (mem_of_get hget)) err
  | gc => exact hc.drop (filter_append_perm _ _).symm _
  | work t =>
    show (if t ∈ c.tasks then c.work t else c).Inv
    split_ifs with ht
    · exact hc.work ht
    · exact hc

/-- **The packets of an uplink come in order and the limits hold**, along every run that is
clear. -/
theorem uplinks_sound (maxBufferedPosts : ℕ) (maxPost : ℤ) (labels : List Label)
    (hclear : Runs.Along next Config.Clear
      (newXHTTPSessionBroker maxBufferedPosts maxPost) labels) :
    (labels.foldl next (newXHTTPSessionBroker maxBufferedPosts maxPost)).Sound :=
  (hclear.invariant (I := Config.Inv) (fun _ _ h hstep => h.next hstep)
    (inv_new maxBufferedPosts maxPost)).sound

/-- A session is opened, two packets come in the wrong order and one of them twice, both are read
and the session ends. -/
def sample : List Label :=
  [.openDuplex "s" 0, .push 0 ⟨1, [98]⟩, .push 0 ⟨0, [97]⟩, .push 0 ⟨1, [99]⟩, .read 0, .read 0,
    .authenticated "s", .close "s" none, .work (.leave 0), .work (.close 0 none),
    .work (.discard 0)]

theorem sample_sound : ((sample.foldl next (newXHTTPSessionBroker 2 10)).uplinks 0).log =
      [.read ⟨1, [98]⟩, .read ⟨0, [97]⟩] ∧ (sample.foldl next (newXHTTPSessionBroker 2 10)).Sound :=
  ⟨by decide +kernel, uplinks_sound 2 10 sample (by decide +kernel)⟩

/-- A packet with the largest number sets the tail back to zero, and the next `AppendWait` writes
over the packet that waits there. -/
def overwriting : List Label :=
  [.openDuplex "s" 0, .push 0 ⟨0, [97]⟩, .push 0 ⟨2 ^ 64 - 1, [98]⟩, .append 0 [99]]

/-- Then the budget counts a byte that is gone, and the payload that is read is not the one that
was stored first. -/
theorem overwritten :
    let c := overwriting.foldl next (newXHTTPSessionBroker 3 10)
    c.made = 1 ∧ (c.uplinks 0).queue.budgeted = true ∧ c.budget.used = 3 ∧
      totalSize (c.uplinks 0).queue.pending.values = 2 ∧
      ((next c (.read 0)).uplinks 0).log = [.read ⟨0, [99]⟩] ∧
      ((next c (.read 0)).uplinks 0).first 0 = some [97] := by
  decide +kernel

end Pandora.Dataplane.Broker

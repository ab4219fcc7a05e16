import Mathlib.Data.List.Sort
import Pandora.Foundation.Runs
import Pandora.Identifiers

/-!
# Subscriptions with too many devices

In strict mode the subscriptions that are over their limit of devices are left out of the rosters of
the nodes.  A periodic task (`RecheckStrictDevices`) writes the set of them under one key of Redis;
it advances the epoch of the users, so that all rosters are computed anew, unless the digest under a
second key says that this has been done for this set; then it writes the digest.  Whoever computes a
roster (`strictExcluded`) reads the set, and when that fails leaves nobody out and deletes the
digest, so that the task will advance the epoch once more.

Each command to Redis is a step of its own, it may fail before or after it has taken effect, and any
number of runs and calls are under way at once.

Two things go wrong.  A run that has read the digest writes it back although it has been deleted
meanwhile, and the correction is lost; and when a run has written a set and ends before it has
advanced the epoch, the next run may write the set of the old digest again and does not advance it
either (`correction_lost`).  `strict_corrected` says that nothing else does.
-/

namespace Pandora.Nodes.StrictDevices

open List Option Nat

/-! ## The two keys -/

/-- How identifiers are spelled, and the digest. -/
structure Names where
  text : UUID → String
  parse : String → Option UUID
  sha256 : String → String
  parse_text : ∀ u, parse (text u) = some u
  text_ne : ∀ u, text u ≠ ""
  text_comma : ∀ u, ',' ∉ (text u).toList
  sha256_ne : ∀ s, sha256 s ≠ ""

variable {ids : List UUID}

namespace Names

variable (n : Names)

def formatStrictSet (ids : List UUID) : String :=
  String.ofList ([','].intercalate (ids.map fun u => (n.text u).toList))

def parseStrictSet (v : String) : Option (List UUID) :=
  if v = "" then some [] else (v.toList.splitOn ',').mapM fun p => n.parse (String.ofList p)

def strictDigest (ids : List UUID) : String :=
  n.sha256 (String.ofList ((ids.insertionSort (· ≤ ·)).flatMap
    fun u => (n.text u).toList ++ ['\n']))

variable {n}

theorem splitOn_format (hids : ids ≠ []) :
    (n.formatStrictSet ids).toList.splitOn ',' = ids.map fun u => (n.text u).toList := by
  rw [formatStrictSet, String.toList_ofList]
  exact splitOn_intercalate ',' (by simpa using fun u _ => n.text_comma u) (by simpa using hids)

theorem formatStrictSet_ne (hids : ids ≠ []) : n.formatStrictSet ids ≠ "" := by
  intro hempty
  have hsplit := splitOn_format (n := n) hids
  rw [hempty] at hsplit
  cases ids with
  | nil => exact hids rfl
  | cons u =>
    have hhead : [] = (n.text u).toList := (cons.inj hsplit).1
    exact n.text_ne u (String.toList_inj.mp hhead.symm)

theorem parse_texts :
    (ids.map fun u => (n.text u).toList).mapM (fun p => n.parse (String.ofList p)) = some ids := by
  induction ids with
  | nil => rfl
  | cons u us ih => simp [n.parse_text, ih]

theorem parse_format : n.parseStrictSet (n.formatStrictSet ids) = some ids := by
  cases hids : ids with
  | nil => rfl
  | cons u us =>
    have hne : n.formatStrictSet (u :: us) ≠ "" := formatStrictSet_ne (cons_ne_nil u us)
    rw [parseStrictSet, if_neg hne, splitOn_format (cons_ne_nil u us)]
    exact parse_texts

theorem format_injective : Function.Injective n.formatStrictSet := by
  intro ids ids' heq
  have hparse := congrArg n.parseStrictSet heq
  rw [parse_format, parse_format] at hparse
  exact some.inj hparse

end Names

/-! ## The task and the calls -/

/-- How a command ends; it may have taken effect although it fails. -/
inductive Outcome
  | ok
  | failed (applied : Bool)
  deriving DecidableEq

def Outcome.applied : Outcome → Bool
  | .ok => true
  | .failed applied => applied

/-- What is known about a run that has returned `nil`. -/
structure Return where
  strict : Bool
  /-- The epoch when, before the run began, a call last deleted the digest. -/
  opened : Option ℕ
  /-- The epoch when the stored set last changed. -/
  changed : Option ℕ
  epoch : ℕ
  deriving DecidableEq

/-- What is shared: the two keys and the epoch of the users.  The rest is written down for the
statements. -/
structure Shared where
  set : Option String
  digest : Option String
  epoch : ℕ
  /-- The epoch when a call last deleted the digest. -/
  opened : Option ℕ := none
  /-- The epoch when the stored set last changed. -/
  changed : Option ℕ := none
  /-- A run has deleted a set. -/
  cleared : Bool := false
  returned : List Return := []

open Shared

/-- What a run of `RecheckStrictDevices` does next. -/
inductive Stage
  | policy
  | loose
  | strict
  | store (ids : List UUID)
  | digest (ids : List UUID)
  | advance (ids : List UUID)
  | record (ids : List UUID)
  | ended

structure Run where
  stage : Stage
  /-- `Shared.opened` when it began. -/
  opened : Option ℕ

/-- What a call of `strictExcluded` does next. -/
inductive Call
  | policy
  | set
  | failOpen
  | returned (excluded : Option (List UUID))
  deriving DecidableEq

/-- What a run or a call is told: the policy, the set of the subscriptions over their limit, or how
its command has ended. -/
inductive Answer
  | policy (strict : Option Bool)
  | exceeded (ids : Option (List UUID))
  | command (o : Outcome)

namespace Shared

variable (k : Shared)

def putSet (v : Option String) : Shared :=
  { k with set := v, changed := if k.set = v then k.changed else some k.epoch }

/-- A run returns `nil`. -/
def ret (r : Run) (strict : Bool) : Shared :=
  { k with returned := ⟨strict, r.opened, k.changed, k.epoch⟩ :: k.returned }

/-- `Del StrictSetKey StrictDigestKey`. -/
def clear : Shared :=
  { k.putSet none with digest := none, cleared := k.cleared || k.set.isSome }

end Shared

/-- A command: what it does if it takes effect, and what comes after it if it does not fail. -/
def Outcome.run (o : Outcome) (k : Shared) (f : Shared → Shared)
    (next : Shared → Shared × Stage) : Shared × Stage :=
  let k := if o.applied then f k else k
  if o = .ok then next k else (k, .ended)

/-- `RecheckStrictDevices`. -/
def Names.recheck (n : Names) (k : Shared) (r : Run) (a : Answer) : Shared × Stage :=
  match r.stage, a with
  | .policy, .policy none => (k, .ended)
  | .policy, .policy (some false) => (k, .loose)
  | .policy, .policy (some true) => (k, .strict)
  | .loose, .command o => o.run k Shared.clear fun k => (k.ret r false, .ended)
  | .strict, .exceeded none => (k, .ended)
  | .strict, .exceeded (some ids) => (k, .store ids)
  | .store ids, .command o =>
    o.run k (fun k => k.putSet (some (n.formatStrictSet ids))) fun k => (k, .digest ids)
  | .digest ids, .command o => o.run k id fun k =>
      (k, if k.digest.getD "" ≠ n.strictDigest ids then .advance ids else .record ids)
  | .advance ids, .command o =>
    o.run k (fun k => { k with epoch := k.epoch + 1 }) fun k => (k, .record ids)
  | .record ids, .command o =>
    o.run k (fun k => { k with digest := some (n.strictDigest ids) })
      fun k => (k.ret r true, .ended)
  | stage, _ => (k, stage)

/-- `strictExcluded` with `strictFailOpen`. -/
def Names.strictExcluded (n : Names) (k : Shared) (c : Call) (a : Answer) : Shared × Call :=
  match c, a with
  | .policy, .policy none => (k, .failOpen)
  | .policy, .policy (some false) => (k, .returned none)
  | .policy, .policy (some true) => (k, .set)
  | .set, .command .ok => match k.set with
    | none => (k, .returned none)
    | some v => match n.parseStrictSet v with
      | none => (k, .failOpen)
      | some [] => (k, .returned none)
      | some ids => (k, .returned (some ids))
  | .set, .command (.failed _) => (k, .failOpen)
  | .failOpen, .command o =>
    (if o.applied then { k with digest := none, opened := some k.epoch } else k, .returned none)
  | c, _ => (k, c)

structure State where
  shared : Shared
  runs : List Run := []
  calls : List Call := []

inductive Label
  /-- A run begins. -/
  | recheck
  | run (i : ℕ) (a : Answer)
  /-- A roster is computed. -/
  | exclude
  | call (i : ℕ) (a : Answer)
  /-- The epoch is advanced for another reason. -/
  | advance

def Names.next (n : Names) (s : State) : Label → State
  | .recheck => { s with runs := s.runs ++ [⟨.policy, s.shared.opened⟩] }
  | .run i a => match s.runs[i]? with
    | none => s
    | some r =>
      let after := n.recheck s.shared r a
      { s with shared := after.1, runs := s.runs.set i { r with stage := after.2 } }
  | .exclude => { s with calls := s.calls ++ [.policy] }
  | .call i a => match s.calls[i]? with
    | none => s
    | some c =>
      let after := n.strictExcluded s.shared c a
      { s with shared := after.1, calls := s.calls.set i after.2 }
  | .advance => { s with shared.epoch := s.shared.epoch + 1 }

/-! ## What a step keeps -/

/-- The epoch has been advanced since the stored set last changed. -/
def Shared.Announced (k : Shared) : Prop := ∀ e, k.changed = some e → e < k.epoch

/-- The epoch has been advanced since a call last deleted the digest. -/
def Shared.Corrected (k : Shared) : Prop := ∀ e, k.opened = some e → e < k.epoch

def Return.Announced (r : Return) : Prop := ∀ e, r.changed = some e → e < r.epoch

def Return.Corrected (r : Return) : Prop := ∀ e, r.opened = some e → e < r.epoch

/-- The set that a run has stored. -/
def Stage.stored : Stage → Option (List UUID)
  | .digest ids => some ids
  | .advance ids => some ids
  | .record ids => some ids
  | _ => none

/-- A run that is about to write the digest. -/
def Stage.settled : Stage → Bool
  | .record _ => true
  | _ => false

structure Shared.Ok (n : Names) (k : Shared) : Prop where
  changed_le : ∀ e, k.changed = some e → e ≤ k.epoch
  opened_le : ∀ e, k.opened = some e → e ≤ k.epoch
  /-- A change that has not been announced shows in the digest. -/
  unannounced : k.Announced ∨
    ∀ ids, k.set = some (n.formatStrictSet ids) → k.digest ≠ some (n.strictDigest ids)
  uncorrected : k.Corrected ∨ k.digest = none
  cleared : k.cleared = false → k.set = none → k.changed = none
  returned : ∀ r ∈ k.returned, (r.strict = true → r.Corrected ∧ r.Announced) ∧
    (k.cleared = false → r.Announced)

structure Run.Ok (n : Names) (k : Shared) (r : Run) : Prop where
  since : ∀ e, r.opened = some e → ∃ e', k.opened = some e' ∧ e ≤ e'
  stored : ∀ ids, r.stage.stored = some ids → k.set = some (n.formatStrictSet ids)
  settled : r.stage.settled = true → k.Announced ∧ k.Corrected

/-- What a step leaves as it is, for runs that have stored their set. -/
structure Shared.Keeps (k k' : Shared) : Prop where
  set : k'.set = k.set
  announced : k.Announced → k'.Announced
  corrected : k.Corrected → k'.Corrected

variable {n : Names} {k k' : Shared} {r : Run} {stage : Stage}

theorem Shared.Keeps.refl : k.Keeps k := ⟨rfl, id, id⟩

theorem Run.Ok.keeps (hr : r.Ok n k) (hopened : k'.opened = k.opened) (hk : k.Keeps k') :
    r.Ok n k' := by
  refine ⟨fun e he => ?_, fun ids hids => ?_, fun hsettled => ?_⟩
  · rw [hopened]
    exact hr.since e he
  · rw [hk.set]
    exact hr.stored ids hids
  · obtain ⟨hannounced, hcorrected⟩ := hr.settled hsettled
    exact ⟨hk.announced hannounced, hk.corrected hcorrected⟩

theorem Run.Ok.of_not_stored (hr : r.Ok n k) (hopened : k'.opened = k.opened)
    (hstage : stage.stored = none) : Run.Ok n k' ⟨stage, r.opened⟩ := by
  refine ⟨fun e he => ?_, fun ids hids => ?_, fun hsettled => ?_⟩
  · rw [hopened]
    exact hr.since e he
  · rw [hstage] at hids
    cases hids
  · cases stage with
    | record => cases hstage
    | _ => cases hsettled

namespace Shared.Ok

theorem advance (hk : k.Ok n) : Ok n { k with epoch := k.epoch + 1 } ∧
    Announced { k with epoch := k.epoch + 1 } ∧
    Corrected { k with epoch := k.epoch + 1 } := by
  have hannounced : Announced { k with epoch := k.epoch + 1 } :=
    fun e he => lt_succ_of_le (hk.changed_le e he)
  have hcorrected : Corrected { k with epoch := k.epoch + 1 } :=
    fun e he => lt_succ_of_le (hk.opened_le e he)
  exact ⟨⟨fun e he => le_of_lt (hannounced e he), fun e he => le_of_lt (hcorrected e he),
    .inl hannounced, .inl hcorrected, hk.cleared, hk.returned⟩, hannounced, hcorrected⟩

theorem putSet (hk : k.Ok n)
    (hdigest : k.set ≠ some (n.formatStrictSet ids) → k.digest ≠ some (n.strictDigest ids)) :
    (k.putSet (some (n.formatStrictSet ids))).Ok n := by
  by_cases hsame : k.set = some (n.formatStrictSet ids)
  · have hput : k.putSet (some (n.formatStrictSet ids)) = k := by
      rw [Shared.putSet, if_pos hsame, ← hsame]
    rw [hput]
    exact hk
  · have hchanged : (k.putSet (some (n.formatStrictSet ids))).changed = some k.epoch := if_neg hsame
    refine ⟨fun e he => ?_, hk.opened_le, .inr fun ids' hset => ?_, hk.uncorrected,
      fun _ hnone => ?_, hk.returned⟩
    · rw [hchanged] at he
      obtain rfl := some.inj he
      exact le_refl k.epoch
    · have hids : ids = ids' := Names.format_injective (some.inj hset)
      rw [← hids]
      exact hdigest hsame
    · cases hnone

theorem clear (hk : k.Ok n) : k.clear.Ok n := by
  refine ⟨fun e he => ?_, hk.opened_le, .inr fun _ hset => ?_, .inr rfl, fun hclear _ => ?_,
    fun r hr => ?_⟩
  · have hchanged : (if k.set = none then k.changed else some k.epoch) = some e := he
    split_ifs at hchanged with hnone
    · exact hk.changed_le e hchanged
    · obtain rfl := some.inj hchanged
      exact le_refl k.epoch
  · cases hset
  · have hold := Bool.or_eq_false_iff.mp hclear
    have hnone : k.set = none := isNone_iff_eq_none.mp (isSome_eq_false_iff.mp hold.2)
    exact (if_pos hnone).trans (hk.cleared hold.1 hnone)
  · exact ⟨(hk.returned r hr).1, fun hclear => (hk.returned r hr).2
      (Bool.or_eq_false_iff.mp hclear).1⟩

theorem ret (hk : k.Ok n) {strict : Bool} (hstrict : strict = true → k.Corrected ∧ k.Announced)
    (hsince : ∀ e, r.opened = some e → ∃ e', k.opened = some e' ∧ e ≤ e')
    (hcleared : k.cleared = false → k.Announced) : (k.ret r strict).Ok n := by
  refine { hk with returned := fun r' hr' => ?_ }
  rcases mem_cons.mp hr' with rfl | hr'
  · refine ⟨fun hs => ⟨fun e he => ?_, (hstrict hs).2⟩, hcleared⟩
    obtain ⟨e', he', hle⟩ := hsince e he
    exact lt_of_le_of_lt hle ((hstrict hs).1 e' he')
  · exact hk.returned r' hr'

end Shared.Ok

/-- What a command does is what holds when it fails, when it fails after it has taken effect, and
when it does not fail. -/
theorem Outcome.run_cases {P : Shared × Stage → Prop} {f : Shared → Shared}
    {next : Shared → Shared × Stage} (o : Outcome) (hfailed : P (k, .ended))
    (happlied : P (f k, .ended)) (hok : P (next (f k))) : P (o.run k f next) := by
  rcases o with _ | _ | _
  · exact hok
  · exact hfailed
  · exact happlied

/-- What a step of a run leaves. -/
structure Stepped (n : Names) (k : Shared) (r : Run) (after : Shared × Stage) : Prop where
  ok : after.1.Ok n
  run : Run.Ok n after.1 ⟨after.2, r.opened⟩
  opened : after.1.opened = k.opened

/-- Another run may not have stored its set when this one deletes or stores one. -/
def Stage.writes : Stage → Bool
  | .loose => true
  | .store _ => true
  | _ => false

/-- What is asked of the shared state when a run stores its set: if that changes it, the digest is
not the one of the new set already. -/
def Names.Shows (n : Names) (k : Shared) : Stage → Prop
  | .store ids => k.set ≠ some (n.formatStrictSet ids) → k.digest ≠ some (n.strictDigest ids)
  | _ => True

instance (n : Names) (k : Shared) : DecidablePred (n.Shows k)
  | .store _ => inferInstanceAs (Decidable (_ → _))
  | .policy | .loose | .strict | .digest _ | .advance _ | .record _ | .ended => .isTrue trivial

theorem Run.Ok.ends (hr : r.Ok n k) (hk' : k'.Ok n) (hopened : k'.opened = k.opened) :
    Stepped n k r (k', .ended) :=
  ⟨hk', hr.of_not_stored hopened rfl, hopened⟩

variable {o : Outcome}

section Recheck

variable (hk : k.Ok n) (hr : r.Ok n k)
include hk hr

theorem stepped_same (hstage : stage.stored = none) : Stepped n k r (k, stage) :=
  ⟨hk, hr.of_not_stored rfl hstage, rfl⟩

theorem recheck_loose : Stepped n k r (o.run k clear fun k => (k.ret r false, .ended)) := by
  refine o.run_cases (stepped_same hk hr rfl) (hr.ends hk.clear rfl) ?_
  refine hr.ends (hk.clear.ret nofun hr.since fun hclear e he => ?_) rfl
  have hnone := hk.clear.cleared hclear rfl
  rw [hnone] at he
  cases he

theorem recheck_store (hshows : n.Shows k (.store ids)) : Stepped n k r
      (o.run k (fun k => k.putSet (some (n.formatStrictSet ids))) fun k => (k, .digest ids)) := by
  refine o.run_cases (stepped_same hk hr rfl) (hr.ends (hk.putSet hshows) rfl) ?_
  refine ⟨hk.putSet hshows, ⟨hr.since, fun ids' hids => ?_, nofun⟩, rfl⟩
  rw [← some.inj hids]
  rfl

/-- The digest is compared: if it is the one of the set, nothing has changed since the epoch was
advanced and nobody has deleted it. -/
theorem recheck_digest (hstage : r.stage = .digest ids) : Stepped n k r (o.run k id fun k =>
      (k, if k.digest.getD "" ≠ n.strictDigest ids then .advance ids else .record ids)) := by
  have hset : k.set = some (n.formatStrictSet ids) := hr.stored ids (by rw [hstage]; rfl)
  have hstored : ∀ stage : Stage, stage.stored = some ids → ∀ ids', stage.stored = some ids' →
      k.set = some (n.formatStrictSet ids') := by
    intro stage hids ids' hids'
    rw [← some.inj (hids.symm.trans hids')]
    exact hset
  refine o.run_cases (stepped_same hk hr rfl) (stepped_same hk hr rfl) ⟨hk, ?_, rfl⟩
  show Run.Ok n k ⟨if k.digest.getD "" ≠ n.strictDigest ids then .advance ids else .record ids,
    r.opened⟩
  split_ifs with hdigest
  · exact ⟨hr.since, hstored _ rfl, nofun⟩
  · rw [not_not] at hdigest
    have hsome : k.digest = some (n.strictDigest ids) := by
      cases hd : k.digest with
      | none =>
        rw [hd] at hdigest
        exact absurd hdigest.symm (n.sha256_ne _)
      | some =>
        rw [hd] at hdigest
        exact congrArg some hdigest
    refine ⟨hr.since, hstored _ rfl, fun _ => ⟨?_, ?_⟩⟩
    · exact hk.unannounced.resolve_right fun hnot => hnot ids hset hsome
    · refine hk.uncorrected.resolve_right fun hnone => ?_
      rw [hnone] at hsome
      cases hsome

theorem recheck_advance (hstage : r.stage = .advance ids) :
    Stepped n k r (o.run k (fun k => { k with epoch := k.epoch + 1 })
      fun k => (k, .record ids)) := by
  have hset : k.set = some (n.formatStrictSet ids) := hr.stored ids (by rw [hstage]; rfl)
  obtain ⟨hok, hannounced, hcorrected⟩ := hk.advance
  refine o.run_cases (stepped_same hk hr rfl) (hr.ends hok rfl)
    ⟨hok, ⟨hr.since, fun ids' hids => ?_, fun _ => ⟨hannounced, hcorrected⟩⟩, rfl⟩
  rw [← some.inj hids]
  exact hset

theorem recheck_record (hstage : r.stage = .record ids) :
    Stepped n k r (o.run k (fun k => { k with digest := some (n.strictDigest ids) })
      fun k => (k.ret r true, .ended)) := by
  obtain ⟨hannounced, hcorrected⟩ := hr.settled (by rw [hstage]; rfl)
  have hok : Ok n { k with digest := some (n.strictDigest ids) } :=
    { hk with unannounced := .inl hannounced, uncorrected := .inl hcorrected }
  refine o.run_cases (stepped_same hk hr rfl) (hr.ends hok rfl) ?_
  exact hr.ends (hok.ret (fun _ => ⟨hcorrected, hannounced⟩) hr.since fun _ => hannounced) rfl

theorem recheck_stepped (hshows : n.Shows k r.stage) (a : Answer) :
    Stepped n k r (n.recheck k r a) := by
  unfold Names.recheck
  split
  case h_4 => exact recheck_loose hk hr
  case h_7 hstage =>
    rw [hstage] at hshows
    exact recheck_store hk hr hshows
  case h_8 hstage => exact recheck_digest hk hr hstage
  case h_9 hstage => exact recheck_advance hk hr hstage
  case h_10 hstage => exact recheck_record hk hr hstage
  case h_11 => exact ⟨hk, hr, rfl⟩
  all_goals exact stepped_same hk hr rfl

end Recheck

theorem keeps_advance : k.Keeps { k with epoch := k.epoch + 1 } :=
  ⟨rfl, fun h e he => lt_succ_of_lt (h e he), fun h e he => lt_succ_of_lt (h e he)⟩

/-- Only when a set is stored or deleted does a step change what other runs rest on. -/
theorem recheck_keeps (hwrites : r.stage.writes = false) (a : Answer) :
    k.Keeps (n.recheck k r a).1 := by
  have hdigest : ∀ d, k.Keeps { k with digest := d } := fun _ => ⟨rfl, id, id⟩
  unfold Names.recheck
  split
  case h_4 hstage =>
    rw [hstage] at hwrites
    cases hwrites
  case h_7 hstage =>
    rw [hstage] at hwrites
    cases hwrites
  case h_8 o _ => exact o.run_cases (P := fun p => k.Keeps p.1) .refl .refl .refl
  case h_9 o _ => exact o.run_cases (P := fun p => k.Keeps p.1) .refl keeps_advance keeps_advance
  case h_10 o _ =>
    exact o.run_cases (P := fun p => k.Keeps p.1) .refl (hdigest _) ⟨rfl, id, id⟩
  all_goals exact .refl

theorem strictExcluded_cases (c : Call) (a : Answer) : (n.strictExcluded k c a).1 = k ∨
      c = .failOpen ∧ (n.strictExcluded k c a).1 =
        { k with digest := none, opened := some k.epoch } := by
  unfold Names.strictExcluded
  split
  case h_4 =>
    split
    · exact .inl rfl
    · split <;> exact .inl rfl
  case h_6 o =>
    split_ifs with happlied
    · exact .inr ⟨rfl, rfl⟩
    · exact .inl rfl
  all_goals exact .inl rfl

/-! ## Every run -/

structure State.Ok (n : Names) (s : State) : Prop where
  shared : s.shared.Ok n
  runs : ∀ r ∈ s.runs, r.Ok n s.shared

/-- A set is stored or deleted only when no other run has stored its own and not ended, and in such
a way that the digest shows the change; the digest is deleted by a call only when no run is about to
write it. -/
def Names.Steady (n : Names) (s : State) : Label → Prop
  | .run i _ => ∀ r ∈ s.runs[i]?, n.Shows s.shared r.stage ∧
      (r.stage.writes = true → ∀ r' ∈ s.runs, r'.stage.stored = none)
  | .call i _ => s.calls[i]? = some .failOpen → ∀ r ∈ s.runs, r.stage.settled = false
  | _ => True

instance (n : Names) (s : State) : DecidablePred (n.Steady s)
  | .run _ _ => inferInstanceAs (Decidable (∀ _ ∈ _, _ ∧ (_ → _)))
  | .call _ _ => inferInstanceAs (Decidable (_ → _))
  | .recheck | .exclude | .advance => .isTrue trivial

theorem Stepped.others {after : Shared × Stage} {r' : Run} (hstep : Stepped n k r after)
    (hr' : r'.Ok n k) (hkeeps : k.Keeps after.1 ∨ r'.stage.stored = none) : r'.Ok n after.1 := by
  rcases hkeeps with hkeeps | hstored
  · exact hr'.keeps hstep.opened hkeeps
  · exact hr'.of_not_stored hstep.opened hstored

theorem Run.Ok.failOpen (hr : r.Ok n k) (hk : k.Ok n) (hsettled : r.stage.settled = false) :
    Run.Ok n { k with digest := none, opened := some k.epoch } r := by
  refine ⟨fun e he => ⟨k.epoch, rfl, ?_⟩, hr.stored, fun hnot => ?_⟩
  · obtain ⟨e', he', hle⟩ := hr.since e he
    exact le_trans hle (hk.opened_le e' he')
  · rw [hsettled] at hnot
    cases hnot

theorem Shared.Ok.failOpen (hk : k.Ok n) :
    Ok n { k with digest := none, opened := some k.epoch } := by
  refine ⟨hk.changed_le, fun e he => ?_, .inr nofun, .inr rfl, hk.cleared, hk.returned⟩
  obtain rfl := some.inj he
  exact le_refl k.epoch

theorem State.Ok.next {s : State} (hs : s.Ok n) (l : Label) (hl : n.Steady s l) :
    (n.next s l).Ok n := by
  obtain ⟨hk, hruns⟩ := hs
  cases l with
  | recheck =>
    exact ⟨hk, forall_mem_append.mpr ⟨hruns,
      forall_mem_singleton.mpr ⟨fun e he => ⟨e, he, le_refl e⟩, nofun, nofun⟩⟩⟩
  | run i a =>
    cases hi : s.runs[i]? with
    | none =>
      simp only [Names.next, hi]
      exact ⟨hk, hruns⟩
    | some r =>
      obtain ⟨hshows, halone⟩ := hl r hi
      have hstep := recheck_stepped hk (hruns r (mem_of_getElem? hi)) hshows a
      simp only [Names.next, hi]
      refine ⟨hstep.ok, fun r' hr' => ?_⟩
      rcases mem_or_eq_of_mem_set hr' with hr' | rfl
      · refine hstep.others (hruns r' hr') ?_
        cases hwrites : r.stage.writes with
        | true => exact .inr (halone hwrites r' hr')
        | false => exact .inl (recheck_keeps hwrites a)
      · exact hstep.run
  | exclude => exact ⟨hk, hruns⟩
  | call i a =>
    cases hi : s.calls[i]? with
    | none =>
      simp only [Names.next, hi]
      exact ⟨hk, hruns⟩
    | some c =>
      simp only [Names.next, hi]
      rcases strictExcluded_cases (n := n) (k := s.shared) c a with hsame | ⟨rfl, hopened⟩
      · rw [hsame]
        exact ⟨hk, hruns⟩
      · rw [hopened]
        exact ⟨hk.failOpen, fun r hr => (hruns r hr).failOpen hk (hl hi r hr)⟩
  | advance => exact ⟨hk.advance.1, fun r hr => (hruns r hr).keeps rfl keeps_advance⟩

/-- **A roster that was computed without the exclusions is corrected, and every change of the set is
announced**, in runs whose steps are all `Steady`.  Whenever a run returns `nil` in strict mode, the
epoch has been advanced since a call that had returned before the run began deleted the digest, and
since the stored set last changed; the latter holds for runs in loose mode too, unless one has
deleted a set. -/
theorem strict_corrected {k : Shared} (hopened : k.opened = none) (hchanged : k.changed = none)
    (hreturned : k.returned = []) {labels : List Label}
    (hsteady : Runs.Along n.next n.Steady ⟨k, [], []⟩ labels) :
    ∀ r ∈ (labels.foldl n.next ⟨k, [], []⟩).shared.returned,
      (r.strict = true → r.Corrected ∧ r.Announced) ∧
        ((labels.foldl n.next ⟨k, [], []⟩).shared.cleared = false → r.Announced) := by
  have hstart : State.Ok n ⟨k, [], []⟩ := by
    have hnone : ∀ {p : ℕ → Prop} {x : Option ℕ}, x = none → ∀ e, x = some e → p e := by
      rintro p x rfl e he
      cases he
    refine ⟨⟨hnone hchanged, hnone hopened, .inl (hnone hchanged), .inl (hnone hopened),
      fun _ _ => hchanged, ?_⟩, nofun⟩
    rw [hreturned]
    exact nofun
  exact (hsteady.invariant (fun s l hs hl => hs.next l hl) hstart).shared.returned

/-! ## Two ways to lose a correction -/

def sampleNames : Names where
  text := fun u => String.ofList (replicate (u + 1) 'a')
  parse := fun v => some (v.toList.length - 1)
  sha256 := fun s => "d" ++ s
  parse_text := fun u => by simp
  text_ne := fun u hempty => by
    have hlist := congrArg String.toList hempty
    simp [replicate_succ] at hlist
  text_comma := fun u => by simp [mem_replicate]
  sha256_ne := fun s hempty => by
    have hlist := congrArg String.toList hempty
    simp at hlist

def sampleStart : State := ⟨⟨none, none, 0, none, none, false, []⟩, [], []⟩

/-- A run from its beginning to the command that stores the set. -/
def storing (i : ℕ) (ids : List UUID) : List Label :=
  [.recheck, .run i (.policy (some true)), .run i (.exceeded (some ids)), .run i (.command .ok)]

/-- Commands of a run that do not fail. -/
def commands (i count : ℕ) : List Label := replicate count (.run i (.command .ok))

/-- A roster is computed while the policy cannot be read, and the digest is deleted. -/
def failing (i : ℕ) : List Label := [.exclude, .call i (.policy none), .call i (.command .ok)]

/-- The first run advances the epoch.  The second one has read the digest when a call deletes it,
and writes it again; the third one finds the digest of its set. -/
def rewritten : List Label :=
  storing 0 [7] ++ commands 0 3 ++ storing 1 [7] ++ commands 1 1 ++ failing 0 ++ commands 1 1 ++
    storing 2 [7] ++ commands 2 2

/-- The first run advances the epoch.  The second one stores another set and fails when it reads the
digest; the third one stores the first set again and finds its digest. -/
def unannounced : List Label :=
  storing 0 [7] ++ commands 0 3 ++ storing 1 [7, 8] ++
    ([.run 1 (.command (.failed false))] ++ storing 2 [7] ++ commands 2 2)

/-- In both runs the last `RecheckStrictDevices` returns `nil`, and the epoch is still 1: as it was
when the digest was deleted, and when the set was changed. -/
theorem correction_lost : ((rewritten.foldl sampleNames.next sampleStart).shared.returned.head? =
        some ⟨true, some 1, some 0, 1⟩ ∧ ¬Return.Corrected ⟨true, some 1, some 0, 1⟩) ∧
      (unannounced.foldl sampleNames.next sampleStart).shared.returned.head? =
        some ⟨true, none, some 1, 1⟩ ∧ ¬Return.Announced ⟨true, none, some 1, 1⟩ :=
  ⟨⟨by decide +kernel, fun h => lt_irrefl 1 (h 1 rfl)⟩,
    by decide +kernel, fun h => lt_irrefl 1 (h 1 rfl)⟩

/-- A roster is computed without the exclusions between two runs. -/
def corrected : List Label :=
  storing 0 [7] ++ commands 0 3 ++ failing 0 ++ storing 1 [7] ++ commands 1 3

theorem sample_corrected : (corrected.foldl sampleNames.next sampleStart).shared.returned.head? =
        some ⟨true, some 1, some 0, 2⟩ ∧
      ∀ r ∈ (corrected.foldl sampleNames.next sampleStart).shared.returned,
        (r.strict = true → r.Corrected ∧ r.Announced) ∧
          ((corrected.foldl sampleNames.next sampleStart).shared.cleared = false → r.Announced) :=
  ⟨by decide +kernel, strict_corrected rfl rfl rfl (by decide +kernel)⟩

end Pandora.Nodes.StrictDevices

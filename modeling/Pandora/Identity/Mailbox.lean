import Pandora.Identity.Steps

/-!
# A mailbox that the account has left

An administrator changes the address of a user.  Links and codes that were mailed to the old one
should not let anybody in once the sessions have been revoked for the second time.

For codes this holds as it is: `CompletePasswordReset` locks the row of the user before it compares
the address, and holds the lock until it commits.  For links it needs a condition
(`former_mailbox_shut_out`): `StartMailLogin` may have looked up the old address before the change
and read the epoch after both revocations; then the link that is mailed to the old address is as
good as any other (`link_after_change`).
-/

namespace Pandora.Identity

open Records Sessions List

variable (env : Env) {users : List User} (passwords : UUID → Option (Password × Bool))

/-- In every run in which `StartMailLogin` reads the epoch while the address is still the one that
it has looked up, or before the second revocation: when the address of a user has been changed from
`a` to `b`, once, and the second revocation has run, no session that was opened with a link mailed
to `a` is accepted, and no password is changed with a code mailed to `a` after the change. -/
theorem former_mailbox_shut_out (hids : (users.map (·.id)).Nodup) (labels : List Label)
    (hsteady : Runs.Along (State.next env) State.Steady (.start users passwords) labels)
    {j : ℕ} {uid : UUID} {a b : Address}
    (hchange : (State.run env (.start users passwords) labels).history[j]? =
      some ⟨uid, none, .email a b⟩)
    (hsettled : j ∈ (State.run env (.start users passwords) labels).settled)
    (honce : ∀ i w, (State.run env (.start users passwords) labels).history[i]? = some w →
      (w.moves uid).isSome → i = j) :
    (∀ sid, (State.run env (.start users passwords) labels).opened sid = some (.link a) →
      ∀ aud now, ((State.run env (.start users passwords) labels).store.check sid uid aud now
        (seconds env.adminIdleTimeout)).1 = none) ∧
    ∀ i w, j < i → (State.run env (.start users passwords) labels).history[i]? = some w →
      w.user = uid → ∀ old new, w.act ≠ .reset a old new := by
  generalize hs : State.run env (.start users passwords) labels = s at *
  have hinv : s.Inv := hs ▸ hsteady.invariant (fun _ _ h hl => h.next hl)
    (State.inv_start passwords hids)
  have hmoves : (Write.moves uid ⟨uid, none, .email a b⟩).isSome := by simp [Write.moves]
  have hne : a ≠ b := hinv.rows.differs _ (mem_of_getElem? hchange) a b rfl
  have hlatest : latest (Write.moves uid) s.history = some b := by
    rw [latest_of_only hchange hmoves honce]
    simp [Write.moves]
  constructor
  · intro sid hopened aud now
    by_contra hsome
    obtain ⟨x, hx⟩ := Option.ne_none_iff_exists'.mp hsome
    obtain ⟨hsess, rfl, hepoch⟩ := Store.of_check hx
    rcases (hinv.marks.sessions sid x _ hsess hopened).2 hepoch with hemail |
      ⟨i, w, hw, hmoved, hset⟩
    · exact hne (Option.some.inj (hemail.symm.trans (hinv.rows.moved _ b hlatest)))
    · obtain rfl := honce i w hw hmoved
      exact hset hsettled
  · intro i w hlt hw huser old new hact
    subst huser
    have htake : (s.history.take i)[j]? = some ⟨w.user, none, .email a b⟩ := by
      rw [getElem?_take_of_lt hlt, hchange]
    have hlast : latest (Write.moves w.user) (s.history.take i) = some b := by
      rw [latest_of_only htake hmoves fun k w' hw' => honce k w' ?_]
      · simp [Write.moves]
      · rw [getElem?_take] at hw'
        split_ifs at hw' with hk
        exact hw'
    exact hne (hinv.rows.resets i w a old new hw hact b hlast).symm

/-- What the steps of the following runs hear. -/
def Input.sample : Input := ⟨1000 * second, 4, 5, false⟩

/-- Steps of one call, one after the other. -/
def turns (p count : ℕ) : List Label := replicate count (.turn p .sample)

/-- User 7 has the address 10. -/
def State.sample : State := .start [⟨7, 10⟩] fun uid => if uid = 7 then some (1, false) else none

def sampleRun (labels : List Label) : State := State.run .sample .sample labels

/-- `StartMailLogin` has found the account when the address is changed, from the first statement to
the second revocation; the link is issued and used afterwards. -/
def lateLink : List Label :=
  .mailStart 10 :: turns 0 1 ++ .edit 7 11 :: turns 1 6 ++ turns 0 2 ++
    .mailConsume (Env.sample.keys.hashSecret 4) :: turns 2 2

/-- The link was mailed to the address that the user does not have any more, and opens a session. -/
theorem link_after_change :
    (sampleRun lateLink).history = [⟨7, none, .email 10 11⟩] ∧
      (sampleRun lateLink).settled = [0] ∧
      (sampleRun lateLink).opened 0 = some (.link 10) ∧
      ((sampleRun lateLink).store.check 0 7 none 1001
        (seconds Env.sample.adminIdleTimeout)).1.isSome = true := by
  decide +kernel

/-- A link is used and a code is mailed; then the address is changed, and the code is presented. -/
def earlyLink : List Label :=
  .mailStart 10 :: turns 0 3 ++ .mailConsume (Env.sample.keys.hashSecret 4) :: turns 1 2 ++
    .resetStart 10 (2000 * second) :: turns 2 3 ++ .edit 7 11 :: turns 3 6 ++
      .complete 10 5 2 :: turns 4 8

theorem earlyLink_shut_out :
    (sampleRun earlyLink).opened 0 = some (.link 10) ∧
      ∀ aud now, ((sampleRun earlyLink).store.check 0 7 aud now
        (seconds Env.sample.adminIdleTimeout)).1 = none := by
  have hhistory : (sampleRun earlyLink).history = [⟨7, none, .email 10 11⟩] := by
    decide +kernel
  have hopened : (sampleRun earlyLink).opened 0 = some (.link 10) := by
    decide +kernel
  refine ⟨hopened, (former_mailbox_shut_out .sample _ (by decide) earlyLink (by decide +kernel)
    (congrArg (·[0]?) hhistory) (by decide +kernel) fun i w hw _ => ?_).1 0 hopened⟩
  have hlt : i < [(⟨7, none, .email 10 11⟩ : Write)].length :=
    (List.getElem?_eq_some_iff.mp (hhistory ▸ hw)).1
  exact Nat.lt_one_iff.mp hlt

end Pandora.Identity

import Pandora.Database.Table
import Pandora.Realtime.Hub

/-!
# The stream of a revoked session ends

The three tables of the hub describe the same connections, in every run, and the limits hold.

A stream that has not been ended belongs to a session that has not been revoked, or whose revocation
is on its way to the hub, or has been lost, in which case the hub goes down
(`revoked_streams_end`).  This needs one condition.  The session of a request is checked before the
connection is registered; when it is revoked in between and the message is delivered at once, nobody
is there to be told, and the stream stays open (`revoked_too_early`).
-/

namespace Pandora.Realtime

open List Function Nat Option Hub

/-! ## The tables -/

/-- The tables describe the same connections, and the limits hold. -/
structure Hub.Agrees (h : Hub) : Prop where
  ids : (h.subs.map (·.id)).Nodup
  byChannel : ∀ ch id, id ∈ h.byChannel ch ↔ ∃ s ∈ h.subs, s.id = id ∧ ch ∈ s.channels
  byOwner : ∀ owner ≠ UUID.nil, h.byOwner owner = h.subs.countP (·.owner = owner)
  perUser : ∀ owner ≠ UUID.nil, h.byOwner owner ≤ maxStreamsPerUser
  total : 0 < h.maxStreams → h.subs.length ≤ h.maxStreams

variable {f : Subscriber → Subscriber} {r : Request} {id : ℕ}

namespace Hub.Agrees

variable {h : Hub}

section

variable (hh : h.Agrees)
include hh

theorem map (hid : ∀ s, (f s).id = s.id)
    (howner : ∀ s, (f s).owner = s.owner) (hchannels : ∀ s, (f s).channels = s.channels) :
    Agrees { h with subs := h.subs.map f } := by
  refine ⟨?_, fun ch id => ?_, fun owner hne => ?_, hh.perUser, fun hpos => ?_⟩
  · have hids : (h.subs.map f).map (·.id) = h.subs.map (·.id) := by
      simp [comp_def, hid]
    exact hids ▸ hh.ids
  · simp [hh.byChannel ch id, hid, hchannels]
  · simp [hh.byOwner owner hne, countP_map, comp_def, howner]
  · simpa using hh.total hpos

theorem finish (ids : List ℕ) : (h.finish ids).Agrees :=
  hh.map (fun s => by split_ifs <;> rfl) (fun s => by split_ifs <;> rfl)
    fun s => by split_ifs <;> rfl

theorem push (ids : List ℕ) (ev : Event) : (h.push ids ev).Agrees :=
  hh.map (fun s => by split_ifs <;> rfl) (fun s => by split_ifs <;> rfl)
    fun s => by split_ifs <;> rfl

theorem dispatch (ch : Channel) (ev : Event) : (h.dispatch ch ev).Agrees := by
  unfold Hub.dispatch
  split_ifs
  · exact hh.finish _
  · exact hh.push _ ev

theorem receive (m : Message) : (h.receive m).Agrees := by
  unfold Hub.receive
  split
  · exact hh.dispatch _ _
  · exact hh
  · exact hh.dispatch _ _

theorem add (hfresh : ∀ s ∈ h.subs, s.id ≠ id)
    (htotal : ¬ (0 < h.maxStreams ∧ h.maxStreams ≤ h.subs.length))
    (huser : ¬ (r.owner ≠ UUID.nil ∧ maxStreamsPerUser ≤ h.byOwner r.owner)) :
    (h.add r id).Agrees := by
  refine ⟨?_, fun ch i => ?_, fun owner hne => ?_, fun owner hne => ?_, fun hpos => ?_⟩
  · refine nodup_cons.mpr ⟨fun hin => ?_, hh.ids⟩
    obtain ⟨s, hs, heq⟩ := mem_map.mp hin
    exact hfresh s hs heq
  · show i ∈ (if ch ∈ r.channels then id :: h.byChannel ch else h.byChannel ch) ↔
      ∃ x ∈ r.subscriber id :: h.subs, x.id = i ∧ ch ∈ x.channels
    simp only [mem_cons, exists_eq_or_imp, ← hh.byChannel ch i]
    split_ifs with hch
    · rw [mem_cons]
      exact or_congr ⟨fun heq => ⟨heq.symm, hch⟩, fun hand => hand.1.symm⟩ Iff.rfl
    · exact ⟨.inr, fun hor => hor.resolve_left fun hand => hch hand.2⟩
  · show (if r.owner = UUID.nil then h.byOwner
      else update h.byOwner r.owner (h.byOwner r.owner + 1)) owner =
      (r.subscriber id :: h.subs).countP (·.owner = owner)
    rw [countP_cons, ← hh.byOwner owner hne]
    split_ifs with hnil howner howner
    · exact absurd ((decide_eq_true_iff.mp howner).symm.trans hnil) hne
    · rfl
    · obtain rfl : r.owner = owner := decide_eq_true_iff.mp howner
      exact update_self _ _ _
    · exact update_of_ne (fun heq => howner (decide_eq_true_iff.mpr heq.symm)) _ _
  · show (if r.owner = UUID.nil then h.byOwner
      else update h.byOwner r.owner (h.byOwner r.owner + 1)) owner ≤ _
    split_ifs with hnil
    · exact hh.perUser owner hne
    · by_cases heq : owner = r.owner
      · have hroom : h.byOwner r.owner < maxStreamsPerUser := by
          by_contra hfull
          exact huser ⟨hnil, Nat.le_of_not_lt hfull⟩
        rw [heq, update_self]
        omega
      · rw [update_of_ne heq]
        exact hh.perUser owner hne
  · show h.subs.length + 1 ≤ h.maxStreams
    have hroom : ¬ h.maxStreams ≤ h.subs.length := fun hfull => htotal ⟨hpos, hfull⟩
    omega

theorem remove {s : Subscriber} (hs : s ∈ h.subs) : (h.remove s).Agrees := by
  have hsame : ∀ x ∈ h.subs, x.id = s.id → x = s := fun x hx heq =>
    inj_on_of_nodup_map hh.ids hx hs heq
  have howner : ∀ owner ≠ UUID.nil,
      (h.remove s).byOwner owner = if s.owner = owner then h.byOwner owner - 1
        else h.byOwner owner := by
    intro owner hne
    show (if s.owner = UUID.nil then h.byOwner else update h.byOwner s.owner
      (if h.byOwner s.owner ≤ 1 then 0 else h.byOwner s.owner - 1)) owner = _
    by_cases heq : s.owner = owner
    · rw [if_neg (heq ▸ hne), heq, update_self, if_pos rfl]
      split_ifs <;> omega
    · rw [if_neg heq]
      by_cases hnil : s.owner = UUID.nil
      · rw [if_pos hnil]
      · rw [if_neg hnil, update_of_ne (Ne.symm heq)]
  refine ⟨?_, fun ch i => ?_, fun owner hne => ?_, fun owner hne => ?_, fun hpos => ?_⟩
  · exact hh.ids.sublist (filter_sublist.map _)
  · show i ∈ (if ch ∈ s.channels then (h.byChannel ch).filter (· ≠ s.id) else h.byChannel ch) ↔
      ∃ x ∈ h.subs.filter (·.id ≠ s.id), x.id = i ∧ ch ∈ x.channels
    have hmem :
        i ∈ (if ch ∈ s.channels then (h.byChannel ch).filter (· ≠ s.id) else h.byChannel ch) ↔
          i ∈ h.byChannel ch ∧ i ≠ s.id := by
      split_ifs with hch
      · simp
      · refine ⟨fun hi => ⟨hi, fun heq => ?_⟩, fun hi => hi.1⟩
        obtain ⟨x, hx, hid, hxch⟩ := (hh.byChannel ch i).mp hi
        rw [hsame x hx (hid.trans heq)] at hxch
        exact hch hxch
    rw [hmem, hh.byChannel ch i]
    constructor
    · rintro ⟨⟨x, hx, rfl, hch⟩, hne⟩
      exact ⟨x, mem_filter.mpr ⟨hx, by simpa using hne⟩, rfl, hch⟩
    · rintro ⟨x, hx, rfl, hch⟩
      obtain ⟨hx, hne⟩ := mem_filter.mp hx
      exact ⟨⟨x, hx, rfl, hch⟩, by simpa using hne⟩
  · rw [howner owner hne]
    have hcount := Database.countP_delete_key hh.ids hs fun x => x.owner = owner
    rw [← hh.byOwner owner hne] at hcount
    show _ = (h.subs.filter (·.id ≠ s.id)).countP (·.owner = owner)
    split_ifs at hcount ⊢ <;> omega
  · rw [howner owner hne]
    have hmost := hh.perUser owner hne
    split_ifs <;> omega
  · exact (length_filter_le _ _).trans (hh.total hpos)

end

end Hub.Agrees

/-! ## What happens to a connection -/

/-- The connections were there before, and no end has been undone. -/
def Hub.From (h h' : Hub) : Prop :=
  ∀ s ∈ h'.subs, ∃ old ∈ h.subs, old.id = s.id ∧ old.session = s.session ∧
    old.channels = s.channels ∧ (s.ended = false → old.ended = false)

namespace Hub.From

variable {h : Hub}

theorem refl : h.From h := fun s hs => ⟨s, hs, rfl, rfl, rfl, id⟩

theorem map (hf : ∀ s, s.id = (f s).id ∧ s.session = (f s).session ∧
      s.channels = (f s).channels ∧ ((f s).ended = false → s.ended = false)) :
    h.From { h with subs := h.subs.map f } := by
  intro s hs
  obtain ⟨old, hold, rfl⟩ := mem_map.mp hs
  exact ⟨old, hold, hf old⟩

theorem remove (s : Subscriber) : h.From (h.remove s) := fun x hx =>
  ⟨x, (mem_filter.mp hx).1, rfl, rfl, rfl, id⟩

theorem finish (ids : List ℕ) : h.From (h.finish ids) := by
  refine map fun s => ?_
  split_ifs
  · exact ⟨rfl, rfl, rfl, nofun⟩
  · exact ⟨rfl, rfl, rfl, id⟩

theorem push (ids : List ℕ) (ev : Event) : h.From (h.push ids ev) := by
  refine map fun s => ?_
  split_ifs <;> exact ⟨rfl, rfl, rfl, id⟩

theorem receive (m : Message) : h.From (h.receive m) := by
  have hdispatch : ∀ ch ev, h.From (h.dispatch ch ev) := by
    intro ch ev
    unfold dispatch
    split_ifs
    · exact finish _
    · exact push _ ev
  unfold Hub.receive
  split
  · exact hdispatch _ _
  · exact refl
  · exact hdispatch _ _

end Hub.From

variable {h : Hub} {s s' : System} {sid : String} {m : Message}

theorem Hub.not_mem_of_finish {ids : List ℕ} {s : Subscriber} (hs : s ∈ (h.finish ids).subs)
    (hopen : s.ended = false) : s.id ∉ ids := by
  obtain ⟨old, -, rfl⟩ := mem_map.mp hs
  split_ifs at hopen ⊢ with hin
  exact hin

theorem Request.session_mem (r : Request) : Channel.session r.session ∈ r.channels := by
  unfold Request.channels
  cases r.audience with
  | portal | admin => simp

theorem Hub.subscribe_ok {h' : Hub} (hok : h.subscribe r id = .ok h') :
    h.live = true ∧ ¬ (0 < h.maxStreams ∧ h.maxStreams ≤ h.subs.length) ∧
      ¬ (r.owner ≠ UUID.nil ∧ maxStreamsPerUser ≤ h.byOwner r.owner) ∧ h' = h.add r id := by
  unfold subscribe at hok
  split_ifs at hok with hlive htotal huser
  exact ⟨by simpa using hlive, htotal, huser, (Except.ok.inj hok).symm⟩

/-- The connections that listen to the session are ended when its revocation arrives. -/
theorem Hub.session_ne_of_receive (hh : h.Agrees)
    (htold : ∀ sub ∈ h.subs, Channel.session sub.session ∈ sub.channels)
    (hm : m.channel = .session sid) {sub : Subscriber} (hsub : sub ∈ (h.receive m).subs)
    (hopen : sub.ended = false) : sub.session ≠ sid := by
  rintro rfl
  have hfinish : h.receive m = h.finish (h.byChannel (.session sub.session)) := by
    simp only [receive, hm, dispatch, if_pos]
  obtain ⟨old, hold, hid, hsession, -⟩ := From.receive m sub hsub
  rw [hfinish] at hsub
  refine not_mem_of_finish hsub hopen ((hh.byChannel _ _).mpr ⟨old, hold, hid, ?_⟩)
  rw [← hsession]
  exact htold old hold

theorem mem_revocations_cons {queue : List Message}
    (h : sid ∈ revocations (m :: queue)) : m.channel = .session sid ∨ sid ∈ revocations queue := by
  obtain ⟨m', hm', hsid⟩ := mem_filterMap.mp h
  rcases mem_cons.mp hm' with rfl | hm'
  · left
    split at hsid
    case h_1 sid' hch => rw [hch, some.inj hsid]
    case h_2 => exact nomatch hsid
  · exact .inr (mem_filterMap.mpr ⟨m', hm', hsid⟩)

/-! ## Every run -/

namespace System

structure Inv (s : System) : Prop where
  agrees : s.hub.Agrees
  fresh : ∀ sub ∈ s.hub.subs, sub.id < s.nextId
  told : ∀ sub ∈ s.hub.subs, Channel.session sub.session ∈ sub.channels

theorem Inv.of_from (hs : s.Inv) (hagrees : s'.hub.Agrees)
    (hfrom : s.hub.From s'.hub) (hid : s'.nextId = s.nextId) : s'.Inv := by
  refine ⟨hagrees, fun sub hsub => ?_, fun sub hsub => ?_⟩
  · obtain ⟨old, hold, hsame, -⟩ := hfrom sub hsub
    rw [hid, ← hsame]
    exact hs.fresh old hold
  · obtain ⟨old, hold, -, hsession, hchannels, -⟩ := hfrom sub hsub
    rw [← hsession, ← hchannels]
    exact hs.told old hold

theorem send_kept (s : System) (m : Message) : (s.send m).hub = s.hub ∧
    (s.send m).ending = s.ending ∧ (s.send m).phase = s.phase ∧ (s.send m).nextId = s.nextId := by
  unfold send
  split_ifs <;> exact ⟨rfl, rfl, rfl, rfl⟩

theorem Inv.same (hs : s.Inv) (hsubs : s'.hub.subs = s.hub.subs) (hagrees : s'.hub.Agrees)
    (hid : s'.nextId = s.nextId) : s'.Inv :=
  hs.of_from hagrees (fun sub hsub => ⟨sub, hsubs ▸ hsub, rfl, rfl, rfl, id⟩) hid

theorem Inv.send (hs : s.Inv) (m : Message) : (s.send m).Inv := by
  obtain ⟨hhub, -, -, hid⟩ := s.send_kept m
  exact hs.same (congrArg _ hhub) (hhub ▸ hs.agrees) hid

theorem Inv.subscribe (hs : s.Inv) (i : ℕ) : (s.next (.subscribe i)).Inv := by
  simp only [next]
  cases s.requests[i]? with
  | none => exact hs
  | some r =>
    dsimp only
    cases hok : s.hub.subscribe r s.nextId with
    | error => exact { hs with }
    | ok =>
      obtain ⟨-, htotal, huser, rfl⟩ := subscribe_ok hok
      exact ⟨hs.agrees.add (fun sub hsub => Nat.ne_of_lt (hs.fresh sub hsub)) htotal huser,
        forall_mem_cons.mpr ⟨lt_succ_self _, fun sub hsub => lt_succ_of_lt (hs.fresh sub hsub)⟩,
        forall_mem_cons.mpr ⟨r.session_mem, hs.told⟩⟩

theorem Inv.next (hs : s.Inv) (l : Label) : (s.next l).Inv := by
  have hlive : ∀ (live cancelled : Bool),
      Agrees { s.hub with live := live, cancelled := cancelled } := fun _ _ => { hs.agrees with }
  cases l with
  | check =>
    simp only [System.next]
    split_ifs
    · exact hs
    · exact { hs with }
  | subscribe i => exact hs.subscribe i
  | leave id =>
    simp only [System.next]
    cases hfind : s.hub.subs.find? (·.id = id) with
    | none => exact hs
    | some sub =>
      exact hs.of_from (hs.agrees.remove (mem_of_find?_eq_some hfind)) (.remove sub) rfl
  | revoke sid => exact Inv.send (s := { s with revoked := sid :: s.revoked }) { hs with } _
  | publish m => exact hs.send m
  | sever => exact { hs with }
  | confirm | fail =>
    simp only [System.next]
    split_ifs
    · exact { hs with }
    · exact hs
  | goLive =>
    simp only [System.next]
    split_ifs
    · exact hs.same rfl (hlive _ _) rfl
    · exact hs
  | deliver =>
    simp only [System.next]
    split
    · exact hs.of_from (hs.agrees.receive _) (.receive _) rfl
    · exact hs
  | goDown =>
    simp only [System.next]
    split_ifs
    · exact hs.same rfl (hlive _ _) rfl
    · exact hs.same rfl (hlive _ _) rfl
    · exact hs
  | finish =>
    simp only [System.next]
    cases s.ending with
    | nil => exact hs
    | cons => exact hs.of_from (hs.agrees.finish _) (.finish _) rfl
  | close => exact hs.same rfl (hlive _ _) rfl

/-! ## Revoked sessions -/

/-- The revocation of the session has not happened, or will still reach the hub, or is lost. -/
def Caught (s : System) (sid : String) : Prop :=
  sid ∉ s.revoked ∨ sid ∈ revocations s.queue ∨ sid ∈ s.lost

instance (s : System) (sid : String) : Decidable (s.Caught sid) := instDecidableOr

/-- When a request is registered, the revocation of its session has not gone by already. -/
def Steady (s : System) : Label → Prop
  | .subscribe i => ∀ r ∈ s.requests[i]?, s.Caught r.session
  | _ => True

instance (s : System) : (l : Label) → Decidable (s.Steady l)
  | .subscribe i => inferInstanceAs (Decidable (∀ r ∈ s.requests[i]?, s.Caught r.session))
  | .check _ | .leave _ | .revoke _ | .publish _ | .sever | .confirm | .goLive | .deliver | .fail
  | .goDown | .finish | .close => instDecidableTrue

/-- An open stream is about to be ended, or its session is caught; while the hub is down, all of
them are about to be ended. -/
structure Safe (s : System) : Prop where
  caught : ∀ sub ∈ s.hub.subs, sub.ended = false → sub.id ∈ s.ending ∨ s.Caught sub.session
  down : s.phase.down = true → ∀ sub ∈ s.hub.subs, sub.ended = false → sub.id ∈ s.ending
  live : s.phase.down = true → s.hub.live = false

theorem Safe.of_from (hs : s.Safe) (hfrom : s.hub.From s'.hub)
    (hending : s.ending = s'.ending) (hcaught : ∀ sid, s.Caught sid → s'.Caught sid)
    (hphase : s'.phase.down = true → s.phase.down = true) (hlive : s'.hub.live = s.hub.live) :
    s'.Safe := by
  refine ⟨fun sub hsub hopen => ?_, fun hdown sub hsub hopen => ?_, fun hdown => ?_⟩
  · obtain ⟨old, hold, hid, hsession, -, hended⟩ := hfrom sub hsub
    rw [← hending, ← hid, ← hsession]
    exact (hs.caught old hold (hended hopen)).imp_right (hcaught _)
  · obtain ⟨old, hold, hid, -, -, hended⟩ := hfrom sub hsub
    rw [← hending, ← hid]
    exact hs.down (hphase hdown) old hold (hended hopen)
  · rw [hlive]
    exact hs.live (hphase hdown)

namespace Caught

theorem mono (h : s.Caught sid) (hrevoked : s'.revoked = s.revoked)
    (hmsgs : ∀ sid, sid ∈ revocations s.queue ∨ sid ∈ s.lost →
      sid ∈ revocations s'.queue ∨ sid ∈ s'.lost) : s'.Caught sid := by
  rcases h with hnot | hmsg
  · exact .inl (hrevoked ▸ hnot)
  · exact .inr (hmsgs sid hmsg)

theorem send (h : s.Caught sid) (m : Message) : (s.send m).Caught sid := by
  unfold System.send
  split_ifs
  · exact h
  · refine h.mono rfl fun sid hmsg => hmsg.imp_left fun hin => ?_
    rw [revocations, filterMap_append]
    exact mem_append_left _ hin
  · exact h.mono rfl fun sid hmsg => hmsg.imp_right (mem_append_right _)

theorem cut (h : s.Caught sid) : s.cut.Caught sid := by
  refine h.mono rfl fun sid hmsg => .inr ?_
  rcases hmsg with hqueue | hlost
  · exact mem_append_left _ hqueue
  · exact mem_append_right _ hlost

end Caught

/-- The revocation that has just been published is on its way or lost, unless the hub is down. -/
theorem caught_revoke {sid' : String} (h : s.Caught sid')
    (hup : ¬ (s.phase = .subscribing ∨ s.phase = .stopped)) :
    (s.next (.revoke sid)).Caught sid' := by
  by_cases heq : sid' = sid
  · subst heq
    refine .inr ?_
    simp only [next, send, if_neg hup]
    split_ifs
    · left
      simp [revocations]
    · right
      simp [revocations]
  · have hkept : Caught { s with revoked := sid :: s.revoked } sid' := by
      rcases h with hnot | hmsg
      · exact .inl (not_mem_cons_of_ne_of_not_mem heq hnot)
      · exact .inr hmsg
    exact hkept.send _

theorem Safe.of_ending (hending : ∀ sub ∈ s.hub.subs, sub.ended = false → sub.id ∈ s.ending)
    (hlive : s.phase.down = true → s.hub.live = false) : s.Safe :=
  ⟨fun sub hsub hopen => .inl (hending sub hsub hopen), fun _ => hending, hlive⟩

theorem Safe.takeDown {phase : Phase} {cancelled : Bool} :
    Safe { s.takeDown with phase := phase, hub.cancelled := cancelled } :=
  .of_ending (fun _ hsub _ => mem_append_right _ (mem_map_of_mem hsub)) fun _ => rfl

section

variable (hs : s.Safe)
include hs

theorem Safe.send (hhub : s'.hub = s.hub) (hending : s'.ending = s.ending)
    (hphase : s'.phase = s.phase)
    (hcaught : ∀ sid, s.Caught sid → (s'.send m).Caught sid) : (s'.send m).Safe := by
  obtain ⟨hhub', hending', hphase', -⟩ := s'.send_kept m
  rw [hhub] at hhub'
  exact hs.of_from (hhub' ▸ .refl) (hending'.trans hending).symm hcaught
    (fun hdown => hphase ▸ hphase' ▸ hdown) (congrArg Hub.live hhub')

theorem Safe.subscribe {i : ℕ} (hl : s.Steady (.subscribe i)) : (s.next (.subscribe i)).Safe := by
  simp only [next]
  cases hreq : s.requests[i]? with
  | none => exact hs
  | some r =>
    dsimp only
    cases hok : s.hub.subscribe r s.nextId with
    | error => exact { hs with }
    | ok hub =>
      obtain ⟨hlive, -, -, rfl⟩ := subscribe_ok hok
      -- the hub is live, so that it is not down
      have hup : ¬ s.phase.down = true := fun hdown =>
        Bool.false_ne_true ((hs.live hdown).symm.trans hlive)
      exact ⟨forall_mem_cons.mpr ⟨fun _ => .inr (hl r (mem_def.mpr hreq)), hs.caught⟩,
        fun hdown => absurd hdown hup, fun hdown => absurd hdown hup⟩

theorem Safe.revoke (sid : String) : (s.next (.revoke sid)).Safe := by
  by_cases hup : s.phase = .subscribing ∨ s.phase = .stopped
  · have hdown : s.phase.down = true := by
      rcases hup with hphase | hphase <;> rw [hphase] <;> rfl
    simp only [next, System.send, if_pos hup]
    exact .of_ending (hs.down hdown) hs.live
  · exact hs.send rfl rfl rfl fun _ hc => caught_revoke hc hup

theorem Safe.deliver (hi : s.Inv) : (s.next .deliver).Safe := by
  simp only [next]
  split
  case h_1 m queue hphase hqueue =>
    have hup : ¬ s.phase.down = true := by simp [hphase, Phase.down]
    refine ⟨fun sub hsub hopen => ?_, fun hdown => absurd hdown hup, fun hdown => absurd hdown hup⟩
    obtain ⟨old, hold, hid, hsession, -, hended⟩ := From.receive m sub hsub
    have hold := hs.caught old hold (hended hopen)
    rw [hid, hsession] at hold
    refine hold.imp_right fun hcaught => ?_
    rcases hcaught with hnot | hmsg | hlost
    · exact .inl hnot
    · rw [hqueue] at hmsg
      exact .inr (.inl ((mem_revocations_cons hmsg).resolve_left fun hm =>
        session_ne_of_receive hi.agrees hi.told hm hsub hopen rfl))
    · exact .inr (.inr hlost)
  case h_2 => exact hs

theorem Safe.finish : (s.next .finish).Safe := by
  simp only [next]
  cases hending : s.ending with
  | nil => exact hs
  | cons id ending =>
    -- the connection that has just been ended is not open
    have hrest : ∀ sub ∈ (s.hub.finish [id]).subs, sub.ended = false → sub.id ∈ s.ending →
        sub.id ∈ ending := by
      intro sub hsub hopen hin
      rw [hending] at hin
      exact (mem_cons.mp hin).resolve_left fun heq =>
        not_mem_of_finish hsub hopen (mem_singleton.mpr heq)
    refine ⟨fun sub hsub hopen => ?_, fun hdown sub hsub hopen => ?_, hs.live⟩
    · obtain ⟨old, hold, hid, hsession, -, hended⟩ := From.finish [id] sub hsub
      have hold := hs.caught old hold (hended hopen)
      rw [hid, hsession] at hold
      exact hold.imp_left (hrest sub hsub hopen)
    · obtain ⟨old, hold, hid, -, -, hended⟩ := From.finish [id] sub hsub
      exact hrest sub hsub hopen (hid ▸ hs.down hdown old hold (hended hopen))

theorem Safe.next (hi : s.Inv) {l : Label} (hl : s.Steady l) : (s.next l).Safe := by
  cases l with
  | check =>
    simp only [System.next]
    split_ifs
    · exact hs
    · exact { hs with }
  | subscribe => exact hs.subscribe hl
  | leave id =>
    simp only [System.next]
    cases s.hub.subs.find? (·.id = id) with
    | none => exact hs
    | some sub => exact hs.of_from (.remove sub) rfl (fun _ hc => hc) (fun h => h) rfl
  | revoke sid => exact hs.revoke sid
  | publish m => exact hs.send rfl rfl rfl fun _ hc => hc.send m
  | sever => exact hs.of_from .refl rfl (fun _ hc => hc.cut) id rfl
  | confirm =>
    simp only [System.next]
    split_ifs with hphase
    · have hdown : s.phase.down = true := by rw [hphase]; rfl
      exact .of_ending (hs.down hdown) fun _ => hs.live hdown
    · exact hs
  | goLive =>
    simp only [System.next]
    split_ifs
    · exact ⟨hs.caught, nofun, nofun⟩
    · exact hs
  | deliver => exact hs.deliver hi
  | fail =>
    simp only [System.next]
    split_ifs
    · exact hs.of_from .refl rfl (fun _ hc => hc.cut) nofun rfl
    · exact hs
  | goDown =>
    simp only [System.next]
    split_ifs
    · exact .takeDown
    · exact .takeDown
    · exact hs
  | finish => exact hs.finish
  | close => exact .takeDown

end

/-- Every message has been delivered, or its loss has brought the hub down. -/
def Quiet (s : System) : Prop := s.queue = [] ∧ s.lost = [] ∧ s.ending = []

/-- A hub that has not subscribed yet. -/
def start (maxStreams : ℕ) : System := ⟨⟨maxStreams, [], fun _ => [], fun _ => 0, false, false⟩,
  [], [], 0, .subscribing, false, [], [], []⟩

theorem inv_start (maxStreams : ℕ) : (start maxStreams).Inv where
  agrees := ⟨nodup_nil, by simp [start], fun _ _ => rfl, fun _ _ => zero_le _,
    fun _ => zero_le _⟩
  fresh := by simp [start]
  told := by simp [start]

end System

/-- In every run the tables describe the same connections and the limits hold; if every request is
registered before the revocation of its session has gone by, the open streams belong to sessions
that have not been revoked as soon as nothing is on its way. -/
theorem revoked_streams_end (maxStreams : ℕ) (labels : List Label) :
    (labels.foldl System.next (.start maxStreams)).hub.Agrees ∧
      (Runs.Along System.next System.Steady (.start maxStreams) labels →
        (labels.foldl System.next (.start maxStreams)).Quiet →
        ∀ sub ∈ (labels.foldl System.next (.start maxStreams)).hub.subs, sub.ended = false →
          sub.session ∉ (labels.foldl System.next (.start maxStreams)).revoked) := by
  have hinv := Runs.run_invariant (I := System.Inv) (fun s l hs => hs.next l) labels
    (System.inv_start maxStreams)
  refine ⟨hinv.agrees, fun hsteady hquiet sub hsub hopen => ?_⟩
  have hstart : (System.start maxStreams).Safe := .of_ending (by simp [System.start]) fun _ => rfl
  have hboth := hsteady.invariant (I := fun s => s.Inv ∧ s.Safe)
    (fun s l hs hl => ⟨hs.1.next l, hs.2.next hs.1 hl⟩) ⟨System.inv_start maxStreams, hstart⟩
  obtain ⟨hqueue, hlost, hending⟩ := hquiet
  have hcaught := hboth.2.caught sub hsub hopen
  rw [hending, System.Caught, hqueue, hlost] at hcaught
  simpa [revocations] using hcaught

def sampleRequest : Request := ⟨1, "s", .portal⟩

/-- The session of a request is revoked, and the hub hears of it, before the request is
registered. -/
def early : List Label :=
  [.confirm, .goLive, .check sampleRequest, .revoke "s", .deliver, .subscribe 0]

theorem revoked_too_early : (early.foldl System.next (.start 0)).Quiet ∧
      ∃ sub ∈ (early.foldl System.next (.start 0)).hub.subs,
        sub.ended = false ∧ sub.session ∈ (early.foldl System.next (.start 0)).revoked :=
  ⟨⟨rfl, rfl, rfl⟩, sampleRequest.subscriber 0, mem_singleton.mpr rfl, rfl, mem_singleton.mpr rfl⟩

/-- A session is revoked while its stream and that of another session are open; a third request is
registered while the revocation of its session is on its way. -/
def inTime : List Label :=
  [.confirm, .goLive, .check sampleRequest, .check ⟨2, "t", .admin⟩, .check ⟨3, "u", .portal⟩,
    .subscribe 0, .subscribe 0, .revoke "s", .revoke "u", .subscribe 0, .deliver, .deliver]

theorem inTime_ends : (inTime.foldl System.next (.start 0)).revoked = ["u", "s"] ∧
      (inTime.foldl System.next (.start 0)).hub.subs.map (·.ended) = [true, false, true] ∧
      ∀ sub ∈ (inTime.foldl System.next (.start 0)).hub.subs, sub.ended = false →
        sub.session ∉ (inTime.foldl System.next (.start 0)).revoked :=
  ⟨by decide +kernel, by decide +kernel,
    (revoked_streams_end 0 inTime).2 (by decide +kernel) ⟨by rfl, by rfl, by rfl⟩⟩

end Pandora.Realtime

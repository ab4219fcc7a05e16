import Pandora.Dataplane.Mux
import Pandora.Foundation.Runs

/-!
# What a session of streams leaves behind

When the connection ends, or a frame cannot be read, the loop closes the pipes of all streams and
waits for the forwarders.  When it refuses a frame, because the stream is there already or because
it does not know the network or the status, it returns at once: the streams stay in the table, and
the forwarders run on with their sockets open (`refused_leaves`).  `returned_clean` says that
nothing is left otherwise.
-/

namespace Pandora.Dataplane.Mux

open Config UdpForwarder

variable {δ : Type*} {c : Config δ} {f : Forwarder δ}

/-- The socket to upstream is open.  It is opened by `ListenUDP` and `DialTCP` and closed when the
function returns, which for a packet is before its stream is removed, and otherwise after. -/
def Forwarder.HoldsSocket : Forwarder δ → Prop
  | .udp f => f.phase ≠ .start ∧ f.phase ≠ .listen ∧ f.phase ≠ .remove ∧ f.phase ≠ .done
  | .tcp f => f.phase ≠ .start ∧ f.phase ≠ .dial ∧ f.phase ≠ .done

/-- **Nothing is left.** -/
structure Config.Clean (c : Config δ) : Prop where
  finished : c.Finished
  sockets : ∀ i < c.spawned, ¬(c.forwarders i).HoldsSocket
  streams : c.streams = ∅

/-- The loop does not refuse the frame. -/
def Config.Takes (c : Config δ) (h : Header δ) : Prop :=
  if h.status = muxStatusNew then
    c.streams.get h.streamID = none ∧ (h.network = muxNetworkTCP ∨ h.network = muxNetworkUDP)
  else h.status = muxStatusKeep ∨ h.status = muxStatusEnd ∨ h.status = muxStatusKeepAlive

/-- A step in which no frame is refused. -/
def Config.Accepts (c : Config δ) (l : Label δ) : Prop :=
  match c.loop, l with
  | .header, .header h => c.Takes h
  | _, _ => True

/-- After `closeAll` the table stays empty, and the loop returns when all forwarders have
finished. -/
def Config.Settled (c : Config δ) : Prop :=
  match c.loop with
  | .waiting _ => c.streams = ∅
  | .returned _ => c.streams = ∅ ∧ c.Finished
  | _ => True

theorem Config.Settled.beside (h : c.Settled) {c' : Config δ} {i : ℕ}
    (hbeside : c.Beside i f c') (hdone : (c.forwarders i).Done → f.Done) : c'.Settled := by
  unfold Settled at h ⊢
  rcases hbeside.loop with hloop | ⟨id, s, rest, -, hloop | ⟨rest', hloop⟩⟩
  · rw [hloop]
    cases hc : c.loop with
    | header | data | piping => trivial
    | waiting =>
      rw [hc] at h
      exact hbeside.streams h
    | returned =>
      rw [hc] at h
      refine ⟨hbeside.streams h.1, ⟨fun j hj => ?_⟩⟩
      rw [hbeside.spawned] at hj
      rw [hbeside.forwarders]
      by_cases heq : j = i
      · subst heq
        rw [Function.update_self]
        exact hdone (h.2.done j hj)
      · rw [Function.update_of_ne heq]
        exact h.2.done j hj
  · rw [hloop]
    trivial
  · rw [hloop]
    trivial

theorem settled_afterHeader (h : Header δ) (stream : Option ℕ) :
    (c.afterHeader h stream).Settled := by
  unfold afterHeader Settled
  split_ifs <;> trivial

theorem settled_onHeader {h : Header δ} (htakes : c.Takes h) : (c.onHeader h).Settled := by
  unfold Takes at htakes
  simp only [onHeader]
  split_ifs at htakes ⊢ with hnew hthere hnetwork
  · simp [htakes.1] at hthere
  · exact absurd htakes.2 (not_or.mpr hnetwork)
  iterate 5 exact settled_afterHeader h _
  · simp_all

theorem settled_onData (h : Header δ) (stream : Option ℕ) (data : List UInt8) :
    (c.onData h stream data).Settled := by
  unfold onData
  cases stream with
  | none => trivial
  | some s =>
    dsimp only
    split_ifs <;> trivial

theorem TcpForwarder.Goes.done {p : Protocol} {f f' : TcpForwarder} (h : f.Goes δ p f')
    (hdone : f.phase = .done) : f'.phase = .done := by
  cases h with
  | stays => exact hdone
  | step | up | down => simp [TcpForwarder.step, TcpForwarder.up, TcpForwarder.down, hdone]
  | read hphase => cases hphase.symm.trans hdone

theorem Config.Settled.next (h : c.Settled) {l : Label δ} (haccepts : c.Accepts l) :
    (next c l).Settled := by
  have hstep := stepped_next c l
  generalize Mux.next c l = c' at hstep
  cases hstep with
  | same => exact h
  | header frame hloop =>
    simp only [Accepts, hloop] at haccepts
    exact settled_onHeader haccepts
  | ended => exact rfl
  | data bytes => exact settled_onData _ _ bytes
  | pipeClosed => trivial
  | waited hloop hfinished =>
    rw [Settled, hloop] at h
    exact ⟨h, ⟨hfinished.done⟩⟩
  | udp _ hf ch hbeside =>
    refine h.beside hbeside fun hdone => ?_
    rw [hf] at hdone
    replace hdone : _ = UdpPhase.done := hdone
    show (step _ _ _ ch).phase = .done
    simp [step, hdone]
  | tcp _ hf hgoes hbeside =>
    refine h.beside hbeside fun hdone => ?_
    rw [hf] at hdone
    exact hgoes.done hdone

theorem Forwarder.Done.closed (h : f.Done) : ¬f.HoldsSocket := by
  cases f with
  | udp f => exact fun hholds => hholds.2.2.2 h
  | tcp f => exact fun hholds => hholds.2.2 h

/-- **A session that refuses no frame leaves nothing behind** when it returns. -/
theorem returned_clean (p : Protocol) {labels : List (Label δ)}
    (haccepts : Runs.Along next Config.Accepts (start p) labels) {err : Option Failure}
    (hreturned : (labels.foldl next (start p)).loop = .returned err) :
    (labels.foldl next (start p)).Clean := by
  have hsettled := haccepts.invariant (I := Config.Settled)
    (fun _ _ h hstep => h.next hstep) trivial
  rw [Config.Settled, hreturned] at hsettled
  exact ⟨hsettled.2, fun i hi => (hsettled.2.done i hi).closed, hsettled.1⟩

/-- A stream of each network is opened, and the connection ends. -/
def sampleSession : List (Label ℕ) :=
  [.header ⟨1, muxStatusNew, 0, muxNetworkTCP, none⟩,
    .header ⟨2, muxStatusNew, 0, muxNetworkUDP, none⟩,
    .forward 0 {}, .headerError none, .forward 0 {}, .waited]

theorem sample_returned_clean : (sampleSession.foldl next (start .vmess)).Clean :=
  returned_clean .vmess
    ⟨⟨rfl, .inl rfl⟩, ⟨rfl, .inr rfl⟩, trivial, trivial, trivial, trivial, trivial⟩ rfl

/-- A stream is connected, and its number is used once more. -/
def refused : List (Label ℕ) :=
  [.header ⟨1, muxStatusNew, 0, muxNetworkTCP, some 0⟩, .forward 0 {}, .forward 0 {},
    .header ⟨1, muxStatusNew, 0, muxNetworkTCP, some 0⟩]

theorem refused_leaves :
    let c := refused.foldl next (start .vless)
    c.loop = .returned (some (.duplicate 1)) ∧ (c.forwarders 0).HoldsSocket ∧ ¬c.Clean ∧
      ¬(refused.foldl next (start .vmess)).Clean := by
  have hnot : ∀ p, ¬(refused.foldl next (start p)).Clean := by
    rintro (_ | _) h <;> exact absurd (h.finished.done 0 (by decide)) (by decide +kernel)
  exact ⟨rfl, ⟨nofun, nofun, nofun⟩, hnot .vless, hnot .vmess⟩

end Pandora.Dataplane.Mux

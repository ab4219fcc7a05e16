import Mathlib.Algebra.BigOperators.Intervals
import Mathlib.Algebra.Order.BigOperators.Group.Finset
import Pandora.Dataplane.Mux
import Pandora.Foundation.Runs

/-!
# What is billed for the streams of a connection

`Config.Billed`: once all forwarders have finished, the counter of the user has been given what
they forwarded.  For TCP streams this is so, except that VLESS also bills what it has in its buffer
when that cannot be flushed.  A packet is billed by VLESS only when it has been answered, and then
with the whole answer, whether or not the client could be written it; by VMess it is not billed
(`unanswered_not_billed`).  So the sums agree exactly when every forwarder is `Covered`.

`UdpForwarder.Sound` and `TcpForwarder.Sound` say what has happened to a forwarder before each of
its steps.
-/

namespace Pandora.Dataplane.Mux

open Nat Finset Function TcpForwarder Forwarder Half

variable {δ : Type*} {p : Protocol}

/-! ## What is claimed -/

/-- What a forwarder has forwarded: up what upstream has been written, down what the client has. -/
def Forwarder.forwarded : Forwarder δ → Tally
  | .udp f => ⟨if f.wrote then f.payload.length else 0, f.delivered⟩
  | .tcp f => ⟨f.accepted.up, f.got⟩

/-- What has been added to the counter of the user for a forwarder. -/
def Forwarder.billed : Forwarder δ → Tally
  | .udp f => f.billed
  | .tcp f => f.billed

/-- **Every byte is billed.** -/
def Config.Billed (c : Config δ) : Prop :=
  ∑ i ∈ range c.spawned, (c.forwarders i).billed.up =
      ∑ i ∈ range c.spawned, (c.forwarders i).forwarded.up ∧
    ∑ i ∈ range c.spawned, (c.forwarders i).billed.down =
      ∑ i ∈ range c.spawned, (c.forwarders i).forwarded.down

instance (c : Config δ) : Decidable c.Billed := inferInstanceAs (Decidable (_ ∧ _))

/-- When this holds, for one forwarder.  A packet, VLESS: if it has been sent and not answered it is
empty, and an answer has been written to the client whole; VMess: nothing has been forwarded.  A TCP
stream: the connection has got what its writer has accepted. -/
def Forwarder.Covered (p : Protocol) : Forwarder δ → Prop
  | .udp f => match p with
    | .vless => (f.wrote = true → f.answer = none → f.payload = []) ∧
        ∀ n ∈ f.answer, f.delivered = n
    | .vmess => (f.wrote = true → f.payload = []) ∧ f.delivered = 0
  | .tcp f => f.got = f.accepted.down

instance (p : Protocol) : DecidablePred (Forwarder.Covered (δ := δ) p)
  | .udp _ => match p with
    | .vless => inferInstanceAs (Decidable (_ ∧ ∀ n ∈ _, _))
    | .vmess => inferInstanceAs (Decidable (_ ∧ _))
  | .tcp f => inferInstanceAs (Decidable (f.got = f.accepted.down))

/-- **When this holds**, for all forwarders. -/
structure Config.Covered (c : Config δ) : Prop where
  each : ∀ i < c.spawned, (c.forwarders i).Covered c.protocol

instance (c : Config δ) : Decidable c.Covered :=
  decidable_of_iff (∀ i < c.spawned, (c.forwarders i).Covered c.protocol) ⟨.mk, (·.each)⟩

/-! ## One forwarder -/

/-- What is billed for a packet that has been answered. -/
def Protocol.bill (p : Protocol) (payload : List UInt8) (n : ℕ) : Tally :=
  match p with
  | .vless => ⟨payload.length, n⟩
  | .vmess => {}

/-- Nothing has come back. -/
def UdpForwarder.Unanswered (f : UdpForwarder δ) : Prop :=
  f.answer = none ∧ f.delivered = 0 ∧ f.billed = {}

/-- An answer of `n` bytes has come back and has been billed. -/
def UdpForwarder.Answered (p : Protocol) (f : UdpForwarder δ) (n : ℕ) : Prop :=
  f.wrote = true ∧ f.answer = some n ∧ f.billed = p.bill f.payload n

/-- What has happened to a packet before each step. -/
def UdpForwarder.Sound (p : Protocol) (f : UdpForwarder δ) : Prop :=
  match f.phase with
  | .start | .listen | .resolve | .send => f.Unanswered
  | .receive => f.wrote = true ∧ f.Unanswered
  | .bill n => p = .vless ∧ f.wrote = true ∧ f.answer = some n ∧ f.billed = {}
  | .reply n => f.Answered p n
  | .remove | .done => f.Unanswered ∨ ∃ n, f.Answered p n ∧ f.delivered ≤ n

theorem UdpForwarder.Sound.step {f : UdpForwarder δ} (h : f.Sound p)
    (dest : Option δ) (ch : Chance) : (f.step p dest ch).Sound p := by
  rcases f with ⟨id, stream, given, payload, phase, wrote, answer, delivered, billed⟩
  cases phase with
  | start => cases dest with
    | none => exact Or.inl h
    | some => exact h
  | listen | resolve =>
    cases hok : ch.ok <;> simp only [UdpForwarder.step, hok]
    · exact Or.inl h
    · exact h
  | send =>
    cases hok : ch.ok <;> simp only [UdpForwarder.step, hok]
    · exact Or.inl h
    · exact ⟨rfl, h⟩
  | receive =>
    obtain ⟨hwrote, hunanswered⟩ := h
    cases hok : ch.ok <;> simp only [UdpForwarder.step, hok]
    · exact Or.inl hunanswered
    · cases p with
      | vless => exact ⟨rfl, hwrote, rfl, hunanswered.2.2⟩
      | vmess => exact ⟨hwrote, rfl, hunanswered.2.2⟩
  | bill n =>
    obtain ⟨rfl, hwrote, hanswer, (rfl : billed = {})⟩ := h
    refine ⟨hwrote, hanswer, ?_⟩
    show (⟨0 + payload.length, 0 + n⟩ : Tally) = ⟨payload.length, n⟩
    rw [zero_add, zero_add]
  | reply n =>
    cases hok : ch.ok <;> simp only [UdpForwarder.step, hok]
    · exact Or.inr ⟨n, h, min_le_right _ _⟩
    · exact Or.inr ⟨n, h, le_rfl⟩
  | remove | done => exact h

/-- What a direction has written and not counted. -/
def Half.uncounted : Half → ℕ
  | .counting n _ => n
  | _ => 0

/-- What a stream has forwarded has been billed, or is about to be. -/
def TcpForwarder.Sound (f : TcpForwarder) : Prop :=
  match f.phase with
  | .relay up down =>
    f.accepted = ⟨f.billed.up + up.uncounted, f.billed.down + down.uncounted⟩
  | _ => f.accepted = f.billed

theorem Half.uncounted_counted (last : Option Ending) : (counted last).uncounted = 0 := by
  cases last <;> rfl

variable {f : TcpForwarder}

namespace TcpForwarder.Sound

/-- `Relay`, with one direction elsewhere that has nothing uncounted. -/
theorem relay {up down up' down' : Half} (h : f.Sound) (hphase : f.phase = .relay up down)
    (hup : up'.uncounted = up.uncounted) (hdown : down'.uncounted = down.uncounted) :
    Sound { f with phase := .relay up' down' } := by
  rw [Sound, hphase] at h
  show f.accepted = ⟨f.billed.up + up'.uncounted, f.billed.down + down'.uncounted⟩
  rw [hup, hdown]
  exact h

theorem step (h : f.Sound) (dest : Option δ) (ch : Chance) : (f.step dest ch).Sound := by
  rcases f with ⟨id, stream, phase, accepted, got, billed⟩
  cases phase with
  | start => cases dest with
    | none | some => exact h
  | dial => cases hok : ch.ok <;> simp only [step, hok] <;> exact h
  | relay up down => cases up <;> cases down <;> exact h
  | remove | done => exact h

theorem up (h : f.Sound) (ch : Chance) : (f.up ch).Sound := by
  unfold TcpForwarder.up
  split
  · next chunk last down hphase =>
    rw [Sound, hphase] at h
    rw [h]
    rfl
  · next n last down hphase =>
    rw [Sound, hphase] at h
    show f.accepted = ⟨f.billed.up + n + (counted last).uncounted, _⟩
    rw [h, uncounted_counted]
    rfl
  · next e down hphase => exact h.relay hphase rfl rfl
  · exact h

theorem down (h : f.Sound) (p : Protocol) (ch : Chance) : (f.down p ch).Sound := by
  unfold TcpForwarder.down
  split
  · next up hphase =>
    refine h.relay hphase rfl ?_
    split_ifs
    · exact uncounted_counted ch.last
    · rfl
  · next up chunk last hphase =>
    rw [Sound, hphase] at h
    rw [h]
    rfl
  · next up n last hphase =>
    rw [Sound, hphase] at h
    show f.accepted = ⟨_, f.billed.down + n + (counted last).uncounted⟩
    rw [h, uncounted_counted]
    rfl
  · next up e hphase => exact h.relay hphase rfl rfl
  · exact h

theorem goes {f' : TcpForwarder} (h : f.Sound) (hgoes : f.Goes δ p f') : f'.Sound := by
  cases hgoes with
  | stays => exact h
  | step dest ch => exact h.step dest ch
  | up ch => exact h.up ch
  | down ch => exact h.down p ch
  | read hphase hhalf =>
    refine h.relay hphase ?_ rfl
    rcases hhalf with rfl | ⟨chunk, rfl⟩ | ⟨e, rfl⟩ <;> rfl

end TcpForwarder.Sound

/-- What the connection has got of what has been accepted. -/
structure TcpForwarder.Gets (p : Protocol) (f : TcpForwarder) : Prop where
  le : f.got ≤ f.accepted.down
  vmess : p = .vmess → f.got = f.accepted.down

theorem Protocol.gets_le (p : Protocol) (ch : Chance) (n : ℕ) : p.gets ch n ≤ n := by
  cases p with
  | vless =>
    simp only [gets]
    split_ifs
    · exact le_rfl
    · exact min_le_right _ _
  | vmess => exact le_rfl

theorem TcpForwarder.Gets.goes {f' : TcpForwarder} (h : f.Gets p) (hgoes : f.Goes δ p f') :
    f'.Gets p := by
  cases hgoes with
  | stays | read => exact ⟨h.le, h.vmess⟩
  | step dest =>
    unfold TcpForwarder.step
    split <;> exact ⟨h.le, h.vmess⟩
  | up =>
    unfold TcpForwarder.up
    split <;> exact ⟨h.le, h.vmess⟩
  | down ch =>
    unfold TcpForwarder.down
    split
    · exact ⟨h.le, h.vmess⟩
    · refine ⟨Nat.add_le_add h.le (p.gets_le ch _), ?_⟩
      rintro rfl
      exact congrArg (· + _) (h.vmess rfl)
    · exact ⟨h.le, h.vmess⟩
    · exact ⟨h.le, h.vmess⟩
    · exact h

def Forwarder.Sound (p : Protocol) : Forwarder δ → Prop
  | .udp f => f.Sound p
  | .tcp f => f.Sound ∧ f.Gets p

/-- What has been billed for a forwarder that is done, against what it has forwarded. -/
structure Forwarder.Compared (p : Protocol) (f : Forwarder δ) : Prop where
  up : f.billed.up ≤ f.forwarded.up
  vless : p = .vless → f.forwarded.down ≤ f.billed.down
  vmess : p = .vmess → f.billed.down ≤ f.forwarded.down
  covered : f.billed.up = f.forwarded.up ∧ f.billed.down = f.forwarded.down ↔ f.Covered p

theorem UdpForwarder.Unanswered.compared {f : UdpForwarder δ} (h : f.Unanswered) (p : Protocol) :
    (udp f).Compared p := by
  obtain ⟨hanswer, hdelivered, hbilled⟩ := h
  have hsent : 0 = (if f.wrote then f.payload.length else 0) ↔
      (f.wrote = true → f.payload = []) := by
    split_ifs with hwrote
    · rw [eq_comm, List.length_eq_zero_iff]
      exact ⟨fun h _ => h, fun h => h hwrote⟩
    · exact ⟨fun _ h => absurd h hwrote, fun _ => rfl⟩
  refine ⟨?_, fun _ => ?_, fun _ => ?_, ?_⟩
  · show f.billed.up ≤ _
    rw [hbilled]
    exact zero_le _
  · exact hdelivered.trans_le (zero_le _)
  · show f.billed.down ≤ _
    rw [hbilled]
    exact zero_le _
  · show f.billed.up = _ ∧ f.billed.down = f.delivered ↔ _
    rw [hbilled, hdelivered]
    show 0 = (if f.wrote then f.payload.length else 0) ∧ (0 : ℕ) = 0 ↔ _
    rw [hsent]
    cases p with
    | vless =>
      show _ ↔ (f.wrote = true → f.answer = none → f.payload = []) ∧ ∀ n ∈ f.answer, f.delivered = n
      rw [hanswer]
      exact ⟨fun h => ⟨fun hw _ => h.1 hw, nofun⟩, fun h => ⟨fun hw => h.1 hw rfl, rfl⟩⟩
    | vmess =>
      show _ ↔ (f.wrote = true → f.payload = []) ∧ f.delivered = 0
      rw [hdelivered]

theorem UdpForwarder.Answered.compared {f : UdpForwarder δ} {n : ℕ}
    (h : f.Answered p n) (hle : f.delivered ≤ n) : (udp f).Compared p := by
  obtain ⟨hwrote, hanswer, hbilled⟩ := h
  have hsent : (udp f).forwarded = ⟨f.payload.length, f.delivered⟩ := by
    show (⟨if f.wrote then f.payload.length else 0, f.delivered⟩ : Tally) = _
    rw [if_pos hwrote]
  have hcharged : (udp f).billed = p.bill f.payload n := hbilled
  cases p with
  | vless =>
    refine ⟨?_, fun _ => ?_, nofun, ?_⟩
    · rw [hcharged, hsent]
      exact le_rfl
    · rw [hcharged, hsent]
      exact hle
    · rw [hcharged, hsent]
      show _ ∧ n = f.delivered ↔
        (f.wrote = true → f.answer = none → f.payload = []) ∧ ∀ k ∈ f.answer, f.delivered = k
      rw [hanswer]
      refine ⟨fun h => ⟨fun _ => nofun, ?_⟩, fun h => ⟨rfl, (h.2 n rfl).symm⟩⟩
      rintro k ⟨⟩
      exact h.2.symm
  | vmess =>
    refine ⟨?_, nofun, fun _ => ?_, ?_⟩
    · rw [hcharged]
      exact zero_le _
    · rw [hcharged]
      exact zero_le _
    · rw [hcharged, hsent]
      show 0 = f.payload.length ∧ 0 = f.delivered ↔ (f.wrote = true → f.payload = []) ∧
        f.delivered = 0
      rw [eq_comm, List.length_eq_zero_iff, @eq_comm ℕ 0]
      exact ⟨fun h => ⟨fun _ => h.1, h.2⟩, fun h => ⟨h.1 hwrote, h.2⟩⟩

variable {f : Forwarder δ}

theorem Forwarder.Sound.compared (h : f.Sound p) (hdone : f.Done) : f.Compared p := by
  cases f with
  | udp f =>
    replace h : f.Sound p := h
    rw [UdpForwarder.Sound, show f.phase = .done from hdone] at h
    rcases h with h | ⟨n, h, hle⟩
    · exact h.compared p
    · exact h.compared hle
  | tcp f =>
    obtain ⟨hsound, hgets⟩ : f.Sound ∧ f.Gets p := h
    rw [TcpForwarder.Sound, show f.phase = .done from hdone] at hsound
    -- All that has been accepted has been billed.
    have hbilled : (tcp f : Forwarder δ).billed = f.accepted := hsound.symm
    refine ⟨?_, fun _ => ?_, fun hp => ?_, ?_⟩ <;> rw [hbilled]
    · exact le_rfl
    · exact hgets.le
    · exact (hgets.vmess hp).ge
    · exact ⟨fun h => h.2.symm, fun h => ⟨rfl, h.symm⟩⟩

/-! ## The session -/

/-- All forwarders are sound. -/
structure Config.Inv (p : Protocol) (c : Config δ) : Prop where
  protocol : c.protocol = p
  sound : ∀ i < c.spawned, (c.forwarders i).Sound c.protocol

variable {c c' : Config δ}

/-- Nothing happens to the forwarders. -/
structure Config.Keeps (c c' : Config δ) : Prop where
  protocol : c'.protocol = c.protocol
  forwarders : c'.forwarders = c.forwarders
  spawned : c'.spawned = c.spawned

theorem Config.Inv.keeps (hc : c.Inv p) (h : c.Keeps c') : c'.Inv p := by
  refine ⟨h.protocol.trans hc.protocol, fun i hi => ?_⟩
  rw [h.protocol, h.forwarders]
  rw [h.spawned] at hi
  exact hc.sound i hi

theorem Config.keeps_removeStream (c : Config δ) (id : UInt16) : c.Keeps (c.removeStream id) := by
  unfold Config.removeStream
  cases c.streams.get id with
  | none | some => exact ⟨rfl, rfl, rfl⟩

theorem Config.keeps_setDest (c : Config δ) (s : ℕ) (d : Option δ) : c.Keeps (c.setDest s d) := by
  unfold Config.setDest
  split_ifs
  · exact ⟨rfl, rfl, rfl⟩
  · exact ⟨rfl, rfl, rfl⟩

section

variable (hc : c.Inv p)
include hc

namespace Config.Inv

theorem beside {i : ℕ} (h : c.Beside i f c') (hf : f.Sound c.protocol) : c'.Inv p := by
  refine ⟨h.protocol.trans hc.protocol, fun j hj => ?_⟩
  rw [h.spawned] at hj
  rw [h.protocol, h.forwarders, update_apply]
  split_ifs
  · exact hf
  · exact hc.sound j hj

theorem spawn (hf : f.Sound c.protocol) : (c.spawn f).Inv p := by
  refine ⟨hc.protocol, fun j hj => ?_⟩
  show (update c.forwarders c.spawned f j).Sound c.protocol
  rw [update_apply]
  split_ifs with heq
  · exact hf
  · exact hc.sound j (lt_of_le_of_ne (Nat.lt_succ_iff.mp hj) heq)

theorem newStream (id : UInt16) (network : UInt8)
    (d : Option δ) : (c.newStream id network d).Inv p := by
  unfold Config.newStream
  split_ifs
  · exact (hc.spawn (f := .tcp ⟨id, c.made, .start, {}, 0, {}⟩) ⟨rfl, le_rfl, fun _ => rfl⟩).keeps
      ⟨rfl, rfl, rfl⟩
  · exact hc.keeps ⟨rfl, rfl, rfl⟩

theorem onHeader (h : Header δ) : (c.onHeader h).Inv p := by
  have hafter : ∀ {c : Config δ} (stream : Option ℕ), c.Inv p → (c.afterHeader h stream).Inv p :=
    fun _ hc => hc.keeps ⟨rfl, rfl, rfl⟩
  simp only [Config.onHeader]
  split_ifs
  · exact hc.keeps ⟨rfl, rfl, rfl⟩
  · exact hc.keeps ⟨rfl, rfl, rfl⟩
  · exact hafter _ (hc.newStream _ _ _)
  · exact hafter _ hc
  · exact hafter _ (hc.keeps (c.keeps_removeStream _))
  · exact hafter _ hc
  · exact hafter _ hc
  · exact hc.keeps ⟨rfl, rfl, rfl⟩

theorem onData (h : Header δ) (stream : Option ℕ)
    (data : List UInt8) : (c.onData h stream data).Inv p := by
  unfold Config.onData
  cases stream with
  | none => exact hc.keeps ⟨rfl, rfl, rfl⟩
  | some s =>
    dsimp only
    split_ifs
    · exact hc.keeps ⟨rfl, rfl, rfl⟩
    · refine ((hc.keeps (c.keeps_setDest s h.destination)).spawn (f := .udp _) ?_).keeps
        ⟨rfl, rfl, rfl⟩
      exact ⟨rfl, rfl, rfl⟩

end Config.Inv

end

/-! ## All runs -/

theorem Config.Inv.next (hc : c.Inv p) (l : Label δ) : (next c l).Inv p := by
  have hstep := stepped_next c l
  generalize Mux.next c l = c' at hstep
  cases hstep with
  | same => exact hc
  | header h => exact hc.onHeader h
  | ended | waited => exact hc.keeps ⟨rfl, rfl, rfl⟩
  | data bytes => exact hc.onData _ _ bytes
  | pipeClosed id => exact (hc.keeps (c.keeps_removeStream id)).keeps ⟨rfl, rfl, rfl⟩
  | @udp i f c' hi hf ch hbeside =>
    have hsound := hc.sound i hi
    rw [hf] at hsound
    exact hc.beside hbeside (UdpForwarder.Sound.step hsound _ ch)
  | @tcp i f f' l c' hi hf hgoes hbeside =>
    have hsound := hc.sound i hi
    rw [hf] at hsound
    exact hc.beside hbeside ⟨hsound.1.goes hgoes, hsound.2.goes hgoes⟩

/-- Sums of what is compared entry by entry the same way are equal iff the entries are. -/
theorem Config.billed_iff
    (h : ∀ i < c.spawned, (c.forwarders i).Compared c.protocol) : c.Billed ↔ c.Covered := by
  have hup : ∀ i ∈ range c.spawned, (c.forwarders i).billed.up ≤
      (c.forwarders i).forwarded.up := fun i hi => (h i (mem_range.mp hi)).up
  have hdown : ∑ i ∈ range c.spawned, (c.forwarders i).billed.down =
        ∑ i ∈ range c.spawned, (c.forwarders i).forwarded.down ↔
      ∀ i ∈ range c.spawned, (c.forwarders i).billed.down = (c.forwarders i).forwarded.down := by
    cases hp : c.protocol with
    | vless =>
      rw [eq_comm, sum_eq_sum_iff_of_le fun i hi => (h i (mem_range.mp hi)).vless hp]
      exact ⟨fun h i hi => (h i hi).symm, fun h i hi => (h i hi).symm⟩
    | vmess =>
      exact sum_eq_sum_iff_of_le fun i hi => (h i (mem_range.mp hi)).vmess hp
  rw [Config.Billed, sum_eq_sum_iff_of_le hup, hdown]
  refine ⟨fun heq => ⟨fun i hi => ?_⟩, fun hcov => ⟨fun i hi => ?_, fun i hi => ?_⟩⟩
  · have hmem := mem_range.mpr hi
    exact (h i hi).covered.mp ⟨heq.1 i hmem, heq.2 i hmem⟩
  · have hlt := mem_range.mp hi
    exact ((h i hlt).covered.mpr (hcov.each i hlt)).1
  · have hlt := mem_range.mp hi
    exact ((h i hlt).covered.mpr (hcov.each i hlt)).2

/-- A TCP stream sends three bytes up and gets two, and a packet of a UDP stream is answered. -/
def sample : List (Label Unit) :=
  [.header ⟨1, muxStatusNew, muxOptionData, muxNetworkTCP, some ()⟩, .data [1, 2, 3],
    .forward 0 {}, .forward 0 {}, .up 0 { n := 2048 }, .up 0 { n := 3 }, .up 0 {},
    .down 0 { chunk := [4, 5], last := some .eof }, .down 0 { n := 2 }, .down 0 {}, .down 0 {},
    .header ⟨1, muxStatusEnd, 0, 0, none⟩, .up 0 { last := some .eof }, .up 0 {},
    .forward 0 {}, .forward 0 {},
    .header ⟨2, muxStatusNew, muxOptionData, muxNetworkUDP, some ()⟩, .data [6],
    .forward 1 {}, .forward 1 {}, .forward 1 {}, .forward 1 {}, .forward 1 { n := 7 },
    .forward 1 {}, .forward 1 {}]

/-- A TCP stream gets two bytes, of which the client gets one. -/
def unflushed : List (Label Unit) :=
  [.header ⟨1, muxStatusNew, 0, muxNetworkTCP, some ()⟩, .forward 0 {}, .forward 0 {},
    .down 0 { chunk := [4, 5] }, .down 0 { ok := false, n := 2, got := 1 }, .down 0 {}, .down 0 {},
    .up 0 {}, .up 0 {}, .forward 0 {}, .forward 0 {}]

example :
    let c := unflushed.foldl next (start .vless)
    c.Finished ∧ (c.forwarders 0).forwarded = ⟨0, 1⟩ ∧ (c.forwarders 0).billed = ⟨0, 2⟩ := by
  decide +kernel

/-- A packet of three bytes is sent, and nothing comes back. -/
def unanswered : List (Label Unit) :=
  [.header ⟨1, muxStatusNew, muxOptionData, muxNetworkUDP, some ()⟩, .data [1, 2, 3],
    .forward 0 {}, .forward 0 {}, .forward 0 {}, .forward 0 {}, .forward 0 { ok := false },
    .forward 0 {}]

/-- A packet of three bytes is sent, two come back and are written to the client. -/
def answered : List (Label Unit) :=
  [.header ⟨1, muxStatusNew, muxOptionData, muxNetworkUDP, some ()⟩, .data [1, 2, 3],
    .forward 0 {}, .forward 0 {}, .forward 0 {}, .forward 0 {}, .forward 0 { n := 2 },
    .forward 0 {}]

end Pandora.Dataplane.Mux

import Pandora.Dataplane.UserSessions
import Pandora.Foundation.Runs

/-!
# Every byte reaches one collection

The counters of the users are filled by the connections while the bytes pass, and emptied by
`snapshot`, which holds the lock of the table but not the counters: bytes may be added between any
two of its swaps.  A counter that nobody holds is taken out of the table.

Who holds a counter is counted in `refs`, so a counter that is taken out is not used any more.
`add` is the exception: it looks the counter up and lets go of the lock, without holding the
counter, and adds afterwards.  If the counter is taken out in between, the bytes go into a counter
that nobody will look at again (`added_too_late`).  Nothing else can lose bytes or count them
twice.
-/

namespace Pandora.Dataplane

open List Function Keyed UserCounter UserSessions Inv

open Traffic (Direction UserTraffic i64)

namespace Counted

/-! ## Runs -/

/-- An `add` that has found its counter, and what it has yet to add. -/
structure Adding where
  id : ℤ
  counter : ℕ
  up : ℤ
  down : ℤ
  deriving DecidableEq

/-- A `snapshot` that has not returned: the entries it has not been through, the upload of the
first of them if that has been taken, and what it will return. -/
structure Snap where
  rest : List Slot
  up : Option ℤ := none
  out : List UserTraffic := []

/-- The table, what is under way, and what has happened. -/
structure Config where
  table : UserSessions := {}
  /-- The sessions that have not been closed and the counters that have not been released. -/
  active : List Handle := []
  adds : List Adding := []
  snap : Option Snap := none
  /-- What has been added for a user. -/
  given : ℤ → Direction → ℤ := fun _ _ => 0
  /-- What the collections have returned. -/
  returned : List UserTraffic := []

open Config

inductive Label
  | openSession (id : ℤ) (epoch : ℕ)
  | close (h : Handle)
  | retain (id : ℤ)
  | release (h : Handle)
  /-- A relay adds bytes to the counter of its session, or to the one it retained. -/
  | relay (h : Handle) (d : Direction) (n : ℤ)
  /-- `add`, up to the end of its lock. -/
  | add (id up down : ℤ)
  /-- The next `Add` of such a call. -/
  | addNext (a : Adding)
  | revoke (ids : List ℤ) (now : Time)
  /-- `snapshot` takes the lock and goes through the table in some order. -/
  | snapshot (order : List Slot)
  /-- The next `Swap` of `snapshot`, or its return. -/
  | swap

/-- Bytes are added to a counter for a user. -/
def Config.count (c : Config) (id : ℤ) (counter : ℕ) (d : Direction) (n : ℤ) : Config :=
  { c with
    table := c.table.onCounter counter (add d n)
    given := fun id' d' => if id' = id ∧ d' = d then c.given id' d' + n else c.given id' d' }

/-- One `Add` of an `add`: upload first. -/
def Config.addNext (c : Config) (a : Adding) : Config :=
  if a.up ≠ 0 then
    let rest := { a with up := 0 }
    { c.count a.id a.counter .upload a.up with
      adds := if a.down = 0 then c.adds.erase a else rest :: c.adds.erase a }
  else { c.count a.id a.counter .download a.down with adds := c.adds.erase a }

/-- The next step of `snapshot`. -/
def Config.swap (c : Config) (s : Snap) : Config :=
  match s.rest, s.up with
  | [], _ => { c with snap := none, returned := s.out ++ c.returned }
  | slot :: rest, none =>
    { c with
      table := c.table.onCounter slot.counter (UserCounter.clear .upload)
      snap := some { s with rest := slot :: rest, up := some (c.table.counters slot.counter).up } }
  | slot :: rest, some up =>
    let down := (c.table.counters slot.counter).down
    let table := c.table.onCounter slot.counter (UserCounter.clear .download)
    { c with
      table := if (c.table.counters slot.counter).refs = 0 then
          { table with traffic := table.traffic.erase slot.id } else table
      snap := some ⟨rest, none, if up ≠ 0 ∨ down ≠ 0 then ⟨slot.id, up, down⟩ :: s.out else s.out⟩ }

/-- A step that needs the lock waits while `snapshot` has it. -/
def Config.locked (c : Config) (f : Config) : Config := if c.snap.isSome then c else f

def next (c : Config) : Label → Config
  | .openSession id epoch =>
    c.locked (match c.table.openSession id epoch with
      | none => c
      | some (table, h) => { c with table := table, active := h :: c.active })
  | .close h =>
    c.locked (if h ∈ c.active then
      { c with table := c.table.close h, active := c.active.erase h } else c)
  | .retain id =>
    c.locked { c with table := (c.table.retain id).1, active := (c.table.retain id).2 :: c.active }
  | .release h =>
    c.locked (if h ∈ c.active then
      { c with table := c.table.release h, active := c.active.erase h } else c)
  | .relay h d n => c.count h.id h.counter d n
  | .add id up down =>
    if up = 0 ∧ down = 0 then c
    else
      c.locked { c with
        table := (c.table.counterLocked id).1
        adds := ⟨id, (c.table.counterLocked id).2, up, down⟩ :: c.adds }
  | .addNext a => if a ∈ c.adds then c.addNext a else c
  | .revoke ids now => c.locked { c with table := (c.table.revoke ids now).1 }
  | .snapshot order =>
    if order.Perm c.table.traffic.values then c.locked { c with snap := some ⟨order, none, []⟩ }
    else c
  | .swap =>
    match c.snap with
    | none => c
    | some s => c.swap s

/-- The one of two amounts that is of a direction. -/
def pick (d : Direction) (up down : ℤ) : ℤ :=
  match d with
  | .upload => up
  | .download => down

/-- The bytes of a user in one direction. -/
def bytesOf (id : ℤ) (d : Direction) (l : List UserTraffic) : ℤ :=
  ((l.filter fun t => t.id = id).map fun t => pick d t.upload t.download).sum

/-- The upload of a user that has been taken while its download has not. -/
def Snap.half (s : Snap) (id : ℤ) : ℤ :=
  match s.rest, s.up with
  | slot :: _, some up => if slot.id = id then up else 0
  | _, _ => 0

/-- What a collection that has not returned has taken. -/
def Snap.taken (s : Snap) (id : ℤ) (d : Direction) : ℤ :=
  bytesOf id d s.out + pick d (s.half id) 0

/-- What the collections have taken, the one under way among them. -/
def Config.taken (c : Config) (id : ℤ) (d : Direction) : ℤ :=
  bytesOf id d c.returned + match c.snap with
    | none => 0
    | some s => s.taken id d

/-- What is in the counter of a user that is in the table. -/
def Config.held (c : Config) (id : ℤ) (d : Direction) : ℤ :=
  match c.table.traffic.get id with
  | none => 0
  | some slot => (c.table.counters slot.counter).bytes d

/-- **Every byte that was added is in the table or has been collected**, and the counter of a
session that is open is in the table. -/
structure Config.Conserved (c : Config) : Prop where
  conserved : ∀ id d, c.given id d = c.taken id d + c.held id d
  used : ∀ h ∈ c.active, c.table.traffic.get h.id = some ⟨h.id, h.counter⟩

/-- The counter has room for the bytes. -/
def Config.Fits (c : Config) (counter : ℕ) (d : Direction) (n : ℤ) : Prop :=
  i64 ((c.table.counters counter).bytes d + n) = (c.table.counters counter).bytes d + n

instance (c : Config) (counter : ℕ) (d : Direction) (n : ℤ) : Decidable (c.Fits counter d n) :=
  inferInstanceAs (Decidable (_ = _))

/-- **When nothing is lost.**  A relay counts only while its session is open; no counter
overflows; and while a counter that nobody holds is collected, no `add` has found it. -/
def Config.Clear (c : Config) : Label → Prop
  | .relay h d n => h ∈ c.active ∧ c.Fits h.counter d n
  | .addNext a => c.Fits a.counter .upload a.up ∧ c.Fits a.counter .download a.down
  | .swap =>
    ∀ s ∈ c.snap, ∀ slot ∈ s.rest.head?, (c.table.counters slot.counter).refs = 0 →
      ∀ a ∈ c.adds, a.counter ≠ slot.counter
  | _ => True

/-! ## The invariant -/

section Bytes

variable {id : ℤ} {d : Direction} {t : UserTraffic} {l l' : List UserTraffic}

@[simp] theorem pick_upload (up down : ℤ) : pick .upload up down = up := rfl

@[simp] theorem pick_download (up down : ℤ) : pick .download up down = down := rfl

theorem bytesOf_append : bytesOf id d (l ++ l') = bytesOf id d l + bytesOf id d l' := by
  unfold bytesOf
  rw [filter_append, map_append, sum_append]

theorem bytesOf_cons (up down : ℤ) (key : ℤ) : bytesOf id d (⟨key, up, down⟩ :: l) =
      (if key = id then pick d up down else 0) + bytesOf id d l := by
  unfold bytesOf
  split_ifs with h
  · rw [filter_cons_of_pos (by simpa using h), map_cons, sum_cons]
  · rw [filter_cons_of_neg (by simpa using h), zero_add]

theorem bytesOf_report (up down key : ℤ) :
    bytesOf id d (if up ≠ 0 ∨ down ≠ 0 then ⟨key, up, down⟩ :: l else l) =
      bytesOf id d l + if key = id then pick d up down else 0 := by
  by_cases hnonzero : up ≠ 0 ∨ down ≠ 0
  · rw [if_pos hnonzero, bytesOf_cons, add_comm]
  · rw [if_neg hnonzero]
    rw [not_or, not_not, not_not] at hnonzero
    rw [hnonzero.1, hnonzero.2]
    cases d <;> simp

end Bytes

/-- What holds of a collection under way.  Once the upload of a counter that nobody holds has been
taken, nothing is added to it any more. -/
structure Snap.Sound (c : Config) (s : Snap) : Prop where
  nodup : s.rest.Nodup
  mem : ∀ slot ∈ s.rest, slot ∈ c.table.traffic
  idle : ∀ slot ∈ s.rest.head?, s.up.isSome = true → (c.table.counters slot.counter).refs = 0 →
    (c.table.counters slot.counter).up = 0 ∧ ∀ a ∈ c.adds, a.counter ≠ slot.counter

structure Config.Inv (c : Config) : Prop where
  apart : ∀ a ∈ c.table.traffic, ∀ b ∈ c.table.traffic, a.counter = b.counter → a = b
  bound : ∀ a ∈ c.table.traffic, a.counter < c.table.made
  refs : ∀ a ∈ c.table.traffic, (c.table.counters a.counter).refs =
    (c.active.countP fun h => h.counter = a.counter : ℕ)
  used : ∀ h ∈ c.active, c.table.traffic.get h.id = some ⟨h.id, h.counter⟩
  adding : ∀ a ∈ c.adds, c.table.traffic.get a.id = some ⟨a.id, a.counter⟩
  conserved : ∀ id d, c.given id d = c.taken id d + c.held id d
  snap : ∀ s ∈ c.snap, s.Sound c

variable {c c' : Config} {slot : Slot} {h : Handle} {s : Snap} {f : UserCounter → UserCounter}
  {table : UserSessions}

theorem Config.held_of_get {id : ℤ} (h : c.table.traffic.get id = some slot)
    (d : Direction) : c.held id d = (c.table.counters slot.counter).bytes d := by
  rw [held, h]

theorem Config.held_of_none {id : ℤ} (h : c.table.traffic.get id = none)
    (d : Direction) : c.held id d = 0 := by
  rw [held, h]

theorem Config.held_congr {id : ℤ} {d : Direction}
    (htraffic : c'.table.traffic.get id = c.table.traffic.get id)
    (hbytes : ∀ slot, c.table.traffic.get id = some slot →
      (c'.table.counters slot.counter).bytes d = (c.table.counters slot.counter).bytes d) :
    c'.held id d = c.held id d := by
  rw [held, held, htraffic]
  cases hslot : c.table.traffic.get id with
  | none => rfl
  | some slot => exact hbytes slot hslot

theorem refs_onCounter (hf : ∀ x, (f x).refs = x.refs) (table : UserSessions) (k j : ℕ) :
    ((table.onCounter k f).counters j).refs = (table.counters j).refs := by
  rw [counters_onCounter]
  split_ifs with heq
  · rw [hf, heq]
  · rfl

theorem Config.Inv.refs_ne_zero (hc : c.Inv) (hh : h ∈ c.active) :
    (c.table.counters h.counter).refs ≠ 0 := by
  have hmem := mem_of_get (hc.used h hh)
  have hrefs := hc.refs _ hmem
  have hpos : 0 < c.active.countP fun x => decide (x.counter = h.counter) :=
    countP_pos_iff.mpr ⟨h, hh, by simp⟩
  dsimp only at hrefs
  omega

theorem Config.Inv.counter_ne (hc : c.Inv) {id id' : ℤ} {a b : Slot}
    (ha : c.table.traffic.get id = some a) (hb : c.table.traffic.get id' = some b)
    (hne : id ≠ id') :
    a.counter ≠ b.counter := by
  intro heq
  have hsame := hc.apart a (mem_of_get ha) b (mem_of_get hb) heq
  exact hne ((key_of_get ha).symm.trans ((congrArg Slot.id hsame).trans (key_of_get hb)))

theorem Config.Inv.held_onCounter (hc : c.Inv) {id : ℤ} (hget : c.table.traffic.get id = some slot)
    (id' : ℤ) (d : Direction) : held { c with table := c.table.onCounter slot.counter f } id' d =
      if id' = id then (f (c.table.counters slot.counter)).bytes d else c.held id' d := by
  split_ifs with hid
  · subst hid
    have hafter : (c.table.onCounter slot.counter f).traffic.get id' = some slot := hget
    rw [held, hafter]
    dsimp only
    rw [counters_onCounter, if_pos rfl]
  · refine held_congr rfl fun a ha => ?_
    rw [counters_onCounter, if_neg (hc.counter_ne ha hget hid)]

/-! ## Counting -/

theorem Config.Inv.count (hc : c.Inv) {id : ℤ} {counter : ℕ} {d : Direction} {n : ℤ}
    (hget : c.table.traffic.get id = some ⟨id, counter⟩) (hfits : c.Fits counter d n)
    (hbusy : ∀ s ∈ c.snap, ∀ slot ∈ s.rest.head?, s.up.isSome = true → slot.counter = counter →
      (c.table.counters counter).refs ≠ 0) : (c.count id counter d n).Inv where
  __ := hc
  refs a ha := (refs_onCounter (refs_add d n) _ _ _).trans (hc.refs a ha)
  conserved id' d' := by
    have hold := hc.conserved id' d'
    have htaken : (c.count id counter d n).taken id' d' = c.taken id' d' := rfl
    have hheld : (c.count id counter d n).held id' d' =
        if id' = id ∧ d' = d then c.held id' d' + n else c.held id' d' := by
      refine (hc.held_onCounter hget id' d').trans ?_
      by_cases hid : id' = id
      · subst hid
        rw [if_pos rfl, bytes_add, held_of_get hget]
        by_cases hd : d' = d
        · subst hd
          rw [if_pos rfl, if_pos ⟨rfl, rfl⟩]
          exact hfits
        · rw [if_neg hd, if_neg fun h => hd h.2]
      · rw [if_neg hid, if_neg fun h => hid h.1]
    rw [htaken, hheld]
    show (if id' = id ∧ d' = d then c.given id' d' + n else c.given id' d') = _
    split_ifs <;> omega
  snap s hs := by
    have hsound := hc.snap s hs
    refine { hsound with idle := ?_ }
    intro slot hslot hhalf hrefs
    have hcounters : (c.count id counter d n).table.counters slot.counter =
        c.table.counters slot.counter := by
      show (c.table.onCounter counter _).counters slot.counter = _
      rw [counters_onCounter, if_neg]
      rintro heq
      refine hbusy s hs slot hslot hhalf heq ?_
      have hrefs' : ((c.table.onCounter counter (add d n)).counters slot.counter).refs = 0 :=
        hrefs
      rw [counters_onCounter, if_pos heq, refs_add] at hrefs'
      exact hrefs'
    rw [hcounters] at hrefs ⊢
    exact hsound.idle slot hslot hhalf hrefs

/-! ## Under the lock -/

theorem Config.Inv.frame (hc : c.Inv)
    (htraffic : table.traffic = c.table.traffic) (hcounters : table.counters = c.table.counters)
    (hmade : table.made = c.table.made) : Inv { c with table := table } := by
  obtain ⟨old, active, adds, snap, given, returned⟩ := c
  cases old
  cases table
  cases htraffic
  cases hcounters
  cases hmade
  exact { hc with snap := fun s hs => { hc.snap s hs with } }

section

variable (hc : c.Inv) (hfree : c.snap = none)
include hc hfree

namespace Config.Inv

theorem withCounter {id : ℤ} (hnone : c.table.traffic.get id = none) :
    Inv { c with table := c.table.withCounter id } := by
  have hcounter : ∀ k, k ≠ c.table.made →
      (c.table.withCounter id).counters k = c.table.counters k := fun k hk =>
    update_of_ne hk _ _
  have hbound : ∀ {id' : ℤ} {slot : Slot}, c.table.traffic.get id' = some slot →
      slot.counter ≠ c.table.made := fun hget => (hc.bound _ (mem_of_get hget)).ne
  have hget : ∀ id', id' ≠ id →
      (c.table.withCounter id).traffic.get id' = c.table.traffic.get id' := by
    intro id' hne
    show (c.table.traffic.put ⟨id, c.table.made⟩).get id' = _
    rw [get_put, if_neg fun h => hne h.symm]
  have hkept : ∀ {id' : ℤ} {slot : Slot}, c.table.traffic.get id' = some slot →
      (c.table.withCounter id).traffic.get id' = some slot := by
    intro id' slot hslot
    rw [hget id', hslot]
    rintro rfl
    rw [hnone] at hslot
    cases hslot
  refine ⟨?_, ?_, ?_, fun h hh => hkept (hc.used h hh), fun a ha => hkept (hc.adding a ha), ?_,
    fun s hs => nomatch hfree.symm.trans hs⟩
  · intro a ha b hb heq
    rcases mem_put.mp ha with rfl | ⟨-, ha⟩ <;> rcases mem_put.mp hb with rfl | ⟨-, hb⟩
    · rfl
    · exact absurd heq.symm (hc.bound b hb).ne
    · exact absurd heq (hc.bound a ha).ne
    · exact hc.apart a ha b hb heq
  · exact forall_mem_put (Nat.lt_succ_self _) fun a ha => (hc.bound a ha).trans (Nat.lt_succ_self _)
  · intro a ha
    rcases mem_put.mp ha with rfl | ⟨-, ha⟩
    · have hzero : (c.active.countP fun h => decide (h.counter = c.table.made)) = 0 := by
        rw [countP_eq_zero]
        intro h hh heq
        exact hbound (hc.used h hh) (of_decide_eq_true heq)
      show (update c.table.counters c.table.made {} c.table.made).refs = _
      rw [update_self, hzero]
      rfl
    · rw [hcounter _ (hc.bound a ha).ne]
      exact hc.refs a ha
  · intro id' d
    have hheld : held { c with table := c.table.withCounter id } id' d = c.held id' d := by
      by_cases hid : id' = id
      · subst hid
        have hnew : (c.table.withCounter id').traffic.get id' = some ⟨id', c.table.made⟩ := by
          show (c.table.traffic.put ⟨id', c.table.made⟩).get id' = _
          rw [get_put, if_pos rfl]
        rw [held_of_none hnone, held_of_get hnew]
        show bytes d (update c.table.counters c.table.made {} c.table.made) = 0
        rw [update_self]
        cases d <;> rfl
      · exact held_congr (hget id' hid) fun slot hslot => by rw [hcounter _ (hbound hslot)]
    rw [hheld]
    exact hc.conserved id' d

theorem lookup (id : ℤ) : Inv { c with table := (c.table.counterLocked id).1 } ∧
      (c.table.counterLocked id).1.traffic.get id = some ⟨id, (c.table.counterLocked id).2⟩ := by
  rcases c.table.counterLocked_cases id with ⟨slot, hslot, heq⟩ | ⟨hnone, heq⟩
  · rw [heq]
    refine ⟨hc, ?_⟩
    have hid : slot.id = id := key_of_get hslot
    subst hid
    exact hslot
  · rw [heq]
    refine ⟨hc.withCounter hfree hnone, ?_⟩
    show (c.table.traffic.put ⟨id, c.table.made⟩).get id = _
    rw [get_put, if_pos rfl]

theorem hold {k : ℕ} {change : ℤ} (hrefs : ∀ x, (f x).refs = x.refs + change)
    (hbytes : ∀ d x, (f x).bytes d = x.bytes d) {active : List Handle}
    (hcount : ∀ k', ((active.countP fun h => h.counter = k' : ℕ) : ℤ) =
      (c.active.countP fun h => h.counter = k' : ℕ) + if k' = k then change else 0)
    (hused : ∀ h ∈ active, c.table.traffic.get h.id = some ⟨h.id, h.counter⟩) :
    Inv { c with table := c.table.onCounter k f, active := active } := by
  refine ⟨hc.apart, hc.bound, ?_, hused, hc.adding, ?_, fun s hs => nomatch hfree.symm.trans hs⟩
  · intro a ha
    have hold : (c.table.counters a.counter).refs = _ := hc.refs a ha
    rw [hcount, counters_onCounter]
    split_ifs with heq
    · rw [hrefs, ← heq, hold]
    · rw [hold, add_zero]
  · intro id d
    rw [show held { c with table := c.table.onCounter k f, active := active } id d =
      c.held id d from held_congr rfl fun slot _ => ?_]
    · exact hc.conserved id d
    · rw [counters_onCounter]
      split_ifs with heq
      · rw [hbytes, heq]
      · rfl

theorem retain (id : ℤ) :
    Inv { c with
      table := (c.table.retain id).1
      active := (c.table.retain id).2 :: c.active } := by
  obtain ⟨hlooked, hget⟩ := hc.lookup hfree id
  unfold UserSessions.retain
  generalize c.table.counterLocked id = found at hlooked hget
  obtain ⟨table, k⟩ := found
  refine frame (hold hlooked hfree (f := fun x => { x with refs := x.refs + 1 })
    (fun _ => rfl) (fun d _ => by cases d <;> rfl) ?_ ?_) rfl rfl rfl
  · intro k'
    rw [countP_cons]
    by_cases heq : k = k'
    · subst heq
      simp
    · rw [if_neg (by simpa using heq), if_neg fun h => heq h.symm]
      simp
  · exact forall_mem_cons.mpr ⟨hget, hlooked.used⟩

theorem release (hh : h ∈ c.active) :
    Inv { c with table := c.table.release h, active := c.active.erase h } := by
  refine hc.hold hfree (f := fun x => { x with refs := x.refs - 1 }) (fun _ => Int.sub_eq_add_neg)
    (fun d _ => by cases d <;> rfl) ?_ fun x hx => hc.used x (mem_of_mem_erase hx)
  intro k'
  rw [(perm_cons_erase hh).countP_eq (fun x => decide (x.counter = k')), countP_cons]
  by_cases heq : h.counter = k'
  · subst heq
    simp
  · rw [if_neg (by simpa using heq), if_neg fun h' => heq h'.symm]
    simp

end Config.Inv

end

/-! ## Collecting -/

theorem Config.Inv.given_of_snap (hc : c.Inv) (hs : c.snap = some s) (id : ℤ) (d : Direction) :
    c.given id d = (bytesOf id d c.returned + s.taken id d) + c.held id d := by
  have hconserved := hc.conserved id d
  rw [taken, hs] at hconserved
  exact hconserved

theorem Config.Inv.clear (hc : c.Inv) (hs : c.snap = some s) (hslot : slot ∈ c.table.traffic)
    {d : Direction} (s' : Snap) (htaken : ∀ id d', s'.taken id d' = s.taken id d' +
      if slot.id = id ∧ d' = d then (c.table.counters slot.counter).bytes d else 0)
    (hc' : c' = { c with
      table := c.table.onCounter slot.counter (UserCounter.clear d), snap := some s' })
    (hsound : s'.Sound c') : c'.Inv := by
  subst hc'
  refine ⟨hc.apart, hc.bound, ?_, hc.used, hc.adding, fun id d' => ?_, ?_⟩
  · exact fun a ha => (refs_onCounter (refs_clear _) _ _ _).trans (hc.refs a ha)
  · show c.given id d' = (bytesOf id d' c.returned + s'.taken id d') + held _ id d'
    rw [hc.given_of_snap hs id d', htaken]
    refine Eq.trans ?_ (congrArg _ (hc.held_onCounter hslot id d').symm)
    by_cases hid : id = slot.id
    · subst hid
      rw [if_pos rfl, bytes_clear, held_of_get hslot]
      by_cases hd : d' = d
      · rw [if_pos hd, if_pos ⟨rfl, hd⟩, hd]
        omega
      · rw [if_neg hd, if_neg fun h => hd h.2]
        omega
    · rw [if_neg hid, if_neg fun h => hid h.1.symm]
      omega
  · intro x hx
    cases hx
    exact hsound

/-- A counter that is empty, that nobody holds and that nobody is about to add to is taken out. -/
theorem Config.Inv.erase (hc : c.Inv) (hslot : slot ∈ c.table.traffic)
    (hrefs : (c.table.counters slot.counter).refs = 0)
    (hempty : ∀ d, (c.table.counters slot.counter).bytes d = 0)
    (hadds : ∀ a ∈ c.adds, a.counter ≠ slot.counter) (hsnap : ∀ s ∈ c.snap, slot ∉ s.rest) :
    Inv { c with
      table := { c.table with traffic := c.table.traffic.erase slot.id } } := by
  have hsub : ∀ a ∈ c.table.traffic.erase slot.id, a ∈ c.table.traffic := fun a ha =>
    (mem_erase.mp ha).1
  have hkept : ∀ {id : ℤ} {a : Slot}, c.table.traffic.get id = some a → a ≠ slot →
      (c.table.traffic.erase slot.id).get id = some a := by
    intro id a hget hne
    rw [get_erase, if_neg, hget]
    rintro rfl
    exact hne (Option.some.inj (hget.symm.trans hslot))
  refine ⟨fun a ha b hb => hc.apart a (hsub a ha) b (hsub b hb), fun a ha => hc.bound a (hsub a ha),
    fun a ha => hc.refs a (hsub a ha), fun h hh => ?_, fun a ha => ?_, fun id d => ?_,
    fun s hs => ?_⟩
  · refine hkept (hc.used h hh) fun heq => hc.refs_ne_zero hh ?_
    rw [show h.counter = slot.counter from congrArg Slot.counter heq]
    exact hrefs
  · exact hkept (hc.adding a ha) fun heq => hadds a ha (congrArg Slot.counter heq)
  · refine (hc.conserved id d).trans (congrArg _ ?_)
    by_cases hid : slot.id = id
    · have hget : c.table.traffic.get id = some slot := hid ▸ hslot
      rw [held_of_get hget, hempty, held, get_erase, if_pos hid]
    · rw [held, held, get_erase, if_neg hid]
  · have hsound := hc.snap s hs
    exact { hsound with
      mem := fun x hx => hkept (hsound.mem x hx) fun heq => hsnap s hs (heq ▸ hx) }

section

variable (hc : c.Inv) (hs : c.snap = some s) {rest : List Slot} (hrest : s.rest = slot :: rest)
include hc hs hrest

theorem Config.Inv.swapUp (hup : s.up = none)
    (hclear : (c.table.counters slot.counter).refs = 0 → ∀ a ∈ c.adds, a.counter ≠ slot.counter) :
    Inv { c with
      table := c.table.onCounter slot.counter (UserCounter.clear .upload)
      snap := some { s with
        rest := slot :: rest, up := some (c.table.counters slot.counter).up } } := by
  have hsound := hc.snap s hs
  refine hc.clear hs (hsound.mem slot (hrest ▸ mem_cons_self)) _ ?_ rfl ?_
  · intro id d
    rw [Snap.taken, Snap.taken, Snap.half, Snap.half, hrest, hup]
    cases d <;> simp
    rfl
  · refine ⟨hrest ▸ hsound.nodup, fun x hx => hsound.mem x (hrest ▸ hx), ?_⟩
    intro x hx _ hrefs
    cases hx
    have hcounter : (c.table.onCounter slot.counter (UserCounter.clear .upload)).counters
        slot.counter = (c.table.counters slot.counter).clear .upload := by
      rw [counters_onCounter, if_pos rfl]
    rw [hcounter] at hrefs ⊢
    exact ⟨rfl, hclear hrefs⟩

/-- The download of a counter is taken; nobody holds a counter that is then taken out. -/
theorem Config.Inv.swapDown {up : ℤ} (hup : s.up = some up) : (c.swap s).Inv := by
  have hsound := hc.snap s hs
  have hslot : slot ∈ c.table.traffic := hsound.mem slot (hrest ▸ mem_cons_self)
  have hnodup : slot ∉ rest ∧ rest.Nodup := nodup_cons.mp (hrest ▸ hsound.nodup)
  have hout := fun id d => @bytesOf_report id d s.out up
    (c.table.counters slot.counter).down slot.id
  unfold swap
  rw [hrest, hup]
  dsimp only
  generalize (if up ≠ 0 ∨ (c.table.counters slot.counter).down ≠ 0 then _ else _) = out at hout ⊢
  have hcleared := hc.clear (d := .download) hs hslot ⟨rest, none, out⟩ ?_ rfl ?_
  · split_ifs with hrefs
    · obtain ⟨hup, hadds⟩ := hsound.idle slot (by rw [hrest]; rfl) (by rw [hup]; rfl) hrefs
      have hcounter : (c.table.onCounter slot.counter (UserCounter.clear .download)).counters
          slot.counter = (c.table.counters slot.counter).clear .download := by
        rw [counters_onCounter, if_pos rfl]
      refine hcleared.erase hslot ?_ (fun d => ?_) hadds fun s' hs' => ?_
      · rw [hcounter]
        exact hrefs
      · rw [hcounter]
        cases d
        · exact hup
        · rfl
      · cases hs'
        exact hnodup.1
    · exact hcleared
  · intro id d
    rw [Snap.taken, Snap.taken, Snap.half, Snap.half, hrest, hup, hout]
    cases d <;> cases rest <;> simp [bytes]
  · refine ⟨hnodup.2, fun x hx => hsound.mem x (hrest ▸ mem_cons_of_mem _ hx), ?_⟩
    intro x _ hhalf
    cases hhalf

end

theorem Config.Inv.swap (hc : c.Inv) (hclear : c.Clear .swap)
    (hs : c.snap = some s) : (c.swap s).Inv := by
  cases hrest : s.rest with
  | nil =>
    rw [Config.swap, hrest]
    refine { hc with conserved := ?_, snap := fun _ h => by cases h }
    intro id d
    have hhalf : s.half id = 0 := by
      rw [Snap.half, hrest]
    show c.given id d = (bytesOf id d (s.out ++ c.returned) + 0) + c.held id d
    rw [hc.given_of_snap hs, Snap.taken, hhalf, bytesOf_append]
    cases d
    · rw [pick_upload]
      omega
    · rw [pick_download]
      omega
  | cons slot rest =>
    cases hup : s.up with
    | none =>
      rw [Config.swap, hrest, hup]
      exact hc.swapUp hs hrest hup (hclear s hs slot (by rw [hrest]; rfl))
    | some up => exact hc.swapDown hs hrest hup

/-! ## Runs -/

theorem inv_new : Inv {} := by
  have hnone : ∀ a, a ∉ ({} : Config).table.traffic := not_mem_empty
  refine ⟨fun a ha => absurd ha (hnone a), fun a ha => absurd ha (hnone a),
    fun a ha => absurd ha (hnone a), nofun, nofun, fun id d => ?_, nofun⟩
  rw [held_of_none (get_empty id)]
  rfl

namespace Config.Inv

theorem narrow (hc : c.Inv) {adds : List Adding}
    (h : ∀ a ∈ adds, ∃ b ∈ c.adds, a.id = b.id ∧ a.counter = b.counter) :
    Inv { c with adds := adds } := by
  refine { hc with adding := ?_, snap := ?_ }
  · intro a ha
    obtain ⟨b, hb, hid, hcounter⟩ := h a ha
    rw [hid, hcounter]
    exact hc.adding b hb
  · intro s hs
    have hsound := hc.snap s hs
    refine { hsound with idle := ?_ }
    intro slot hslot hhalf hrefs
    obtain ⟨hup, hnone⟩ := hsound.idle slot hslot hhalf hrefs
    refine ⟨hup, fun a ha => ?_⟩
    obtain ⟨b, hb, -, hcounter⟩ := h a ha
    rw [hcounter]
    exact hnone b hb

theorem addNext (hc : c.Inv) {a : Adding} (ha : a ∈ c.adds)
    (hclear : c.Clear (.addNext a)) : (c.addNext a).Inv := by
  have hget := hc.adding a ha
  -- A counter whose upload has been taken and that nobody holds is not one that is added to.
  have hbusy : ∀ s ∈ c.snap, ∀ slot ∈ s.rest.head?, s.up.isSome = true →
      slot.counter = a.counter → (c.table.counters a.counter).refs ≠ 0 := by
    intro s hs slot hslot hhalf heq hrefs
    rw [← heq] at hrefs
    exact ((hc.snap s hs).idle slot hslot hhalf hrefs).2 a ha heq.symm
  have herase : ∀ x ∈ c.adds.erase a, ∃ b ∈ c.adds, x.id = b.id ∧ x.counter = b.counter :=
    fun x hx => ⟨x, mem_of_mem_erase hx, rfl, rfl⟩
  unfold Config.addNext
  split_ifs with hup hdown
  · exact narrow (hc.count hget hclear.1 hbusy) herase
  · refine narrow (hc.count hget hclear.1 hbusy) fun x hx => ?_
    rcases mem_cons.mp hx with rfl | hx
    · exact ⟨a, ha, rfl, rfl⟩
    · exact herase x hx
  · exact narrow (hc.count hget hclear.2 hbusy) herase

theorem locked {f : Config} (hc : c.Inv) (hf : c.snap = none → f.Inv) : (c.locked f).Inv := by
  unfold Config.locked
  split_ifs with h
  · exact hc
  · exact hf (Option.not_isSome_iff_eq_none.mp h)

theorem openSession (hc : c.Inv) (hfree : c.snap = none) {id : ℤ} {epoch : ℕ}
    (heq : c.table.openSession id epoch = some (table, h)) :
    Inv { c with table := table, active := h :: c.active } := by
  unfold UserSessions.openSession at heq
  split_ifs at heq
  cases heq
  exact (hc.retain hfree id).frame rfl rfl rfl

theorem next (hc : c.Inv) {l : Label} (hclear : c.Clear l) : (next c l).Inv := by
  cases l with
  | openSession =>
    refine hc.locked fun hfree => ?_
    split
    · exact hc
    next table h heq => exact hc.openSession hfree heq
  | close =>
    refine hc.locked fun hfree => ?_
    split_ifs with hh
    · exact (hc.release hfree hh).frame rfl rfl rfl
    · exact hc
  | retain id => exact hc.locked fun hfree => hc.retain hfree id
  | release =>
    refine hc.locked fun hfree => ?_
    split_ifs with hh
    · exact hc.release hfree hh
    · exact hc
  | relay h =>
    exact hc.count (hc.used h hclear.1) hclear.2 fun _ _ _ _ _ _ => hc.refs_ne_zero hclear.1
  | add id =>
    simp only [Counted.next]
    split_ifs
    · exact hc
    · refine hc.locked fun hfree => ?_
      obtain ⟨hlooked, hget⟩ := hc.lookup hfree id
      refine { hlooked with adding := ?_, snap := ?_ }
      · exact forall_mem_cons.mpr ⟨hget, hlooked.adding⟩
      · intro s hs
        have hs' : s ∈ c.snap := hs
        rw [hfree] at hs'
        cases hs'
  | addNext =>
    simp only [Counted.next]
    split_ifs with ha
    · exact hc.addNext ha hclear
    · exact hc
  | revoke ids now =>
    obtain ⟨htraffic, hcounters, hmade⟩ := c.table.revoke_counters ids now
    exact hc.locked fun _ => hc.frame htraffic hcounters hmade
  | snapshot order =>
    simp only [Counted.next]
    split_ifs with hperm
    · refine hc.locked fun hfree => ?_
      refine { hc with conserved := ?_, snap := ?_ }
      · intro id d
        have hold := hc.conserved id d
        unfold taken at hold ⊢
        rw [hfree] at hold
        have hnothing : Snap.taken ⟨order, none, []⟩ id d = 0 := by
          cases order <;> cases d <;> rfl
        dsimp only at hold ⊢
        rw [hnothing]
        exact hold
      · intro s hs
        cases hs
        refine ⟨hperm.nodup_iff.mpr (nodup_values _), ?_, ?_⟩
        · exact fun slot hslot => mem_values.mp (hperm.mem_iff.mp hslot)
        · intro slot _ hhalf
          cases hhalf
    · exact hc
  | swap =>
    simp only [Counted.next]
    split
    · exact hc
    next s hs => exact hc.swap hclear hs

end Config.Inv

instance (c : Config) (l : Label) : Decidable (c.Clear l) :=
  match l with
  | .relay .. => inferInstanceAs (Decidable (_ ∧ _))
  | .addNext .. => inferInstanceAs (Decidable (_ ∧ _))
  | .swap => inferInstanceAs (Decidable (∀ s ∈ c.snap, ∀ slot ∈ s.rest.head?,
      (c.table.counters slot.counter).refs = 0 → ∀ a ∈ c.adds, a.counter ≠ slot.counter))
  | .openSession .. | .close .. | .retain .. | .release .. | .add .. | .revoke .. | .snapshot .. =>
    .isTrue trivial

/-- **Every counted byte reaches exactly one collection**, if no `add` is caught between its
lookup and its bytes while nobody holds the counter. -/
theorem bytes_collected_once (labels : List Label)
    (hclear : Runs.Along next Config.Clear {} labels) : (labels.foldl next {}).Conserved := by
  have hinv := hclear.invariant (I := Config.Inv) (fun _ _ h hstep => h.next hstep) inv_new
  exact ⟨hinv.conserved, hinv.used⟩

/-- A session of a user, bytes of the session and beside it, and two collections. -/
def sample : List Label :=
  [.openSession 1 0, .relay ⟨0, 1, 0⟩ .upload 7, .add 1 5 2, .snapshot [⟨1, 0⟩], .swap,
    .addNext ⟨1, 0, 5, 2⟩, .swap, .addNext ⟨1, 0, 0, 2⟩, .swap, .close ⟨0, 1, 0⟩,
    .snapshot [⟨1, 0⟩], .swap, .swap, .swap]

theorem sample_collected_once :
    Runs.Along next Config.Clear {} sample ∧ (sample.foldl next {}).Conserved := by
  have hclear : Runs.Along next Config.Clear {} sample := by decide +kernel
  exact ⟨hclear, bytes_collected_once sample hclear⟩

/-- **Bytes that are added too late.**  `add` finds the counter of a user without a session, the
collection takes it out of the table, and the bytes go into it afterwards. -/
theorem added_too_late :
    ¬([Label.add 1 5 0, .snapshot [⟨1, 0⟩], .swap, .swap, .swap, .addNext ⟨1, 0, 5, 0⟩].foldl
      next {}).Conserved := by
  intro h
  have hbytes := h.conserved 1 .upload
  revert hbytes
  decide +kernel

end Counted

end Pandora.Dataplane

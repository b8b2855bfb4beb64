/-
# Resetting a port with nothing behind it

A wait for a byte that never comes reports success, so `reset_port` finds bytes
behind a port where no device answers: those that a read of the empty buffer
gives.  It takes three of them for the answer to the reset, repeats its commands
as long as it reads a request to resend, and makes an identity of two more
(`Phantom`).  `follows_afterReset` says that this is all that can happen.

A device that answers that its self-test failed keeps the identity that was there
before, or gets the identity 0 (`returns_resetPort_failed`).
-/

import DrewOS.Ps2.Dialogue

namespace DrewOS

open ByteMem Effect

namespace Streams

open Ps2

/-- The output buffer is never full again. -/
def Silent (s : Streams) : Prop := ∀ i, outputFull (s.status.get i) = false

variable {s : Streams}

/-- A wait leaves the controller silent. -/
theorem Silent.await (h : s.Silent) (ready : Byte → Bool) : (s.await ready).Silent := by
  intro i
  show outputFull ((s.status.drop _).get i) = false
  rw [Stream'.get_drop]
  exact h _

/-- A silent controller is not late. -/
theorem Silent.not_late (h : s.Silent) : ¬ s.Late outputFull := fun hl =>
  absurd ((h _).symm.trans hl.2) Bool.false_ne_true

/-- A byte is read all the same. -/
theorem Silent.received (h : s.Silent) : s.received = some s.data.head := if_neg h.not_late

/-- A read of a silent controller takes the next byte of its data. -/
theorem Silent.receive (h : s.Silent) : s.receive.Silent ∧ s.receive.data = s.data.tail := by
  rw [Streams.receive, if_neg h.not_late]
  exact ⟨h.await outputFull, rfl⟩

end Streams

namespace Ps2

variable {port : Port} {d : Stream' Byte} {id : Word}

/-! ### What is read -/

/-- The bytes that answer a device command are read up to the first that is no request to
resend; these are left. -/
inductive Reply : Stream' Byte → Stream' Byte → Prop where
  | done {d : Stream' Byte} (h : d.head ≠ RESP_RESEND) : Reply d d.tail
  | again {d d' : Stream' Byte} (h : d.head = RESP_RESEND) (hrest : Reply d.tail d') : Reply d d'

/-- What is left of the bytes after those that answer the reset. -/
def afterIdentity (d : Stream' Byte) : Stream' Byte :=
  if d.get 2 = 0xab ∨ d.get 2 = 0xac then d.drop 4 else d.drop 3

/-- The identity that two bytes make. -/
def identity (d : Stream' Byte) : Word := (d.head.setWidth 16 <<< 8) + d.tail.head.setWidth 16

/-- The identity that is made of the bytes `d`, with `d'` left, although no device has
sent any of them. -/
def Phantom (d : Stream' Byte) (id : Word) (d' : Stream' Byte) : Prop :=
  ∃ d₁ d₂, Reply (afterIdentity d) d₁ ∧ Reply d₁ d₂ ∧ id = identity d₂ ∧ Reply (d₂.drop 2) d'

/-! ### Exchanges with no device -/

/-- Nothing is behind the port; the bytes `x.1` are read from the empty buffer, and the
identity stored for the port is `x.2`. -/
def Hears (port : Port) (x : Stream' Byte × Word) (w : World Streams) : Prop :=
  w.bus.Silent ∧ w.bus.data = x.1 ∧ Ps2Statics.deviceId w.kernel.ps2 port = x.2

variable {x : Stream' Byte × Word} {s s' : Streams} {w t : World Streams}

theorem Hears.say (h : Hears port x w) (e : Event) : Hears port x (w.say e) := h

/-- Addressing a device reads no byte. -/
theorem addressed_data (s : Streams) (port : Port) : (s.addressed port).data = s.data := by
  cases port <;> rfl

/-- A silent controller stays so while a device is addressed. -/
theorem silent_addressed (h : s.Silent) (port : Port) : (s.addressed port).Silent := by
  cases port with
  | port0 => exact h.await _
  | port1 => exact (h.await _).await _

/-- What is read in answer to a byte for the device. -/
theorem received_addressed (h : s.Silent) (port : Port) :
    (s.addressed port).received = some s.data.head := by
  rw [(silent_addressed h port).received, addressed_data]

/-- A read behind an address takes the next byte of the data. -/
theorem receive_addressed (h : s.Silent) (port : Port) :
    (s.addressed port).receive.Silent ∧ (s.addressed port).receive.data = s.data.tail := by
  obtain ⟨hsilent, hdata⟩ := (silent_addressed h port).receive
  exact ⟨hsilent, hdata.trans (congrArg Stream'.tail (addressed_data s port))⟩

/-- A device command without a device. -/
theorem reply_of_settled (h : Settled port s s') (hs : s.Silent) :
    s'.Silent ∧ Reply s.data s'.data := by
  induction h with
  | @done s hdone =>
    obtain ⟨hsilent, hdata⟩ := receive_addressed hs port
    rw [received_addressed hs port] at hdone
    refine ⟨hsilent, ?_⟩
    rw [hdata]
    exact .done fun he => hdone (congrArg some he)
  | @again s s' hagain _ ih =>
    obtain ⟨hsilent, hdata⟩ := receive_addressed hs port
    rw [received_addressed hs port] at hagain
    obtain ⟨hsilent', hreply⟩ := ih hsilent
    rw [hdata] at hreply
    exact ⟨hsilent', .again (Option.some.inj hagain) hreply⟩

/-- With no device there, a command is settled by the bytes read. -/
theorem Reply.settled {d' : Stream' Byte} (h : Reply d d') (port : Port) (hs : s.Silent)
    (hd : s.data = d) : ∃ s', Settled port s s' ∧ s'.Silent ∧ s'.data = d' := by
  induction h generalizing s with
  | @done d hdone =>
    obtain ⟨hsilent, hdata⟩ := receive_addressed hs port
    refine ⟨_, .done fun he => hdone ?_, hsilent, ?_⟩
    · rw [received_addressed hs port, hd] at he
      exact Option.some.inj he
    · rw [hdata, hd]
  | @again d d' hagain _ ih =>
    obtain ⟨hsilent, hdata⟩ := receive_addressed hs port
    have hfirst : (s.addressed port).received = some RESP_RESEND := by
      rw [received_addressed hs port, hd, hagain]
    obtain ⟨s', hsettled, hs', hd'⟩ := ih hsilent (hdata.trans (congrArg Stream'.tail hd))
    exact ⟨s', .again hfirst hsettled, hs', hd'⟩

/-- Two bytes are taken for the identity. -/
theorem identified_silent (h : s.Silent) (id : Word) :
    identified s id = (s.receive.receive, identity s.data) := by
  obtain ⟨hsilent, hdata⟩ := h.receive
  rw [identified, h.received, Option.elim_some, hsilent.received, hdata]
  rfl

/-- Two reads take two bytes. -/
theorem receive_twice (h : s.Silent) :
    s.receive.receive.Silent ∧ s.receive.receive.data = s.data.drop 2 := by
  obtain ⟨hsilent, hdata⟩ := h.receive
  obtain ⟨hsilent', hdata'⟩ := hsilent.receive
  exact ⟨hsilent', hdata'.trans (congrArg Stream'.tail hdata)⟩

/-- Three bytes are taken for the answer to the reset. -/
theorem supplies_silent (h : s.Silent) : Supplies s [s.data.get 0, s.data.get 1, s.data.get 2]
    s.receive.receive.receive := by
  obtain ⟨hsilent, hdata⟩ := h.receive
  obtain ⟨hsilent', hdata'⟩ := receive_twice h
  refine ⟨h.received, hsilent.received.trans ?_, hsilent'.received.trans ?_, rfl⟩
  · rw [hdata]
    rfl
  · rw [hdata']
    rfl

/-- A fourth byte, when the third says so. -/
theorem specialised_silent (h : s.Silent) :
    (specialised (s.data.get 2) s.receive.receive.receive id).1.Silent ∧
      (specialised (s.data.get 2) s.receive.receive.receive id).1.data =
        afterIdentity s.data := by
  obtain ⟨hsilent, hdata⟩ := receive_twice h
  obtain ⟨hsilent', hdata'⟩ := hsilent.receive
  obtain ⟨hsilent'', hdata''⟩ := hsilent'.receive
  unfold specialised afterIdentity
  split_ifs
  · dsimp only
    refine ⟨hsilent'', ?_⟩
    rw [hdata'', hdata', hdata]
    rfl
  · dsimp only
    refine ⟨hsilent', ?_⟩
    rw [hdata', hdata]
    rfl

/-- **The commands that follow the answer to the reset**, without a device. -/
theorem phantom_of_identification {z : Streams × Word} (h : s.Silent)
    (hz : Identification port (specialised (s.data.get 2) s.receive.receive.receive id) z) :
    z.1.Silent ∧ Phantom s.data z.2 z.1.data := by
  obtain ⟨hsilent, hdata⟩ := @specialised_silent id s h
  obtain ⟨s₁, s₂, hfirst, hsecond, hlast, hid⟩ := hz
  obtain ⟨hs₁, hreply₁⟩ := reply_of_settled hfirst hsilent
  obtain ⟨hs₂, hreply₂⟩ := reply_of_settled hsecond hs₁
  obtain ⟨htwice, hdrop⟩ := receive_twice hs₂
  rw [identified_silent hs₂] at hlast hid
  dsimp only at hlast hid
  obtain ⟨hs₃, hreply₃⟩ := reply_of_settled hlast htwice
  rw [hdata] at hreply₁
  refine ⟨hs₃, s₁.data, s₂.data, hreply₁, hreply₂, hid, ?_⟩
  rw [← hdrop]
  exact hreply₃

/-- With no device there, the identification makes the phantom identity of the bytes read. -/
theorem identification_of_phantom {id' : Word} {d' : Stream' Byte} (h : s.Silent)
    (hphantom : Phantom s.data id' d') :
    ∃ s', Identification port (specialised (s.data.get 2) s.receive.receive.receive id) (s', id') ∧
      s'.Silent ∧ s'.data = d' := by
  obtain ⟨hsilent, hdata⟩ := @specialised_silent id s h
  obtain ⟨d₁, d₂, hreply₁, hreply₂, hid, hreply₃⟩ := hphantom
  obtain ⟨s₁, hfirst, hs₁, hd₁⟩ := hreply₁.settled port hsilent hdata
  obtain ⟨s₂, hsecond, hs₂, hd₂⟩ := hreply₂.settled port hs₁ hd₁
  obtain ⟨htwice, hdrop⟩ := receive_twice hs₂
  obtain ⟨s₃, hlast, hs₃, hd₃⟩ := hreply₃.settled port htwice (hdrop.trans (by rw [hd₂]))
  refine ⟨s₃, ⟨s₁, s₂, hfirst, hsecond, ?_, ?_⟩, hs₃, hd₃⟩
  · rw [identified_silent hs₂]
    dsimp only
    exact hlast
  · rw [identified_silent hs₂, hd₂]
    exact hid

/-- **A reset without a device**, unless the first byte says that the self-test failed. -/
theorem follows_afterReset (hd : d.head ≠ RESP_RESET_FAIL) :
    Follows (machine streamBus) (Hears port) (fun n => afterReset n port) (d, id)
      fun _ z => Phantom d z.2 z.1 where
  growing := (growing_const _).bind growing_afterResponse
  sound := by
    rintro w ⟨⟩ t ⟨hs, rfl, rfl⟩ ht
    obtain ⟨y, hy, hbus, hid⟩ :=
      (follows_answered (supplies_silent hs) hd).sound (A := At port) ⟨rfl, rfl⟩ ht
    obtain ⟨hsilent, hphantom⟩ := phantom_of_identification hs hy
    refine ⟨(y.1.data, y.2), hphantom, ?_, ?_, hid⟩
    · rw [hbus]
      exact hsilent
    · rw [hbus]
  complete := by
    rintro w ⟨⟩ ⟨d', id'⟩ ⟨hs, rfl, rfl⟩ hphantom
    obtain ⟨s', hs', hsilent, hdata⟩ := identification_of_phantom hs hphantom
    obtain ⟨t, ht, hbus, hid⟩ :=
      (follows_answered (supplies_silent hs) hd).complete (A := At port) ⟨rfl, rfl⟩ hs'
    refine ⟨t, ht, ?_, ?_, hid⟩
    · rw [hbus]
      exact hsilent
    · rw [hbus]
      exact hdata

/-- **The identity of a port with nothing behind it** is made of the bytes that are read
from the empty buffer. -/
theorem returns_resetPort_iff (hs : (w.bus.addressed port).Silent)
    (hd : w.bus.data.head ≠ RESP_RESET_FAIL) (id : Word) :
    (∃ t, Returns (machine streamBus) (fun n => resetPort n port) w () t ∧
      Ps2Statics.deviceId t.kernel.ps2 port = id) ↔ ∃ d', Phantom w.bus.data id d' := by
  have hstart : ∀ u : World Streams, u.bus = w.bus.addressed port → u.kernel = w.kernel →
      Hears port (w.bus.data, Ps2Statics.deviceId w.kernel.ps2 port) u := by
    intro u hbus hkernel
    refine ⟨?_, ?_, ?_⟩
    · rw [hbus]
      exact hs
    · rw [hbus, addressed_data]
    · rw [hkernel]
  have hsay : ∀ z v e, Hears port z v → Hears port z (World.say v e) := fun _ _ e hv => hv.say e
  obtain ⟨hsound, hcomplete⟩ := follows_resetPort hsay hstart (follows_afterReset hd)
  constructor
  · rintro ⟨t, ht, rfl⟩
    obtain ⟨z, hz, -, -, hid⟩ := hsound t ht
    rw [hid]
    exact ⟨_, hz⟩
  · rintro ⟨d', hd'⟩
    obtain ⟨t, ht, -, -, hid⟩ := hcomplete (d', id) hd'
    exact ⟨t, ht, hid⟩

/-! ### A failed self-test -/

/-- The first byte of the answer to a reset is the first that is received. -/
theorem run_resetResponse (w : World Streams) :
    ∃ r t, resetResponse.run (machine streamBus) w = (some r, t) ∧ t.kernel = w.kernel ∧
      ∀ x ∈ r, w.bus.received = some x.1 := by
  obtain ⟨t₁, hrun₁, ht₁⟩ := run_tryReadData w
  unfold resetResponse
  rw [Prog.run_bind_of_some _ hrun₁]
  cases hfirst : w.bus.received with
  | none => exact ⟨none, t₁, rfl, ht₁.kernel, fun _ hx => nomatch hx⟩
  | some resp0 =>
    obtain ⟨t₂, hrun₂, ht₂⟩ := run_tryReadData t₁
    dsimp only
    rw [Prog.run_bind_of_some _ hrun₂]
    cases t₁.bus.received with
    | none => exact ⟨none, t₂, rfl, ht₂.kernel.trans ht₁.kernel, fun _ hx => nomatch hx⟩
    | some resp1 =>
      obtain ⟨t₃, hrun₃, ht₃⟩ := run_tryReadData t₂
      dsimp only
      rw [Prog.run_bind_of_some _ hrun₃]
      have hkernel := ht₃.kernel.trans (ht₂.kernel.trans ht₁.kernel)
      cases t₂.bus.received with
      | none => exact ⟨none, t₃, rfl, hkernel, fun _ hx => nomatch hx⟩
      | some resp2 =>
        refine ⟨some (resp0, resp1, resp2), t₃, rfl, hkernel, ?_⟩
        rintro _ ⟨⟩
        rfl

/-- **A device that fails its self-test** keeps the identity 0. -/
theorem returns_resetPort_failed (h : (w.bus.addressed port).received = some RESP_RESET_FAIL)
    (hid : Ps2Statics.deviceId w.kernel.ps2 port = 0) :
    ∃ t, Returns (machine streamBus) (fun n => resetPort n port) w () t ∧
      Ps2Statics.deviceId t.kernel.ps2 port = 0 := by
  obtain ⟨u, hbus, hkernel, hrun⟩ := run_resetPort port w
  obtain ⟨r, v, hresponse, hv, hfirst⟩ := run_resetResponse u
  have hrest : ∃ t, (afterResponse 0 port r >>= fun _ => leave (.resetPort port) none).run
      (machine streamBus) v = (some (), t) ∧ Ps2Statics.deviceId t.kernel.ps2 port = 0 := by
    cases r with
    | none =>
      refine ⟨_, rfl, ?_⟩
      cases port <;> rfl
    | some x =>
      obtain ⟨resp0, resp1, resp2⟩ := x
      obtain rfl : resp0 = RESP_RESET_FAIL := by
        have hreceived := hfirst _ rfl
        rw [hbus, h] at hreceived
        exact (Option.some.inj hreceived).symm
      refine ⟨_, rfl, ?_⟩
      show Ps2Statics.deviceId v.kernel.ps2 port = 0
      rw [hv, hkernel, hid]
  obtain ⟨t, hlast, ht⟩ := hrest
  refine ⟨t, ⟨0, ?_⟩, ht⟩
  rw [hrun, afterReset, Prog.bind_bind, Prog.run_bind_of_some _ hresponse, hlast]

end Ps2
end DrewOS

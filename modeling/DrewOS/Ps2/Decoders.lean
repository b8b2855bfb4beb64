/-
# The two places where the identity is put together

`reset_port` makes the identity of a device out of two bytes in two places: from
the answer to the reset, where the second byte is added shifted, and from the
answer to the identify command, where the first byte is shifted.  The second
identity replaces the first, unless the device does not answer the command in time.
From the same two bytes the two places make the same identity only when the bytes
are equal.
-/

import DrewOS.Ps2.Reset

namespace DrewOS

open ByteMem Effect

namespace Ps2

/-! ### The two decoders -/

/-- The bytes `b0`, `b1` are the identity in the answer to the reset, and the identify
command is acknowledged and then not answered in time. -/
def FallsBack (port : Port) (b0 b1 : Byte) (s : Streams) : Prop :=
  ∃ resp0 resp1 s₀ s₁ s₂ s₃, resp0 ≠ RESP_RESET_FAIL ∧
    Supplies (s.addressed port) [resp0, resp1, b0, b1] s₀ ∧
    Settled port s₀ s₁ ∧ Settled port s₁ s₂ ∧ s₂.received = none ∧
    Settled port s₂.receive s₃

/-- The bytes `b0`, `b1` answer the identify command, whatever answered the reset. -/
def Identifies (port : Port) (b0 b1 : Byte) (s : Streams) : Prop :=
  ∃ resp0 resp1 r0 s₀ s₁ s₂ s₃ s₄, resp0 ≠ RESP_RESET_FAIL ∧
    Supplies (s.addressed port) [resp0, resp1, r0] s₀ ∧
    Settled port (specialised r0 s₀ (r0.setWidth 16)).1 s₁ ∧ Settled port s₁ s₂ ∧
    Supplies s₂ [b0, b1] s₃ ∧ Settled port s₃ s₄

variable {port : Port} {s : Streams} {id : Word} {w : World Streams} {b0 b1 : Byte}

/-- What the first place makes of two bytes. -/
def resetIdentity (b0 b1 : Byte) : Word := b0.setWidth 16 + (b1.setWidth 16 <<< 8)

/-- The fall-back has the two bytes the other way round. -/
theorem resetIdentity_eq (b0 b1 : Byte) : resetIdentity b0 b1 = identifyIdentity b1 b0 :=
  BitVec.add_comm ..

/-- The two decoders agree on equal bytes only. -/
theorem resetIdentity_eq_iff (b0 b1 : Byte) :
    resetIdentity b0 b1 = identifyIdentity b0 b1 ↔ b1 = b0 := by
  rw [resetIdentity_eq]
  constructor
  · intro h
    have hnat := congrArg BitVec.toNat h
    rw [toNat_identifyIdentity, toNat_identifyIdentity] at hnat
    exact BitVec.eq_of_toNat_eq (by omega)
  · rintro rfl
    rfl

/-- What is supplied is supplied in two parts. -/
theorem supplies_append {s s' : Streams} (l r : List Byte) :
    Supplies s (l ++ r) s' ↔ ∃ u, Supplies s l u ∧ Supplies u r s' := by
  induction l generalizing s with
  | nil => simp only [List.nil_append, Supplies, exists_eq_left]
  | cons b l ih =>
    simp only [List.cons_append, Supplies, ih, and_assoc, exists_and_left]

/-- A special keyboard is named by its response and the code that follows. -/
theorem specialised_eq {r0 c : Byte} (hspecial : r0 = 0xab ∨ r0 = 0xac)
    (h : s.received = some c) :
    specialised r0 s (r0.setWidth 16) = (s.receive, resetIdentity r0 c) := by
  rw [specialised, if_pos hspecial, h]
  rfl

/-- Without a first byte the identity is left. -/
theorem identified_none (h : s.received = none) : identified s id = (s.receive, id) := by
  rw [identified, h]
  rfl

/-- With both bytes the identity is that of `identify`. -/
theorem identified_eq {s' : Streams} (h : Supplies s [b0, b1] s') :
    identified s id = (s', identifyIdentity b0 b1) := by
  obtain ⟨h₀, h₁, hs'⟩ := h
  have hs' : s' = s.receive.receive := hs'
  rw [identified, h₀, Option.elim_some, h₁, hs']
  rfl

/-- The steps of an identification, one behind the other. -/
theorem Identification.mk {s₀ s₁ s₂ s₃ s₄ : Streams} {id' : Word} (hfirst : Settled port s₀ s₁)
    (hsecond : Settled port s₁ s₂) (hid : identified s₂ id = (s₃, id'))
    (hlast : Settled port s₃ s₄) : Identification port (s₀, id) (s₄, id') := by
  refine ⟨s₁, s₂, hfirst, hsecond, ?_, ?_⟩
  · rw [hid]
    exact hlast
  · rw [hid]

/-- The calls in which the reset is answered. -/
theorem returns_answered {resp0 resp1 r0 : Byte} {s' : Streams} {z : Streams × Word}
    (hs : Supplies (w.bus.addressed port) [resp0, resp1, r0] s') (hfail : resp0 ≠ RESP_RESET_FAIL)
    (hz : Identification port (specialised r0 s' (r0.setWidth 16)) z) :
    ∃ t, Returns (machine streamBus) (fun n => resetPort n port) w () t ∧
      Ps2Statics.deviceId t.kernel.ps2 port = z.2 := by
  have hsay : ∀ y v e, At port y v → At port y (World.say v e) := fun _ _ e hv => hv.say e
  have hstart : ∀ u : World Streams, u.bus = w.bus.addressed port → u.kernel = w.kernel →
      At port (w.bus.addressed port, Ps2Statics.deviceId w.kernel.ps2 port) u := by
    intro u hbus hkernel
    refine ⟨hbus, ?_⟩
    rw [hkernel]
  obtain ⟨t, ht, -, hid⟩ :=
    (follows_resetPort hsay hstart (follows_answered hs hfail)).2 z hz
  exact ⟨t, ht, hid⟩

/-- Where the identify command is not answered, the identity in the reset's answer counts. -/
theorem returns_fallsBack (hspecial : b0 = 0xab ∨ b0 = 0xac) (h : FallsBack port b0 b1 w.bus) :
    ∃ t, Returns (machine streamBus) (fun n => resetPort n port) w () t ∧
      Ps2Statics.deviceId t.kernel.ps2 port = resetIdentity b0 b1 := by
  obtain ⟨resp0, resp1, s₀, s₁, s₂, s₃, hfail, hreset, hfirst, hsecond, hnone, hlast⟩ := h
  obtain ⟨u, hreset, hb1, hs₀⟩ := (supplies_append [resp0, resp1, b0] [b1]).1 hreset
  have hs₀ : s₀ = u.receive := hs₀
  rw [hs₀] at hfirst
  have hz : Identification port (specialised b0 u (b0.setWidth 16)) (s₃, resetIdentity b0 b1) := by
    rw [specialised_eq hspecial hb1]
    exact .mk hfirst hsecond (identified_none hnone) hlast
  exact returns_answered hreset hfail hz

/-- Where the identify command is answered, the identity in its answer counts. -/
theorem returns_identifies (h : Identifies port b0 b1 w.bus) :
    ∃ t, Returns (machine streamBus) (fun n => resetPort n port) w () t ∧
      Ps2Statics.deviceId t.kernel.ps2 port = identifyIdentity b0 b1 := by
  obtain ⟨resp0, resp1, r0, s₀, s₁, s₂, s₃, s₄, hfail, hreset, hfirst, hsecond, hid, hlast⟩ := h
  exact returns_answered hreset hfail
    (Identification.mk hfirst hsecond (identified_eq hid) hlast)

/-- The two resets leave the same identity, with the first byte in front. -/
def Agree (port : Port) (b0 b1 : Byte) (w w' : World Streams) : Prop :=
  ∃ t t', Returns (machine streamBus) (fun n => resetPort n port) w () t ∧
    Returns (machine streamBus) (fun n => resetPort n port) w' () t' ∧
    Ps2Statics.deviceId t.kernel.ps2 port = Ps2Statics.deviceId t'.kernel.ps2 port ∧
    (Ps2Statics.deviceId t'.kernel.ps2 port).toNat = 256 * b0.toNat + b1.toNat

/-- **When the two decoders agree**: only on two equal bytes. -/
theorem decoders_agree_iff {w w' : World Streams} (hspecial : b0 = 0xab ∨ b0 = 0xac)
    (hfalls : FallsBack port b0 b1 w.bus) (hidentifies : Identifies port b0 b1 w'.bus) :
    Agree port b0 b1 w w' ↔ b1 = b0 := by
  obtain ⟨t, ht, hid⟩ := returns_fallsBack hspecial hfalls
  obtain ⟨t', ht', hid'⟩ := returns_identifies hidentifies
  have hgrowing : Growing fun n => resetPort n port := growing_resetPort port
  rw [← resetIdentity_eq_iff, ← hid, ← hid']
  constructor
  · rintro ⟨u, u', hu, hu', heq, -⟩
    obtain ⟨-, rfl⟩ := ht.unique hgrowing hu
    obtain ⟨-, rfl⟩ := ht'.unique hgrowing hu'
    exact heq
  · intro heq
    refine ⟨t, t', ht, ht', heq, ?_⟩
    rw [hid', toNat_identifyIdentity]

/-! ### A keyboard -/

/-- The streams of a controller with the status bytes `r` and the data bytes `d`. -/
def streamsOf (r d : Stream' Byte) : Streams := ⟨r, d, .const 0, .const 0⟩

section Ready

variable (l m : List Byte) (r d : Stream' Byte)

/-- A status that is ready ends the wait at its first poll. -/
theorem polls_ready {ready : Byte → Bool} {v : Byte} (hv : ready v = true) (n : ℕ)
    (r : Stream' Byte) : polls ready n (.cons v r) = 1 := by
  cases n with
  | zero => rfl
  | succ n => exact if_pos hv

/-- A ready status ends the wait. -/
theorem await_ready {ready : Byte → Bool} {v : Byte} (hv : ready v = true) :
    (streamsOf ((v :: l) ++ₛ r) d).await ready = streamsOf (l ++ₛ r) d := by
  unfold Streams.await streamsOf
  rw [Stream'.cons_append_stream, polls_ready hv]
  rfl

/-- Behind a ready status the next byte is received. -/
theorem receive_ready (b : Byte) :
    (streamsOf ((0x01 :: l) ++ₛ r) ((b :: m) ++ₛ d)).received = some b ∧
      (streamsOf ((0x01 :: l) ++ₛ r) ((b :: m) ++ₛ d)).receive =
        streamsOf (l ++ₛ r) (m ++ₛ d) := by
  have hfull : outputFull 0x01 = true := rfl
  have hlate : ¬ (streamsOf ((0x01 :: l) ++ₛ r) ((b :: m) ++ₛ d)).Late outputFull := fun h =>
    Bool.false_ne_true ((h.1 0 (by decide)).symm.trans hfull)
  rw [Streams.received, if_neg hlate, Streams.receive, if_neg hlate, await_ready _ _ _ hfull]
  exact ⟨rfl, rfl⟩

/-- Ready statuses supply any bytes. -/
theorem supplies_ready (bs : List Byte) :
    Supplies (streamsOf ((List.replicate bs.length 0x01 ++ l) ++ₛ r) ((bs ++ m) ++ₛ d)) bs
      (streamsOf (l ++ₛ r) (m ++ₛ d)) := by
  induction bs with
  | nil => rfl
  | cons b bs ih =>
    obtain ⟨hreceived, hreceive⟩ :=
      receive_ready (List.replicate bs.length 0x01 ++ l) (bs ++ m) r d b
    refine ⟨hreceived, ?_⟩
    rw [← hreceive] at ih
    exact ih

/-- A device that is ready and acknowledges settles its command. -/
theorem settled_ready :
    Settled .port0 (streamsOf ((0x01 :: 0x01 :: l) ++ₛ r) ((RESP_ACK :: m) ++ₛ d))
      (streamsOf (l ++ₛ r) (m ++ₛ d)) := by
  have hempty : inputEmpty 0x01 = true := rfl
  have haddressed :
      (streamsOf ((0x01 :: 0x01 :: l) ++ₛ r) ((RESP_ACK :: m) ++ₛ d)).addressed .port0 =
        streamsOf ((0x01 :: l) ++ₛ r) ((RESP_ACK :: m) ++ₛ d) := await_ready _ _ _ hempty
  obtain ⟨hreceived, hreceive⟩ := receive_ready l m r d RESP_ACK
  rw [← hreceive, ← haddressed]
  refine .done ?_
  rw [haddressed, hreceived]
  exact fun h => absurd (Option.some.inj h) (by decide)

end Ready

/-- The controller has a byte at the 1025th poll. -/
def lateStatus : Stream' Byte := List.replicate DEFAULT_WAIT 0x00 ++ₛ .const 0x01

/-- With the late status the first wait fails, and the next one does not. -/
theorem late_lateStatus (d : Stream' Byte) :
    (streamsOf lateStatus d).received = none ∧
      (streamsOf lateStatus d).receive = streamsOf ([0x01, 0x01] ++ₛ .const 0x01) d := by
  have hempty : outputFull 0x00 = false := rfl
  have hlate : (streamsOf lateStatus d).Late outputFull :=
    late_replicate hempty rfl DEFAULT_WAIT
  rw [Streams.received, Streams.receive, if_pos hlate, if_pos hlate]
  refine ⟨rfl, ?_⟩
  unfold Streams.await streamsOf lateStatus
  rw [drop_polls_replicate hempty]
  simp only [Stream'.tail_const, Stream'.cons_append_stream, Stream'.nil_append_stream,
    ← Stream'.const_eq]

/-- A keyboard that sends its identity with the answer to the reset, and is late with
the answer to the identify command. -/
def lateIdentity : Streams :=
  streamsOf (List.replicate 9 0x01 ++ₛ lateStatus)
    ([RESP_ACK, RESP_RESET_SUCCESS, 0xab, 0x83, RESP_ACK, RESP_ACK, RESP_ACK] ++ₛ .const 0)

/-- The late controller does not answer the identify command in time. -/
theorem fallsBack_lateIdentity : FallsBack .port0 0xab 0x83 lateIdentity := by
  have hempty : inputEmpty 0x01 = true := rfl
  obtain ⟨hnone, hreceive⟩ := late_lateStatus ([RESP_ACK] ++ₛ .const 0)
  have hstart : lateIdentity.addressed .port0 = streamsOf (List.replicate 8 0x01 ++ₛ lateStatus)
      ([RESP_ACK, RESP_RESET_SUCCESS, 0xab, 0x83, RESP_ACK, RESP_ACK, RESP_ACK] ++ₛ .const 0) :=
    await_ready _ _ _ hempty
  have hreset := supplies_ready (List.replicate 4 0x01) [RESP_ACK, RESP_ACK, RESP_ACK] lateStatus
    (.const 0) [RESP_ACK, RESP_RESET_SUCCESS, 0xab, 0x83]
  have hfirst := settled_ready (List.replicate 2 0x01) [RESP_ACK, RESP_ACK] lateStatus (.const 0)
  have hsecond := settled_ready [] [RESP_ACK] lateStatus (.const 0)
  have hlast := settled_ready [] [] (.const 0x01) (.const 0)
  rw [← hreceive] at hlast
  rw [FallsBack, hstart]
  exact ⟨RESP_ACK, RESP_RESET_SUCCESS, _, _, _, _, by decide, hreset, hfirst, hsecond, hnone, hlast⟩

/-- The same keyboard when it answers in time. -/
def promptIdentity : Streams :=
  streamsOf (List.replicate 13 0x01 ++ₛ .const 0x01)
    ([RESP_ACK, RESP_RESET_SUCCESS, 0xab, 0x83, RESP_ACK, RESP_ACK, 0xab, 0x83, RESP_ACK] ++ₛ
      .const 0)

/-- The prompt one does. -/
theorem identifies_promptIdentity : Identifies .port0 0xab 0x83 promptIdentity := by
  have hempty : inputEmpty 0x01 = true := rfl
  have hstart : promptIdentity.addressed .port0 =
      streamsOf (List.replicate 12 0x01 ++ₛ .const 0x01)
        ([RESP_ACK, RESP_RESET_SUCCESS, 0xab, 0x83, RESP_ACK, RESP_ACK, 0xab, 0x83, RESP_ACK] ++ₛ
          .const 0) := await_ready _ _ _ hempty
  have hreset := supplies_ready (0x01 :: List.replicate 8 0x01)
    [0x83, RESP_ACK, RESP_ACK, 0xab, 0x83, RESP_ACK] (.const 0x01) (.const 0)
    [RESP_ACK, RESP_RESET_SUCCESS, 0xab]
  obtain ⟨hreceived, hreceive⟩ := receive_ready (List.replicate 8 0x01)
    [RESP_ACK, RESP_ACK, 0xab, 0x83, RESP_ACK] (.const 0x01) (.const 0) 0x83
  have hfirst := settled_ready (List.replicate 6 0x01) [RESP_ACK, 0xab, 0x83, RESP_ACK]
    (.const 0x01) (.const 0)
  have hsecond := settled_ready (List.replicate 4 0x01) [0xab, 0x83, RESP_ACK]
    (.const 0x01) (.const 0)
  have hid := supplies_ready (List.replicate 2 0x01) [RESP_ACK] (.const 0x01) (.const 0)
    [0xab, 0x83]
  have hlast := settled_ready [] [] (.const 0x01) (.const 0)
  rw [Identifies, hstart]
  refine ⟨RESP_ACK, RESP_RESET_SUCCESS, 0xab, _, _, _, _, _, by decide, hreset, ?_, hsecond, hid,
    hlast⟩
  rw [specialised_eq (.inl rfl) hreceived, hreceive]
  exact hfirst

/-- The machine with these streams. -/
def beforeReset (s : Streams) : World Streams := .boot s emptyIdt fun _ => 0

/-- The two paths disagree on the keyboard `ab 83`. -/
theorem decoders_agree_iff_keyboard :
    Agree .port0 0xab 0x83 (beforeReset lateIdentity) (beforeReset promptIdentity) ↔
      (0x83 : Byte) = 0xab :=
  decoders_agree_iff (.inl rfl) fallsBack_lateIdentity identifies_promptIdentity

/-- **The keyboard is not recognised**: its identity is 0x83ab, not 0xab83. -/
theorem not_agree_lateIdentity :
    ¬ Agree .port0 0xab 0x83 (beforeReset lateIdentity) (beforeReset promptIdentity) := by
  obtain ⟨t, ht, hid⟩ :=
    @returns_fallsBack .port0 (beforeReset lateIdentity) 0xab 0x83 (.inl rfl) fallsBack_lateIdentity
  obtain ⟨t', ht', hid'⟩ :=
    @returns_identifies .port0 (beforeReset promptIdentity) 0xab 0x83 identifies_promptIdentity
  rintro ⟨u, u', hu, hu', heq, -⟩
  obtain ⟨-, rfl⟩ := ht.unique (growing_resetPort .port0) hu
  obtain ⟨-, rfl⟩ := ht'.unique (growing_resetPort .port0) hu'
  have hbytes := (resetIdentity_eq_iff 0xab 0x83).1 (hid.symm.trans (heq.trans hid'))
  exact absurd hbytes (by decide)

end Ps2
end DrewOS

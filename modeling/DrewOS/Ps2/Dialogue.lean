/-
# What `reset_port` makes of the streams

What `reset_port` does depends on the streams of answers and on the identity stored
before (`At`).  A device command is answered, perhaps after requests to resend it
(`Settled`), three bytes answer the reset, and the identity is made of what follows
them; `follows_answered` says what becomes of the streams and of the identity.
-/

import DrewOS.Effect.Simulation
import DrewOS.Ps2.Termination

namespace DrewOS

open ByteMem Effect

namespace Ps2

/-! ### What is received -/

/-- The bytes `bs` are received one after the other, and `s'` is left. -/
def Supplies : Streams → List Byte → Streams → Prop
  | s, [], s' => s' = s
  | s, b :: bs, s' => s.received = some b ∧ Supplies s.receive bs s'

/-- A device command is answered, after requests to resend it, and `s'` is left. -/
inductive Settled (port : Port) : Streams → Streams → Prop where
  | done {s : Streams} (h : (s.addressed port).received ≠ some RESP_RESEND) :
      Settled port s (s.addressed port).receive
  | again {s s' : Streams} (h : (s.addressed port).received = some RESP_RESEND)
      (hrest : Settled port (s.addressed port).receive s') : Settled port s s'

/-- The streams and the identity after the optional byte that follows the identity `r0`. -/
def specialised (r0 : Byte) (s : Streams) (id : Word) : Streams × Word :=
  if r0 = 0xab ∨ r0 = 0xac then
    (s.receive, s.received.elim id fun c => id + (c.setWidth 16 <<< 8))
  else (s, id)

/-- The identity that the two bytes which answer the identify command make. -/
def identifyIdentity (b0 b1 : Byte) : Word := (b0.setWidth 16 <<< 8) + b1.setWidth 16

/-- The first byte of the identity is the high one. -/
theorem toNat_identifyIdentity (b0 b1 : Byte) :
    (identifyIdentity b0 b1).toNat = 256 * b0.toNat + b1.toNat := by
  have h0 := b0.isLt
  have h1 := b1.isLt
  unfold identifyIdentity
  rw [BitVec.toNat_add, BitVec.toNat_shiftLeft, BitVec.toNat_setWidth, BitVec.toNat_setWidth,
    Nat.shiftLeft_eq]
  omega

/-- The streams and the identity after the two optional bytes that answer the identify
command. -/
def identified (s : Streams) (id : Word) : Streams × Word :=
  s.received.elim (s.receive, id) fun c0 =>
    (s.receive.receive, s.receive.received.elim (c0.setWidth 16) fun c1 =>
      (c0.setWidth 16 <<< 8) + c1.setWidth 16)

/-- The three commands turn `x` into `z`. -/
def Identification (port : Port) (x z : Streams × Word) : Prop :=
  ∃ s₁ s₂, Settled port x.1 s₁ ∧ Settled port s₁ s₂ ∧
    Settled port (identified s₂ x.2).1 z.1 ∧ z.2 = (identified s₂ x.2).2

/-! ### Runs -/

/-- The streams are `x.1`, and the identity stored for the port is `x.2`. -/
def At (port : Port) (x : Streams × Word) (w : World Streams) : Prop :=
  w.bus = x.1 ∧ Ps2Statics.deviceId w.kernel.ps2 port = x.2

variable {port : Port} {x : Streams × Word} {s : Streams} {id : Word} {w t : World Streams}

/-- An exchange moves the streams only. -/
theorem At.exchange {bus : Streams} {l : List Event} (h : At port (s, id) w)
    (ht : Exchange w t bus l) : At port (bus, id) t := by
  refine ⟨ht.bus, ?_⟩
  rw [ht.kernel]
  exact h.2

theorem At.say (h : At port x w) (e : Event) : At port x (w.say e) := h

/-- `ps2_send_command` waits, and sends. -/
theorem at_ps2SendCommand (command : Byte) (h : At port (s, id) w) :
    ∃ t, (ps2SendCommand command).run (machine streamBus) w = (some (), t) ∧
      At port (s.await inputEmpty, id) t := by
  obtain ⟨t, hrun, ht⟩ := run_ps2SendCommand command w
  rw [h.1] at ht
  exact ⟨t, hrun, h.exchange ht⟩

/-- `ps2_send_data` waits, and sends. -/
theorem at_ps2SendData (data : Byte) (h : At port (s, id) w) :
    ∃ t, (ps2SendData data).run (machine streamBus) w = (some (), t) ∧
      At port (s.await inputEmpty, id) t := by
  obtain ⟨t, hrun, ht⟩ := run_ps2SendData data w
  rw [h.1] at ht
  exact ⟨t, hrun, h.exchange ht⟩

/-- A read takes the next byte, unless the wait fails. -/
theorem at_tryReadData (h : At port (s, id) w) :
    ∃ t, tryReadData.run (machine streamBus) w = (some s.received, t) ∧
      At port (s.receive, id) t := by
  obtain ⟨t, hrun, ht⟩ := run_tryReadData w
  rw [h.1] at ht hrun
  exact ⟨t, hrun, h.exchange ht⟩

theorem at_println (text : String) (args : List Arg) (h : At port x w) :
    ∃ t, (println text args).run (machine streamBus) w = (some (), t) ∧ At port x t :=
  ⟨_, rfl, h⟩

/-- Assigning the identity leaves the streams. -/
theorem at_modifyDeviceId (f : Word → Word) (h : At port (s, id) w) :
    ∃ t, (modifyDeviceId port f).run (machine streamBus) w = (some (), t) ∧
      At port (s, f id) t := by
  obtain ⟨hbus, rfl⟩ := h
  refine ⟨_, rfl, hbus, ?_⟩
  cases port <;> rfl

/-- A byte for the device on the port. -/
theorem at_addressed (data : Byte) (h : At port (s, id) w) :
    ∃ t, (onlyIf (port = .port1) (ps2SendCommand CMD_WRITE_INPUT_PORT_1) >>=
        fun _ => ps2SendData data).run (machine streamBus) w = (some (), t) ∧
      At port (s.addressed port, id) t := by
  cases port with
  | port0 => exact at_ps2SendData data h
  | port1 =>
    obtain ⟨u, hrun, hu⟩ := at_ps2SendCommand CMD_WRITE_INPUT_PORT_1 h
    obtain ⟨t, hrun', ht⟩ := at_ps2SendData data hu
    refine ⟨t, ?_, ht⟩
    unfold onlyIf
    rw [if_pos rfl, Prog.run_bind_of_some _ hrun, hrun']

/-! ### Device commands -/

/-- More fuel lets the attempts go on. -/
theorem growing_command (cmd : Byte) : Growing fun n => ps2SendDeviceCommand n cmd port :=
  (decided_ps2SendDeviceCommand (b := streamBus) cmd port).growing

/-- An attempt sends the command and reads the answer. -/
theorem at_attemptCommand (cmd : Byte) (h : At port (s, id) w) :
    ∃ t, (attemptCommand cmd port).run (machine streamBus) w =
        (some (s.addressed port).received, t) ∧
      At port ((s.addressed port).receive, id) t := by
  obtain ⟨u, hrun, hu⟩ := at_addressed cmd h
  obtain ⟨t, hrun', ht⟩ := at_tryReadData hu
  refine ⟨t, ?_, ht⟩
  unfold attemptCommand
  rw [← Prog.bind_bind, Prog.run_bind_of_some _ hrun, hrun']

/-- Reporting leaves the streams and the identity. -/
theorem at_reportResponse (cmd : Byte) (resp : Option Byte) (h : At port x w) :
    ∃ t, (reportResponse cmd port resp).run (machine streamBus) w = (some (), t) ∧
      At port x t := by
  cases resp with
  | none => exact at_println _ _ h
  | some r =>
    unfold reportResponse
    by_cases hr : r = RESP_ACK
    · simp only [if_pos hr]
      exact ⟨w, rfl, h⟩
    · simp only [if_neg hr]
      exact at_println _ _ h

/-- One call of `ps2_send_device_command`. -/
theorem at_command (cmd : Byte) (h : At port (s, id) w) :
    ∃ u, At port ((s.addressed port).receive, id) u ∧ ∀ n,
      (ps2SendDeviceCommand (n + 1) cmd port).run (machine streamBus) w =
        Prog.run (machine streamBus) ((if (s.addressed port).received = some RESP_RESEND then
          ps2SendDeviceCommand n cmd port
          else reportResponse cmd port (s.addressed port).received) >>=
          fun _ => leave (.sendDeviceCommand cmd port) none) u := by
  obtain ⟨u, hrun, hu⟩ := at_attemptCommand cmd (h.say (.enter (.sendDeviceCommand cmd port)))
  refine ⟨u, hu, fun n => ?_⟩
  rw [ps2SendDeviceCommand, procedure, Prog.run_bind_of_some _ (run_enter ..), Prog.bind_bind,
    Prog.run_bind_of_some _ hrun]

/-- **A device command.** -/
theorem follows_ps2SendDeviceCommand (cmd : Byte) (s : Streams) (id : Word) :
    Follows (machine streamBus) (At port) (fun n => ps2SendDeviceCommand n cmd port) (s, id)
      fun _ y => Settled port s y.1 ∧ y.2 = id where
  growing := growing_command cmd
  sound := by
    rintro w ⟨⟩ t hw ⟨n, hn⟩
    induction n generalizing s w t with
    | zero => exact nomatch hn
    | succ n ih =>
      obtain ⟨u, hu, hrun⟩ := at_command cmd hw
      rw [hrun n] at hn
      obtain ⟨_, v, hv, hleave⟩ := (Prog.run_bind_eq_some _).1 hn
      have ht : t = v.say (.leave (.sendDeviceCommand cmd port) none) :=
        (Prod.mk.inj hleave).2.symm
      by_cases hresend : (s.addressed port).received = some RESP_RESEND
      · rw [if_pos hresend] at hv
        obtain ⟨y, ⟨hy, hid⟩, hat⟩ := ih (s.addressed port).receive hu hv
        exact ⟨y, ⟨.again hresend hy, hid⟩, ht ▸ hat.say _⟩
      · rw [if_neg hresend] at hv
        obtain ⟨v', hrun', hv'⟩ := at_reportResponse cmd _ hu
        obtain rfl : v' = v := (Prod.mk.inj (hrun'.symm.trans hv)).2
        refine ⟨((s.addressed port).receive, id), ⟨?_, rfl⟩, ht ▸ hv'.say _⟩
        dsimp only
        exact .done hresend
  complete := by
    rintro w ⟨⟩ ⟨s', id'⟩ hw ⟨hanswered, hid⟩
    obtain rfl : id' = id := hid
    dsimp only at hanswered
    induction hanswered generalizing w with
    | @done s hs =>
      obtain ⟨u, hu, hrun⟩ := at_command cmd hw
      obtain ⟨v, hrun', hv⟩ := at_reportResponse cmd (s.addressed port).received hu
      refine ⟨_, ⟨1, ?_⟩, hv.say (.leave (.sendDeviceCommand cmd port) none)⟩
      rw [hrun 0, if_neg hs, Prog.run_bind_of_some _ hrun']
      rfl
    | @again s s' hs _ ih =>
      obtain ⟨u, hu, hrun⟩ := at_command cmd hw
      obtain ⟨v, ⟨n, hn⟩, hv⟩ := ih hu
      refine ⟨_, ⟨n + 1, ?_⟩, hv.say (.leave (.sendDeviceCommand cmd port) none)⟩
      rw [hrun n, if_pos hs, Prog.run_bind_of_some _ hn]
      rfl

/-! ### The reset -/

/-- The commands with which `reset_port` identifies the device. -/
def identification (n : ℕ) (port : Port) : Kern Unit := do
  ps2SendDeviceCommand n CMD_DISABLE_SCAN port
  ps2SendDeviceCommand n CMD_IDENTIFY port
  identifyPort port
  ps2SendDeviceCommand n CMD_ENABLE_SCAN port

/-- What `reset_port` does with the answer to the reset. -/
def afterResponse (n : ℕ) (port : Port) : Option (Byte × Byte × Byte) → Kern Unit
  | none => do
    modifyDeviceId port fun _ => 0
    println "Port %d is not populated" [.int (portNo port)]
  | some (resp0, resp1, resp2) =>
    if resp0 = RESP_RESET_FAIL then
      println "Port %d reset failed" [.int (portNo port)]
    else do
      reportReset port resp0 resp1
      modifyDeviceId port fun _ => resp2.setWidth 16
      onlyIf (resp2 = 0xab ∨ resp2 = 0xac) (readSpecialCode port)
      identification n port

/-- What `reset_port` does once the reset byte is sent. -/
def afterReset (n : ℕ) (port : Port) : Kern Unit :=
  resetResponse >>= afterResponse n port

/-- `reset_port`, as what it sends and what follows. -/
theorem resetPortBody_eq (n : ℕ) (port : Port) :
    resetPortBody n port = onlyIf (port = .port1) (ps2SendCommand CMD_WRITE_INPUT_PORT_1) >>=
      fun _ => ps2SendData CMD_RESET_DEVICE >>= fun _ => afterReset n port := rfl

/-- More fuel lets the identification go on. -/
theorem growing_identification : Growing fun n => identification n port :=
  (growing_command _).bind fun _ => (growing_command _).bind fun _ =>
    (growing_const _).bind fun _ => growing_command _

/-- More fuel lets what follows a response go on. -/
theorem growing_afterResponse (r : Option (Byte × Byte × Byte)) :
    Growing fun n => afterResponse n port r := by
  cases r with
  | none => exact growing_const _
  | some r =>
    obtain ⟨resp0, resp1, resp2⟩ := r
    by_cases hfail : resp0 = RESP_RESET_FAIL
    · simpa only [afterResponse, if_pos hfail] using growing_const _
    · simpa only [afterResponse, if_neg hfail] using (growing_const _).bind fun _ =>
        (growing_const _).bind fun _ => (growing_const _).bind fun _ => growing_identification

/-- The special code goes into the identity. -/
theorem at_readSpecialCode (r0 : Byte) (h : At port (s, id) w) :
    ∃ t, (onlyIf (r0 = 0xab ∨ r0 = 0xac) (readSpecialCode port)).run (machine streamBus) w =
        (some (), t) ∧ At port (specialised r0 s id) t := by
  unfold onlyIf specialised
  by_cases hspecial : r0 = 0xab ∨ r0 = 0xac
  · obtain ⟨u, hrun, hu⟩ := at_tryReadData h
    rw [if_pos hspecial, if_pos hspecial, readSpecialCode, Prog.run_bind_of_some _ hrun]
    cases s.received with
    | none => exact ⟨u, rfl, hu⟩
    | some c => exact at_modifyDeviceId (fun id => id + (c.setWidth 16 <<< 8)) hu
  · rw [if_neg hspecial, if_neg hspecial]
    exact ⟨w, rfl, h⟩

/-- The two optional bytes of the identity are read. -/
theorem at_identifyPort (h : At port (s, id) w) :
    ∃ t, (identifyPort port).run (machine streamBus) w = (some (), t) ∧
      At port (identified s id) t := by
  obtain ⟨u, hrun₁, hu⟩ := at_tryReadData h
  unfold identifyPort identified
  rw [Prog.run_bind_of_some _ hrun₁]
  cases s.received with
  | none => exact ⟨u, rfl, hu⟩
  | some c0 =>
    obtain ⟨u', hrun₂, hu'⟩ := at_modifyDeviceId (fun _ => c0.setWidth 16) hu
    obtain ⟨v, hrun₃, hv⟩ := at_tryReadData hu'
    dsimp only [Option.elim_some]
    rw [Prog.run_bind_of_some _ hrun₂, Prog.run_bind_of_some _ hrun₃]
    cases s.receive.received with
    | none => exact ⟨v, rfl, hv⟩
    | some c1 =>
      dsimp only [Option.elim_some]
      exact at_modifyDeviceId (fun id => (id <<< 8) + c1.setWidth 16) hv

/-- A response of three bytes is read. -/
theorem at_resetResponse {resp0 resp1 resp2 : Byte} {s' : Streams} (h : At port (s, id) w)
    (hs : Supplies s [resp0, resp1, resp2] s') :
    ∃ t, resetResponse.run (machine streamBus) w = (some (some (resp0, resp1, resp2)), t) ∧
      At port (s', id) t := by
  obtain ⟨h₀, h₁, h₂, hs'⟩ := hs
  have hs' : s' = s.receive.receive.receive := hs'
  obtain ⟨u, hrun₁, hu⟩ := at_tryReadData h
  obtain ⟨v, hrun₂, hv⟩ := at_tryReadData hu
  obtain ⟨t, hrun₃, ht⟩ := at_tryReadData hv
  rw [h₀] at hrun₁
  rw [h₁] at hrun₂
  rw [h₂] at hrun₃
  rw [hs']
  refine ⟨t, ?_, ht⟩
  unfold resetResponse
  rw [Prog.run_bind_of_some _ hrun₁]
  dsimp only
  rw [Prog.run_bind_of_some _ hrun₂]
  dsimp only
  rw [Prog.run_bind_of_some _ hrun₃]
  rfl

/-- Reporting a reset leaves the streams and the identity. -/
theorem at_reportReset (resp0 resp1 : Byte) (h : At port x w) :
    ∃ t, (reportReset port resp0 resp1).run (machine streamBus) w = (some (), t) ∧
      At port x t := by
  unfold reportReset
  split_ifs
  · exact ⟨w, rfl, h⟩
  · exact at_println _ _ h

/-- The three commands. -/
theorem follows_commands (s : Streams) (id : Word) :
    Follows (machine streamBus) (At port) (fun n => identification n port) (s, id)
      fun _ z => Identification port (s, id) z := by
  have hcommand : ∀ cmd (y : Streams × Word), Follows (machine streamBus) (At port)
      (fun n => ps2SendDeviceCommand n cmd port) y fun _ z => Settled port y.1 z.1 ∧ z.2 = y.2 :=
    fun cmd y => follows_ps2SendDeviceCommand cmd y.1 y.2
  have hlast : ∀ y : Streams × Word, Follows (machine streamBus) (At port)
      (fun n => identifyPort port >>= fun _ => ps2SendDeviceCommand n CMD_ENABLE_SCAN port) y
      fun _ z => Settled port (identified y.1 y.2).1 z.1 ∧ z.2 = (identified y.1 y.2).2 :=
    fun y => Follows.after (fun _ => at_identifyPort) (fun _ => growing_command _)
      (hcommand CMD_ENABLE_SCAN _)
  have hrest : ∀ _ : Unit, Growing fun n =>
      identifyPort port >>= fun _ => ps2SendDeviceCommand n CMD_ENABLE_SCAN port := fun _ =>
    (growing_const _).bind fun _ => growing_command _
  have hsecond := fun y : Streams × Word =>
    (hcommand CMD_IDENTIFY y).bind hrest fun _ z _ => hlast z
  refine ((hcommand CMD_DISABLE_SCAN (s, id)).bind
    (fun _ => (growing_command _).bind hrest) fun _ y _ => hsecond y).congr fun _ z => ?_
  constructor
  · rintro ⟨_, ⟨s₁, id₁⟩, ⟨hfirst, hid₁⟩, _, ⟨s₂, id₂⟩, ⟨hsecond, hid₂⟩, hlast, hid⟩
    dsimp only at hfirst hid₁ hsecond hid₂
    obtain rfl : id₂ = id := hid₂.trans hid₁
    exact ⟨s₁, s₂, hfirst, hsecond, hlast, hid⟩
  · rintro ⟨s₁, s₂, hfirst, hsecond, hlast, hid⟩
    exact ⟨(), (s₁, id), ⟨hfirst, rfl⟩, (), (s₂, id), ⟨hsecond, rfl⟩, hlast, hid⟩

/-- **A reset that is answered**, unless the first byte says that the self-test failed. -/
theorem follows_answered {resp0 resp1 r0 : Byte} {s' : Streams}
    (hs : Supplies s [resp0, resp1, r0] s') (hfail : resp0 ≠ RESP_RESET_FAIL) :
    Follows (machine streamBus) (At port) (fun n => afterReset n port) (s, id)
      fun _ z => Identification port (specialised r0 s' (r0.setWidth 16)) z := by
  have hresponse : Follows (machine streamBus) (At port)
      (fun n => afterResponse n port (some (resp0, resp1, r0))) (s', id)
      fun _ z => Identification port (specialised r0 s' (r0.setWidth 16)) z := by
    simp only [afterResponse, if_neg hfail]
    refine Follows.after (fun _ => at_reportReset _ _) ?_ <|
      Follows.after (fun _ => at_modifyDeviceId _) ?_ <|
      Follows.after (fun _ => at_readSpecialCode r0) ?_ <| follows_commands _ _
    · exact fun _ => (growing_const _).bind fun _ => (growing_const _).bind fun _ =>
        growing_identification
    · exact fun _ => (growing_const _).bind fun _ => growing_identification
    · exact fun _ => growing_identification
  exact Follows.after (fun _ h => at_resetResponse h hs) growing_afterResponse hresponse

/-! ### From the call on -/

/-- The reset byte is sent first. -/
theorem run_resetPort (port : Port) (w : World Streams) :
    ∃ u, u.bus = w.bus.addressed port ∧ u.kernel = w.kernel ∧ ∀ n,
      (resetPort n port).run (machine streamBus) w = Prog.run (machine streamBus)
        (afterReset n port >>= fun _ => leave (.resetPort port) none) u := by
  have hsend : ∀ v : World Streams, ∃ u, (ps2SendData CMD_RESET_DEVICE).run (machine streamBus) v =
      (some (), u) ∧ u.bus = v.bus.await inputEmpty ∧ u.kernel = v.kernel := fun v => by
    obtain ⟨u, hrun, hu⟩ := run_ps2SendData CMD_RESET_DEVICE v
    exact ⟨u, hrun, hu.bus, hu.kernel⟩
  have hselect : ∃ v, (onlyIf (port = .port1) (ps2SendCommand CMD_WRITE_INPUT_PORT_1)).run
      (machine streamBus) (w.say (.enter (.resetPort port))) = (some (), v) ∧
      v.bus.await inputEmpty = w.bus.addressed port ∧ v.kernel = w.kernel := by
    cases port with
    | port0 => exact ⟨_, rfl, rfl, rfl⟩
    | port1 =>
      obtain ⟨v, hrun, hv⟩ :=
        run_ps2SendCommand CMD_WRITE_INPUT_PORT_1 (w.say (.enter (.resetPort .port1)))
      refine ⟨v, hrun, ?_, hv.kernel⟩
      rw [hv.bus]
      rfl
  obtain ⟨v, hrun, hbus, hkernel⟩ := hselect
  obtain ⟨u, hrun', hbus', hkernel'⟩ := hsend v
  refine ⟨u, hbus'.trans hbus, hkernel'.trans hkernel, fun n => ?_⟩
  unfold resetPort procedure
  rw [Prog.run_bind_of_some _ (run_enter ..), resetPortBody_eq]
  simp only [Prog.bind_bind]
  rw [Prog.run_bind_of_some _ hrun, Prog.run_bind_of_some _ hrun']


/-- **A call of `reset_port`**, when what follows the reset byte is known. -/
theorem follows_resetPort {τ : Type} {A : τ → World Streams → Prop} {y : τ} {R : Unit → τ → Prop}
    (hsay : ∀ z v e, A z v → A z (World.say v e))
    (hstart : ∀ u : World Streams, u.bus = w.bus.addressed port → u.kernel = w.kernel → A y u)
    (h : Follows (machine streamBus) A (fun n => afterReset n port) y R) :
    (∀ t, Returns (machine streamBus) (fun n => resetPort n port) w () t → ∃ z, R () z ∧ A z t) ∧
      ∀ z, R () z →
        ∃ t, Returns (machine streamBus) (fun n => resetPort n port) w () t ∧ A z t := by
  obtain ⟨u, hbus, hkernel, hrun⟩ := run_resetPort port w
  have hu : A y u := hstart u hbus hkernel
  have hleave : ∀ z : τ, Follows (machine streamBus) A
      (fun _ => leave (.resetPort port) none) z fun _ z' => z' = z := fun z =>
    (follows_run (a := ()) (y := z) fun v hv =>
      ⟨_, rfl, hsay z v (.leave (.resetPort port) none) hv⟩).congr
      fun _ z' => ⟨And.right, fun h => ⟨rfl, h⟩⟩
  have hfollows := h.bind (fun _ => growing_const (leave (.resetPort port) none))
    fun _ z _ => hleave z
  constructor
  · rintro t ⟨n, hn⟩
    obtain ⟨_, ⟨_, z, hz, rfl⟩, hA⟩ := hfollows.sound hu ⟨n, (hrun n).symm.trans hn⟩
    exact ⟨_, hz, hA⟩
  · intro z hz
    obtain ⟨t, ⟨n, hn⟩, hA⟩ := hfollows.complete hu ⟨(), z, hz, rfl⟩
    exact ⟨t, ⟨n, (hrun n).trans hn⟩, hA⟩

end Ps2
end DrewOS

/-
# Sessions on a prompt machine

`Converses eip k P l a k'` says of code `P` on the bus that answers from streams, with
the stub of the interrupts behind the one that the keyboard driver raises: called
with the statics `k`, it needs the session `l` to be timely and the replies in it to
come, and then it returns `a`, has put `l` on the wire, and leaves the statics `k'`.
Sessions follow each other (`Converses.bind`).  Where the statics matter only through
the identity of one port, a conversation is a session (`Speaks.converses`).
-/

import DrewOS.Kernel.Trap
import DrewOS.Ps2.Conversation

namespace DrewOS

open ByteMem Effect

namespace Ps2

/-! ### The wire -/

/-- A byte for the controller, or one from it. -/
def isWire : Event → Bool
  | .outb port _ => port == PORT_DATA || port == PORT_COMMAND
  | .inb port _ => port == PORT_DATA
  | _ => false

/-- The bytes to and from the controller, in order. -/
def wire (log : List Event) : List Event := log.filter isWire

/-- What passes in two stretches, one behind the other. -/
@[simp] theorem wire_append (l l' : List Event) : wire (l ++ l') = wire l ++ wire l' :=
  List.filter_append ..

/-- An event that is no byte on the wire. -/
theorem wire_say {w : World Streams} {x : Event} (hx : isWire x = false) :
    wire (w.say x).log = wire w.log := by
  rw [World.say_log, wire_append]
  simp [wire, hx]

/-- All that is on the wire is traffic. -/
theorem wire_traffic (log : List Event) : wire (traffic log) = wire log := by
  rw [wire, traffic, List.filter_filter]
  refine List.filter_congr fun e _ => ?_
  cases e with
  | outb port d => exact Bool.and_true _
  | inb port r => exact Bool.and_self _
  | _ => rfl

/-- The assignment of an identity. -/
def Ps2Statics.withId (p : Ps2Statics) (id : Word) : Port → Ps2Statics
  | .port0 => { p with port0Id := id }
  | .port1 => { p with port1Id := id }

/-! ### Sessions -/

variable {α β : Type} {k k' k₁ k₂ : Kernel} {l r : List Event} {a : α} {b : β} {port : Port}
  {eip : Dword}

/-- From `w` to `t` the session `l` was held, and the statics are `k'` now; `l'` and the
bytes `d` are left. -/
structure Conversed (w t : World Streams) (l l' : List Event) (d : Stream' Byte) (k' : Kernel) :
    Prop where
  timely : Timely l' t.bus
  data : t.bus.data = d
  wire : wire t.log = wire w.log ++ l
  kernel : t.kernel = k'

/-- Called with the statics `k` and with depth enough, the code holds the session `l`,
returns `a` and leaves the statics `k'`. -/
def Converses (eip : Dword) (k : Kernel) (P : ℕ → Kern α) (l : List Event) (a : α)
    (k' : Kernel) : Prop :=
  ∀ (w : World Streams) l' d, w.kernel = k → Timely (l ++ l') w.bus →
    w.bus.data = replies l ++ₛ d →
      ∃ t n₀, (∀ n ≥ n₀, (P n).run (trapping streamBus (genericStub eip)) w = (some a, t)) ∧
        Conversed w t l l' d k'

/-- **The sequence rule.** -/
theorem Converses.bind {P : ℕ → Kern α} {F : ℕ → α → Kern β} (hP : Converses eip k P l a k₁)
    (hF : Converses eip k₁ (fun n => F n a) r b k₂) :
    Converses eip k (fun n => P n >>= F n) (l ++ r) b k₂ := by
  intro w l' d hw htimely hdata
  rw [List.append_assoc] at htimely
  rw [replies_append, Stream'.append_append_stream] at hdata
  obtain ⟨t, i, ht, hl⟩ := hP w (r ++ l') _ hw htimely hdata
  obtain ⟨u, j, hu, hr⟩ := hF t l' d hl.kernel hl.timely hl.data
  refine ⟨u, max i j, fun n hn => ?_, hr.timely, hr.data, ?_, hr.kernel⟩
  · rw [Prog.run_bind_of_some _ (ht n (le_of_max_le_left hn)), hu n (le_of_max_le_right hn)]
  · rw [hr.wire, hl.wire, List.append_assoc]

/-- A conversation said in other words. -/
theorem Converses.congr {P : ℕ → Kern α} (h : Converses eip k P l a k') (hl : l = r) :
    Converses eip k P r a k' := by
  subst hl
  exact h

/-- A family that starts with a cut. -/
theorem Converses.of_succ {R : ℕ → Kern α} (h : Converses eip k (fun n => R (n + 1)) l a k') :
    Converses eip k R l a k' := by
  intro w l' d hw htimely hdata
  obtain ⟨t, n₀, ht, hheld⟩ := h w l' d hw htimely hdata
  refine ⟨t, n₀ + 1, fun n hn => ?_, hheld⟩
  obtain ⟨m, rfl⟩ := Nat.exists_eq_add_of_le' (Nat.le_of_add_left_le hn)
  exact ht m (Nat.le_of_add_le_add_right hn)

/-- Code that puts nothing on the wire. -/
theorem converses_quiet {p : Kern α} (h : ∀ w : World Streams, w.kernel = k →
    ∃ t, p.run (trapping streamBus (genericStub eip)) w = (some a, t) ∧
      t.bus.status = w.bus.status ∧ t.bus.data = w.bus.data ∧ wire t.log = wire w.log ∧
      t.kernel = k') :
    Converses eip k (fun _ => p) [] a k' := by
  intro w l' d hw htimely hdata
  obtain ⟨t, hrun, hstatus, hd, hwire, hk⟩ := h w hw
  refine ⟨t, 0, fun _ _ => hrun, htimely.congr hstatus, hd.trans hdata, ?_, hk⟩
  rw [hwire, List.append_nil]

/-- **A conversation is a session**, when the code assigns along `F`, and `F` and the
identity of the port leave one possibility for the statics. -/
theorem Speaks.converses {P : ℕ → Kern α} {f : Word → Word} (h : Speaks port P l a f)
    (hl : wire l = l) {F : Kernel → Kernel → Prop} (hrefl : ∀ k, F k k)
    (htrans : ∀ k k' k'', F k k' → F k' k'' → F k k'')
    (hs : ∀ n, Stays Unraised F (P n)) (hk : ∀ k', F k k' →
      Ps2Statics.deviceId k'.ps2 port = f (Ps2Statics.deviceId k.ps2 port) → k' = k₁) :
    Converses eip k P l a k₁ := by
  rintro w l' d rfl htimely hdata
  obtain ⟨t, ⟨n, hn⟩, hspoken⟩ := h.run w l' d htimely hdata
  have hext := (sat_stays hrefl htrans streamBus (hs n) w).run hn
  refine ⟨t, n, fun i hi => ?_, hspoken.timely, hspoken.data, ?_, hk _ hext.kernel hspoken.id⟩
  · rw [run_trapping streamBus (genericStub eip) (hs i)]
    exact (h.growing.le hi).run hn
  rw [← wire_traffic, hspoken.traffic, wire_append, wire_traffic, hl]

/-- The same for code that assigns nothing. -/
theorem Speaks.unchanged {P : ℕ → Kern α} {f : Word → Word} (h : Speaks port P l a f)
    (hl : wire l = l) (hs : ∀ n, Stays Unraised (fun k k' => k' = k) (P n)) :
    Converses eip k P l a k :=
  h.converses (F := fun k k' => k' = k) hl (fun _ => rfl) (fun _ _ _ h h' => h'.trans h) hs
    fun _ hk _ => hk

/-! ### Code that assigns nothing -/

theorem converses_ret (a : α) : Converses eip k (fun _ => (.ret a : Kern α)) [] a k :=
  (@speaks_ret α .port0 a).unchanged rfl fun _ => stays_ret a

theorem converses_getKernel : Converses eip k (fun _ => getKernel) [] k k :=
  converses_quiet fun w hw => ⟨w, congrArg (fun k => (some k, w)) hw, rfl, rfl, rfl, hw⟩

theorem converses_modifyKernel (f : Kernel → Kernel) :
    Converses eip k (fun _ => modifyKernel f) [] () (f k) :=
  converses_quiet fun _ hw => ⟨_, rfl, rfl, rfl, rfl, congrArg f hw⟩

/-- One operation that is logged and is no byte on the wire. -/
theorem converses_say {p : Kern Unit} {e : Event} (he : isWire e = false)
    (hp : ∀ w, p.run (trapping streamBus (genericStub eip)) w = (some (), w.say e)) :
    Converses eip k (fun _ => p) [] () k :=
  converses_quiet fun w hw => ⟨_, hp w, rfl, rfl, wire_say he, hw⟩

theorem converses_printMessage (m : Message) : Converses eip k (fun _ => printMessage m) [] () k :=
  converses_say rfl fun _ => rfl

theorem converses_println (text : String) (args : List Arg) :
    Converses eip k (fun _ => println text args) [] () k :=
  converses_printMessage _

/-- A call, by its body between the two marks. -/
theorem Converses.procedure {P : ℕ → Kern Unit} {fn : Fn} (hP : Converses eip k P l () k') :
    Converses eip k (fun n => DrewOS.procedure fn (P n)) l () k' := by
  have henter : Converses eip k (fun _ => enter fn) [] () k := converses_say rfl fun _ => rfl
  have hleave : Converses eip k' (fun _ => leave fn none) [] () k' := converses_say rfl fun _ => rfl
  exact Converses.congr (henter.bind (hP.bind hleave)) (List.append_nil l)

/-- The marks of a call are not on the wire. -/
theorem Converses.function {p : Kern Byte} {fn : Fn} {v : Byte}
    (hp : Converses eip k (fun _ => p) l v k') :
    Converses eip k (fun _ => DrewOS.function fn p) l v k' := by
  have henter : Converses eip k (fun _ => enter fn) [] () k := converses_say rfl fun _ => rfl
  have hleave : Converses eip k' (fun _ => leave fn (some v)) [] () k' :=
    converses_say rfl fun _ => rfl
  exact Converses.congr (henter.bind (hp.bind (hleave.bind (converses_ret v))))
    (List.append_nil l)

/-! ### The interrupt of the keyboard driver -/

/-- What takes nothing from the streams of the controller and puts nothing on the wire. -/
def Offline : Event → Prop
  | .inb port _ => port ≠ PORT_DATA ∧ port ≠ PORT_STATUS
  | .outb port _ => port ≠ PORT_DATA ∧ port ≠ PORT_COMMAND
  | _ => True

/-- From `w` to `t` nothing has passed between the kernel and the controller. -/
structure Reserved (w t : World Streams) : Prop where
  status : t.bus.status = w.bus.status
  data : t.bus.data = w.bus.data
  wire : wire t.log = wire w.log

/-- What is reserved stays so over two stretches. -/
theorem Reserved.trans {w t u : World Streams} (h : Reserved w t) (h' : Reserved t u) :
    Reserved w u :=
  ⟨h'.status.trans h.status, h'.data.trans h.data, h'.wire.trans h.wire⟩

/-- One operation. -/
theorem reserved_step {F : Kernel → Kernel → Prop} {o : Op} (ho : o.Within Offline F)
    (w : World Streams) : Reserved w (machine streamBus o w).2 := by
  cases o with
  | readByte p =>
    obtain ⟨hdata, hstatus⟩ := ho 0
    have hread : streamBus.inb p w.bus =
        (w.bus.other.head, { w.bus with other := w.bus.other.tail }) :=
      (if_neg hstatus).trans (if_neg hdata)
    have hbus : (machine streamBus (.readByte p) w).2.bus =
        { w.bus with other := w.bus.other.tail } := congrArg Prod.snd hread
    refine ⟨by rw [hbus], by rw [hbus], ?_⟩
    exact wire_say (beq_eq_false_iff_ne.2 hdata)
  | readWord p => exact ⟨rfl, rfl, wire_say rfl⟩
  | writeByte p d =>
    refine ⟨rfl, rfl, wire_say ?_⟩
    obtain ⟨hdata, hcommand⟩ := ho
    rw [isWire, beq_eq_false_iff_ne.2 hdata, beq_eq_false_iff_ne.2 hcommand, Bool.or_false]
  | get => exact ⟨rfl, rfl, rfl⟩
  | modify f => exact ⟨rfl, rfl, rfl⟩
  | _ => exact ⟨rfl, rfl, wire_say rfl⟩

/-- **The stub leaves the controller alone.** -/
theorem reserved_genericStub (eip : Dword) (w : World Streams) :
    Reserved w ((genericStub eip).run (machine streamBus) w).2 := by
  have hports : ∀ port ∈ commandPorts,
      port ≠ PORT_DATA ∧ port ≠ PORT_STATUS ∧ port ≠ PORT_COMMAND := by
    intro port hport
    rcases List.mem_pair.1 hport with rfl | rfl <;> decide
  have hstays : Stays Offline (fun _ _ => True) (genericStub eip) :=
    stays_genericStub (fun port hport _ => ⟨(hports port hport).1, (hports port hport).2.1⟩)
      (fun port hport _ => ⟨(hports port hport).1, (hports port hport).2.2⟩) (fun _ => trivial)
      (fun _ => trivial) eip
  exact Prog.run_of_always (R := Reserved) (fun _ => ⟨rfl, rfl, rfl⟩) (fun _ _ _ => .trans)
    (fun _ s ho => reserved_step ho s) hstays w

/-- **The interrupt is nothing on the wire**, and its stub assigns nothing where the word
behind the table is `NULL`. -/
theorem converses_int (hnull : k.idt.NullAt eip) (v : Byte) :
    Converses eip k (fun _ => int v) [] () k := by
  refine converses_quiet fun w hw => ?_
  have hres : Reserved w ((genericStub eip).run (machine streamBus) (w.say (.int v))).2 :=
    Reserved.trans (t := w.say (.int v)) ⟨rfl, rfl, wire_say rfl⟩ (reserved_genericStub eip _)
  obtain ⟨t, hrun, hext⟩ := run_genericStub streamBus (w := w.say (.int v))
    (by rw [World.say_kernel, hw]; exact hnull.handlerAt)
  rw [hrun] at hres
  refine ⟨t, ?_, hres.status, hres.data, hres.wire, hext.kernel.trans hw⟩
  show (some (), ((genericStub eip).run (machine streamBus) (w.say (.int v))).2) = _
  rw [hrun]

/-! ### Bytes -/

/-- `ps2_send_command` says its command. -/
theorem converses_ps2SendCommand (command : Byte) :
    Converses eip k (fun _ => ps2SendCommand command) [.outb PORT_COMMAND command] () k :=
  (@speaks_ps2SendCommand .port0 command).unchanged rfl fun _ =>
    stays_ps2SendCommand talks_unraised.toPolls (sends_unraised _)

/-- `ps2_send_data` says its byte. -/
theorem converses_ps2SendData (data : Byte) :
    Converses eip k (fun _ => ps2SendData data) [.outb PORT_DATA data] () k :=
  (@speaks_ps2SendData .port0 data).unchanged rfl fun _ =>
    stays_ps2SendData talks_unraised.toPolls trivial

/-- Reading in time hears the byte. -/
theorem converses_tryReadData (byte : Byte) :
    Converses eip k (fun _ => tryReadData) [.inb PORT_DATA byte] (some byte) k :=
  (@speaks_tryReadData .port0 byte).unchanged rfl fun _ => stays_tryReadData talks_unraised.toPolls

/-- `ps2_read_data` hears the byte. -/
theorem converses_ps2ReadData (byte : Byte) :
    Converses eip k (fun _ => ps2ReadData) [.inb PORT_DATA byte] byte k :=
  Converses.function (((converses_tryReadData byte).bind (converses_ret byte)).congr rfl)

/-- `ps2_get_config` asks for the configuration and hears it. -/
theorem converses_ps2GetConfig (config : Byte) :
    Converses eip k (fun _ => ps2GetConfig)
      [.outb PORT_COMMAND CMD_READ_RAM, .inb PORT_DATA config] config k :=
  Converses.function ((converses_ps2SendCommand _).bind (converses_ps2ReadData config))

/-- `ps2_set_config` says the configuration. -/
theorem converses_ps2SetConfig (config : Byte) :
    Converses eip k (fun _ => ps2SetConfig config)
      [.outb PORT_COMMAND CMD_WRITE_RAM, .outb PORT_DATA config] () k :=
  Converses.procedure ((converses_ps2SendCommand _).bind (converses_ps2SendData config))

/-- What is written to reach a port is all on the wire. -/
theorem wire_toDevice (port : Port) (data : Byte) :
    wire (toDevice port data) = toDevice port data := by
  cases port <;> rfl

/-- The talk of a command is all on the wire. -/
theorem wire_commandTalk (port : Port) (cmd : Byte) (n : ℕ) :
    wire (commandTalk port cmd n) = commandTalk port cmd n := by
  induction n with
  | zero => rw [commandTalk, wire_append, wire_toDevice]; rfl
  | succ n ih => rw [commandTalk, wire_append, wire_append, wire_toDevice, ih]; rfl

/-- **A device command**, with any number of requests to resend. -/
theorem converses_command (cmd : Byte) (n : ℕ) :
    Converses eip k (fun n => ps2SendDeviceCommand n cmd port) (commandTalk port cmd n) () k :=
  (speaks_command cmd n).unchanged (wire_commandTalk port cmd n) fun n =>
    stays_ps2SendDeviceCommand talks_unraised.toPolls (drives_unraised port) n cmd

end Ps2
end DrewOS

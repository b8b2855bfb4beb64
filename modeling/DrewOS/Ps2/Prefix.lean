/-
# A command for port 1 and its prefix

`ps2_send_device_command(cmd, PORT1)` sends the prefix `0xd4` and then the command,
each after a wait of its own.  When the first wait fails, `ps2_send_command` prints
an error and returns; the caller does not know, and waits for the controller again.
If that wait succeeds, the command goes out without its prefix, to the device on
port 0.

The waits of an attempt and their outcomes depend on the streams alone
(`run_attempt`), so the condition is one on the stream of status bytes where an
attempt starts: when the first wait fails, the second fails too.
-/

import DrewOS.Ps2.Routing

namespace DrewOS

open ByteMem Effect

namespace Ps2

/-! ### Writes -/

/-- The reads between the writes do not matter. -/
theorem writes_traffic (log : List Event) : writes (traffic log) = writes log := by
  induction log with
  | nil => rfl
  | cons e log ih =>
    cases e with
    | outb port data => exact congrArg ((port, data) :: ·) ih
    | inb port r =>
      unfold traffic
      rw [List.filter_cons]
      split_ifs
      · exact ih
      · exact ih
    | _ => exact ih

/-- The writes of an exchange come behind those before. -/
theorem Exchange.writes {w t : World Streams} {bus : Streams} {l : List Event}
    (h : Exchange w t bus l) : writes t.log = Ps2.writes w.log ++ Ps2.writes l := by
  have hwrites := congrArg Ps2.writes h.traffic
  rwa [writes_append, writes_traffic, writes_traffic] at hwrites

/-- What has been written since then, from the writes of both logs. -/
theorem writesSince_eq {ε : Type} {w t : World ε} {ws : List (Word × Byte)}
    (h : writes t.log = writes w.log ++ ws) : writesSince w t = ws := by
  rw [writesSince, h, List.drop_left]

/-- Writes that are each routed to port 1 on their own are so together. -/
theorem Routed.append {l r : List (Word × Byte)} (hl : Routed .port1 l)
    (hr : Routed .port1 r) : Routed .port1 (l ++ r) := by
  intro pre data post h
  refine iff_of_true ?_ rfl
  rcases List.append_eq_append_iff.1 h with ⟨mid, rfl, hr'⟩ | ⟨mid, hl', hr'⟩
  · have hlast := (hr mid data post hr').2 rfl
    rw [List.getLast?_append, hlast]
    rfl
  · cases mid with
    | nil =>
      have hlast := (hr [] data post hr'.symm).2 rfl
      exact nomatch hlast
    | cons x mid =>
      obtain ⟨rfl, rfl⟩ := List.cons.inj hr'
      exact (hl pre data mid hl').2 rfl

/-! ### One attempt -/

variable {cmd : Byte}

/-- What an attempt for port 1 writes. -/
def attemptWrites (cmd : Byte) (s : Streams) : List (Word × Byte) :=
  (if s.Late inputEmpty then [] else [select]) ++
    if (s.await inputEmpty).Late inputEmpty then [] else [(PORT_DATA, cmd)]

/-- An attempt writes what its two waits let through. -/
theorem run_attempt (cmd : Byte) (w : World Streams) :
    ∃ resp t, (attemptCommand cmd .port1).run (machine streamBus) w = (some resp, t) ∧
      writes t.log = writes w.log ++ attemptWrites cmd w.bus := by
  obtain ⟨u, hrun₁, hu⟩ := run_ps2SendCommand CMD_WRITE_INPUT_PORT_1 w
  obtain ⟨v, hrun₂, hv⟩ := run_ps2SendData cmd u
  obtain ⟨t, hrun₃, ht⟩ := run_tryReadData v
  refine ⟨v.bus.received, t, ?_, ?_⟩
  · unfold attemptCommand onlyIf
    rw [if_pos rfl, Prog.run_bind_of_some _ hrun₁, Prog.run_bind_of_some _ hrun₂, hrun₃]
  · have hsilent : writes (heard v.bus) = [] := by
      unfold heard
      cases v.bus.received <;> rfl
    rw [((hu.trans hv).trans ht).writes, writes_append, writes_append, hsilent,
      List.append_nil, hu.bus]
    unfold sent attemptWrites
    split_ifs <;> rfl

/-- In the attempt from `w` the command is not written unless its prefix is. -/
def AttemptPrefixed (cmd : Byte) (w : World Streams) : Prop :=
  ∀ resp t, (attemptCommand cmd .port1).run (machine streamBus) w = (some resp, t) →
    select ∉ writesSince w t → (PORT_DATA, cmd) ∉ writesSince w t

/-- When the first wait fails, so does the second. -/
def StallsTwice (s : Streams) : Prop :=
  s.Late inputEmpty → (s.await inputEmpty).Late inputEmpty

/-- A byte of data is not the prefix. -/
theorem data_ne_select (data : Byte) : (PORT_DATA, data) ≠ select := fun h =>
  absurd (Prod.mk.inj h).1 (by decide)

/-- An attempt is prefixed exactly if its second wait fails whenever the first does. -/
theorem attemptPrefixed_iff (cmd : Byte) (w : World Streams) :
    AttemptPrefixed cmd w ↔ StallsTwice w.bus := by
  obtain ⟨resp, t, hrun, hlog⟩ := run_attempt cmd w
  have hwrites := writesSince_eq hlog
  have hdata := data_ne_select cmd
  have honly : AttemptPrefixed cmd w ↔
      (select ∉ attemptWrites cmd w.bus → (PORT_DATA, cmd) ∉ attemptWrites cmd w.bus) := by
    constructor
    · intro h
      have hone := h resp t hrun
      rwa [hwrites] at hone
    · intro h resp' t' hrun'
      obtain ⟨-, rfl⟩ := Prod.mk.inj (hrun.symm.trans hrun')
      rwa [hwrites]
  rw [honly]
  unfold attemptWrites StallsTwice
  by_cases h₁ : w.bus.Late inputEmpty
  · by_cases h₂ : (w.bus.await inputEmpty).Late inputEmpty
    · simp [h₁, h₂]
    · simp [h₁, h₂, hdata.symm]
  · simp [h₁]

/-- Such an attempt is routed to port 1. -/
theorem routed_attemptWrites {s : Streams} (h : StallsTwice s) :
    Routed .port1 (attemptWrites cmd s) := by
  have hselect : select.1 ≠ PORT_DATA := by decide
  intro pre data post he
  refine iff_of_true ?_ rfl
  unfold attemptWrites at he
  by_cases h₁ : s.Late inputEmpty
  · rw [if_pos h₁, if_pos (h h₁)] at he
    exact absurd he.symm (List.append_ne_nil_of_right_ne_nil _ (List.cons_ne_nil _ _))
  rw [if_neg h₁] at he
  -- the first write is the prefix, so a write to the data port is the second
  rcases pre with _ | ⟨x, pre⟩
  · exact absurd (congrArg Prod.fst (List.cons.inj he).1) hselect
  obtain ⟨rfl, hrest⟩ := List.cons.inj he
  cases pre with
  | nil => rfl
  | cons y pre =>
    have hlength := congrArg List.length hrest
    split_ifs at hlength <;> simp at hlength

/-! ### All attempts -/

/-- A call: an attempt, and then another call or a message. -/
theorem run_again {n : ℕ} {port : Port} {w t : World Streams}
    (h : (ps2SendDeviceCommand (n + 1) cmd port).run (machine streamBus) w = (some (), t)) :
    ∃ resp u v, (attemptCommand cmd port).run (machine streamBus)
        (w.say (.enter (.sendDeviceCommand cmd port))) = (some resp, u) ∧
      t = v.say (.leave (.sendDeviceCommand cmd port) none) ∧
      ((resp = some RESP_RESEND ∧
          (ps2SendDeviceCommand n cmd port).run (machine streamBus) u = (some (), v)) ∨
        (resp ≠ some RESP_RESEND ∧
          (reportResponse cmd port resp).run (machine streamBus) u = (some (), v))) := by
  unfold ps2SendDeviceCommand procedure at h
  rw [Prog.run_bind_of_some _ (run_enter ..)] at h
  obtain ⟨_, v, hbody, hleave⟩ := (Prog.run_bind_eq_some _).1 h
  obtain ⟨resp, u, hattempt, hrest⟩ := (Prog.run_bind_eq_some _).1 hbody
  refine ⟨resp, u, v, hattempt, (Prod.mk.inj hleave).2.symm, ?_⟩
  by_cases hresp : resp = some RESP_RESEND
  · rw [if_pos hresp] at hrest
    exact .inl ⟨hresp, hrest⟩
  · rw [if_neg hresp] at hrest
    exact .inr ⟨hresp, hrest⟩

/-- A call starts with its mark. -/
theorem asked_enter (n : ℕ) (cmd : Byte) (port : Port) (w : World Streams) :
    ((.enter (.sendDeviceCommand cmd port) : Op), w) ∈
      (ps2SendDeviceCommand (n + 1) cmd port).asked (machine streamBus) w :=
  List.mem_cons_self ..

/-- What the second call asks for, the first does. -/
theorem asked_again {n : ℕ} {port : Port} {w u : World Streams}
    (h : (attemptCommand cmd port).run (machine streamBus)
      (w.say (.enter (.sendDeviceCommand cmd port))) = (some (some RESP_RESEND), u)) :
    ∀ x ∈ (ps2SendDeviceCommand n cmd port).asked (machine streamBus) u,
      x ∈ (ps2SendDeviceCommand (n + 1) cmd port).asked (machine streamBus) w := by
  intro x hx
  unfold ps2SendDeviceCommand procedure
  rw [Prog.asked_bind]
  refine List.mem_append_right _ ?_
  dsimp only [run_enter]
  rw [Prog.asked_bind]
  refine List.mem_append_left _ ?_
  rw [Prog.asked_bind, h]
  refine List.mem_append_right _ ?_
  dsimp only
  rwa [if_pos rfl]

/-- The messages of a call are no writes. -/
theorem writes_say (w : World Streams) {e : Event} (he : Silent e) :
    writes (w.say e).log = writes w.log := by
  rw [World.say_log, writes_append, writes_of_silent fun e' h => List.mem_singleton.1 h ▸ he,
    List.append_nil]

/-- Reporting writes to no port. -/
theorem writes_reportResponse {port : Port} {resp : Option Byte} {u v : World Streams}
    (h : (reportResponse cmd port resp).run (machine streamBus) u = (some (), v)) :
    writes v.log = writes u.log := by
  obtain ⟨l, hl, rfl⟩ := emits_silent (stays_report cmd port resp) u () v rfl h
  rw [hl.writes, List.append_nil]

/-- **All attempts**, by induction on their number. -/
theorem routed_of_stallsTwice {n : ℕ} {w t : World Streams}
    (hrun : (ps2SendDeviceCommand n cmd .port1).run (machine streamBus) w = (some (), t))
    (h : ∀ u, ((.enter (.sendDeviceCommand cmd .port1) : Op), u) ∈
      (ps2SendDeviceCommand n cmd .port1).asked (machine streamBus) w → StallsTwice u.bus) :
    ∃ ws, writes t.log = writes w.log ++ ws ∧ Routed .port1 ws := by
  induction n generalizing w t with
  | zero => exact nomatch hrun
  | succ n ih =>
    obtain ⟨resp, u, v, hattempt, rfl, hrest⟩ := run_again hrun
    obtain ⟨resp', u', hattempt', hwrites⟩ :=
      run_attempt cmd (w.say (.enter (.sendDeviceCommand cmd .port1)))
    obtain ⟨-, rfl⟩ := Prod.mk.inj (hattempt.symm.trans hattempt')
    have hfirst : Routed .port1 (attemptWrites cmd w.bus) :=
      routed_attemptWrites (h w (asked_enter n cmd .port1 w))
    have henter := writes_say (e := .enter (.sendDeviceCommand cmd .port1)) w trivial
    have hleave := writes_say (e := .leave (.sendDeviceCommand cmd .port1) none) v trivial
    rw [henter] at hwrites
    rw [hleave]
    rcases hrest with ⟨rfl, hagain⟩ | ⟨-, hreport⟩
    · obtain ⟨ws, hws, hrouted⟩ := ih hagain fun x hx => h x (asked_again hattempt _ hx)
      refine ⟨attemptWrites cmd w.bus ++ ws, ?_, hfirst.append hrouted⟩
      rw [hws, hwrites, List.append_assoc]
      rfl
    · refine ⟨attemptWrites cmd w.bus, ?_, hfirst⟩
      rw [writes_reportResponse hreport, hwrites]
      rfl

/-- Every command byte goes to port 1, and in every attempt it is held back with its prefix. -/
structure Prefixed (cmd : Byte) (n : ℕ) (w t : World Streams) : Prop where
  routed : Routed .port1 (writesSince w t)
  attempts : ∀ u, ((.enter (.sendDeviceCommand cmd .port1) : Op), u) ∈
    (ps2SendDeviceCommand n cmd .port1).asked (machine streamBus) w →
      AttemptPrefixed cmd (u.say (.enter (.sendDeviceCommand cmd .port1)))

/-- **When a command for port 1 never reaches port 0**: in every call that returns, if
and only if no attempt starts where the first wait fails and the second does not. -/
theorem prefixed_iff {n : ℕ} {w t : World Streams}
    (hrun : (ps2SendDeviceCommand n cmd .port1).run (machine streamBus) w = (some (), t)) :
    Prefixed cmd n w t ↔ ∀ u, ((.enter (.sendDeviceCommand cmd .port1) : Op), u) ∈
      (ps2SendDeviceCommand n cmd .port1).asked (machine streamBus) w → StallsTwice u.bus := by
  constructor
  · intro h u hu
    have hattempt := (attemptPrefixed_iff cmd _).1 (h.attempts u hu)
    rwa [World.say_bus] at hattempt
  · intro h
    obtain ⟨ws, hws, hrouted⟩ := routed_of_stallsTwice hrun h
    refine ⟨?_, fun u hu => (attemptPrefixed_iff cmd _).2 (h u hu)⟩
    rwa [writesSince_eq hws]

/-- A call ends with its first attempt, unless the response asks to resend. -/
theorem run_once {port : Port} {resp : Option Byte} {w u : World Streams}
    (hattempt : (attemptCommand cmd port).run (machine streamBus)
      (w.say (.enter (.sendDeviceCommand cmd port))) = (some resp, u))
    (hresp : resp ≠ some RESP_RESEND) :
    ∃ t, (ps2SendDeviceCommand 1 cmd port).run (machine streamBus) w = (some (), t) := by
  obtain ⟨_, v, hreport⟩ :=
    (cutFree_reportResponse cmd port resp).returns (m := machine streamBus) u
  refine ⟨v.say (.leave (.sendDeviceCommand cmd port) none), ?_⟩
  unfold ps2SendDeviceCommand procedure
  rw [Prog.run_bind_of_some _ (run_enter ..), Prog.bind_bind, Prog.run_bind_of_some _ hattempt,
    if_neg hresp, Prog.run_bind_of_some _ hreport]
  rfl

/-- A controller that is not ready for 1024 polls, and then always; the device
acknowledges every command. -/
def hesitant : Streams where
  status := List.replicate DEFAULT_WAIT 0x02 ++ₛ .const 0x01
  data := .const RESP_ACK
  other := .const 0
  words := .const 0

/-- The machine with this controller. -/
def beforeCommand : World Streams := .boot hesitant emptyIdt fun _ => 0

/-- The device is not heard to ask to resend. -/
theorem returns_hesitant :
    ∃ t, (ps2SendDeviceCommand 1 CMD_ENABLE_SCAN .port1).run (machine streamBus) beforeCommand =
      (some (), t) := by
  obtain ⟨t, hrun, -⟩ := run_attemptCommand CMD_ENABLE_SCAN .port1
    (beforeCommand.say (.enter (.sendDeviceCommand CMD_ENABLE_SCAN .port1)))
  refine run_once hrun ?_
  unfold Streams.received
  split_ifs
  · exact nofun
  · exact fun h => absurd (Option.some.inj h) (by decide)

/-- The hesitant controller lets the first wait fail, and the second succeed. -/
theorem not_stallsTwice_hesitant : ¬ StallsTwice hesitant := by
  intro h
  have hfirst : hesitant.Late inputEmpty := late_replicate rfl rfl DEFAULT_WAIT
  have hsecond : Late inputEmpty DEFAULT_WAIT (hesitant.await inputEmpty).status := h hfirst
  have hbusy : inputEmpty 0x02 = false := rfl
  have hstreams : hesitant.status = List.replicate DEFAULT_WAIT 0x02 ++ₛ .const 0x01 := rfl
  have hstatus : (hesitant.await inputEmpty).status = (Stream'.const 0x01).tail :=
    await_replicate hbusy hstreams
  have hready : inputEmpty ((Stream'.const 0x01).tail.get 0) = true := rfl
  rw [hstatus] at hsecond
  exact Bool.false_ne_true ((hsecond.1 0 (by decide)).symm.trans hready)

/-- **The command goes out without its prefix.** -/
theorem not_prefixed_hesitant :
    ∃ t, (ps2SendDeviceCommand 1 CMD_ENABLE_SCAN .port1).run (machine streamBus) beforeCommand =
      (some (), t) ∧ ¬ Prefixed CMD_ENABLE_SCAN 1 beforeCommand t := by
  obtain ⟨t, ht⟩ := returns_hesitant
  refine ⟨t, ht, fun h => not_stallsTwice_hesitant ?_⟩
  exact (attemptPrefixed_iff CMD_ENABLE_SCAN _).1
    (h.attempts beforeCommand (asked_enter 0 CMD_ENABLE_SCAN .port1 beforeCommand))

/-- The condition at the hesitant controller. -/
theorem prefixed_iff_hesitant :
    ∃ t, (ps2SendDeviceCommand 1 CMD_ENABLE_SCAN .port1).run (machine streamBus) beforeCommand =
      (some (), t) ∧
    (Prefixed CMD_ENABLE_SCAN 1 beforeCommand t ↔
      ∀ u, ((.enter (.sendDeviceCommand CMD_ENABLE_SCAN .port1) : Op), u) ∈
        (ps2SendDeviceCommand 1 CMD_ENABLE_SCAN .port1).asked (machine streamBus) beforeCommand →
          StallsTwice u.bus) := by
  obtain ⟨t, ht⟩ := returns_hesitant
  exact ⟨t, ht, prefixed_iff ht⟩

end Ps2
end DrewOS

/-
# Which flags rest on real answers

`ps2_init` sets three flags from answers of the controller: the two ports pass
their tests when the answer is 0, and there is a second port when bit 5 of the
configuration is clear.  `ps2_read_data` gives 0 for an answer that did not
come, so a missing answer is a success for all three.

`Founded` says that each flag that is set rests on an exchange that took place:
the commands were written and the byte read after them is a success.  A wait
fails only when the port becomes ready at the last poll, so the flags are founded
all along a run exactly when each of the three exchanges is `Honest`: its answer
is not late, and if it is a success then the commands were not late either
(`founded_iff`).
-/

import DrewOS.Ps2.Decisions
import DrewOS.Ps2.Waits

namespace DrewOS

open ByteMem Effect

namespace Streams

open Ps2

/-- The streams after the waits of `n` commands. -/
def after : ℕ → Streams → Streams
  | 0, s => s
  | n + 1, s => after n (s.await inputEmpty)

/-- None of the waits of `n` commands in a row fails. -/
def Timely : ℕ → Streams → Prop
  | 0, _ => True
  | n + 1, s => ¬ s.Late inputEmpty ∧ Timely n (s.await inputEmpty)

/-- The answer to `n` commands in a row comes in time and, if it is a success,
the commands were taken in time. -/
def Honest (n : ℕ) (success : Byte → Bool) (s : Streams) : Prop :=
  ∃ v, (s.after n).received = some v ∧ (success v = true → s.Timely n)

end Streams

namespace Ps2

/-! ### Exchanges in the log -/

/-- The commands were written one after the other, and `v` was read next. -/
def Exchanged (commands : List Byte) (v : Byte) (log : List Event) : Prop :=
  commands.map (.outb PORT_COMMAND) ++ [.inb PORT_DATA v] <:+: traffic log

/-- What has been exchanged stays in a longer log. -/
theorem Exchanged.append {commands : List Byte} {v : Byte} {log : List Event}
    (h : Exchanged commands v log) (l : List Event) : Exchanged commands v (log ++ l) := by
  unfold Exchanged
  rw [traffic_append]
  exact h.trans (List.prefix_append ..).isInfix

/-- The traffic of commands and the read of their answer. -/
def exchange : List Byte → Streams → List Event
  | [], s => heard s
  | c :: cs, s => sent s PORT_COMMAND c ++ exchange cs (s.await inputEmpty)

/-- A read in time is at most one event. -/
theorem length_heard_le (s : Streams) : (heard s).length ≤ 1 := by
  unfold heard
  rw [List.length_map]
  cases s.received with
  | none => exact Nat.zero_le 1
  | some v => exact le_rfl

/-- A write in time is at most one event. -/
theorem length_sent_le (s : Streams) (port : Word) (data : Byte) :
    (sent s port data).length ≤ 1 := by
  unfold sent
  split_ifs
  · exact Nat.zero_le 1
  · exact le_rfl

/-- An exchange is at most its commands and one answer. -/
theorem length_exchange_le (cs : List Byte) (s : Streams) :
    (exchange cs s).length ≤ cs.length + 1 := by
  induction cs generalizing s with
  | nil => exact length_heard_le s
  | cons c cs ih =>
    have h := ih (s.await inputEmpty)
    have hs := length_sent_le s PORT_COMMAND c
    rw [exchange, List.length_append, List.length_cons]
    omega

/-- A byte is heard exactly if the wait before it ends in time. -/
theorem heard_eq_iff (s : Streams) (v : Byte) :
    heard s = [.inb PORT_DATA v] ↔ s.received = some v := by
  unfold heard
  cases s.received with
  | none => simp
  | some v' => simp

/-- An exchange is complete just when every command and the answer are in time. -/
theorem exchange_eq_iff (cs : List Byte) (s : Streams) (v : Byte) :
    exchange cs s = cs.map (.outb PORT_COMMAND) ++ [.inb PORT_DATA v] ↔
      s.Timely cs.length ∧ (s.after cs.length).received = some v := by
  induction cs generalizing s with
  | nil => simpa [exchange, Streams.Timely, Streams.after] using heard_eq_iff s v
  | cons c cs ih =>
    rw [exchange, List.length_cons, Streams.Timely, Streams.after]
    by_cases hl : s.Late inputEmpty
    · -- the command is missing, so the exchange is too short
      constructor
      · intro h
        have hlen := congrArg List.length h
        have hle := length_exchange_le cs (s.await inputEmpty)
        rw [sent, if_pos hl, List.nil_append, List.length_append, List.length_map] at hlen
        simp only [List.length_cons, List.length_nil] at hlen
        omega
      · exact fun h => absurd hl h.1.1
    · rw [sent, if_neg hl, List.map_cons, List.cons_append, List.cons_append, List.nil_append,
        List.cons_inj_right, ih]
      exact ⟨fun h => ⟨⟨hl, h.1⟩, h.2⟩, fun h => ⟨h.1.2, h.2⟩⟩

/-- What starts with an event that is not in the first part is in the second. -/
theorem infix_of_infix_append {α : Type} {x : α} {xs l l' : List α} (hx : x ∉ l)
    (h : x :: xs <:+: l ++ l') : x :: xs <:+: l' := by
  obtain ⟨a, b, hab⟩ := h
  rw [List.append_assoc, List.append_eq_append_iff] at hab
  rcases hab with ⟨a', rfl, hl'⟩ | ⟨c, rfl, hl'⟩
  · cases a' with
    | nil => exact ⟨[], b, by simpa using hl'⟩
    | cons y a' =>
      rw [List.cons_append, List.cons_append] at hl'
      obtain ⟨rfl, -⟩ := List.cons.inj hl'
      exact absurd (List.mem_append_right _ (List.mem_cons_self ..)) hx
  · exact ⟨c, b, by rw [hl', List.append_assoc]⟩

/-- A log that the exchange has been added to, whose first command is new. -/
theorem exchanged_iff {c v : Byte} {cs : List Byte} {log log' : List Event} {s : Streams}
    (hfresh : .outb PORT_COMMAND c ∉ log)
    (hlog : traffic log' = traffic log ++ exchange (c :: cs) s) :
    Exchanged (c :: cs) v log' ↔
      s.Timely (cs.length + 1) ∧ (s.after (cs.length + 1)).received = some v := by
  rw [← List.length_cons, ← exchange_eq_iff, Exchanged, hlog]
  constructor
  · intro h
    have hnew := infix_of_infix_append (fun hm => hfresh (List.mem_of_mem_filter hm)) h
    refine (hnew.eq_of_length (le_antisymm hnew.length_le ?_)).symm
    simpa using length_exchange_le (c :: cs) s
  · intro h
    rw [h]
    exact (List.suffix_append ..).isInfix

/-! ### Flags and their exchanges -/

/-- Each flag that is set rests on an exchange with a successful answer. -/
def Founded (w : World Streams) : Prop :=
  ∀ d : Decision, d.flag w.kernel.ps2 = true →
    ∃ v, d.success v = true ∧ Exchanged (d.command :: d.more) v w.log

/-- What was founded stays so while the flags are left alone. -/
theorem Founded.extends {E : Event → Prop} {s t : World Streams} (h : Founded s)
    (hst : Extends E SameFlags s t) : Founded t := by
  intro d hd
  obtain ⟨v, hv, hx⟩ := h d ((hst.kernel d).symm.trans hd)
  obtain ⟨l, hl, -⟩ := hst.log
  rw [hl]
  exact ⟨v, hv, hx.append l⟩

/-- The first time that the first command of a decision is called, the streams
hold an honest answer. -/
def Careful : Op → World Streams → Prop
  | .enter (.sendCommand c), u => ∀ d : Decision, d.command = c →
      .enter (.sendCommand c) ∉ u.log → u.bus.Honest (d.more.length + 1) d.success
  | _, _ => True

/-- No call with the first command of a decision. -/
def Undecided : Event → Prop
  | .enter (.sendCommand c) => ∀ d : Decision, d.command ≠ c
  | _ => True

/-- Code that avoids the commands of the decisions makes none. -/
theorem undecided_of_avoids {e : Event} (h : Avoids decisionCommands e) : Undecided e := by
  cases e with
  | enter f =>
    cases f with
    | sendCommand c => exact fun d hd => h (hd ▸ command_mem d)
    | _ => trivial
  | _ => trivial

/-- Where only decisions are started that were called before, nothing is to be
checked. -/
theorem careful_of_called {E : Event → Prop} {F : Kernel → Kernel → Prop} {s u : World Streams}
    (hE : ∀ d : Decision, E (.enter (.sendCommand d.command)) →
      .enter (.sendCommand d.command) ∈ s.log)
    {o : Op} (ho : o.Within E F) (hu : Extends E F s u) : Careful o u := by
  cases o with
  | enter f =>
    cases f with
    | sendCommand c =>
      rintro d rfl hnew
      obtain ⟨l, hl, -⟩ := hu.log
      rw [hl] at hnew
      exact absurd (List.mem_append_left _ (hE d ho)) hnew
    | _ => trivial
  | _ => trivial

/-- Code that starts no new decision and leaves the flags alone. -/
theorem exact_quiet {α : Type} {E : Event → Prop} {s : World Streams}
    (hE : ∀ d : Decision, E (.enter (.sendCommand d.command)) →
      .enter (.sendCommand d.command) ∈ s.log)
    {p : Kern α} (hp : Stays E SameFlags p) (hs : Founded s) :
    Prog.Exact (machine streamBus) Careful Founded
      (fun _ t => Founded t ∧ Extends E SameFlags s t) p s := by
  refine Prog.Exact.post (fun _ t ht => ⟨hs.extends ht, ht⟩) ?_
  exact exact_stays sameFlags_refl sameFlags_trans hp
    (fun o t ho ht => careful_of_called hE ho ht) fun t ht => hs.extends ht

/-- What holds once a decision has been made: the flags are founded, the first
command has been called, and only events in `E` were added to the log. -/
structure Made (E : Event → Prop) (d : Decision) (s t : World Streams) : Prop where
  founded : Founded t
  called : .enter (.sendCommand d.command) ∈ t.log
  log : ∃ l, t.log = s.log ++ l ∧ ∀ e ∈ l, E e

/-- A decision stays made while its commands are avoided. -/
theorem Made.extends {E E' : Event → Prop} (hE : ∀ e, E' e → E e) {d : Decision}
    {s t u : World Streams} (h : Made E d s t) (htu : Extends E' SameFlags t u) : Made E d s u := by
  obtain ⟨l, hl, hlE⟩ := h.log
  obtain ⟨l', hl', hlE'⟩ := htu.log
  refine ⟨h.founded.extends htu, ?_, l ++ l', by rw [hl', hl, List.append_assoc], fun e he => ?_⟩
  · rw [hl']
    exact List.mem_append_left _ h.called
  · exact (List.mem_append.1 he).elim (hlE e) fun he => hE e (hlE' e he)

/-- The flag is founded just when the answer was honest. -/
theorem founded_set_iff {d : Decision} {s t : World Streams} {v : Byte} (ht : Founded t)
    (hv : v = (s.bus.after (d.more.length + 1)).received.getD 0)
    (hfresh : .outb PORT_COMMAND d.command ∉ s.log)
    (hlog : traffic t.log = traffic s.log ++ exchange (d.command :: d.more) s.bus) :
    Founded { t with kernel := { t.kernel with ps2 := d.set (d.success v) t.kernel.ps2 } } ↔
      s.bus.Honest (d.more.length + 1) d.success := by
  constructor
  · intro h
    have hd := h d
    simp only [Decision.flag_set, exchanged_iff hfresh hlog] at hd
    cases hr : (s.bus.after (d.more.length + 1)).received with
    | none =>
      rw [hv, hr] at hd
      obtain ⟨v', -, -, hv'⟩ := hd d.success_zero
      cases hv'
    | some a =>
      rw [hv, hr] at hd
      refine ⟨a, hr, fun ha => ?_⟩
      obtain ⟨-, -, htimely, -⟩ := hd ha
      exact htimely
  · rintro ⟨a, hr, htimely⟩ d' hd'
    rw [hr] at hv
    by_cases hdd : d' = d
    · subst hdd
      have hsuccess : d'.success a = true := by
        rw [← hd', hv]
        exact (d'.flag_set _ _).symm
      exact ⟨a, hsuccess, (exchanged_iff hfresh hlog).2 ⟨htimely hsuccess, hr⟩⟩
    · exact ht d' ((Decision.flag_set_of_ne hdd _ _).symm.trans hd')

/-- What a command does once its call is marked, and the rest `g` of its exchange,
call no command that decides. -/
theorem stays_afterCall {α : Type} (c : Byte) {g : Kern α}
    (hg : Stays (Avoids decisionCommands) SameFlags g) :
    Stays Undecided SameFlags (((ps2BufferWait >>= fun ok =>
      if ok then writeByte PORT_COMMAND c
      else println "Error: ps/2 controller failed to enter ready state" []) >>= fun _ =>
        leave (.sendCommand c) none) >>= fun _ => g) := by
  have hpolls : Polls Undecided := ⟨fun _ => trivial, fun _ => trivial, fun _ _ => trivial⟩
  have hbody : Stays Undecided SameFlags (ps2BufferWait >>= fun ok =>
      if ok then writeByte PORT_COMMAND c
      else println "Error: ps/2 controller failed to enter ready state" []) :=
    (stays_ps2BufferWait hpolls).bind fun _ =>
      stays_ite _ (stays_writeByte trivial) (stays_println hpolls _ _)
  have hleave : Stays Undecided SameFlags (leave (.sendCommand c) none) :=
    ⟨trivial, fun _ => trivial⟩
  exact (hbody.bind fun _ => hleave).bind fun _ =>
    hg.mono (fun _ => undecided_of_avoids) fun _ _ => id

/-- The call of its command is the one operation of an exchange that decides. -/
theorem asked_exchange {α : Type} {c : Byte} {g : Kern α}
    (hg : Stays (Avoids decisionCommands) SameFlags g) {s : World Streams} :
    ∀ x ∈ (ps2SendCommand c >>= fun _ => g).asked (machine streamBus) s,
      x = (.enter (.sendCommand c), s) ∨ Careful x.1 x.2 := by
  intro x hx
  rcases List.mem_cons.1 hx with hx | hx
  · exact .inl hx
  · obtain ⟨ho, hu⟩ :=
      asked_stays sameFlags_refl sameFlags_trans streamBus (stays_afterCall c hg) _ x hx
    exact .inr (careful_of_called (fun d hd => absurd rfl (hd d)) ho hu)

/-- An exchange leaves the call of its command in the log. -/
theorem called_exchange {α : Type} {c : Byte} {g : Kern α}
    (hg : Stays (Avoids decisionCommands) SameFlags g) {s t : World Streams} {a : α}
    (hrun : (ps2SendCommand c >>= fun _ => g).run (machine streamBus) s = (some a, t)) :
    .enter (.sendCommand c) ∈ t.log := by
  have h := (sat_stays sameFlags_refl sameFlags_trans streamBus (stays_afterCall c hg)
    (s.say (.enter (.sendCommand c)))).run hrun
  obtain ⟨l, hl, -⟩ := h.log
  rw [hl]
  simp

/-- The first call of a deciding command is allowed where the answer is honest. -/
theorem careful_enter_iff (d : Decision) {s : World Streams}
    (hcall : .enter (.sendCommand d.command) ∉ s.log) :
    Careful (.enter (.sendCommand d.command)) s ↔
      s.bus.Honest (d.more.length + 1) d.success := by
  constructor
  · intro h
    exact h d rfl hcall
  · intro h d' hd' _
    rw [command_injective hd']
    exact h

/-- **One decision.**  The first command, the rest `g` of the exchange, and the
flag set by the answer keep the flags founded just when the answer is honest;
what follows may then be judged from there. -/
theorem exact_decision {α : Type} (d : Decision) {cs : List Byte} {g : Kern Byte}
    {K : Byte → Kern α} {Q : α → World Streams → Prop} {s t : World Streams}
    (hcs : cs ⊆ decisionCommands) (hd : d.command ∉ cs)
    (hg : Stays (Avoids decisionCommands) SameFlags g)
    (hrun : (ps2SendCommand d.command >>= fun _ => g).run (machine streamBus) s =
      (some ((s.bus.after (d.more.length + 1)).received.getD 0), t))
    (ht : traffic t.log = traffic s.log ++ exchange (d.command :: d.more) s.bus)
    (hs : Founded s) (hfresh : ∀ e ∈ s.log, Avoids [d.command] e)
    (hK : ∀ v u, Made (Avoids cs) d s u →
      Prog.Exact (machine streamBus) Careful Founded Q (K v) u) :
    Prog.Exact (machine streamBus) Careful Founded Q
      (ps2SendCommand d.command >>= fun _ => g >>= fun v =>
        modifyPs2 (fun p => d.set (d.success v) p) >>= fun _ => K v) s := by
  have hnew : .outb PORT_COMMAND d.command ∉ s.log := fun hm =>
    hfresh _ hm rfl (List.mem_singleton.2 rfl)
  have hcall : .enter (.sendCommand d.command) ∉ s.log := fun hm =>
    hfresh _ hm (List.mem_singleton.2 rfl)
  have hstays : Stays (Avoids cs) SameFlags (ps2SendCommand d.command >>= fun _ => g) :=
    (stays_ps2SendCommand (talks_avoids cs).toPolls (sends_avoids hd)).bind fun _ =>
      hg.mono (fun _ => .mono hcs) fun _ _ => id
  have hsat := sat_stays sameFlags_refl sameFlags_trans streamBus hstays s
  -- the state in which the flag is set
  have hst := hsat.run hrun
  have hset := founded_set_iff (hs.extends hst) rfl hnew ht
  have hmem := called_exchange hg hrun
  have hcareful := careful_enter_iff d hcall
  rw [← Prog.bind_bind]
  by_cases hhonest : s.bus.Honest (d.more.length + 1) d.success
  · refine Prog.Exact.bind (.inl ⟨fun x hx => ?_, ?_⟩)
    · rcases asked_exchange hg x hx with rfl | hx
      · exact hcareful.2 hhonest
      · exact hx
    · refine (Prog.sat_iff _ _).2 ⟨fun u hu => hs.extends (hsat.states u hu), fun v u hu => ?_⟩
      rw [hrun, Prod.mk.injEq, Option.some.injEq] at hu
      obtain ⟨rfl, rfl⟩ := hu
      refine Prog.Exact.bind (.inl ⟨fun x hx => ?_, hset.2 hhonest, ?_⟩)
      · obtain rfl := List.mem_singleton.1 hx
        trivial
      · exact hK _ _ ⟨hset.2 hhonest, hmem, hst.log⟩
  · refine .inr ⟨⟨(.enter (.sendCommand d.command), s), ?_, fun h => hhonest (hcareful.1 h)⟩,
      _, ?_, fun h => hhonest (hset.1 h)⟩
    · exact List.mem_cons_self ..
    · rw [Prog.states_bind, hrun]
      exact List.mem_append_right _ (List.mem_cons_self ..)

/-! ### The run of the initialisation -/

/-- The exchange of a port test. -/
theorem run_testExchange (c : Byte) (w : World Streams) :
    ∃ t, (ps2SendCommand c >>= fun _ => ps2ReadData).run (machine streamBus) w =
        (some ((w.bus.after 1).received.getD 0), t) ∧
      traffic t.log = traffic w.log ++ exchange [c] w.bus := by
  obtain ⟨u, hrun, hu⟩ := run_ps2SendCommand c w
  obtain ⟨t, hrun', ht⟩ := run_ps2ReadData u
  have htraffic := (hu.trans ht).traffic
  rw [hu.bus] at hrun' htraffic
  exact ⟨t, (Prog.run_bind_of_some _ hrun).trans hrun', htraffic⟩

/-- The exchange that reads the configuration, after a first command. -/
theorem run_configExchange (c : Byte) (w : World Streams) :
    ∃ t, (ps2SendCommand c >>= fun _ => ps2GetConfig).run (machine streamBus) w =
        (some ((w.bus.after 2).received.getD 0), t) ∧
      traffic t.log = traffic w.log ++ exchange [c, CMD_READ_RAM] w.bus := by
  obtain ⟨u, hrun, hu⟩ := run_ps2SendCommand c w
  obtain ⟨t, hrun', htraffic⟩ := run_testExchange CMD_READ_RAM (u.say (.enter .getConfig))
  have henter := exchange_say u (e := .enter .getConfig) rfl
  have hleave := exchange_say t
    (e := .leave .getConfig (some ((u.bus.after 1).received.getD 0))) rfl
  rw [World.say_bus] at hrun' htraffic
  refine ⟨t.say (.leave .getConfig (some ((u.bus.after 1).received.getD 0))), ?_, ?_⟩
  · rw [Prog.run_bind_of_some _ hrun, ps2GetConfig, function,
      Prog.run_bind_of_some _ (run_enter ..), Prog.run_bind_of_some _ hrun', hu.bus]
    rfl
  · rw [hleave.traffic, htraffic, henter.traffic, hu.traffic, hu.bus, List.append_nil,
      List.append_nil, List.append_assoc]
    rfl

/-- The number of channels is decided by the answer to its command. -/
theorem exact_ps2DetectChannels {s : World Streams} (hs : Founded s)
    (hfresh : ∀ e ∈ s.log, Avoids decisionCommands e) :
    Prog.Exact (machine streamBus) Careful Founded
      (fun _ u => Made (Avoids [CMD_TEST_PORT_0, CMD_TEST_PORT_1]) .dual s u)
      ps2DetectChannels s := by
  obtain ⟨t, hrun, ht⟩ := run_configExchange CMD_ENABLE_PORT_1 s
  have hcs : [CMD_TEST_PORT_0, CMD_TEST_PORT_1] ⊆ decisionCommands := by decide
  have hget : Stays (Avoids decisionCommands) SameFlags ps2GetConfig :=
    (talks_avoids _).stays_getConfig (sends_avoids (by decide))
  refine exact_decision .dual hcs (by decide) hget hrun ht hs
    (fun e he => (hfresh e he).mono (by decide)) fun config u hu => ?_
  -- a second port is disabled, and the configuration written back
  have hrest : Stays (Avoids decisionCommands) SameFlags (getKernel >>= fun k =>
      onlyIf (k.ps2.dualChannel = true) (ps2SendCommand CMD_DISABLE_PORT_1 >>= fun _ =>
        ps2SetConfig (putBit (putBit config PORT_1_INTERRUPT false) CLOCK_1 false))) :=
    stays_getKernel.bind fun k => stays_onlyIf _ fun _ =>
      (stays_ps2SendCommand (talks_avoids _).toPolls (sends_avoids (by decide))).bind fun _ =>
      (talks_avoids _).stays_setConfig (sends_avoids (by decide)) _
  refine (exact_quiet (fun d hd => absurd (command_mem d) hd) hrest hu.founded).post ?_
  exact fun _ v hv => hu.extends (fun _ => .mono hcs) hv.2

/-- The test of the port of `d`. -/
theorem exact_testPort (d : Decision) (hd : d ≠ .dual) (text : String) {s : World Streams}
    (hs : Founded s) (hfresh : ∀ e ∈ s.log, Avoids [d.command] e) {cs : List Byte}
    (hcs : cs ⊆ decisionCommands) (hdcs : d.command ∉ cs) :
    Prog.Exact (machine streamBus) Careful Founded (fun _ u => Made (Avoids cs) d s u)
      (testPort d.command (fun b p => d.set b p) text) s := by
  obtain ⟨t, hrun, ht⟩ := run_testExchange d.command s
  have hread : Stays (Avoids decisionCommands) SameFlags ps2ReadData :=
    stays_ps2ReadData (talks_avoids _).toPolls (talks_avoids _).readData
  have hmore : d.more = [] := by
    cases d with
    | dual => exact absurd rfl hd
    | _ => rfl
  have hsuccess : d.success = fun resp => resp == 0 := by
    cases d with
    | dual => exact absurd rfl hd
    | _ => rfl
  -- after the decision only the report is left
  have hreport : ∀ resp, Stays (Avoids decisionCommands) SameFlags (onlyIf (resp ≠ 0) do
      print text []
      printPortErrorMsg resp) := fun resp =>
    stays_onlyIf _ fun _ => (stays_printMessage trivial).bind fun _ =>
      stays_println (talks_avoids _).toPolls _ _
  have hmade := exact_decision (Q := fun _ u => Made (Avoids cs) d s u) d hcs hdcs hread
    (by rw [hmore]; exact hrun) (by rw [hmore]; exact ht) hs hfresh fun resp u hu =>
      (exact_quiet (fun d hd => absurd (command_mem d) hd) (hreport resp) hu.founded).post
        fun _ v hv => hu.extends (fun _ => .mono hcs) hv.2
  rw [hsuccess] at hmade
  exact hmade

/-- The commands that a decision avoids have still not been sent. -/
theorem Made.avoids {cs cs' : List Byte} {d : Decision} {s t : World Streams}
    (h : Made (Avoids cs) d s t) (hcs : cs' ⊆ cs) (hs : ∀ e ∈ s.log, Avoids cs' e) :
    ∀ e ∈ t.log, Avoids cs' e := by
  obtain ⟨l, hl, hE⟩ := h.log
  rw [hl]
  exact fun e he => (List.mem_append.1 he).elim (hs e) fun he => (hE e he).mono hcs

/-- No call with the command of a port test. -/
def Untested : Event → Prop
  | .enter (.sendCommand c) => c ≠ CMD_TEST_PORT_0 ∧ c ≠ CMD_TEST_PORT_1
  | _ => True

theorem talks_untested : Talks Untested where
  status _ := trivial
  data _ := trivial
  print _ _ := trivial
  write _ := trivial
  readData := ⟨trivial, fun _ => trivial⟩
  getConfig := ⟨trivial, fun _ => trivial⟩
  setConfig _ := ⟨trivial, fun _ => trivial⟩

theorem sends_untested {c : Byte} (h : c ≠ CMD_TEST_PORT_0 ∧ c ≠ CMD_TEST_PORT_1) :
    Sends Untested c :=
  ⟨⟨h, fun _ => trivial⟩, trivial⟩

theorem types_untested : Types Untested SameFlags where
  toPolls := talks_untested.toPolls
  drives _ := ⟨fun _ => sends_untested (by decide), fun _ => trivial, fun _ =>
    ⟨trivial, fun _ => trivial⟩⟩
  readData := ⟨trivial, fun _ => trivial⟩
  setScanCodes := ⟨trivial, fun _ => trivial⟩
  clearMask := stays_irqClearMask trivial trivial (fun _ => trivial) fun _ => trivial
  int := trivial
  kbd _ _ := sameFlags_refl _
  idt _ _ _ _ := sameFlags_refl _

/-- Through both port tests the flags stay founded exactly if the answers are honest. -/
theorem exact_ps2TestPorts {s : World Streams} (hs : Founded s)
    (hfresh : ∀ e ∈ s.log, Avoids [CMD_TEST_PORT_0, CMD_TEST_PORT_1] e)
    (hcalled : .enter (.sendCommand CMD_ENABLE_PORT_1) ∈ s.log) :
    Prog.Exact (machine streamBus) Careful Founded
      (fun _ t => Founded t ∧ .enter (.sendCommand CMD_ENABLE_PORT_1) ∈ t.log) ps2TestPorts s := by
  have h0 := exact_testPort .port0 (by decide) "PS/2 port 0 is faulty: " hs
    (fun e he => (hfresh e he).mono (by decide))
    (show [CMD_TEST_PORT_1] ⊆ decisionCommands by decide) (by decide)
  refine Prog.Exact.bind (h0.post fun _ t ht => ?_)
  have hnew : ∀ e ∈ t.log, Avoids [CMD_TEST_PORT_1] e :=
    ht.avoids (List.Subset.refl _) fun e he => (hfresh e he).mono (by decide)
  have hmem : ∀ {E : Event → Prop} {d : Decision} {u : World Streams}, Made E d s u →
      .enter (.sendCommand CMD_ENABLE_PORT_1) ∈ u.log := by
    intro E d u hu
    obtain ⟨l, hl, -⟩ := hu.log
    rw [hl]
    exact List.mem_append_left _ hcalled
  refine exact_getKernel trivial ht.founded ?_
  by_cases hdual : t.kernel.ps2.dualChannel = true
  · have h1 := exact_testPort .port1 (by decide) "PS/2 port 1 is faulty: " ht.founded hnew
      (List.nil_subset _) List.not_mem_nil
    rw [onlyIf, if_pos hdual]
    refine h1.post fun _ u hu => ⟨hu.founded, ?_⟩
    obtain ⟨l, hl, -⟩ := hu.log
    rw [hl]
    exact List.mem_append_left _ (hmem ht)
  · rw [onlyIf, if_neg hdual]
    exact Prog.exact_ret ⟨ht.founded, hmem ht⟩

/-- Nothing is decided once the ports have been tested. -/
theorem exact_afterTests (L : Layout) (n : ℕ) {s : World Streams} (hs : Founded s)
    (hcalled : .enter (.sendCommand CMD_ENABLE_PORT_1) ∈ s.log) :
    Prog.Exact (machine streamBus) Careful Founded (fun _ _ => True)
      (do
        let k ← getKernel
        if !k.ps2.port0Operational && (!k.ps2.dualChannel || !k.ps2.port1Operational) then
          println "No PS/2 ports are operational. PS/2 driver will be disabled." []
        else
          ps2EnablePorts
          ps2EnableInterrupts
          ps2StartPort L n .port0
          ps2StartPort L n .port1) s := by
  have hE : ∀ d : Decision, Untested (.enter (.sendCommand d.command)) →
      .enter (.sendCommand d.command) ∈ s.log := by
    intro d hd
    cases d with
    | port0 => exact absurd rfl hd.1
    | port1 => exact absurd rfl hd.2
    | dual => exact hcalled
  have hports : Stays Untested SameFlags ps2EnablePorts :=
    stays_ps2EnablePorts talks_untested.toPolls fun c hc => sends_untested (by
      revert c
      decide)
  have hinterrupts : Stays Untested SameFlags ps2EnableInterrupts :=
    stays_ps2EnableInterrupts talks_untested fun c hc => sends_untested (by
      revert c
      decide)
  have hstart : ∀ port, Stays Untested SameFlags (ps2StartPort L n port) := fun port =>
    stays_ps2StartPort types_untested (assignsIds_sameFlags port)
      ⟨⟨trivial, fun _ => trivial⟩, ⟨trivial, fun _ => trivial⟩, fun _ _ => trivial⟩ L n
  refine (exact_quiet hE (stays_getKernel.bind fun k => stays_ite _ ?_ ?_) hs).post
    fun _ _ _ => trivial
  · exact stays_println talks_untested.toPolls _ _
  · exact hports.bind fun _ => hinterrupts.bind fun _ => (hstart .port0).bind fun _ =>
      hstart .port1

/-- The flags stay founded through a run of `ps2_init` exactly if the answers are honest. -/
theorem exact_ps2Init (L : Layout) (n : ℕ) (s : Streams) (t : Idt) (mem : Mem) :
    Prog.Exact (machine streamBus) Careful Founded (fun _ _ => True) (ps2Init L n)
      (.boot s t mem) := by
  have hboot : Founded (.boot s t mem) := by
    intro d hd
    cases d <;> cases hd
  rw [ps2Init, ← Prog.bind_bind]
  have hbegin := exact_quiet (fun d hd => absurd (command_mem d) hd) stays_begin_avoids hboot
  refine Prog.Exact.bind (hbegin.post fun passed u hu => ?_)
  obtain ⟨hu, ⟨l, hl, hlE⟩, -⟩ := hu
  have hfresh : ∀ e ∈ u.log, Avoids decisionCommands e := by
    rw [hl]
    exact hlE
  cases passed with
  | false => exact Prog.exact_ret trivial
  | true =>
    refine Prog.Exact.bind ((exact_ps2DetectChannels hu hfresh).post fun _ v hv => ?_)
    have hnew : ∀ e ∈ v.log, Avoids [CMD_TEST_PORT_0, CMD_TEST_PORT_1] e :=
      hv.avoids (List.Subset.refl _) fun e he => (hfresh e he).mono (by decide)
    exact Prog.Exact.bind ((exact_ps2TestPorts hv.founded hnew hv.called).post
      fun _ w hw => exact_afterTests L n hw.1 hw.2)

/-- **When the flags rest on real answers.**  Against any streams of answers, the
flags are founded in every state of the initialisation if and only if the answer
is honest where the first command of each decision is called for the first time. -/
theorem founded_iff (L : Layout) (s : Streams) (t : Idt) (mem : Mem) :
    (∀ n, ∀ u ∈ (ps2Init L n).states (machine streamBus) (.boot s t mem), Founded u) ↔
      ∀ n c u, ((.enter (.sendCommand c) : Op), u) ∈
          (ps2Init L n).asked (machine streamBus) (.boot s t mem) →
        ∀ d : Decision, d.command = c → .enter (.sendCommand c) ∉ u.log →
          u.bus.Honest (d.more.length + 1) d.success := by
  constructor
  · intro h n c u hu
    exact (exact_ps2Init L n s t mem).iff.1 (h n) _ hu
  · intro h n
    refine (exact_ps2Init L n s t mem).iff.2 fun x hx => ?_
    obtain ⟨o, u⟩ := x
    cases o with
    | enter f =>
      cases f with
      | sendCommand c => exact h n c u hx
      | _ => trivial
    | _ => trivial

/-- A controller whose answer to the test of port 0 becomes ready at the last poll. -/
def lateAnswer : Streams where
  status := .replicate 14 0x01 ++ₛ (.replicate DEFAULT_WAIT 0x00 ++ₛ .const 0x01)
  data := [0x00, 0x00, 0x55, 0x01, 0x20] ++ₛ .const 0x00
  other := .const 0
  words := .const 0

set_option maxRecDepth 4000 in
/-- The flag of port 0 is set although that answer is never read. -/
theorem not_founded_lateAnswer :
    ¬ ∀ n, ∀ u ∈ (ps2Init Layout.sample n).states (machine streamBus)
      (.boot lateAnswer emptyIdt fun _ => 0), Founded u := by
  intro h
  have hcareful := (exact_ps2Init Layout.sample 0 lateAnswer emptyIdt fun _ => 0).iff.1 (h 0)
  -- where the test of port 0 is called, and what is left of the streams there
  obtain ⟨u, hu, hbus, hlog⟩ : ∃ u, ((.enter (.sendCommand CMD_TEST_PORT_0) : Op), u) ∈
        (ps2Init Layout.sample 0).asked (machine streamBus) (.boot lateAnswer emptyIdt fun _ => 0) ∧
      u.bus = { lateAnswer with
        status := .cons 0x01 (List.replicate DEFAULT_WAIT 0x00 ++ₛ .const 0x01)
        data := .const 0x00 } ∧
      .enter (.sendCommand CMD_TEST_PORT_0) ∉ u.log :=
    ⟨_, List.mem_of_getElem? (i := 61) rfl, rfl, by decide⟩
  obtain ⟨v, hv, -⟩ := hcareful _ hu .port0 rfl hlog
  have hlate : Late outputFull DEFAULT_WAIT
      (List.replicate DEFAULT_WAIT 0x00 ++ₛ Stream'.const 0x01) :=
    late_replicate rfl rfl DEFAULT_WAIT
  have hnone : (u.bus.after 1).received = none := by
    rw [hbus]
    exact if_pos hlate
  cases hnone.symm.trans hv

end Ps2
end DrewOS

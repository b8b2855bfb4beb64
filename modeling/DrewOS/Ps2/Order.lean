/-
# A port is driven after it has passed its tests

What `ps2_init` does to a port depends on what the controller has answered
before.  `answerTo f c log` is the first result of `f` after the first command
`c`, and `Ordered` says, of the log of a run so far, that the device on port 1 is
addressed and port 0 enabled only after the answers that allow it, that nothing
but the configuration is written to the data port when the self-test or both
port tests have failed, and that a port is reset at most once and only when it
works.

Up to the tests the run is `Quiet`: none of these things happens.  The tests
leave the flags `Known`: each flag that is set has its answer in the log.  After
the tests the flags stay, and everything that is done to a port is guarded by
its flag (`Advances`).
-/

import DrewOS.Ps2.Decisions

namespace DrewOS

open ByteMem Effect

namespace Ps2

/-! ### Answers in the log -/

/-- The first byte that `f` returns in the log. -/
def firstResult (f : Fn) : List Event → Option Byte
  | [] => none
  | .leave g (some r) :: log => if g = f then some r else firstResult f log
  | _ :: log => firstResult f log

/-- The first byte that `f` returns after the first command `c`. -/
def answerTo (f : Fn) (c : Byte) : List Event → Option Byte
  | [] => none
  | e :: log => if e = .enter (.sendCommand c) then firstResult f log else answerTo f c log

/-- Not a return of `f`. -/
def Unreturned (f : Fn) : Event → Prop
  | .leave g _ => g ≠ f
  | _ => True

/-- The first result of a function stays the first. -/
theorem firstResult_append {f : Fn} {l : List Event} {r : Byte} (h : firstResult f l = some r)
    (l' : List Event) : firstResult f (l ++ l') = some r := by
  induction l with
  | nil => cases h
  | cons e l ih =>
    cases e with
    | leave g r' =>
      cases r' with
      | none => exact ih h
      | some v =>
        simp only [firstResult, List.cons_append] at h ⊢
        split_ifs at h ⊢ with hg
        · exact h
        · exact ih h
    | _ => exact ih h

/-- Where a function has not returned, its first result is still to come. -/
theorem firstResult_of_unreturned {f : Fn} {l : List Event} (h : ∀ e ∈ l, Unreturned f e)
    (l' : List Event) : firstResult f (l ++ l') = firstResult f l' := by
  induction l with
  | nil => rfl
  | cons e l ih =>
    have hl := ih fun e' he' => h e' (List.mem_cons_of_mem _ he')
    cases e with
    | leave g r =>
      have hg : g ≠ f := h _ (List.mem_cons_self ..)
      cases r with
      | none => exact hl
      | some v =>
        rw [List.cons_append, firstResult, if_neg hg]
        exact hl
    | _ => exact hl

/-- **An answer stays.** -/
theorem answerTo_append {f : Fn} {c r : Byte} {l : List Event} (h : answerTo f c l = some r)
    (l' : List Event) : answerTo f c (l ++ l') = some r := by
  induction l with
  | nil => cases h
  | cons e l ih =>
    simp only [answerTo, List.cons_append] at h ⊢
    split_ifs at h ⊢
    · exact firstResult_append h l'
    · exact ih h

/-- The answer to a command that is new. -/
theorem answerTo_of_fresh {f : Fn} {c : Byte} {l : List Event}
    (h : .enter (.sendCommand c) ∉ l) (l' : List Event) :
    answerTo f c (l ++ l') = answerTo f c l' := by
  induction l with
  | nil => rfl
  | cons e l ih =>
    rw [List.mem_cons, not_or] at h
    rw [List.cons_append, answerTo, if_neg (Ne.symm h.1)]
    exact ih h.2

/-- Within a call of `f`: it was entered, and has not returned since. -/
def InCall (f : Fn) (log : List Event) : Prop :=
  ∃ l l', log = l ++ .enter f :: l' ∧ ∀ r, .leave f r ∉ l'

/-! ### What is to be shown -/

/-- The order of tests and use, in a state of the run. -/
structure Ordered {ε : Type} (t : World ε) : Prop where
  /-- The device on port 1 is addressed after the self-test, the detection of the
  second port and the test of that port. -/
  port1 : .outb PORT_COMMAND CMD_WRITE_INPUT_PORT_1 ∈ t.log →
    answerTo .readData CMD_TEST t.log = some 0x55 ∧
    (∃ config, answerTo .getConfig CMD_ENABLE_PORT_1 t.log = some config ∧
      config.getLsbD CLOCK_1 = false) ∧
    answerTo .readData CMD_TEST_PORT_1 t.log = some 0
  /-- Port 0 is enabled after its test. -/
  port0 : .outb PORT_COMMAND CMD_ENABLE_PORT_0 ∈ t.log →
    answerTo .readData CMD_TEST_PORT_0 t.log = some 0
  /-- After a failed self-test, and while no port is found to work, only the
  configuration is written to the data port, and no device is driven. -/
  idle : answerTo .readData CMD_TEST t.log ≠ some 0x55 ∨
      (t.kernel.ps2.port0Operational = false ∧ t.kernel.ps2.port1Operational = false) →
    (∀ l d l', t.log = l ++ .outb PORT_DATA d :: l' → ∃ config, InCall (.setConfig config) l) ∧
    (∀ cmd port, .enter (.sendDeviceCommand cmd port) ∉ t.log) ∧
    ∀ port, .enter (.kbdInit port) ∉ t.log
  /-- A port is reset at most once, and only when it works. -/
  reset : ∀ port, t.log.count (.enter (.resetPort port)) ≤ 1 ∧
    (.enter (.resetPort port) ∈ t.log → Ps2Statics.operational t.kernel.ps2 port = true)

/-! ### Before the tests are done -/

/-- Nothing is done to a device or a port. -/
def Calm : Event → Prop
  | .outb port d => port = PORT_COMMAND → d ≠ CMD_WRITE_INPUT_PORT_1 ∧ d ≠ CMD_ENABLE_PORT_0
  | .enter (.sendDeviceCommand _ _) => False
  | .enter (.kbdInit _) => False
  | .enter (.resetPort _) => False
  | _ => True

/-- Nothing is done to a device or a port, and only the configuration is written
to the data port. -/
structure Quiet (l : List Event) : Prop where
  calm : ∀ e ∈ l, Calm e
  config : ∀ l₁ d l₂, l = l₁ ++ .outb PORT_DATA d :: l₂ → ∃ config, InCall (.setConfig config) l₁

/-- Being in a call depends on the end of the log only. -/
theorem InCall.append {f : Fn} {l : List Event} (h : InCall f l) (l₀ : List Event) :
    InCall f (l₀ ++ l) := by
  obtain ⟨l₁, l₂, rfl, hl⟩ := h
  exact ⟨l₀ ++ l₁, l₂, (List.append_assoc ..).symm, hl⟩

/-- Two quiet stretches make a quiet one. -/
theorem Quiet.append {l l' : List Event} (h : Quiet l) (h' : Quiet l') : Quiet (l ++ l') := by
  refine ⟨fun e he => (List.mem_append.1 he).elim (h.calm e) (h'.calm e), fun l₁ d l₂ he => ?_⟩
  rcases List.append_eq_append_iff.1 he with ⟨a, rfl, hl'⟩ | ⟨a, rfl, hl'⟩
  · obtain ⟨config, hc⟩ := h'.config a d l₂ hl'
    exact ⟨config, hc.append l⟩
  · cases a with
    | nil =>
      obtain ⟨config, hc⟩ := h'.config [] d l₂ hl'.symm
      exact ⟨config, by simpa using hc.append l₁⟩
    | cons e a =>
      obtain ⟨rfl, -⟩ := List.cons.inj hl'
      exact h.config l₁ d a rfl

/-- Calm events that do not write to the data port. -/
def Still (e : Event) : Prop := Calm e ∧ ∀ d, e ≠ .outb PORT_DATA d

/-- Code that sends neither the prefix nor the enabling of port 0 is quiet. -/
theorem quiet_of_still {l : List Event} (h : ∀ e ∈ l, Still e) : Quiet l := by
  refine ⟨fun e he => (h e he).1, fun l₁ d l₂ hl => ?_⟩
  have hm : .outb PORT_DATA d ∈ l := by
    rw [hl]
    exact List.mem_append_right _ (List.mem_cons_self ..)
  exact absurd rfl ((h _ hm).2 d)

/-- A call that writes the configuration. -/
theorem quiet_setConfig {config : Byte} {l : List Event} (hcalm : ∀ e ∈ l, Calm e)
    (hl : ∀ e ∈ l, Unreturned (.setConfig config) e) :
    Quiet (.enter (.setConfig config) :: l) := by
  refine ⟨fun e he => ?_, fun l₁ d l₂ he => ⟨config, ?_⟩⟩
  · rcases List.mem_cons.1 he with rfl | he
    · trivial
    · exact hcalm e he
  · cases l₁ with
    | nil => cases he
    | cons e l₁ =>
      obtain ⟨rfl, rfl⟩ := List.cons.inj he
      exact ⟨[], l₁, rfl, fun r hr => hl _ (List.mem_append_left _ hr) rfl⟩

variable {ε : Type}

/-- The run from `s` to `t` was quiet. -/
def Prepares (s t : World ε) : Prop := ∃ l, t.log = s.log ++ l ∧ Quiet l

/-- One stretch of preparation after the other. -/
theorem prepares_trans (s t u : World ε) (h : Prepares s t) (h' : Prepares t u) :
    Prepares s u := by
  obtain ⟨l, hl, hq⟩ := h
  obtain ⟨l', hl', hq'⟩ := h'
  exact ⟨l ++ l', by rw [hl', hl, List.append_assoc], hq.append hq'⟩

/-- Still code is preparation. -/
theorem prepares_of_extends {F : Kernel → Kernel → Prop} {s t : World ε}
    (h : Extends Still F s t) : Prepares s t := by
  obtain ⟨l, hl, hE⟩ := h.log
  exact ⟨l, hl, quiet_of_still hE⟩

/-- Code that is quiet from every state. -/
def Prepared (b : Bus ε) {α : Type} (p : Kern α) : Prop :=
  Prog.Keeps (machine b) (fun _ => True) Prepares p

variable {b : Bus ε} {α β : Type}

/-- Preparation, one stretch behind the other. -/
theorem Prepared.bind {p : Kern α} {f : α → Kern β} (hp : Prepared b p)
    (hf : ∀ a, Prepared b (f a)) : Prepared b (p >>= f) :=
  Prog.Keeps.bind prepares_trans (fun _ _ _ _ => trivial) hp hf

/-- Code that stays still is preparation. -/
theorem prepared_of_stays {p : Kern α} (h : Stays Still (fun _ _ => True) p) : Prepared b p :=
  fun s _ => (sat_stays (fun _ => trivial) (fun _ _ _ _ _ => trivial) b h s).mono
    (fun _ => prepares_of_extends) fun _ _ => prepares_of_extends

theorem polls_still : Polls Still :=
  ⟨fun _ => ⟨trivial, nofun⟩, fun _ => ⟨trivial, nofun⟩, fun _ _ => ⟨trivial, nofun⟩⟩

theorem sends_still {c : Byte} (h : c ≠ CMD_WRITE_INPUT_PORT_1 ∧ c ≠ CMD_ENABLE_PORT_0) :
    Sends Still c := by
  refine ⟨⟨⟨trivial, nofun⟩, fun _ => ⟨trivial, nofun⟩⟩, fun _ => h, fun d hd => ?_⟩
  exact absurd (Event.outb.inj hd).1 (by decide)

/-- A command that enables nothing is preparation. -/
theorem prepared_ps2SendCommand {c : Byte}
    (h : c ≠ CMD_WRITE_INPUT_PORT_1 ∧ c ≠ CMD_ENABLE_PORT_0) : Prepared b (ps2SendCommand c) :=
  prepared_of_stays (stays_ps2SendCommand polls_still (sends_still h))

theorem prepared_ps2ReadData : Prepared b ps2ReadData :=
  prepared_of_stays (stays_ps2ReadData polls_still ⟨⟨trivial, nofun⟩, fun _ => ⟨trivial, nofun⟩⟩)

/-- `ps2_get_config` is preparation. -/
theorem prepared_ps2GetConfig : Prepared b ps2GetConfig :=
  prepared_of_stays (stays_ps2GetConfig polls_still
    ⟨⟨trivial, nofun⟩, fun _ => ⟨trivial, nofun⟩⟩ ⟨⟨trivial, nofun⟩, fun _ => ⟨trivial, nofun⟩⟩
    (sends_still (by decide)))

theorem prepared_println (text : String) (args : List Arg) : Prepared b (println text args) :=
  prepared_of_stays (stays_printMessage ⟨trivial, nofun⟩)

theorem prepared_modifyPs2 (f : Ps2Statics → Ps2Statics) : Prepared b (modifyPs2 f) :=
  prepared_of_stays (stays_modifyPs2 fun _ => trivial)

theorem prepared_getKernel : Prepared b getKernel := prepared_of_stays stays_getKernel

theorem prepared_ret (a : α) : Prepared b (.ret a) := prepared_of_stays (stays_ret a)

/-- A test is preparation if its body is. -/
theorem prepared_onlyIf (c : Prop) [Decidable c] {p : Kern Unit} (hp : Prepared b p) :
    Prepared b (onlyIf c p) := by
  unfold onlyIf
  split_ifs
  · exact hp
  · exact prepared_ret ()

/-- Between the marks of the call, the configuration is written. -/
theorem prepared_ps2SetConfig (config : Byte) : Prepared b (ps2SetConfig config) := by
  intro s _
  have hpolls : Polls fun e => Calm e ∧ Unreturned (.setConfig config) e :=
    ⟨fun _ => ⟨trivial, trivial⟩, fun _ => ⟨trivial, trivial⟩, fun _ _ => ⟨trivial, trivial⟩⟩
  have hbody : Stays (fun e => Calm e ∧ Unreturned (.setConfig config) e) (fun _ _ => True)
      (ps2SendCommand CMD_WRITE_RAM >>= fun _ => ps2SendData config) := by
    refine (stays_ps2SendCommand hpolls ⟨⟨⟨trivial, trivial⟩, fun _ => ⟨trivial, nofun⟩⟩,
      fun _ => by decide, trivial⟩).bind fun _ => stays_ps2SendData hpolls ⟨?_, trivial⟩
    exact fun h => absurd h (by decide)
  have hin : ∀ t : World ε, Extends (fun e => Calm e ∧ Unreturned (.setConfig config) e)
      (fun _ _ => True) (s.say (.enter (.setConfig config))) t → Prepares s t := by
    intro t ht
    obtain ⟨l, hl, hE⟩ := ht.log
    refine ⟨.enter (.setConfig config) :: l, by rw [hl, World.say_log, List.append_assoc]; rfl, ?_⟩
    exact quiet_setConfig (fun e he => (hE e he).1) fun e he => (hE e he).2
  refine (sat_procedure b _ _ s).2 ⟨hin _ (.refl (fun _ => trivial) _), ?_⟩
  refine (sat_stays (fun _ => trivial) (fun _ _ _ _ _ => trivial) b hbody _).mono hin
    fun _ t ht => ?_
  have hleave : Prepares s (t.say (.leave (.setConfig config) none)) := by
    refine prepares_trans s t _ (hin t ht) ⟨[_], rfl, quiet_of_still fun e he => ?_⟩
    obtain rfl := List.mem_singleton.1 he
    exact ⟨trivial, nofun⟩
  exact ⟨hleave, hleave⟩

/-- `ps2Disable` is preparation. -/
theorem prepared_ps2Disable : Prepared b ps2Disable :=
  (prepared_ps2SendCommand (by decide)).bind fun _ =>
    (prepared_ps2SendCommand (by decide)).bind fun _ =>
    (prepared_of_stays (stays_readByte polls_still.data)).bind fun _ =>
    prepared_ps2GetConfig.bind fun _ => (prepared_ps2SetConfig _).bind fun _ => prepared_ret _

/-- `ps2TestController` is preparation. -/
theorem prepared_ps2TestController (config : Byte) : Prepared b (ps2TestController config) := by
  refine (prepared_ps2SendCommand (by decide)).bind fun _ =>
    prepared_ps2ReadData.bind fun result => ?_
  split_ifs
  · exact (prepared_println _ _).bind fun _ => prepared_ret false
  · exact prepared_ps2GetConfig.bind fun _ =>
      (prepared_onlyIf _ (prepared_ps2SetConfig _)).bind fun _ => prepared_ret true

/-- `ps2DetectChannels` is preparation. -/
theorem prepared_ps2DetectChannels : Prepared b ps2DetectChannels :=
  (prepared_ps2SendCommand (by decide)).bind fun _ => prepared_ps2GetConfig.bind fun _ =>
    (prepared_modifyPs2 _).bind fun _ => prepared_getKernel.bind fun _ => prepared_onlyIf _
    ((prepared_ps2SendCommand (by decide)).bind fun _ => prepared_ps2SetConfig _)

/-- A port test is preparation. -/
theorem prepared_testPort {c : Byte} (h : c ≠ CMD_WRITE_INPUT_PORT_1 ∧ c ≠ CMD_ENABLE_PORT_0)
    (setFlag : Bool → Ps2Statics → Ps2Statics) (text : String) :
    Prepared b (testPort c setFlag text) :=
  (prepared_ps2SendCommand h).bind fun _ => prepared_ps2ReadData.bind fun _ =>
    (prepared_modifyPs2 _).bind fun _ => prepared_onlyIf _
    ((prepared_of_stays (stays_printMessage (polls_still.print _ rfl))).bind fun _ =>
      prepared_println _ _)

/-- `ps2TestPorts` is preparation. -/
theorem prepared_ps2TestPorts : Prepared b ps2TestPorts :=
  (prepared_testPort (by decide) _ _).bind fun _ => prepared_getKernel.bind fun _ =>
    prepared_onlyIf _ (prepared_testPort (by decide) _ _)

/-! ### What the flags say -/

/-- The function whose result the decision takes. -/
def Decision.reader : Decision → Fn
  | .dual => .getConfig
  | _ => .readData

/-- The decision's answer is in the log, and it is a success. -/
def Answered (d : Decision) (log : List Event) : Prop :=
  ∃ v, d.success v = true ∧ answerTo d.reader d.command log = some v

/-- Each flag that is set has its answer in the log. -/
def Known (w : World ε) : Prop :=
  ∀ d : Decision, d.flag w.kernel.ps2 = true → Answered d w.log

/-- An answer that has been read stays the first one. -/
theorem Answered.grow {d : Decision} {l l' : List Event} (h : Answered d l) (hl : l <+: l') :
    Answered d l' := by
  obtain ⟨v, hv, ha⟩ := h
  obtain ⟨l₂, rfl⟩ := hl
  exact ⟨v, hv, answerTo_append ha l₂⟩

/-- What is known of the flags stays known as long as they stay. -/
theorem Known.grow {s t : World ε} (h : Known s) (hl : s.log <+: t.log)
    (hk : SameFlags s.kernel t.kernel) : Known t :=
  fun d hd => (h d ((hk d).symm.trans hd)).grow hl

/-- The exchange of a new command: its answer is the result of `f`. -/
theorem sat_answer {f : Fn} {c : Byte} {body : Kern Byte}
    (hsend : Stays (Unreturned f) (fun _ _ => True) (ps2SendCommand c))
    (hbody : Stays (Unreturned f) (fun _ _ => True) body) {s : World ε}
    (hfresh : .enter (.sendCommand c) ∉ s.log) :
    Prog.Sat (machine b) (fun _ => True) (fun r t => answerTo f c t.log = some r)
      (ps2SendCommand c >>= fun _ => function f body) s := by
  have hany : ∀ {γ : Type} {p : Kern γ}, Stays (Unreturned f) (fun _ _ => True) p → ∀ t : World ε,
      Prog.Sat (machine b) (fun _ => True) (fun _ u => ∃ l, u.log = t.log ++ l ∧
        ∀ e ∈ l, Unreturned f e) p t := fun hp t =>
    (sat_stays (fun _ => trivial) (fun _ _ _ _ _ => trivial) b hp t).mono (fun _ _ => trivial)
      fun _ _ h => h.log
  refine (Prog.sat_bind _ _ _).2 ⟨trivial, (hany (hsend.2 ()) _).post fun _ t ht => ?_⟩
  refine (sat_function b f body t).2 ⟨trivial, (hany hbody _).post fun r u hu => ⟨trivial, ?_⟩⟩
  obtain ⟨l, hl, hE⟩ := ht
  obtain ⟨l', hl', hE'⟩ := hu
  have hlog : (u.say (.leave f (some r))).log = s.log ++ (.enter (.sendCommand c) ::
      (l ++ (.enter f :: (l' ++ [.leave f (some r)])))) := by
    simp [World.say_log, hl', hl, machine]
  rw [hlog, answerTo_of_fresh hfresh, answerTo, if_pos rfl, firstResult_of_unreturned hE]
  exact (firstResult_of_unreturned hE' _).trans (if_pos rfl)

/-- What a decision leaves behind: the flags are known, the other flags are as they
were, and no command of `cs` has been called. -/
structure Learnt (cs : List Byte) (d : Decision) (s t : World ε) : Prop where
  known : Known t
  others : ∀ d' : Decision, d' ≠ d → d'.flag t.kernel.ps2 = d'.flag s.kernel.ps2
  log : ∃ l, t.log = s.log ++ l ∧ ∀ e ∈ l, Avoids cs e

/-- What has been learnt stays so as long as the commands are avoided. -/
theorem Learnt.extends {cs : List Byte} {d : Decision} {s t u : World ε} (h : Learnt cs d s t)
    (htu : Extends (Avoids cs) SameFlags t u) : Learnt cs d s u := by
  obtain ⟨l, hl, hE⟩ := h.log
  obtain ⟨l', hl', hE'⟩ := htu.log
  refine ⟨h.known.grow ⟨l', hl'.symm⟩ htu.kernel,
    fun d' hd' => (htu.kernel d').trans (h.others d' hd'), l ++ l', ?_, fun e he => ?_⟩
  · rw [hl', hl, List.append_assoc]
  · exact (List.mem_append.1 he).elim (hE e) (hE' e)

/-- **One decision.**  The answer to the new command sets the flag, and is in the log. -/
theorem sat_decision (d : Decision) {cs : List Byte} {q : Kern Byte} {K : Byte → Kern α}
    {Q : α → World ε → Prop} {s : World ε}
    (hq : Prog.Sat (machine b) (fun _ => True)
      (fun r t => answerTo d.reader d.command t.log = some r)
      (ps2SendCommand d.command >>= fun _ => q) s)
    (hstays : Stays (Avoids cs) SameFlags (ps2SendCommand d.command >>= fun _ => q))
    (hs : Known s)
    (hK : ∀ v t, Learnt cs d s t → Prog.Sat (machine b) (fun _ => True) Q (K v) t) :
    Prog.Sat (machine b) (fun _ => True) Q (ps2SendCommand d.command >>= fun _ => q >>= fun v =>
      modifyPs2 (fun p => d.set (d.success v) p) >>= fun _ => K v) s := by
  rw [← Prog.bind_bind, Prog.sat_bind]
  have hext := sat_stays sameFlags_refl sameFlags_trans b hstays s
  refine (hq.and hext).mono (fun _ _ => trivial) fun v t ht => ⟨trivial, ?_⟩
  obtain ⟨hanswer, hext⟩ := ht
  refine hK v _ ⟨fun d' hd' => ?_, fun d' hd' => ?_, hext.log⟩
  · by_cases hdd : d' = d
    · subst hdd
      exact ⟨v, (d'.flag_set _ _).symm.trans hd', hanswer⟩
    · obtain ⟨l, hl, -⟩ := hext.log
      exact (hs.grow ⟨l, hl.symm⟩ hext.kernel) d'
        ((Decision.flag_set_of_ne hdd _ _).symm.trans hd')
  · exact (Decision.flag_set_of_ne hd' _ _).trans (hext.kernel d')

theorem polls_unreturned (f : Fn) : Polls (Unreturned f) :=
  ⟨fun _ => trivial, fun _ => trivial, fun _ _ => trivial⟩

/-- The answer that `ps2_read_data` gives to a command. -/
theorem sat_testAnswer {c : Byte} {s : World ε} (hfresh : .enter (.sendCommand c) ∉ s.log) :
    Prog.Sat (machine b) (fun _ => True) (fun r t => answerTo .readData c t.log = some r)
      (ps2SendCommand c >>= fun _ => ps2ReadData) s := by
  have hpolls := polls_unreturned .readData
  refine sat_answer (stays_ps2SendCommand hpolls ⟨⟨trivial, fun _ => nofun⟩, trivial⟩)
    ((stays_tryReadData hpolls).bind fun r => ?_) hfresh
  cases r with
  | some byte => exact stays_pure byte
  | none => exact (stays_println hpolls _ _).bind fun _ => stays_pure _

/-- The configuration that `ps2_get_config` reads after a command. -/
theorem sat_configAnswer {c : Byte} {s : World ε} (hfresh : .enter (.sendCommand c) ∉ s.log) :
    Prog.Sat (machine b) (fun _ => True) (fun r t => answerTo .getConfig c t.log = some r)
      (ps2SendCommand c >>= fun _ => ps2GetConfig) s := by
  have hpolls := polls_unreturned .getConfig
  have hsend : ∀ c, Stays (Unreturned .getConfig) (fun _ _ => True) (ps2SendCommand c) := fun c =>
    stays_ps2SendCommand hpolls ⟨⟨trivial, fun _ => nofun⟩, trivial⟩
  exact sat_answer (hsend c) ((hsend _).bind fun _ =>
    stays_ps2ReadData hpolls ⟨trivial, fun _ => nofun⟩) hfresh

/-- A command that has been avoided has not been sent yet. -/
theorem fresh_of_avoids {cs : List Byte} {c : Byte} {l : List Event} (hc : c ∈ cs)
    (h : ∀ e ∈ l, Avoids cs e) : .enter (.sendCommand c) ∉ l :=
  fun hm => h _ hm hc

/-- When the self-test has passed, the answer to its command was 0x55. -/
theorem sat_ps2TestController {config : Byte} {s : World ε}
    (hfresh : .enter (.sendCommand CMD_TEST) ∉ s.log) :
    Prog.Sat (machine b) (fun _ => True)
      (fun passed t => passed = true → answerTo .readData CMD_TEST t.log = some 0x55)
      (ps2TestController config) s := by
  rw [ps2TestController, ← Prog.bind_bind, Prog.sat_bind]
  refine (sat_testAnswer hfresh).post fun result u hu => ?_
  by_cases hpass : result = 0x55
  · rw [if_neg (not_not.2 hpass)]
    rw [hpass] at hu
    refine (sat_grows b _ u).mono (fun _ _ => trivial) fun _ v hv _ => ?_
    obtain ⟨l, hl⟩ := hv
    rw [← hl]
    exact answerTo_append hu l
  · rw [if_pos hpass]
    exact ⟨trivial, nofun⟩

/-- `ps2DetectChannels` learns whether there are two channels. -/
theorem sat_ps2DetectChannels {s : World ε} (hs : Known s)
    (hfresh : ∀ e ∈ s.log, Avoids decisionCommands e) :
    Prog.Sat (machine b) (fun _ => True)
      (fun _ t => Learnt [CMD_TEST_PORT_0, CMD_TEST_PORT_1] .dual s t) ps2DetectChannels s := by
  have htalks := talks_avoids [CMD_TEST_PORT_0, CMD_TEST_PORT_1]
  have hsend : ∀ {c}, c ∉ [CMD_TEST_PORT_0, CMD_TEST_PORT_1] →
      Stays (Avoids [CMD_TEST_PORT_0, CMD_TEST_PORT_1]) SameFlags (ps2SendCommand c) := fun hc =>
    stays_ps2SendCommand htalks.toPolls (sends_avoids hc)
  refine sat_decision .dual (sat_configAnswer (fresh_of_avoids (by decide) hfresh))
    ((hsend (by decide)).bind fun _ => htalks.stays_getConfig (sends_avoids (by decide))) hs
    fun config t ht => ?_
  have hrest : Stays (Avoids [CMD_TEST_PORT_0, CMD_TEST_PORT_1]) SameFlags (getKernel >>= fun k =>
      onlyIf (k.ps2.dualChannel = true) (ps2SendCommand CMD_DISABLE_PORT_1 >>= fun _ =>
        ps2SetConfig (putBit (putBit config PORT_1_INTERRUPT false) CLOCK_1 false))) :=
    stays_getKernel.bind fun k => stays_onlyIf _ fun _ => (hsend (by decide)).bind fun _ =>
      htalks.stays_setConfig (sends_avoids (by decide)) _
  exact (sat_stays sameFlags_refl sameFlags_trans b hrest t).mono (fun _ _ => trivial)
    fun _ u hu => ht.extends hu

/-- The test of the port of `d`. -/
theorem sat_testPort (cs : List Byte) (d : Decision) (hd : d ≠ .dual) (text : String)
    {s : World ε} (hs : Known s) (hfresh : ∀ e ∈ s.log, Avoids [d.command] e)
    (hcs : d.command ∉ cs) :
    Prog.Sat (machine b) (fun _ => True) (fun _ t => Learnt cs d s t)
      (testPort d.command (fun b p => d.set b p) text) s := by
  have htalks := talks_avoids cs
  have hnew := fresh_of_avoids (List.mem_singleton.2 rfl) hfresh
  have hreader : d.reader = .readData := by
    cases d with
    | dual => exact absurd rfl hd
    | _ => rfl
  have hsuccess : d.success = fun resp => resp == 0 := by
    cases d with
    | dual => exact absurd rfl hd
    | _ => rfl
  have hreport : ∀ resp, Stays (Avoids cs) SameFlags (onlyIf (resp ≠ 0) do
      print text []
      printPortErrorMsg resp) := fun resp =>
    stays_onlyIf _ fun _ => (stays_printMessage trivial).bind fun _ =>
      stays_println htalks.toPolls _ _
  have h := sat_decision (b := b) (Q := fun _ t => Learnt cs d s t) d
    (by rw [hreader]; exact sat_testAnswer hnew)
    ((stays_ps2SendCommand htalks.toPolls (sends_avoids hcs)).bind fun _ =>
      stays_ps2ReadData htalks.toPolls htalks.readData) hs
    fun resp t ht => (sat_stays sameFlags_refl sameFlags_trans b (hreport resp) t).mono
      (fun _ _ => trivial) fun _ u hu => ht.extends hu
  rw [hsuccess] at h
  exact h

/-- The port tests learn which ports work, and ask for port 1 only on two channels. -/
theorem sat_ps2TestPorts {s : World ε} (hs : Known s)
    (hfresh : ∀ e ∈ s.log, Avoids [CMD_TEST_PORT_0, CMD_TEST_PORT_1] e)
    (hport1 : s.kernel.ps2.port1Operational = false) :
    Prog.Sat (machine b) (fun _ => True)
      (fun _ t => Known t ∧
        (t.kernel.ps2.port1Operational = true → t.kernel.ps2.dualChannel = true))
      ps2TestPorts s := by
  rw [ps2TestPorts, Prog.sat_bind]
  refine (sat_testPort [CMD_TEST_PORT_1] .port0 (by decide) "PS/2 port 0 is faulty: " hs
    (fun e he => (hfresh e he).mono (by decide)) (by decide)).post fun _ t ht => ?_
  have hnew : ∀ e ∈ t.log, Avoids [CMD_TEST_PORT_1] e := by
    obtain ⟨l, hl, hE⟩ := ht.log
    rw [hl]
    exact fun e he => (List.mem_append.1 he).elim (fun h => (hfresh e h).mono (by decide)) (hE e)
  refine ⟨trivial, ?_⟩
  show Prog.Sat (machine b) _ _ (onlyIf (t.kernel.ps2.dualChannel = true) testPort1) t
  by_cases hdual : t.kernel.ps2.dualChannel = true
  · rw [onlyIf, if_pos hdual]
    refine (sat_testPort [] .port1 (by decide) "PS/2 port 1 is faulty: " ht.known hnew
      List.not_mem_nil).post fun _ u hu => ⟨hu.known, fun _ => ?_⟩
    exact (hu.others .dual (by decide)).trans hdual
  · rw [onlyIf, if_neg hdual]
    refine ⟨ht.known, fun h => ?_⟩
    have hsame := ht.others .port1 (by decide)
    exact absurd ((h.symm.trans hsame).trans hport1) (by decide)

/-! ### After the tests -/

/-- What may happen to ports and devices, given the flags `p`. -/
def Allowed (p : Ps2Statics) : Event → Prop
  | .outb port d => port = PORT_COMMAND →
      (d = CMD_WRITE_INPUT_PORT_1 → p.port1Operational = true) ∧
      (d = CMD_ENABLE_PORT_0 → p.port0Operational = true)
  | .enter (.resetPort port) => Ps2Statics.operational p port = true
  | _ => True

/-- From `s` to `t` the flags are left alone, only what they allow has happened,
and only the ports in `ports` were reset, each at most as often as it is listed. -/
structure Advances (ports : List Port) (s t : World ε) : Prop where
  flags : SameFlags s.kernel t.kernel
  log : ∃ l, t.log = s.log ++ l ∧ (∀ e ∈ l, Allowed s.kernel.ps2 e) ∧
    ∀ port, l.count (.enter (.resetPort port)) ≤ ports.count port

/-- Which ports are operational depends on the flags. -/
theorem operational_congr {k k' : Kernel} (h : SameFlags k k') (port : Port) :
    Ps2Statics.operational k'.ps2 port = Ps2Statics.operational k.ps2 port := by
  cases port with
  | port0 => exact h .port0
  | port1 => exact h .port1

/-- What is allowed depends on the flags only. -/
theorem Allowed.congr {k k' : Kernel} (h : SameFlags k k') {e : Event} (he : Allowed k'.ps2 e) :
    Allowed k.ps2 e := by
  cases e with
  | outb port d =>
    intro hp
    obtain ⟨h1, h0⟩ := he hp
    exact ⟨fun hd => (h .port1).symm.trans (h1 hd), fun hd => (h .port0).symm.trans (h0 hd)⟩
  | enter f =>
    cases f with
    | resetPort port => exact (operational_congr h port).symm.trans he
    | _ => trivial
  | _ => trivial

/-- One advance after the other uses the ports of both. -/
theorem Advances.trans {ps qs : List Port} {s t u : World ε} (h : Advances ps s t)
    (h' : Advances qs t u) : Advances (ps ++ qs) s u := by
  obtain ⟨l, hl, hall, hcount⟩ := h.log
  obtain ⟨l', hl', hall', hcount'⟩ := h'.log
  refine ⟨sameFlags_trans _ _ _ h.flags h'.flags, l ++ l', ?_, fun e he => ?_, fun port => ?_⟩
  · rw [hl', hl, List.append_assoc]
  · exact (List.mem_append.1 he).elim (hall e) fun he => (hall' e he).congr h.flags
  · rw [List.count_append, List.count_append]
    exact Nat.add_le_add (hcount port) (hcount' port)

/-- An advance over some ports is one over more of them. -/
theorem Advances.mono {ps qs : List Port} (hle : ∀ port, ps.count port ≤ qs.count port)
    {s t : World ε} (h : Advances ps s t) : Advances qs s t := by
  obtain ⟨l, hl, hall, hcount⟩ := h.log
  exact ⟨h.flags, l, hl, hall, fun port => (hcount port).trans (hle port)⟩

/-- What the flags allow, resets apart. -/
def Permitted (p : Ps2Statics) (e : Event) : Prop :=
  Allowed p e ∧ ∀ port, e ≠ .enter (.resetPort port)

/-- Permitted code advances over no port. -/
theorem advances_of_extends {F : Kernel → Kernel → Prop} (hF : ∀ k k', F k k' → SameFlags k k')
    {s t : World ε} (h : Extends (Permitted s.kernel.ps2) F s t) : Advances [] s t := by
  obtain ⟨l, hl, hE⟩ := h.log
  refine ⟨hF _ _ h.kernel, l, hl, fun e he => (hE e he).1, fun port => ?_⟩
  rw [List.count_eq_zero.2 fun hm => (hE _ hm).2 port rfl]
  exact Nat.zero_le _

theorem advances_refl (s : World ε) : Advances [] s s :=
  ⟨sameFlags_refl _, [], (List.append_nil _).symm, fun _ h => absurd h List.not_mem_nil,
    fun _ => le_rfl⟩

/-- Sequencing after the tests. -/
theorem sat_advances_bind {ps qs : List Port} {p : Kern α} {f : α → Kern β} {s : World ε}
    (hp : Prog.Sat (machine b) (Advances ps s) (fun _ t => Advances ps s t) p s)
    (hf : ∀ a t, Advances ps s t →
      Prog.Sat (machine b) (Advances qs t) (fun _ u => Advances qs t u) (f a) t) :
    Prog.Sat (machine b) (Advances (ps ++ qs) s) (fun _ u => Advances (ps ++ qs) s u)
      (p >>= f) s := by
  have hle : ∀ port, ps.count port ≤ (ps ++ qs).count port := fun port => by
    rw [List.count_append]
    exact Nat.le_add_right ..
  rw [Prog.sat_bind]
  refine hp.mono (fun t ht => ht.mono hle) fun a t ht => ?_
  exact (hf a t ht).mono (fun u hu => ht.trans hu) fun _ u hu => ht.trans hu

/-- Code that stays within the permitted advances over no port. -/
theorem sat_advances_of_stays {F : Kernel → Kernel → Prop} (hrefl : ∀ k, F k k)
    (htrans : ∀ k k' k'', F k k' → F k' k'' → F k k'') (hF : ∀ k k', F k k' → SameFlags k k')
    {p : Kern α} {s : World ε} (h : Stays (Permitted s.kernel.ps2) F p) :
    Prog.Sat (machine b) (Advances [] s) (fun _ t => Advances [] s t) p s :=
  (sat_stays hrefl htrans b h s).mono (fun _ => advances_of_extends hF)
    fun _ _ => advances_of_extends hF

theorem polls_permitted (p : Ps2Statics) : Polls (Permitted p) :=
  ⟨fun _ => ⟨trivial, nofun⟩, fun _ => ⟨trivial, nofun⟩, fun _ _ => ⟨trivial, nofun⟩⟩

theorem calls_permitted (p : Ps2Statics) {f : Fn} (hf : ∀ port, f ≠ .resetPort port) :
    Calls (Permitted p) f := by
  refine ⟨⟨?_, fun port h => hf port (Event.enter.inj h)⟩, fun _ => ⟨trivial, nofun⟩⟩
  cases f with
  | resetPort port => exact absurd rfl (hf port)
  | _ => trivial

/-- A command to a port that is operational is permitted. -/
theorem sends_permitted {p : Ps2Statics} {c : Byte}
    (h1 : c = CMD_WRITE_INPUT_PORT_1 → p.port1Operational = true)
    (h0 : c = CMD_ENABLE_PORT_0 → p.port0Operational = true) : Sends (Permitted p) c :=
  ⟨calls_permitted p nofun, fun _ => ⟨h1, h0⟩, nofun⟩

theorem write_permitted (p : Ps2Statics) (d : Byte) : Permitted p (.outb PORT_DATA d) :=
  ⟨fun h => absurd h (by decide), nofun⟩

theorem talks_permitted (p : Ps2Statics) : Talks (Permitted p) where
  toPolls := polls_permitted p
  write := write_permitted p
  readData := calls_permitted p nofun
  getConfig := calls_permitted p nofun
  setConfig _ := calls_permitted p nofun

/-- The device on a port that works may be addressed. -/
theorem drives_permitted {p : Ps2Statics} {port : Port}
    (h : Ps2Statics.operational p port = true) : Drives (Permitted p) port where
  select hp := sends_permitted (fun _ => by rw [hp] at h; exact h) fun hc => absurd hc (by decide)
  write := write_permitted p
  call _ := calls_permitted p nofun

/-- `ps2EnablePorts` advances over no port. -/
theorem sat_ps2EnablePorts (s : World ε) :
    Prog.Sat (machine b) (Advances [] s) (fun _ t => Advances [] s t) ps2EnablePorts s := by
  refine (sat_getKernel b _ s).2 ⟨advances_refl s, ?_⟩
  refine sat_advances_of_stays sameFlags_refl sameFlags_trans (fun _ _ => id)
    ((stays_onlyIf _ fun hp => ?_).bind fun _ => stays_onlyIf _ fun _ => ?_)
  · exact stays_ps2SendCommand (polls_permitted _)
      (sends_permitted (fun hc => absurd hc (by decide)) fun _ => hp)
  · exact stays_ps2SendCommand (polls_permitted _)
      (sends_permitted (fun hc => absurd hc (by decide)) fun hc => absurd hc (by decide))

/-- `ps2EnableInterrupts` advances over no port. -/
theorem sat_ps2EnableInterrupts (s : World ε) :
    Prog.Sat (machine b) (Advances [] s) (fun _ t => Advances [] s t) ps2EnableInterrupts s := by
  have hne : ∀ c ∈ [CMD_READ_RAM, CMD_WRITE_RAM],
      c ≠ CMD_WRITE_INPUT_PORT_1 ∧ c ≠ CMD_ENABLE_PORT_0 := by
    decide
  exact sat_advances_of_stays sameFlags_refl sameFlags_trans (fun _ _ => id)
    (stays_ps2EnableInterrupts (talks_permitted _) fun c hc => sends_permitted
      (fun h => absurd h (hne c hc).1) fun h => absurd h (hne c hc).2)

/-- The reset of a port that works. -/
theorem sat_resetPort (n : ℕ) {port : Port} {s : World ε}
    (h : Ps2Statics.operational s.kernel.ps2 port = true) :
    Prog.Sat (machine b) (Advances [port] s) (fun _ t => Advances [port] s t)
      (resetPort n port) s := by
  have henter : Advances [port] s (s.say (.enter (.resetPort port))) := by
    refine ⟨sameFlags_refl _, [.enter (.resetPort port)], rfl, fun e he => ?_, fun port' => ?_⟩
    · obtain rfl := List.mem_singleton.1 he
      exact h
    · rw [List.count_singleton, List.count_singleton]
      by_cases hp : port = port'
      · simp [hp]
      · simp [hp]
  have hbody := sat_advances_of_stays (b := b) sameFlags_refl sameFlags_trans (fun _ _ => id)
    (s := s.say (.enter (.resetPort port)))
    (stays_resetPortBody (polls_permitted _) (assignsIds_sameFlags port) (drives_permitted h) n)
  have hin : ∀ t, Advances [] (s.say (.enter (.resetPort port))) t → Advances [port] s t :=
    fun t ht => henter.trans ht
  refine (sat_procedure b _ _ s).2 ⟨henter, hbody.mono hin fun _ t ht => ?_⟩
  have hleave : Advances [] t (t.say (.leave (.resetPort port) none)) := by
    refine advances_of_extends (F := SameFlags) (fun _ _ => id) ⟨⟨[_], rfl, fun e he => ?_⟩,
      sameFlags_refl _⟩
    obtain rfl := List.mem_singleton.1 he
    exact ⟨trivial, nofun⟩
  have hout := (hin t ht).trans hleave
  exact ⟨hout, hout⟩

/-! ### The keyboard driver -/

/-- The statics of `ps2.c` and of the keyboard driver are the same. -/
def SameDrivers (k k' : Kernel) : Prop := k'.ps2 = k.ps2 ∧ k'.kbd = k.kbd

theorem sameDrivers_refl (k : Kernel) : SameDrivers k k := ⟨rfl, rfl⟩

theorem sameDrivers_trans (k k' k'' : Kernel) (h : SameDrivers k k') (h' : SameDrivers k' k'') :
    SameDrivers k k'' :=
  ⟨h'.1.trans h.1, h'.2.trans h.2⟩

/-- Code of the driver that was started for `port`: it does what the flags `p`
allow, and the driver stays with its port. -/
def Typed (b : Bus ε) (p : Ps2Statics) (port : Port) (q : Kern α) : Prop :=
  Prog.Keeps (machine b) (fun w => w.kernel.kbd.port = port) (Extends (Permitted p) SameDrivers) q

variable {p : Ps2Statics} {port : Port}

/-- What is permitted stays so, one stretch behind the other. -/
theorem Typed.bind {q : Kern α} {f : α → Kern β} (hq : Typed b p port q)
    (hf : ∀ a, Typed b p port (f a)) : Typed b p port (q >>= f) :=
  Prog.Keeps.bind (fun _ _ _ => .trans sameDrivers_trans)
    (fun _ _ hs hst => (congrArg KbdStatics.port hst.kernel.2).trans hs) hq hf

/-- Permitted code that changes no driver. -/
theorem typed_of_stays {q : Kern α} (h : Stays (Permitted p) SameDrivers q) : Typed b p port q :=
  fun s _ => sat_stays sameDrivers_refl sameDrivers_trans b h s

theorem typed_println (text : String) (args : List Arg) : Typed b p port (println text args) :=
  typed_of_stays (stays_printMessage ⟨trivial, nofun⟩)

/-- Commands go to the port the driver was started for. -/
theorem typed_ps2KbdSendCmd (h : Ps2Statics.operational p port = true) (n : ℕ) (cmd : Byte) :
    Typed b p port (ps2KbdSendCmd n cmd) := by
  intro s hs
  refine (sat_getKernel b _ s).2 ⟨.refl sameDrivers_refl s, ?_⟩
  rw [hs]
  exact sat_stays sameDrivers_refl sameDrivers_trans b
    (stays_ps2SendDeviceCommand (polls_permitted p) (drives_permitted h) n cmd) s

/-- The exchange of scan code sets is permitted on an operational port. -/
theorem typed_ps2KbdSetScanCodes (h : Ps2Statics.operational p port = true) (n : ℕ)
    (set : ScanCodeSet) : Typed b p port (ps2KbdSetScanCodes n set) := by
  have hcall : Calls (Permitted p) (.kbdSetScanCodes set) := calls_permitted p nofun
  have henter : Typed b p port (enter (.kbdSetScanCodes set)) :=
    typed_of_stays ⟨hcall.enter, fun _ => trivial⟩
  have hleave : Typed b p port (leave (.kbdSetScanCodes set) none) :=
    typed_of_stays ⟨hcall.leave none, fun _ => trivial⟩
  have hread : Typed b p port ps2ReadData :=
    typed_of_stays (stays_ps2ReadData (polls_permitted p) (calls_permitted p nofun))
  have hsend : ∀ data, Typed b p port (ps2SendData data) := fun data =>
    typed_of_stays (stays_ps2SendData (polls_permitted p) (write_permitted p data))
  induction n with
  | zero => exact typed_of_stays stays_cut
  | succ n ih =>
    have hget : Typed b p port (ps2KbdGetScanCode n) :=
      (typed_ps2KbdSendCmd h n _).bind fun _ => hread.bind fun _ => typed_of_stays (stays_pure _)
    have hround : Typed b p port (setScanCodesRound n set) := by
      refine (typed_ps2KbdSendCmd h n _).bind fun _ => (hsend _).bind fun _ =>
        hget.bind fun newSet => ?_
      split_ifs
      · exact (typed_println _ _).bind fun _ => typed_of_stays (stays_pure _)
      · exact typed_of_stays (stays_pure _)
    refine henter.bind fun _ => Typed.bind (hround.bind fun wrong => ?_) fun _ => hleave
    split_ifs
    · exact ih
    · exact typed_of_stays (stays_pure _)

/-- Starting the keyboard driver is permitted on an operational port. -/
theorem typed_ps2KbdStart (h : Ps2Statics.operational p port = true) (L : Layout) (n : ℕ) :
    Typed b p port (ps2KbdStart L n port) := by
  have hcall : Calls (Permitted p) (.irqClearMask PS2_KBD_IRQ) := calls_permitted p nofun
  have hclear : Stays (Permitted p) SameDrivers (irqClearMask PS2_KBD_IRQ) :=
    stays_irqClearMask hcall.enter (hcall.leave _) (fun _ => ⟨trivial, nofun⟩)
      fun _ => ⟨fun h => absurd h (by decide), nofun⟩
  have hinstall : Typed b p port (modifyKernel fun k =>
      { k with idt := idtInstallIrqHandler L k.kbd.vector (L.ptr .ps2KbdIrqHandler) k.idt }) :=
    typed_of_stays (stays_modifyKernel fun _ => ⟨rfl, rfl⟩)
  have hint : Typed b p port (int 0x21) := typed_of_stays (stays_int ⟨trivial, nofun⟩)
  exact (typed_println _ _).bind fun _ => (typed_println _ _).bind fun _ =>
    (typed_of_stays hclear).bind fun _ => (typed_println _ _).bind fun _ =>
    (typed_ps2KbdSendCmd h n _).bind fun _ => (typed_println _ _).bind fun _ =>
    (typed_ps2KbdSetScanCodes h n _).bind fun _ => (typed_println _ _).bind fun _ =>
    hinstall.bind fun _ => (typed_println _ _).bind fun _ => hint.bind fun _ => typed_println _ _

/-- Starting the keyboard driver for a port that works. -/
theorem sat_ps2KbdInit (L : Layout) (n : ℕ) {port : Port} {s : World ε}
    (h : Ps2Statics.operational s.kernel.ps2 port = true) :
    Prog.Sat (machine b) (Advances [] s) (fun _ t => Advances [] s t) (ps2KbdInit L n port) s := by
  have hsay : ∀ (t : World ε) {e : Event}, Permitted t.kernel.ps2 e → Advances [] t (t.say e) := by
    intro t e he
    refine advances_of_extends (F := SameFlags) (fun _ _ => id)
      ⟨⟨[e], rfl, fun e' he' => ?_⟩, sameFlags_refl _⟩
    obtain rfl := List.mem_singleton.1 he'
    exact he
  have hcall : ∀ p, Calls (Permitted p) (.kbdInit port) := fun p => calls_permitted p nofun
  have henter := hsay s (hcall _).enter
  have hleave : ∀ t : World ε, Advances [] s t →
      Advances [] s (t.say (.leave (.kbdInit port) none)) := fun t ht =>
    ht.trans (hsay t ((hcall _).leave none))
  refine (sat_procedure b _ _ s).2 ⟨henter, (sat_getKernel b _ _).2 ⟨henter, ?_⟩⟩
  rw [Prog.sat_ite]
  refine ⟨fun _ => ⟨hleave _ henter, hleave _ henter⟩, fun _ => ?_⟩
  -- the assignment of the vector and the port leaves the flags and the log alone
  have hmodify : ∀ t : World ε, Advances [] s t → ∀ kbd,
      Advances [] s { t with kernel := { t.kernel with kbd := kbd } } := fun t ht kbd =>
    ⟨ht.flags, ht.log⟩
  have hset := hmodify _ henter ⟨picGetVector s.kernel.pic PS2_KBD_IRQ, port⟩
  refine (Prog.sat_bind _ _ _).2 ⟨hset, ?_⟩
  have hstart := typed_ps2KbdStart (b := b) h L n _
    (show ({ s.say (.enter (.kbdInit port)) with kernel := { s.kernel with
      kbd := ⟨picGetVector s.kernel.pic PS2_KBD_IRQ, port⟩ } } : World ε).kernel.kbd.port = port
      from rfl)
  have hin : ∀ t, Extends (Permitted s.kernel.ps2) SameDrivers _ t → Advances [] s t := fun t ht =>
    hset.trans (advances_of_extends (fun k k' hk d => by rw [hk.1]) ht)
  exact hstart.mono hin fun _ t ht => ⟨hleave t (hin t ht), hleave t (hin t ht)⟩

/-- Starting a port advances over it at most once. -/
theorem sat_ps2StartPort (L : Layout) (n : ℕ) (port : Port) (s : World ε) :
    Prog.Sat (machine b) (Advances [port] s) (fun _ t => Advances [port] s t)
      (ps2StartPort L n port) s := by
  have hmono : ∀ t : World ε, Advances [] s t → Advances [port] s t := fun t ht =>
    ht.mono fun _ => Nat.zero_le _
  refine (sat_getKernel b _ s).2 ⟨hmono s (advances_refl s), ?_⟩
  by_cases h : Ps2Statics.operational s.kernel.ps2 port = true
  · rw [if_pos h]
    refine sat_advances_bind (sat_resetPort n h) fun _ t ht => ?_
    have hport : Ps2Statics.operational t.kernel.ps2 port = true :=
      (operational_congr ht.flags port).trans h
    have hprint : ∀ text args (u : World ε), Prog.Sat (machine b) (Advances [] u)
        (fun _ v => Advances [] u v) (println text args) u := fun text args u =>
      sat_advances_of_stays sameFlags_refl sameFlags_trans (fun _ _ => id)
        (stays_printMessage ⟨trivial, nofun⟩)
    refine (sat_getKernel b _ t).2 ⟨advances_refl t, ?_⟩
    unfold ps2InitDevice
    rw [Prog.sat_ite]
    refine ⟨fun _ => (sat_getKernel b _ t).2 ⟨advances_refl t, hprint _ _ t⟩, fun _ => ?_⟩
    refine sat_advances_bind (hprint _ _ t) fun _ u hu => ?_
    rw [Prog.sat_ite]
    refine ⟨fun _ => sat_ps2KbdInit L n ?_, fun _ => advances_refl u⟩
    exact (operational_congr hu.flags port).trans hport
  · rw [if_neg h]
    exact (sat_advances_of_stays sameFlags_refl sameFlags_trans (fun _ _ => id)
      (stays_modifyDeviceId (assignsIds_sameFlags port) _)).mono hmono fun _ t => hmono t

/-! ### The whole run -/

/-- Calm events send nothing to a port. -/
theorem not_mem_of_calm {l : List Event} (h : ∀ e ∈ l, Calm e) :
    .outb PORT_COMMAND CMD_WRITE_INPUT_PORT_1 ∉ l ∧ .outb PORT_COMMAND CMD_ENABLE_PORT_0 ∉ l ∧
      ∀ port, .enter (.resetPort port) ∉ l :=
  ⟨fun hm => (h _ hm rfl).1 rfl, fun hm => (h _ hm rfl).2 rfl, fun _ hm => h _ hm⟩

/-- Where nothing has been sent to a port, the order holds. -/
theorem ordered_of_quiet {t : World ε} (h : Quiet t.log) : Ordered t := by
  obtain ⟨h1, h0, hreset⟩ := not_mem_of_calm h.calm
  refine ⟨fun hm => absurd hm h1, fun hm => absurd hm h0, fun _ => ⟨h.config, ?_, ?_⟩,
    fun port => ⟨?_, fun hm => absurd hm (hreset port)⟩⟩
  · exact fun cmd port hm => h.calm _ hm
  · exact fun port hm => h.calm _ hm
  · rw [List.count_eq_zero.2 (hreset port)]
    exact Nat.zero_le 1

/-- The tests are over, with the answers in the log and a port that works. -/
structure Tested (s : World ε) : Prop where
  quiet : Quiet s.log
  known : Known s
  passed : answerTo .readData CMD_TEST s.log = some 0x55
  dual : s.kernel.ps2.port1Operational = true → s.kernel.ps2.dualChannel = true
  works : s.kernel.ps2.port0Operational = true ∨ s.kernel.ps2.port1Operational = true

/-- A port test that has succeeded has been answered with 0. -/
theorem answered_zero {d : Decision} (hsuccess : d.success = fun resp => resp == 0)
    {log : List Event} (h : Answered d log) : answerTo d.reader d.command log = some 0 := by
  obtain ⟨v, hv, ha⟩ := h
  rw [hsuccess, beq_iff_eq] at hv
  rw [ha, hv]

/-- Advancing over each port once, behind the tests, keeps the order. -/
theorem ordered_of_advances {s t : World ε} (hs : Tested s)
    (hst : Advances [.port0, .port1] s t) : Ordered t := by
  obtain ⟨l, hl, hall, hcount⟩ := hst.log
  obtain ⟨h1, h0, hreset⟩ := not_mem_of_calm hs.quiet.calm
  -- what is new in the log came after the tests
  have hnew : ∀ {e : Event}, e ∉ s.log → e ∈ t.log → e ∈ l := by
    intro e he ht
    rw [hl] at ht
    exact (List.mem_append.1 ht).resolve_left he
  have hanswer : ∀ {f c r}, answerTo f c s.log = some r → answerTo f c t.log = some r := by
    intro f c r h
    rw [hl]
    exact answerTo_append h l
  refine ⟨fun hm => ?_, fun hm => ?_, fun hidle => ?_, fun port => ⟨?_, fun hm => ?_⟩⟩
  · have hport1 := (hall _ (hnew h1 hm) rfl).1 rfl
    obtain ⟨config, hconfig, ha⟩ := hs.known .dual (hs.dual hport1)
    refine ⟨hanswer hs.passed, ⟨config, hanswer ha, ?_⟩, ?_⟩
    · exact Bool.not_eq_true' _ ▸ hconfig
    · exact hanswer (answered_zero rfl (hs.known .port1 hport1))
  · have hport0 := (hall _ (hnew h0 hm) rfl).2 rfl
    exact hanswer (answered_zero rfl (hs.known .port0 hport0))
  · rcases hidle with h | ⟨hp0, hp1⟩
    · exact absurd (hanswer hs.passed) h
    · have hf0 : t.kernel.ps2.port0Operational = s.kernel.ps2.port0Operational :=
        hst.flags .port0
      have hf1 : t.kernel.ps2.port1Operational = s.kernel.ps2.port1Operational :=
        hst.flags .port1
      rcases hs.works with hw | hw
      · exact absurd ((hf0.symm.trans hp0).symm.trans hw) (by decide)
      · exact absurd ((hf1.symm.trans hp1).symm.trans hw) (by decide)
  · rw [hl, List.count_append, List.count_eq_zero.2 (hreset port), Nat.zero_add]
    refine (hcount port).trans ?_
    cases port <;> decide
  · rw [operational_congr hst.flags port]
    exact hall _ (hnew (hreset port) hm)

/-! ### The stages of the initialisation -/

/-- Preparation keeps a quiet log quiet. -/
theorem Quiet.prepares {s t : World ε} (hs : Quiet s.log) (h : Prepares s t) : Quiet t.log := by
  obtain ⟨l, hl, hq⟩ := h
  rw [hl]
  exact hs.append hq

/-- Preparation from a quiet log keeps the order. -/
theorem Prepared.ordered {p : Kern α} (hp : Prepared b p) {s : World ε} (hs : Quiet s.log) :
    Prog.Sat (machine b) Ordered (fun _ t => Quiet t.log) p s :=
  (hp s trivial).mono (fun _ ht => ordered_of_quiet (hs.prepares ht)) fun _ _ ht => hs.prepares ht

/-- The self-test is passed, and the commands `cs` are still to come. -/
structure SelfTested (cs : List Byte) (s : World ε) : Prop where
  quiet : Quiet s.log
  known : Known s
  passed : answerTo .readData CMD_TEST s.log = some 0x55
  fresh : ∀ e ∈ s.log, Avoids cs e
  port1 : s.kernel.ps2.port1Operational = false

/-- The answer to the self-test is in the log of a run that passes it. -/
theorem sat_testPassed (e : ε) (table : Idt) (mem : Mem) :
    Prog.Sat (machine b) (fun _ => True)
      (fun passed t => passed = true → answerTo .readData CMD_TEST t.log = some 0x55)
      (ps2Disable >>= fun config => ps2TestController config) (.boot e table mem) := by
  have hdisable : Stays (Avoids [CMD_TEST]) (fun _ _ => True) ps2Disable :=
    stays_ps2Disable (talks_avoids _) fun c hc => sends_avoids (by
      revert c
      decide)
  rw [Prog.sat_bind]
  refine (sat_stays (fun _ => trivial) (fun _ _ _ _ _ => trivial) b hdisable _).mono
    (fun _ _ => trivial) fun config t ht => sat_ps2TestController ?_
  obtain ⟨l, hl, hE⟩ := ht.log
  rw [hl]
  exact fresh_of_avoids (List.mem_singleton.2 rfl) hE

/-- Behind the self-test, the controller has answered `0x55`. -/
theorem sat_begin (e : ε) (table : Idt) (mem : Mem) :
    Prog.Sat (machine b) Ordered
      (fun passed t => passed = true → SelfTested decisionCommands t)
      (ps2Disable >>= fun config => ps2TestController config) (.boot e table mem) := by
  have hboot : Known (.boot e table mem : World ε) := by
    intro d hd
    cases d <;> cases hd
  have hquiet : Quiet (World.boot e table mem : World ε).log :=
    quiet_of_still fun e he => absurd he List.not_mem_nil
  have hordered := (prepared_ps2Disable.bind prepared_ps2TestController).ordered (b := b) hquiet
  have hbegin := sat_stays sameFlags_refl sameFlags_trans b stays_begin_avoids
    (.boot e table mem)
  refine ((hordered.and (sat_testPassed e table mem)).and hbegin).mono (fun t ht => ht.1.1)
    fun passed t ht => ?_
  obtain ⟨⟨hq, hpassed⟩, hext⟩ := ht
  obtain ⟨l, hl, hE⟩ := hext.log
  refine fun hp => ⟨hq, hboot.grow ⟨l, hl.symm⟩ hext.kernel, hpassed hp, ?_, ?_⟩
  · rw [hl]
    exact hE
  · exact hext.kernel .port1

/-- Detecting the channels comes behind the self-test. -/
theorem SelfTested.detected {s : World ε} (hs : SelfTested decisionCommands s) :
    Prog.Sat (machine b) Ordered (fun _ => SelfTested [CMD_TEST_PORT_0, CMD_TEST_PORT_1])
      ps2DetectChannels s := by
  refine ((prepared_ps2DetectChannels.ordered (b := b) hs.quiet).and
    (sat_ps2DetectChannels hs.known hs.fresh)).mono (fun t ht => ht.1) fun _ t ht => ?_
  obtain ⟨hq, hlearnt⟩ := ht
  obtain ⟨l, hl, hE⟩ := hlearnt.log
  refine ⟨hq, hlearnt.known, ?_, ?_, (hlearnt.others .port1 (by decide)).trans hs.port1⟩
  · rw [hl]
    exact answerTo_append hs.passed l
  · rw [hl]
    exact fun e he => (List.mem_append.1 he).elim (fun h => (hs.fresh e h).mono (by decide)) (hE e)

/-- Testing the ports comes behind the detection. -/
theorem SelfTested.tested {s : World ε} (hs : SelfTested [CMD_TEST_PORT_0, CMD_TEST_PORT_1] s) :
    Prog.Sat (machine b) Ordered
      (fun _ t => Quiet t.log ∧ ((t.kernel.ps2.port0Operational = true ∨
        t.kernel.ps2.port1Operational = true) → Tested t)) ps2TestPorts s := by
  refine (((prepared_ps2TestPorts.ordered (b := b) hs.quiet).and
    (sat_ps2TestPorts hs.known hs.fresh hs.port1)).and (sat_grows b _ s)).mono
    (fun t ht => ht.1.1) fun _ t ht => ?_
  obtain ⟨⟨hq, hknown, hdual⟩, l, hl⟩ := ht
  refine ⟨hq, fun hworks => ⟨hq, hknown, ?_, hdual, hworks⟩⟩
  rw [← hl]
  exact answerTo_append hs.passed l

/-- After the tests the ports are enabled and their devices started. -/
theorem Tested.ordered {s : World ε} (hs : Tested s) (L : Layout) (n : ℕ) :
    Prog.Sat (machine b) Ordered (fun _ _ => True)
      (ps2EnablePorts >>= fun _ => ps2EnableInterrupts >>= fun _ =>
        ps2StartPort L n .port0 >>= fun _ => ps2StartPort L n .port1) s := by
  have hrest := sat_advances_bind (sat_ps2EnablePorts (b := b) s) fun _ t _ =>
    sat_advances_bind (sat_ps2EnableInterrupts (b := b) t) fun _ u _ =>
    sat_advances_bind (sat_ps2StartPort (b := b) L n .port0 u) fun _ w _ =>
    sat_ps2StartPort (b := b) L n .port1 w
  exact hrest.mono (fun w hw => ordered_of_advances hs hw) fun _ _ _ => trivial

/-- **A port is driven only after it has passed its tests.**  In every state of
every run of the initialisation, however deep and against any devices, what has
been done to the ports is in order. -/
theorem ps2Init_ordered (b : Bus ε) (L : Layout) (n : ℕ) (e : ε) (table : Idt) (mem : Mem) :
    ∀ t ∈ (ps2Init L n).states (machine b) (.boot e table mem), Ordered t := by
  suffices h : Prog.Sat (machine b) Ordered (fun _ _ => True) (ps2Init L n)
      (.boot e table mem) from h.states
  rw [ps2Init, ← Prog.bind_bind, Prog.sat_bind]
  refine (sat_begin e table mem).post fun passed t huntested => ?_
  cases passed with
  | false => trivial
  | true =>
    rw [if_pos rfl, Prog.sat_bind]
    refine (huntested rfl).detected.post fun _ u hu => ?_
    rw [Prog.sat_bind]
    refine hu.tested.post fun _ v hv => ?_
    obtain ⟨hq, htested⟩ := hv
    refine (sat_getKernel b _ v).2 ⟨ordered_of_quiet hq, ?_⟩
    rw [Prog.sat_ite]
    refine ⟨fun _ => ?_, fun hworks => ?_⟩
    · exact ((prepared_println _ _).ordered hq).post fun _ _ _ => trivial
    · refine (htested ?_).ordered L n
      cases h0 : v.kernel.ps2.port0Operational with
      | true => exact .inl rfl
      | false =>
        cases h1 : v.kernel.ps2.port1Operational with
        | true => exact .inr rfl
        | false => simp [h0, h1] at hworks

/-- A controller that is always ready and passes its tests, with a mouse on each
of its two ports. -/
def twoMice : Streams where
  status := .const 0x01
  data := [0x00, 0x00, 0x55, 0x01, 0x00, 0x00, 0x00, 0x00, 0xfa, 0xaa, 0x00, 0xfa, 0xfa, 0x00, 0x00,
    0xfa] ++ₛ .const 0
  other := .const 0
  words := .const 0

set_option maxRecDepth 4000 in
/-- The state in which the device on port 1 is addressed for the first time. -/
theorem ps2Init_ordered_twoMice : ∃ t : World Streams,
    ((ps2Init Layout.sample 1).states (machine streamBus)
      (.boot twoMice emptyIdt fun _ => 0))[163]? = some t ∧
    t.log.getLast? = some (.outb PORT_COMMAND CMD_WRITE_INPUT_PORT_1) ∧ Ordered t :=
  ⟨_, rfl, rfl, ps2Init_ordered streamBus Layout.sample 1 twoMice emptyIdt (fun _ => 0) _
    (List.mem_of_getElem? (i := 163) rfl)⟩

end Ps2
end DrewOS

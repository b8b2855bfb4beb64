/-
# Which device a byte of the keyboard driver goes to

A byte written to the data port goes to the device on port 0, unless the command
`0xd4` is written just before it: then it goes to the device on port 1.  The
driver sends its commands through `ps2_send_device_command`, which takes care of
that, and the argument of the scan code command through `ps2_send_data`, which
does not.

`Emits b port p Q` says of a piece of the driver that the writes of its run
satisfy `Q`.  So on port 1 there is a stray byte in every run of the
initialisation, and on port 0 there is none (`ps2KbdInit_routed_iff`).
-/

import DrewOS.Chips.I8042
import DrewOS.Ps2.Termination

namespace DrewOS

open ByteMem Effect

namespace Ps2

/-! ### Writes -/

/-- The writes to ports, in order. -/
def writes (log : List Event) : List (Word × Byte) :=
  log.filterMap fun
    | .outb port data => some (port, data)
    | _ => none

/-- The writes of two stretches, one behind the other. -/
@[simp] theorem writes_append (l l' : List Event) : writes (l ++ l') = writes l ++ writes l' :=
  List.filterMap_append ..

/-- The write that sends the next byte to port 1. -/
def select : Word × Byte := (PORT_COMMAND, CMD_WRITE_INPUT_PORT_1)

/-- Every byte written to the data port goes to the device on `port`. -/
def Routed (port : Port) (ws : List (Word × Byte)) : Prop :=
  ∀ l data r, ws = l ++ (PORT_DATA, data) :: r → (l.getLast? = some select ↔ port = .port1)

/-- A byte is written to the data port right after something else than `select`. -/
def Stray (ws : List (Word × Byte)) : Prop :=
  ∃ l x data r, ws = l ++ x :: (PORT_DATA, data) :: r ∧ x ≠ select

/-- Without the command every byte goes to port 0. -/
theorem routed_port0 {ws : List (Word × Byte)} (h : select ∉ ws) : Routed .port0 ws := by
  rintro l data r rfl
  refine ⟨fun hl => absurd ?_ h, fun hp => Port.noConfusion hp⟩
  exact List.mem_append_left _ (List.mem_of_getLast? hl)

/-- Bytes that are written without their prefix are not routed. -/
theorem Stray.not_routed {ws : List (Word × Byte)} (h : Stray ws) : ¬ Routed .port1 ws := by
  obtain ⟨l, x, data, r, rfl, hx⟩ := h
  intro hr
  have hlast := (hr (l ++ [x]) data r (by rw [List.append_assoc]; rfl)).2 rfl
  rw [List.getLast?_concat] at hlast
  exact hx (Option.some.inj hlast)

/-- Stray bytes are stray in any longer list. -/
theorem Stray.append {ws : List (Word × Byte)} (h : Stray ws) (ws₀ ws₁ : List (Word × Byte)) :
    Stray (ws₀ ++ (ws ++ ws₁)) := by
  obtain ⟨l, x, data, r, rfl, hx⟩ := h
  exact ⟨ws₀ ++ l, x, data, r ++ ws₁, by simp only [List.append_assoc, List.cons_append], hx⟩

/-! ### The writes of a run -/

variable {ε α β : Type} {b : Bus ε}

/-- From `w` to `t` the writes `ws` were made, and the driver's statics are the same. -/
structure Wrote (w t : World ε) (ws : List (Word × Byte)) : Prop where
  writes : writes t.log = writes w.log ++ ws
  kbd : t.kernel.kbd = w.kernel.kbd

/-- What is written in two stretches. -/
theorem Wrote.trans {w t u : World ε} {ws ws' : List (Word × Byte)} (h : Wrote w t ws)
    (h' : Wrote t u ws') : Wrote w u (ws ++ ws') :=
  ⟨by rw [h'.writes, h.writes, List.append_assoc], h'.kbd.trans h.kbd⟩

/-- The statics of the driver are left alone. -/
def SameKbd (k k' : Kernel) : Prop := k'.kbd = k.kbd

/-- Where a run of `p` returns, with the driver started for `port`, its writes satisfy `Q`. -/
def Emits (b : Bus ε) (port : Port) (p : Kern α) (Q : List (Word × Byte) → Prop) : Prop :=
  ∀ w a t, w.kernel.kbd.port = port → p.run (machine b) w = (some a, t) →
    ∃ ws, Wrote w t ws ∧ Q ws

variable {port : Port} {Q Q' R : List (Word × Byte) → Prop}

/-- **The sequence rule.** -/
theorem Emits.bind {p : Kern α} {f : α → Kern β} (hp : Emits b port p Q)
    (hf : ∀ a, Emits b port (f a) Q') (hR : ∀ l r, Q l → Q' r → R (l ++ r)) :
    Emits b port (p >>= f) R := by
  intro w c u hw hrun
  obtain ⟨a, t, hrun₁, hrun₂⟩ := (Prog.run_bind_eq_some _).1 hrun
  obtain ⟨l, hl, hQ⟩ := hp w a t hw hrun₁
  obtain ⟨r, hr, hQ'⟩ := hf a t c u (hl.kbd ▸ hw) hrun₂
  exact ⟨l ++ r, hl.trans hr, hR l r hQ hQ'⟩

/-- Code that leaves the statics of the driver alone, with what its events write. -/
theorem emits_stays {E : Event → Prop} {p : Kern α} (h : Stays E SameKbd p)
    (hQ : ∀ l, (∀ e ∈ l, E e) → Q (writes l)) : Emits b port p Q := by
  intro w a t _ hrun
  have hrefl : ∀ k, SameKbd k k := fun _ => rfl
  have htrans : ∀ k k' k'', SameKbd k k' → SameKbd k' k'' → SameKbd k k'' :=
    fun _ _ _ h h' => h'.trans h
  obtain ⟨⟨l, hl, hE⟩, hk⟩ := (sat_stays hrefl htrans b h w).run hrun
  exact ⟨writes l, ⟨by rw [hl, writes_append], hk⟩, hQ l hE⟩

/-- No write. -/
def Silent : Event → Prop
  | .outb _ _ => False
  | _ => True

/-- Silent events write nothing. -/
theorem writes_of_silent {l : List Event} (h : ∀ e ∈ l, Silent e) : writes l = [] := by
  refine List.filterMap_eq_nil_iff.2 fun e he => ?_
  have hsilent := h e he
  cases e with
  | outb port data => exact absurd hsilent id
  | _ => rfl

theorem polls_silent : Polls Silent := ⟨fun _ => trivial, fun _ => trivial, fun _ _ => trivial⟩

/-- Silent code writes nothing. -/
theorem emits_silent {p : Kern α} (h : Stays Silent SameKbd p) : Emits b port p (· = []) :=
  emits_stays h fun _ => writes_of_silent

/-- Code without a write before. -/
theorem Emits.after {p : Kern α} {f : α → Kern β} (hp : Stays Silent SameKbd p)
    (hf : ∀ a, Emits b port (f a) Q) : Emits b port (p >>= f) Q :=
  (emits_silent hp).bind hf fun l r hl hr => by rwa [hl]

/-- Code without a write behind. -/
theorem Emits.before {p : Kern α} {f : α → Kern β} (hp : Emits b port p Q)
    (hf : ∀ a, Stays Silent SameKbd (f a)) : Emits b port (p >>= f) Q :=
  hp.bind (fun a => emits_silent (hf a)) fun l r hl hr => by rwa [hr, List.append_nil]

theorem Emits.procedure {f : Fn} {p : Kern Unit} (h : Emits b port p Q) :
    Emits b port (procedure f p) Q :=
  Emits.after ⟨trivial, fun _ => trivial⟩ fun _ => h.before fun _ => ⟨trivial, fun _ => trivial⟩

/-! ### Sending -/

/-- A wait finds the controller ready for a byte before its last poll. -/
def Prompt (b : Bus ε) : Prop :=
  ∀ e, ∃ i < DEFAULT_WAIT,
    inputEmpty (b.inb PORT_STATUS ((fun e => (b.inb PORT_STATUS e).2)^[i] e)).1 = true

/-- Such a wait succeeds. -/
theorem run_waitLoop_prompt {n : ℕ} (hn : n < 2 ^ 32) {w : World ε} {i : ℕ} (hi : i < n)
    (hready : inputEmpty
      (b.inb PORT_STATUS ((fun e => (b.inb PORT_STATUS e).2)^[i] w.bus)).1 = true) :
    ∃ v t, (waitLoop commandReady n).run (machine b) w = (some v, t) ∧ v ≠ 0 := by
  have hpoll : commandReady.run (machine b) w =
      (some (inputEmpty (b.inb PORT_STATUS w.bus).1), w.afterInb b PORT_STATUS) := rfl
  induction n generalizing w i with
  | zero => exact absurd hi (Nat.not_lt_zero i)
  | succ n ih =>
    unfold waitLoop
    rw [Prog.run_bind_of_some _ hpoll]
    cases hnow : inputEmpty (b.inb PORT_STATUS w.bus).1 with
    | true =>
      refine ⟨BitVec.ofNat 32 (n + 1), w.afterInb b PORT_STATUS, rfl, fun h0 => ?_⟩
      have hmod := congrArg BitVec.toNat h0
      rw [BitVec.toNat_ofNat, Nat.mod_eq_of_lt hn] at hmod
      exact Nat.succ_ne_zero n hmod
    | false =>
      cases i with
      | zero => exact absurd (hnow.symm.trans hready) Bool.false_ne_true
      | succ i => exact ih (by omega) (by omega) hready rfl

/-- On a prompt bus the wait for input ends at once. -/
theorem run_ps2BufferWait_prompt (hb : Prompt b) (w : World ε) :
    ∃ t, ps2BufferWait.run (machine b) w = (some true, t) := by
  obtain ⟨i, hi, hready⟩ := hb w.bus
  obtain ⟨v, t, hrun, hv⟩ := run_waitLoop_prompt (by decide) hi hready
  refine ⟨t, ?_⟩
  unfold ps2BufferWait
  rw [Prog.run_bind_of_some _ hrun]
  exact congrArg (fun ok => (some ok, t)) (bne_iff_ne.2 hv)

/-- The wait and the write that commands and data bytes share. -/
theorem emits_waitAndWrite (hb : Prompt b) (p : Word) (data : Byte) (text : String) :
    Emits b port (ps2BufferWait >>= fun ok => if ok then writeByte p data else println text [])
      (· = [(p, data)]) := by
  intro w a t hw hrun
  obtain ⟨u, hwait⟩ := run_ps2BufferWait_prompt hb w
  obtain ⟨ws, hws, rfl⟩ :=
    emits_silent (b := b) (stays_ps2BufferWait polls_silent) w true u hw hwait
  rw [Prog.run_bind_of_some _ hwait] at hrun
  have ht : t = u.afterOutb b p data := (Prod.mk.inj hrun).2.symm
  refine ⟨[(p, data)], ?_, rfl⟩
  have hone : Wrote u t [(p, data)] := by
    rw [ht]
    exact ⟨writes_append .., rfl⟩
  exact hws.trans hone

/-- On a prompt bus the byte is written. -/
theorem emits_ps2SendData (hb : Prompt b) (data : Byte) :
    Emits b port (ps2SendData data) (· = [(PORT_DATA, data)]) :=
  emits_waitAndWrite hb PORT_DATA data _

/-- On a prompt bus the command is written. -/
theorem emits_ps2SendCommand (hb : Prompt b) (command : Byte) :
    Emits b port (ps2SendCommand command) (· = [(PORT_COMMAND, command)]) :=
  (emits_waitAndWrite hb PORT_COMMAND command _).procedure

/-- Attempts to send `cmd` to `port`: the last write is `cmd`, and for port 0 there is
no `select`. -/
structure Sent (port : Port) (cmd : Byte) (ws : List (Word × Byte)) : Prop where
  last : ∃ l, ws = l ++ [(PORT_DATA, cmd)]
  select : port = .port0 → select ∉ ws

/-- Attempts of a command, one behind the other. -/
theorem Sent.append {cmd : Byte} {l r : List (Word × Byte)} (hl : Sent port cmd l)
    (hr : Sent port cmd r) : Sent port cmd (l ++ r) := by
  obtain ⟨r', rfl⟩ := hr.last
  refine ⟨⟨l ++ r', (List.append_assoc ..).symm⟩, fun hp hmem => ?_⟩
  rcases List.mem_append.1 hmem with hmem | hmem
  · exact hl.select hp hmem
  · exact hr.select hp hmem

/-- One attempt. -/
theorem emits_attemptCommand (hb : Prompt b) (cmd : Byte) :
    Emits b port (attemptCommand cmd port) (Sent port cmd) := by
  have hread : ∀ _ : Unit, Stays Silent SameKbd tryReadData := fun _ =>
    stays_tryReadData polls_silent
  have hsend : Emits b port (ps2SendData cmd >>= fun _ => tryReadData)
      (· = [(PORT_DATA, cmd)]) := (emits_ps2SendData hb cmd).before hread
  have hdata : (PORT_DATA, cmd) ≠ select := fun h => absurd (Prod.mk.inj h).1 (by decide)
  cases port with
  | port0 =>
    refine Emits.after (stays_onlyIf _ fun hp => Port.noConfusion hp) fun _ w a t hw hrun => ?_
    obtain ⟨ws, hws, rfl⟩ := hsend w a t hw hrun
    exact ⟨_, hws, ⟨[], rfl⟩, fun _ hmem => hdata (List.mem_singleton.1 hmem).symm⟩
  | port1 =>
    refine (emits_ps2SendCommand hb CMD_WRITE_INPUT_PORT_1).bind (fun _ => hsend) ?_
    rintro l r rfl rfl
    exact ⟨⟨[select], rfl⟩, fun hp => Port.noConfusion hp⟩

theorem stays_report (cmd : Byte) (port : Port) (resp : Option Byte) :
    Stays Silent SameKbd (reportResponse cmd port resp) :=
  stays_reportResponse polls_silent cmd port resp

/-- **A device command**, with all its attempts. -/
theorem emits_ps2SendDeviceCommand (hb : Prompt b) (cmd : Byte) (n : ℕ) :
    Emits b port (ps2SendDeviceCommand n cmd port) (Sent port cmd) := by
  induction n with
  | zero => exact fun w a t _ hrun => nomatch hrun
  | succ n ih =>
    refine Emits.procedure fun w a t hw hrun => ?_
    obtain ⟨resp, u, hrun₁, hrun₂⟩ := (Prog.run_bind_eq_some _).1 hrun
    obtain ⟨l, hl, hsent⟩ := emits_attemptCommand hb cmd w resp u hw hrun₁
    by_cases hresend : resp = some RESP_RESEND
    · rw [if_pos hresend] at hrun₂
      obtain ⟨r, hr, hsent'⟩ := ih u a t (hl.kbd ▸ hw) hrun₂
      exact ⟨l ++ r, hl.trans hr, hsent.append hsent'⟩
    · rw [if_neg hresend] at hrun₂
      obtain ⟨r, hr, rfl⟩ := emits_silent (stays_report cmd port resp) u a t (hl.kbd ▸ hw) hrun₂
      exact ⟨l ++ [], hl.trans hr, by rwa [List.append_nil]⟩

/-- `ps2_kbd_send_cmd(cmd)` goes to the port that the driver was started for. -/
theorem emits_ps2KbdSendCmd (hb : Prompt b) (cmd : Byte) (n : ℕ) :
    Emits b port (ps2KbdSendCmd n cmd) (Sent port cmd) := by
  rintro w a t rfl hrun
  exact emits_ps2SendDeviceCommand hb cmd n w a t rfl hrun

/-! ### The scan code set -/

/-- For port 0 there is no `select`. -/
def Clean (port : Port) (ws : List (Word × Byte)) : Prop := port = .port0 → select ∉ ws

/-- Clean writes, one behind the other. -/
theorem Clean.append {l r : List (Word × Byte)} (hl : Clean port l) (hr : Clean port r) :
    Clean port (l ++ r) := by
  intro hp hmem
  rcases List.mem_append.1 hmem with hmem | hmem
  · exact hl hp hmem
  · exact hr hp hmem

/-- What setting the scan code set writes: the argument is stray on port 1, and on
port 0 nothing is. -/
structure Argued (port : Port) (ws : List (Word × Byte)) : Prop where
  stray : Stray ws
  clean : Clean port ws

/-- An argument may be followed by clean writes. -/
theorem Argued.append {l r : List (Word × Byte)} (hl : Argued port l) (hr : Clean port r) :
    Argued port (l ++ r) :=
  ⟨hl.stray.append [] r, hl.clean.append hr⟩

/-- An argument may follow clean writes. -/
theorem Argued.prepend {l r : List (Word × Byte)} (hl : Clean port l) (hr : Argued port r) :
    Argued port (l ++ r) :=
  ⟨by simpa only [List.append_nil] using hr.stray.append l [], hl.append hr.clean⟩

/-- `ps2_kbd_get_scan_code` sends one clean command. -/
theorem emits_ps2KbdGetScanCode (hb : Prompt b) (n : ℕ) :
    Emits b port (ps2KbdGetScanCode n) (Clean port) := by
  have hread : Stays Silent SameKbd ps2ReadData :=
    stays_ps2ReadData polls_silent ⟨trivial, fun _ => trivial⟩
  intro w a t hw hrun
  obtain ⟨ws, hws, hsent⟩ := (emits_ps2KbdSendCmd hb CMD_GET_SCAN_CODE n).before
    (fun _ => hread.bind fun _ => stays_pure _) w a t hw hrun
  exact ⟨ws, hws, hsent.select⟩

/-- **A round.**  The argument follows the command byte, which is no `select`. -/
theorem emits_setScanCodesRound (hb : Prompt b) (n : ℕ) (set : ScanCodeSet) :
    Emits b port (setScanCodesRound n set) (Argued port) := by
  have hget : Emits b port (ps2KbdGetScanCode n >>= fun newSet =>
      if newSet ≠ set then
        println "ps2_kbd_get_scan_code() gives scan code %d but expected %d..."
          [byteArg (getScanCodeSetId newSet), byteArg (getScanCodeSetId set)] >>= fun _ =>
          pure true
      else pure false) (Clean port) := by
    refine (emits_ps2KbdGetScanCode hb n).before fun newSet => stays_ite _ ?_ (stays_pure _)
    exact (stays_println polls_silent _ _).bind fun _ => stays_pure _
  have harg : ∀ data : Byte, (PORT_DATA, data) ≠ select := fun data h =>
    absurd (Prod.mk.inj h).1 (by decide)
  refine (emits_ps2KbdSendCmd hb CMD_SET_SCAN_CODE n).bind (fun _ =>
    (emits_ps2SendData hb (getScanCodeSetId set)).bind (fun _ => hget)
      (R := fun ws => ∃ r, ws = (PORT_DATA, getScanCodeSetId set) :: r ∧ Clean port r) ?_) ?_
  · rintro l r rfl hr
    exact ⟨r, rfl, hr⟩
  · rintro l ws hl ⟨r, rfl, hr⟩
    obtain ⟨l', rfl⟩ := hl.last
    refine ⟨⟨l', (PORT_DATA, CMD_SET_SCAN_CODE), getScanCodeSetId set, r, by simp, harg _⟩, ?_⟩
    have hone : Clean port [(PORT_DATA, getScanCodeSetId set)] := fun _ hmem =>
      harg _ (List.mem_singleton.1 hmem).symm
    exact Clean.append hl.select (hone.append hr)

/-- **All rounds**, by induction on their number. -/
theorem emits_ps2KbdSetScanCodes (hb : Prompt b) (n : ℕ) (set : ScanCodeSet) :
    Emits b port (ps2KbdSetScanCodes n set) (Argued port) := by
  induction n with
  | zero => exact fun w a t _ hrun => nomatch hrun
  | succ n ih =>
    refine Emits.procedure fun w a t hw hrun => ?_
    obtain ⟨wrong, u, hrun₁, hrun₂⟩ := (Prog.run_bind_eq_some _).1 hrun
    obtain ⟨l, hl, hargued⟩ := emits_setScanCodesRound hb n set w wrong u hw hrun₁
    cases wrong with
    | true =>
      obtain ⟨r, hr, hargued'⟩ := ih u a t (hl.kbd ▸ hw) hrun₂
      exact ⟨l ++ r, hl.trans hr, hargued.append hargued'.clean⟩
    | false =>
      have ht : t = u := (Prod.mk.inj hrun₂).2.symm
      exact ⟨l, ht ▸ hl, hargued⟩

/-! ### The initialisation -/

/-- Not the write `select`. -/
def Unselected : Event → Prop
  | .outb port data => (port, data) ≠ select
  | _ => True

/-- Code that does not select port 1 writes no prefix. -/
theorem writes_of_unselected {l : List Event} (h : ∀ e ∈ l, Unselected e) : select ∉ writes l := by
  intro hmem
  obtain ⟨e, he, hwrite⟩ := List.mem_filterMap.1 hmem
  have hun := h e he
  cases e with
  | outb port data => exact hun (Option.some.inj hwrite)
  | _ => exact nomatch hwrite

/-- Starting the keyboard driver sends an argument without its prefix. -/
theorem emits_ps2KbdStart (hb : Prompt b) (L : Layout) (n : ℕ) (p : Port) :
    Emits b port (ps2KbdStart L n p) (Argued port) := by
  have hprint : ∀ text args, Stays Silent SameKbd (println text args) := fun text args =>
    stays_printMessage trivial
  have hmask : Emits b port (irqClearMask PS2_KBD_IRQ) (Clean port) := by
    refine emits_stays (E := Unselected) ?_ fun l hl _ => writes_of_unselected hl
    refine stays_irqClearMask trivial trivial (fun _ => trivial) fun d h => ?_
    exact absurd (Prod.mk.inj h).1 (by decide)
  have hscan : Emits b port (ps2KbdSendCmd n CMD_KEY_ENABLE_SCAN) (Clean port) :=
    fun w a t hw hrun => by
      obtain ⟨ws, hws, hsent⟩ := emits_ps2KbdSendCmd hb CMD_KEY_ENABLE_SCAN n w a t hw hrun
      exact ⟨ws, hws, hsent.select⟩
  refine Emits.after (hprint _ _) fun _ => Emits.after (hprint _ _) fun _ =>
    hmask.bind (fun _ => Emits.after (hprint _ _) fun _ => hscan.bind (fun _ =>
      Emits.after (hprint _ _) fun _ => (emits_ps2KbdSetScanCodes hb n .set1).before fun _ => ?_)
        fun l r => Argued.prepend) fun l r => Argued.prepend
  exact (hprint _ _).bind fun _ => (stays_modifyKernel (F := SameKbd) fun _ => rfl).bind fun _ =>
    (hprint _ _).bind fun _ => (stays_int trivial).bind fun _ => hprint _ _

/-- The writes between two states of a run. -/
def writesSince (w t : World ε) : List (Word × Byte) :=
  (writes t.log).drop (writes w.log).length

/-- What `ps2_kbd_init` writes: nothing when the driver is started already. -/
theorem writesSince_ps2KbdInit (hb : Prompt b) {L : Layout} {n : ℕ} {w t : World ε}
    (h : (ps2KbdInit L n port).run (machine b) w = (some (), t)) :
    (w.kernel.kbd.vector ≠ 0 → writesSince w t = []) ∧
      (w.kernel.kbd.vector = 0 → Argued port (writesSince w t)) := by
  unfold ps2KbdInit procedure at h
  rw [Prog.run_bind_of_some _ (run_enter ..)] at h
  obtain ⟨_, u, hbody, hleave⟩ := (Prog.run_bind_eq_some _).1 h
  have ht : t = u.say (.leave (.kbdInit port) none) := (Prod.mk.inj hleave).2.symm
  rw [Prog.run_bind_of_some _ (run_getKernel ..), World.say_kernel] at hbody
  have hmarks : ∀ {ws : List (Word × Byte)}, writes u.log = writes w.log ++ ws →
      writesSince w t = ws := by
    intro ws hws
    rw [writesSince, ht, World.say_log, writes_append, hws, List.append_assoc, List.drop_left]
    exact List.append_nil ws
  constructor
  · intro hvector
    rw [if_pos hvector] at hbody
    have hu : u = w.say (.enter (.kbdInit port)) := (Prod.mk.inj hbody).2.symm
    exact hmarks (by rw [hu, World.say_log, writes_append]; rfl)
  · intro hvector
    rw [if_neg (not_not.2 hvector)] at hbody
    obtain ⟨_, v, hmodify, hstart⟩ := (Prog.run_bind_eq_some _).1 hbody
    have hv : v = (machine b (.modify fun k =>
        { k with kbd := ⟨picGetVector k.pic PS2_KBD_IRQ, port⟩ })
        (w.say (.enter (.kbdInit port)))).2 := (Prod.mk.inj hmodify).2.symm
    obtain ⟨ws, hws, hargued⟩ := emits_ps2KbdStart hb L n port v () u (by rw [hv]) hstart
    have hlog : writes v.log = writes w.log := by
      rw [hv]
      exact (writes_append ..).trans (List.append_nil _)
    rwa [hmarks (by rw [hws.writes, hlog])]

/-- **Routing.**  In a run of `ps2_kbd_init(port)` against a prompt controller that
returns, every byte goes to the device on `port` if and only if that is port 0, or
the driver is started already and does nothing. -/
theorem ps2KbdInit_routed_iff (hb : Prompt b) {L : Layout} {n : ℕ} {w t : World ε}
    (h : (ps2KbdInit L n port).run (machine b) w = (some (), t)) :
    Routed port (writesSince w t) ↔ port = .port0 ∨ w.kernel.kbd.vector ≠ 0 := by
  obtain ⟨hstarted, hfresh⟩ := writesSince_ps2KbdInit hb h
  by_cases hvector : w.kernel.kbd.vector = 0
  · cases port with
    | port0 => exact iff_of_true (routed_port0 ((hfresh hvector).clean rfl)) (.inl rfl)
    | port1 =>
      refine iff_of_false (hfresh hvector).stray.not_routed ?_
      exact fun h => h.elim (fun hp => Port.noConfusion hp) fun hne => hne hvector
  · refine iff_of_true ?_ (.inr hvector)
    rw [hstarted hvector]
    intro l data r hnil
    exact absurd hnil.symm (List.append_ne_nil_of_right_ne_nil _ (List.cons_ne_nil _ _))

/-- The chip takes every byte at once. -/
theorem prompt_i8042 {δ : Type} (c : I8042 δ) : Prompt c.bus := by
  intro s
  refine ⟨0, by decide, ?_⟩
  show inputEmpty s.status = true
  unfold I8042.State.status
  split_ifs <;> decide

/-- Two ports, and a device behind each that acknowledges every byte. -/
def acknowledging : I8042 Unit where
  dual := true
  test _ := 0
  afterTest config := config
  answer _ _ _ := ([RESP_ACK], ())

/-- The machine before a driver is started. -/
def beforeDriver : World (I8042.State Unit) := .boot (.start 0 [] ()) emptyIdt fun _ => 0

/-- The driver is started for port 1, and all calls return. -/
theorem returns_acknowledging : ∃ t,
    (ps2KbdInit Layout.sample 2 .port1).run (machine acknowledging.bus) beforeDriver =
      (some (), t) :=
  ⟨_, rfl⟩

/-- The condition at a controller whose devices acknowledge every byte. -/
theorem ps2KbdInit_routed_iff_acknowledging : ∃ t,
    (ps2KbdInit Layout.sample 2 .port1).run (machine acknowledging.bus) beforeDriver =
      (some (), t) ∧
    (Routed .port1 (writesSince beforeDriver t) ↔
      Port.port1 = .port0 ∨ beforeDriver.kernel.kbd.vector ≠ 0) := by
  obtain ⟨t, ht⟩ := returns_acknowledging
  exact ⟨t, ht, ps2KbdInit_routed_iff (prompt_i8042 _) ht⟩

/-- The argument byte of that run goes to port 0. -/
theorem not_routed_acknowledging : ∃ t,
    (ps2KbdInit Layout.sample 2 .port1).run (machine acknowledging.bus) beforeDriver =
      (some (), t) ∧
    ¬ Routed .port1 (writesSince beforeDriver t) := by
  obtain ⟨t, ht⟩ := returns_acknowledging
  exact ⟨t, ht, ((writesSince_ps2KbdInit (prompt_i8042 _) ht).2 rfl).stray.not_routed⟩

end Ps2
end DrewOS

/-
# A keyboard on port 0

A closed model of a keyboard, as the comment on `CMD_SET_SCAN_CODE` in
`src/driver/ps2_keyboard.c` describes it, behind a controller that passes bytes on
at once.  A byte may be answered by a request to resend, any finite number of
times: `resends` has these numbers, one for each byte that is taken in the end.
What the keyboard makes of other bytes is a parameter.

The driver finds a byte in an empty buffer too, because a wait for a controller
that is never ready reports success (`run_tryReadData`); which byte that is is
up to the controller (`stale`).
-/

import DrewOS.Ps2.Ready
import DrewOS.Effect.Fuel
import DrewOS.Ps2.Keyboard
import Mathlib.Data.Stream.Init

namespace DrewOS

open ByteMem Effect Ps2

/-- The number of a scan code set. -/
def ScanCodeSet.number : ScanCodeSet → Byte
  | .set1 => 1
  | .set2 => 2
  | .set3 => 3

/-- The scan code set with a number. -/
def ScanCodeSet.ofNumber (d : Byte) : Option ScanCodeSet :=
  [ScanCodeSet.set1, .set2, .set3].find? fun set => set.number == d

/-- A keyboard: its scan code set, whether it waits for the argument of a command,
and how often it asks for each byte again. -/
structure Keyboard where
  set : ScanCodeSet
  waiting : Bool
  resends : Stream' ℕ

namespace Keyboard

/-- What a keyboard makes of the bytes that the comment says nothing about. -/
abbrev Other : Type := Byte → Keyboard → List Byte × Keyboard

section Model

variable (other : Other)

/-- A byte that is taken. -/
def accept (d : Byte) (k : Keyboard) : List Byte × Keyboard :=
  if d = CMD_SET_SCAN_CODE then ([RESP_ACK], { k with waiting := true })
  else if k.waiting then
    if d = 0 then ([RESP_ACK, k.set.number], { k with waiting := false })
    else match ScanCodeSet.ofNumber d with
      | some set => ([RESP_ACK], { k with set := set, waiting := false })
      | none => other d k
  else other d k

/-- A byte that is sent to the keyboard. -/
def answer (d : Byte) (k : Keyboard) : List Byte × Keyboard :=
  if k.resends.head = 0 then accept other d { k with resends := k.resends.tail }
  else ([RESP_RESEND], { k with resends := .cons (k.resends.head - 1) k.resends.tail })

/-- The keyboard and its controller: the bytes to be read, and those that are found
in the buffer when it is empty. -/
structure State where
  keyboard : Keyboard
  output : List Byte
  stale : Stream' Byte

/-- The status: never busy, and whether there is a byte to be read. -/
def State.status (s : State) : Byte := if s.output = [] then 0 else 1

/-- A read of the data port. -/
def State.read (s : State) : Byte × State :=
  match s.output with
  | r :: rest => (r, { s with output := rest })
  | [] => (s.stale.head, { s with stale := s.stale.tail })

/-- A write to the data port. -/
def State.write (d : Byte) (s : State) : State :=
  { s with
    keyboard := (answer other d s.keyboard).2
    output := s.output ++ (answer other d s.keyboard).1 }

/-- The keyboard at its ports. -/
def bus : Bus State where
  inb port s :=
    if port = PORT_STATUS then (s.status, s)
    else if port = PORT_DATA then s.read
    else (0, s)
  inw _ s := (0, s)
  outb port d s := if port = PORT_DATA then s.write other d else s

end Model

variable {other : Other} {α β : Type}

/-! ### The driver's exchanges with the keyboard -/

/-- From `s`, with enough depth, `P` returns `a` in `s'` and leaves the statics alone. -/
def Takes (other : Other) (P : ℕ → Kern α) (s : State) (a : α) (s' : State) : Prop :=
  ∃ N, ∀ n, N ≤ n → ∀ w : World State, w.bus = s → w.kernel.kbd.port = .port0 →
    ∃ t, (P n).run (machine (bus other)) w = (some a, t) ∧ t.bus = s' ∧ t.kernel = w.kernel

variable {s s' s'' : State}

/-- **The sequence rule.** -/
theorem Takes.bind {P : ℕ → Kern α} {F : ℕ → α → Kern β} {a : α} {c : β}
    (hP : Takes other P s a s') (hF : Takes other (fun n => F n a) s' c s'') :
    Takes other (fun n => P n >>= F n) s c s'' := by
  obtain ⟨N, hN⟩ := hP
  obtain ⟨M, hM⟩ := hF
  refine ⟨max N M, fun n hn w hw hport => ?_⟩
  obtain ⟨t, hrun, ht, hk⟩ := hN n (le_of_max_le_left hn) w hw hport
  obtain ⟨u, hrun', hu, hk'⟩ := hM n (le_of_max_le_right hn) t ht (by rw [hk]; exact hport)
  exact ⟨u, by rw [Prog.run_bind_of_some _ hrun, hrun'], hu, hk'.trans hk⟩

/-- The code returns in the state described, with the statics unchanged. -/
theorem Takes.returns {P : ℕ → Kern α} {a : α} (h : Takes other P s a s') {w : World State}
    (hw : w.bus = s) (hport : w.kernel.kbd.port = .port0) :
    ∃ t, Returns (machine (bus other)) P w a t ∧ t.bus = s' ∧ t.kernel = w.kernel := by
  obtain ⟨N, hN⟩ := h
  obtain ⟨t, hrun, ht, hk⟩ := hN N le_rfl w hw hport
  exact ⟨t, ⟨N, hrun⟩, ht, hk⟩

/-- What holds at every depth from the next one on. -/
theorem Takes.succ {P : ℕ → Kern α} {a : α} (h : Takes other (fun n => P (n + 1)) s a s') :
    Takes other P s a s' := by
  obtain ⟨N, hN⟩ := h
  refine ⟨N + 1, fun n hn w hw hport => ?_⟩
  obtain ⟨n, rfl⟩ : ∃ k, n = k + 1 := ⟨n - 1, by omega⟩
  exact hN n (Nat.le_of_succ_le_succ hn) w hw hport

theorem takes_ret (a : α) : Takes other (fun _ => .ret a) s a s :=
  ⟨0, fun _ _ w hw _ => ⟨w, rfl, hw, rfl⟩⟩

/-- Printing leaves the keyboard alone. -/
theorem takes_println (text : String) (args : List Arg) :
    Takes other (fun _ => println text args) s () s :=
  ⟨0, fun _ _ _ hw _ => ⟨_, rfl, hw, rfl⟩⟩

/-- The marks of a call leave the keyboard alone. -/
theorem Takes.procedure {f : Fn} {P : ℕ → Kern Unit} (h : Takes other P s () s') :
    Takes other (fun n => procedure f (P n)) s () s' := by
  have henter : Takes other (fun _ => enter f) s () s := ⟨0, fun _ _ _ hw _ => ⟨_, rfl, hw, rfl⟩⟩
  have hleave : Takes other (fun _ => leave f none) s' () s' :=
    ⟨0, fun _ _ _ hw _ => ⟨_, rfl, hw, rfl⟩⟩
  exact henter.bind (h.bind hleave)

/-- The keyboard takes every byte at once. -/
theorem ready_bus : AlwaysReady (bus other) where
  poll _ := rfl
  input s := by
    show ((s.status &&& 0x02) == 0) = true
    unfold State.status
    split_ifs <;> rfl

variable (other) in
/-- `ps2_send_data` gives the byte to the keyboard. -/
theorem takes_ps2SendData (d : Byte) (s : State) :
    Takes other (fun _ => ps2SendData d) s () (s.write other d) := by
  refine ⟨0, fun _ _ w hw _ => ?_⟩
  obtain ⟨t, hrun, ht, hk⟩ := run_ps2SendData_ready (@ready_bus other) d w
  rw [hw] at ht
  exact ⟨t, hrun, ht, hk⟩

/-- A poll of an empty buffer. -/
theorem run_responseReady_empty {w : World State} (hw : w.bus.output = []) :
    responseReady.run (machine (bus other)) w =
      (some false, w.afterInb (bus other) PORT_STATUS) := by
  have hstatus : ((w.bus.status &&& 0x01) != 0) = false := by
    rw [State.status, if_pos hw]
    decide
  exact congrArg (fun r => (some r, w.afterInb (bus other) PORT_STATUS)) hstatus

variable (other) in
/-- A wait for a byte that does not come takes the counter below zero. -/
theorem run_waitLoop_empty (n : ℕ) {w : World State} (hw : w.bus.output = []) :
    ∃ t, (waitLoop responseReady n).run (machine (bus other)) w = (some (0 - 1), t) ∧
      t.bus = w.bus ∧ t.kernel = w.kernel := by
  induction n generalizing w with
  | zero =>
    unfold waitLoop
    rw [Prog.run_bind_of_some _ (run_responseReady_empty hw)]
    exact ⟨_, rfl, rfl, rfl⟩
  | succ n ih =>
    unfold waitLoop
    rw [Prog.run_bind_of_some _ (run_responseReady_empty hw)]
    exact ih (w := w.afterInb (bus other) PORT_STATUS) hw

variable (other) in
/-- A wait for a byte always succeeds. -/
theorem run_responseWait (w : World State) :
    ∃ t, responseWait.run (machine (bus other)) w = (some true, t) ∧
      t.bus = w.bus ∧ t.kernel = w.kernel := by
  by_cases hw : w.bus.output = []
  · obtain ⟨t, hrun, ht, hk⟩ := run_waitLoop_empty other DEFAULT_WAIT hw
    exact ⟨t, Prog.run_bind_of_some _ hrun, ht, hk⟩
  · have hfull : Full (bus other) w.bus := by
      show ((w.bus.status &&& 0x01) != 0) = true
      rw [State.status, if_neg hw]
      rfl
    exact ⟨_, run_responseWait_ready hfull, rfl, rfl⟩

variable (other) in
/-- **A read always finds a byte.** -/
theorem takes_tryReadData (s : State) :
    Takes other (fun _ => tryReadData) s (some s.read.1) s.read.2 := by
  refine ⟨0, fun _ _ w hw _ => ?_⟩
  obtain ⟨t, hrun, ht, hk⟩ := run_responseWait other w
  refine ⟨t.afterInb (bus other) PORT_DATA, ?_, ?_, hk⟩
  · unfold tryReadData
    rw [Prog.run_bind_of_some _ hrun, if_pos rfl, Prog.run_bind_of_some _ (run_readByte ..), ← hw,
      ← ht]
    rfl
  · rw [← hw, ← ht]
    rfl

/-- `ps2_read_data` takes the next byte of the keyboard. -/
theorem takes_ps2ReadData : Takes other (fun _ => ps2ReadData) s s.read.1 s.read.2 := by
  have henter : Takes other (fun _ => enter .readData) s () s :=
    ⟨0, fun _ _ _ hw _ => ⟨_, rfl, hw, rfl⟩⟩
  have hleave : Takes other (fun _ => leave .readData (some s.read.1)) s.read.2 () s.read.2 :=
    ⟨0, fun _ _ _ hw _ => ⟨_, rfl, hw, rfl⟩⟩
  unfold ps2ReadData function
  refine henter.bind (Takes.bind ?_ (hleave.bind (takes_ret _)))
  exact (takes_tryReadData other s).bind (takes_ret s.read.1)

/-! ### Commands -/

/-- Sending a byte and reading the next one. -/
def State.exchange (other : Other) (d : Byte) (s : State) : Byte × State := (s.write other d).read

/-- An attempt is one exchange with the keyboard. -/
theorem takes_attemptCommand (cmd : Byte) :
    Takes other (fun _ => attemptCommand cmd .port0) s (some (s.exchange other cmd).1)
      (s.exchange other cmd).2 :=
  (takes_ret ()).bind ((takes_ps2SendData other cmd s).bind (takes_tryReadData other _))

/-- Reporting a response leaves the keyboard alone. -/
theorem takes_reportResponse (cmd : Byte) (r : Byte) :
    Takes other (fun _ => reportResponse cmd .port0 (some r)) s () s := by
  by_cases h : r = RESP_ACK
  · simp only [reportResponse, if_pos h]
    exact takes_ret ()
  · simp only [reportResponse, if_neg h]
    exact takes_println _ _

/-- A command whose answer is no request to resend. -/
theorem takes_command_done {cmd : Byte} (h : (s.exchange other cmd).1 ≠ RESP_RESEND) :
    Takes other (fun n => ps2SendDeviceCommand n cmd .port0) s () (s.exchange other cmd).2 := by
  refine Takes.succ (Takes.procedure ((takes_attemptCommand cmd).bind ?_))
  have hne : some (s.exchange other cmd).1 ≠ some RESP_RESEND := fun he => h (Option.some.inj he)
  simp only [if_neg hne]
  exact takes_reportResponse cmd _

/-- A command that the keyboard asks for again. -/
theorem takes_command_again {cmd : Byte} (h : (s.exchange other cmd).1 = RESP_RESEND)
    (hrest : Takes other (fun n => ps2SendDeviceCommand n cmd .port0) (s.exchange other cmd).2 ()
      s') :
    Takes other (fun n => ps2SendDeviceCommand n cmd .port0) s () s' := by
  refine Takes.succ (Takes.procedure ((takes_attemptCommand cmd).bind ?_))
  simp only [if_pos (congrArg some h)]
  exact hrest

end Keyboard

end DrewOS

/-
# The scan code set

`ps2_kbd_get_scan_code` and `ps2_kbd_set_scan_codes` against the model of a
keyboard.  The driver asks for the set without sending the argument 0, so no
answer follows the acknowledgement, and it reads what is left in the buffer: a
stale byte, or the answer that is one behind since the driver never reads the
answer to the argument.  Any such answer is taken for scan code set 1.

So setting another set never returns (`not_returns_setScanCodes`), and setting
set 1 leaves the two sides in step in one case only (`inStep_iff`): the argument
is taken at once, and the question after it is answered by a request to resend.
-/

import DrewOS.Chips.Keyboard
import DrewOS.Ps2.Termination

namespace DrewOS

open ByteMem Effect Ps2

namespace Keyboard

variable {other : Other} {c : ScanCodeSet} {waiting : Bool} {m : ℕ} {r : Stream' ℕ}
  {stale : Stream' Byte}

/-! ### What the keyboard answers -/

/-- A keyboard with requests left asks to resend. -/
theorem answer_succ (d : Byte) :
    answer other d ⟨c, waiting, .cons (m + 1) r⟩ = ([RESP_RESEND], ⟨c, waiting, .cons m r⟩) := rfl

/-- The argument of the command chooses the set. -/
theorem answer_argument_zero (set : ScanCodeSet) :
    answer other (getScanCodeSetId set) ⟨c, true, .cons 0 r⟩ = ([RESP_ACK], ⟨set, false, r⟩) := by
  cases set <;> rfl

/-! ### The command with nothing to be read -/

variable (other) in
/-- The command is repeated until it is taken. -/
theorem takes_command_empty (c : ScanCodeSet) (waiting : Bool) (m : ℕ) (r : Stream' ℕ)
    (stale : Stream' Byte) :
    Takes other (fun n => ps2SendDeviceCommand n CMD_SET_SCAN_CODE .port0)
      ⟨⟨c, waiting, .cons m r⟩, [], stale⟩ () ⟨⟨c, true, r⟩, [], stale⟩ := by
  induction m with
  | zero => exact takes_command_done (show RESP_ACK ≠ RESP_RESEND by decide)
  | succ m ih => exact takes_command_again rfl ih

/-! ### The command with one byte to be read -/

/-- The answer to the command that is read one exchange later. -/
def lagging (r : Stream' ℕ) : Byte := if r.head = 0 then RESP_ACK else RESP_RESEND

variable (other) in
/-- The command is answered, and its argument waited for. -/
theorem answer_command (k : Keyboard) : ∃ k', answer other CMD_SET_SCAN_CODE k =
    ([lagging k.resends], k') ∧ k'.set = k.set ∧
      k'.waiting = (k.waiting || decide (k.resends.head = 0)) := by
  unfold answer lagging
  split_ifs with h
  · exact ⟨_, rfl, rfl, by simp [h]⟩
  · exact ⟨_, rfl, rfl, by simp [h]⟩

variable (other) in
/-- An acknowledgement is still to be read: it ends the command, and the answer to the
command takes its place. -/
theorem takes_command_ack (k : Keyboard) (stale : Stream' Byte) : ∃ k',
    Takes other (fun n => ps2SendDeviceCommand n CMD_SET_SCAN_CODE .port0) ⟨k, [RESP_ACK], stale⟩
      () ⟨k', [lagging k.resends], stale⟩ ∧
    k'.set = k.set ∧ k'.waiting = (k.waiting || decide (k.resends.head = 0)) := by
  obtain ⟨k', hk, hset, hwaiting⟩ := answer_command other k
  refine ⟨k', ?_, hset, hwaiting⟩
  have hexchange : (⟨k, [RESP_ACK], stale⟩ : State).exchange other CMD_SET_SCAN_CODE =
      (RESP_ACK, ⟨k', [lagging k.resends], stale⟩) := by
    simp only [State.exchange, State.write, State.read, hk, List.cons_append, List.nil_append]
  have hack : ((⟨k, [RESP_ACK], stale⟩ : State).exchange other CMD_SET_SCAN_CODE).1 ≠
      RESP_RESEND := by
    rw [hexchange]
    show RESP_ACK ≠ RESP_RESEND
    decide
  have hdone := takes_command_done hack
  rwa [hexchange] at hdone

variable (other) in
/-- A request to resend is still to be read: the command is repeated until the keyboard
has taken it, and once more. -/
theorem takes_command_resend (c : ScanCodeSet) (waiting : Bool) (m : ℕ) (r : Stream' ℕ)
    (stale : Stream' Byte) : ∃ r',
    Takes other (fun n => ps2SendDeviceCommand n CMD_SET_SCAN_CODE .port0)
      ⟨⟨c, waiting, .cons m r⟩, [RESP_RESEND], stale⟩ () ⟨⟨c, true, r'⟩, [lagging r], stale⟩ := by
  induction m with
  | zero =>
    obtain ⟨⟨c', w', r'⟩, hack, hset, hwaiting⟩ :=
      takes_command_ack other ⟨c, true, r⟩ stale
    obtain rfl : c' = c := hset
    obtain rfl : w' = true := hwaiting
    exact ⟨r', takes_command_again rfl hack⟩
  | succ m ih =>
    obtain ⟨r', h⟩ := ih
    exact ⟨r', takes_command_again rfl h⟩

/-- The byte that answers a command, taken for a set, is set 1. -/
theorem getScanCodeSet_lagging (r : Stream' ℕ) : getScanCodeSet (lagging r) = .set1 := by
  unfold lagging
  split_ifs <;> rfl

/-! ### The two functions -/

/-- `ps2_kbd_send_cmd(cmd)` goes to port 0. -/
theorem takes_ps2KbdSendCmd {cmd : Byte} {s s' : State}
    (h : Takes other (fun n => ps2SendDeviceCommand n cmd .port0) s () s') :
    Takes other (fun n => ps2KbdSendCmd n cmd) s () s' := by
  obtain ⟨N, hN⟩ := h
  refine ⟨N, fun n hn w hw hport => ?_⟩
  obtain ⟨t, hrun, ht⟩ := hN n hn w hw hport
  refine ⟨t, ?_, ht⟩
  unfold ps2KbdSendCmd
  rw [Prog.run_bind_of_some _ (run_getKernel ..), hport]
  exact hrun

variable (other) in
/-- **Asking for the set** with nothing to be read: the answer is a stale byte. -/
theorem takes_ps2KbdGetScanCode (c : ScanCodeSet) (waiting : Bool) (m : ℕ) (r : Stream' ℕ)
    (stale : Stream' Byte) :
    Takes other (fun n => ps2KbdGetScanCode n) ⟨⟨c, waiting, .cons m r⟩, [], stale⟩
      (getScanCodeSet stale.head) ⟨⟨c, true, r⟩, [], stale.tail⟩ :=
  (takes_ps2KbdSendCmd (takes_command_empty other c waiting m r stale)).bind
    (takes_ps2ReadData.bind (takes_ret _))

/-- With one byte to be read the answer is set 1. -/
theorem takes_get_lagging {s : State} {k : Keyboard} {r : Stream' ℕ}
    (h : Takes other (fun n => ps2SendDeviceCommand n CMD_SET_SCAN_CODE .port0) s ()
      ⟨k, [lagging r], stale⟩) :
    Takes other (fun n => ps2KbdGetScanCode n) s .set1 ⟨k, [], stale⟩ := by
  have hread : Takes other (fun _ => ps2ReadData >>= fun id => .ret (getScanCodeSet id))
      ⟨k, [lagging r], stale⟩ (getScanCodeSet (lagging r)) ⟨k, [], stale⟩ :=
    takes_ps2ReadData.bind (takes_ret _)
  rw [getScanCodeSet_lagging] at hread
  exact (takes_ps2KbdSendCmd h).bind hread

/-- What a round makes of the set that it reads back. -/
theorem takes_verdict (set : ScanCodeSet) {P : ℕ → Kern ScanCodeSet} {s s' : State}
    (h : Takes other P s .set1 s') :
    Takes other (fun n => P n >>= fun newSet =>
      if newSet ≠ set then
        println "ps2_kbd_get_scan_code() gives scan code %d but expected %d..."
          [byteArg (getScanCodeSetId newSet), byteArg (getScanCodeSetId set)] >>= fun _ =>
          pure true
      else pure false) s (decide (set ≠ .set1)) s' := by
  refine h.bind ?_
  by_cases hset : set = .set1
  · subst hset
    exact takes_ret false
  · simp only [if_pos (Ne.symm hset), decide_eq_true hset]
    exact (takes_println _ _).bind (takes_ret true)

variable (other) in
/-- **A round.**  It reads set 1 back, whatever it was asked to set.  The keyboard has
the set and waits for nothing only if it took the argument at once, and asked for
the next command byte again. -/
theorem takes_setScanCodesRound (k : Keyboard) (stale : Stream' Byte) (set : ScanCodeSet) :
    ∃ k',
    Takes other (fun n => setScanCodesRound n set) ⟨k, [], stale⟩ (decide (set ≠ .set1))
      ⟨k', [], stale⟩ ∧
    (k'.set = set ∧ k'.waiting = false ↔ k.resends.get 1 = 0 ∧ 0 < k.resends.get 2) := by
  obtain ⟨c, waiting, resends⟩ := k
  obtain ⟨m, resends, rfl⟩ : ∃ m r, resends = Stream'.cons m r := ⟨_, _, (Stream'.eta _).symm⟩
  obtain ⟨m₁, r, rfl⟩ : ∃ m₁ r, resends = Stream'.cons m₁ r := ⟨_, _, (Stream'.eta _).symm⟩
  have hsend := takes_ps2KbdSendCmd
    (takes_command_empty other c waiting m (.cons m₁ r) stale)
  cases m₁ with
  | zero =>
    obtain ⟨k', hcommand, hset, hwaiting⟩ := takes_command_ack other ⟨set, false, r⟩ stale
    refine ⟨k', ?_, ?_⟩
    · have harg := takes_ps2SendData other (getScanCodeSetId set) ⟨⟨c, true, .cons 0 r⟩, [], stale⟩
      rw [State.write, answer_argument_zero] at harg
      exact hsend.bind (harg.bind (takes_verdict set (takes_get_lagging hcommand)))
    · refine and_congr (iff_of_true hset rfl) ?_
      rw [hwaiting, Bool.false_or, decide_eq_false_iff_not]
      exact Nat.pos_iff_ne_zero.symm
  | succ m₁ =>
    obtain ⟨r', hcommand⟩ := takes_command_resend other c true m₁ r stale
    refine ⟨⟨c, true, r'⟩, ?_, ?_⟩
    · have harg := takes_ps2SendData other (getScanCodeSetId set)
        ⟨⟨c, true, .cons (m₁ + 1) r⟩, [], stale⟩
      rw [State.write, answer_succ] at harg
      exact hsend.bind (harg.bind (takes_verdict set (takes_get_lagging hcommand)))
    · refine iff_of_false (fun h => Bool.noConfusion h.2) fun h => ?_
      exact Nat.succ_ne_zero m₁ h.1

/-- Setting set 1 takes one round. -/
theorem takes_ps2KbdSetScanCodes {k k' : Keyboard}
    (h : Takes other (fun n => setScanCodesRound n .set1) ⟨k, [], stale⟩ false ⟨k', [], stale⟩) :
    Takes other (fun n => ps2KbdSetScanCodes n .set1) ⟨k, [], stale⟩ () ⟨k', [], stale⟩ := by
  obtain ⟨N, hN⟩ := Takes.procedure (f := .kbdSetScanCodes .set1)
    (h.bind (F := fun n wrong => if wrong then ps2KbdSetScanCodes n .set1 else return ())
      (takes_ret ()))
  exact Takes.succ ⟨N, hN⟩

/-- **Setting another set does not return.**  Every round reads set 1 back, by
induction on the depth. -/
theorem not_returns_setScanCodes {set : ScanCodeSet} (hset : set ≠ .set1) (n : ℕ)
    {w : World State} (hw : w.bus.output = []) (hport : w.kernel.kbd.port = .port0)
    (t : World State) :
    (ps2KbdSetScanCodes n set).run (machine (bus other)) w ≠ (some (), t) := by
  intro hrun
  induction n generalizing w t with
  | zero => exact nomatch hrun
  | succ n ih =>
    unfold ps2KbdSetScanCodes procedure at hrun
    rw [Prog.run_bind_of_some _ (run_enter ..)] at hrun
    obtain ⟨_, u, hbody, -⟩ := (Prog.run_bind_eq_some _).1 hrun
    obtain ⟨wrong, v, hround, hrest⟩ := (Prog.run_bind_eq_some _).1 hbody
    have hbus : (w.say (.enter (.kbdSetScanCodes set))).bus =
        ⟨w.bus.keyboard, [], w.bus.stale⟩ := by rw [World.say_bus, ← hw]
    obtain ⟨k', htakes, -⟩ :=
      takes_setScanCodesRound other w.bus.keyboard w.bus.stale set
    obtain ⟨v', hreturns, hv, hk⟩ := htakes.returns hbus hport
    obtain ⟨rfl, rfl⟩ := Returns.unique (decided_setScanCodesRound (b := bus other) set).growing
      ⟨n, hround⟩ hreturns
    rw [if_pos (decide_eq_true hset)] at hrest
    exact ih (by rw [hv]) (by rw [hk]; exact hport) u hrest

/-! ### Staying in step -/

/-- The two sides stay in step, from `w` on: asking for the set returns it, and when
setting `set` returns, the keyboard has it, waits for nothing, and nothing is left
to be read. -/
structure InStep (other : Other) (w : World State) (set : ScanCodeSet) : Prop where
  get : ∃ t, Returns (machine (bus other)) (fun n => ps2KbdGetScanCode n) w w.bus.keyboard.set t
  set : ∀ t, Returns (machine (bus other)) (fun n => ps2KbdSetScanCodes n set) w () t →
    t.bus.keyboard.set = set ∧ t.bus.keyboard.waiting = false ∧ t.bus.output = []

/-- More fuel lets the reading go on. -/
theorem growing_ps2KbdGetScanCode : Growing fun n => ps2KbdGetScanCode n :=
  (decided_ps2KbdSendCmd (b := streamBus) CMD_GET_SCAN_CODE).growing.bind fun _ =>
    growing_const _

/-- Asking for the set succeeds just when the stale byte happens to name it. -/
theorem returns_get_iff {w : World State} (hw : w.bus.output = [])
    (hport : w.kernel.kbd.port = .port0) (set : ScanCodeSet) :
    (∃ t, Returns (machine (bus other)) (fun n => ps2KbdGetScanCode n) w set t) ↔
      getScanCodeSet w.bus.stale.head = set := by
  have hbus : w.bus = ⟨⟨w.bus.keyboard.set, w.bus.keyboard.waiting,
      .cons w.bus.keyboard.resends.head w.bus.keyboard.resends.tail⟩, [], w.bus.stale⟩ := by
    rw [Stream'.eta, ← hw]
  obtain ⟨t, hreturns, -⟩ := (takes_ps2KbdGetScanCode other ..).returns hbus hport
  constructor
  · rintro ⟨t', ht'⟩
    exact (hreturns.unique growing_ps2KbdGetScanCode ht').1
  · rintro rfl
    exact ⟨t, hreturns⟩

/-- What setting a set leaves behind. -/
theorem set_inStep_iff {w : World State} (hw : w.bus.output = [])
    (hport : w.kernel.kbd.port = .port0) (set : ScanCodeSet) :
    (∀ t, Returns (machine (bus other)) (fun n => ps2KbdSetScanCodes n set) w () t →
        t.bus.keyboard.set = set ∧ t.bus.keyboard.waiting = false ∧ t.bus.output = []) ↔
      (set = .set1 → w.bus.keyboard.resends.get 1 = 0 ∧ 0 < w.bus.keyboard.resends.get 2) := by
  by_cases hset : set = .set1
  · subst hset
    have hbus : w.bus = ⟨w.bus.keyboard, [], w.bus.stale⟩ := by rw [← hw]
    obtain ⟨k', htakes, hk'⟩ :=
      takes_setScanCodesRound other w.bus.keyboard w.bus.stale .set1
    obtain ⟨t, hreturns, ht, -⟩ := (takes_ps2KbdSetScanCodes htakes).returns hbus hport
    rw [forall_prop_of_true rfl, ← hk']
    constructor
    · intro h
      obtain ⟨hset, hwaiting, -⟩ := h t hreturns
      rw [ht] at hset hwaiting
      exact ⟨hset, hwaiting⟩
    · rintro ⟨hset, hwaiting⟩ t' ht'
      obtain ⟨-, rfl⟩ := hreturns.unique (decided_ps2KbdSetScanCodes (b := bus other) .set1).growing
        ht'
      rw [ht]
      exact ⟨hset, hwaiting, rfl⟩
  · refine iff_of_true ?_ fun h => absurd h hset
    rintro t ⟨n, hn⟩
    exact absurd hn (not_returns_setScanCodes hset n hw hport t)

/-- **When the driver and the keyboard stay in step**, from nothing to be read on: the
stale byte in the buffer names the keyboard's set by chance; and if set 1 is to be
set, the argument is taken at once and the command after it is not. -/
theorem inStep_iff {w : World State} (hw : w.bus.output = [])
    (hport : w.kernel.kbd.port = .port0) (set : ScanCodeSet) :
    InStep other w set ↔ getScanCodeSet w.bus.stale.head = w.bus.keyboard.set ∧
      (set = .set1 → w.bus.keyboard.resends.get 1 = 0 ∧ 0 < w.bus.keyboard.resends.get 2) := by
  rw [← returns_get_iff hw hport, ← set_inStep_iff hw hport set]
  exact ⟨fun h => ⟨h.get, h.set⟩, fun h => ⟨h.1, h.2⟩⟩

/-- A keyboard that uses set 2 and takes every byte at once, and a buffer that reads 0
when it is empty. -/
def usual : State := ⟨⟨.set2, false, .const 0⟩, [], .const 0⟩

/-- The driver started for port 0 against it. -/
def usualWorld : World State := .boot usual emptyIdt fun _ => 0

/-- Nothing else is acknowledged. -/
def ignoring : Other := fun _ k => ([], k)

/-- The condition at a keyboard in set 2 whose empty buffer reads 0. -/
theorem inStep_iff_usual : InStep ignoring usualWorld .set1 ↔
    getScanCodeSet 0 = .set2 ∧ (ScanCodeSet.set1 = .set1 → (0 : ℕ) = 0 ∧ (0 : ℕ) < 0) :=
  inStep_iff (w := usualWorld) rfl rfl .set1

/-- Asked for its set, that keyboard is taken to use set 1, and setting set 1 leaves it
waiting. -/
theorem not_inStep_usual : ¬ InStep ignoring usualWorld .set1 := by
  intro h
  have hget := (returns_get_iff (w := usualWorld) rfl rfl .set2).1 h.get
  exact absurd hget (by decide)

end Keyboard

end DrewOS

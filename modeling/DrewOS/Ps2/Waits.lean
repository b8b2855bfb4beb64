/-
# Exchanges with given streams of answers

On the bus that answers from streams, a wait depends on the status bytes alone.
It reports failure only when the port becomes ready at the very last poll
(`Late`): a port that is ready earlier is a success, and a port that is never
ready takes the counter below zero, which is read as a success too.

With this the elementary exchanges are determined: sending a command, sending a
byte, reading a byte (`run_ps2SendCommand`, `run_ps2SendData`,
`run_tryReadData`, `run_ps2ReadData`).  Each lemma says what becomes of the
streams, of the statics and of the traffic, that is the log without the polls.
-/

import DrewOS.Ps2.Frame

namespace DrewOS

open ByteMem Effect

namespace Ps2

/-! ### Traffic -/

/-- A write to a port, or a read of the data port. -/
def isTraffic : Event → Bool
  | .outb _ _ => true
  | .inb port _ => port == PORT_DATA
  | _ => false

/-- The writes and the reads of the data port, in order. -/
def traffic (log : List Event) : List Event := log.filter isTraffic

/-- The traffic of two stretches, one behind the other. -/
@[simp] theorem traffic_append (l l' : List Event) : traffic (l ++ l') = traffic l ++ traffic l' :=
  List.filter_append ..

/-! ### Waits -/

/-- Bit 1 of the status is clear: the controller takes a byte. -/
def inputEmpty (status : Byte) : Bool := (status &&& 0x02) == 0

/-- Bit 0 of the status is set: the controller has a byte. -/
def outputFull (status : Byte) : Bool := (status &&& 0x01) != 0

/-- How often a wait with counter `n` polls. -/
def polls (ready : Byte → Bool) : ℕ → Stream' Byte → ℕ
  | 0, _ => 1
  | n + 1, s => if ready s.head then 1 else polls ready n s.tail + 1

/-- Ready at the last poll of a wait with counter `n`, and not before. -/
def Late (ready : Byte → Bool) (n : ℕ) (s : Stream' Byte) : Prop :=
  (∀ i < n, ready (s.get i) = false) ∧ ready (s.get n) = true

instance (ready : Byte → Bool) (n : ℕ) (s : Stream' Byte) : Decidable (Late ready n s) :=
  inferInstanceAs (Decidable (_ ∧ _))

/-- At the last poll the status is ready. -/
theorem late_zero (ready : Byte → Bool) (s : Stream' Byte) :
    Late ready 0 s ↔ ready s.head = true :=
  ⟨fun h => h.2, fun h => ⟨fun i hi => absurd hi (Nat.not_lt_zero i), h⟩⟩

/-- At a poll before the last the status is not ready. -/
theorem late_succ (ready : Byte → Bool) (n : ℕ) (s : Stream' Byte) :
    Late ready (n + 1) s ↔ ready s.head = false ∧ Late ready n s.tail := by
  constructor
  · rintro ⟨h, hn⟩
    exact ⟨h 0 (Nat.succ_pos n), fun i hi => h (i + 1) (Nat.succ_lt_succ hi), hn⟩
  · rintro ⟨h0, h, hn⟩
    refine ⟨fun i hi => ?_, hn⟩
    cases i with
    | zero => exact h0
    | succ i => exact h i (Nat.lt_of_succ_lt_succ hi)

/-- A port that is not ready for `n` polls, and ready after them. -/
theorem late_replicate {ready : Byte → Bool} {v : Byte} {s : Stream' Byte}
    (hv : ready v = false) (hs : ready s.head = true) (n : ℕ) :
    Late ready n (List.replicate n v ++ₛ s) := by
  induction n with
  | zero => exact (late_zero ready s).2 hs
  | succ n ih => exact (late_succ ready n _).2 ⟨hv, ih⟩

/-- A wait with counter `n` takes the `n` status bytes that are not ready, and one more. -/
theorem drop_polls_replicate {ready : Byte → Bool} {v : Byte} (hv : ready v = false)
    (s : Stream' Byte) (n : ℕ) :
    (List.replicate n v ++ₛ s).drop (polls ready n (List.replicate n v ++ₛ s)) = s.tail := by
  induction n with
  | zero => rfl
  | succ n ih =>
    have hhead : ready (List.replicate (n + 1) v ++ₛ s).head = false := hv
    rw [polls, hhead, if_neg Bool.false_ne_true]
    exact ih

end Ps2

namespace Streams

open Ps2

/-- The wait fails. -/
def Late (ready : Byte → Bool) (s : Streams) : Prop := Ps2.Late ready DEFAULT_WAIT s.status

instance (ready : Byte → Bool) (s : Streams) : Decidable (s.Late ready) :=
  inferInstanceAs (Decidable (Ps2.Late _ _ _))

/-- The streams after a wait. -/
def await (ready : Byte → Bool) (s : Streams) : Streams :=
  { s with status := s.status.drop (polls ready DEFAULT_WAIT s.status) }

/-- The streams after a byte has been waited for and, unless it is late, read. -/
def receive (s : Streams) : Streams :=
  if s.Late outputFull then s.await outputFull
  else { s.await outputFull with data := s.data.tail }

/-- The byte that is read, `none` when it is late. -/
def received (s : Streams) : Option Byte :=
  if s.Late outputFull then none else some s.data.head

end Streams

namespace Ps2

/-- A status that is never ready uses up the wait. -/
theorem await_replicate {ready : Byte → Bool} {v : Byte} (hv : ready v = false) {s : Streams}
    {r : Stream' Byte} (hs : s.status = List.replicate DEFAULT_WAIT v ++ₛ r) :
    (s.await ready).status = r.tail := by
  unfold Streams.await
  rw [hs]
  exact drop_polls_replicate hv r DEFAULT_WAIT

/-! ### Exchanges -/

/-- From `w` to `t` only `events` were added to the traffic, and `bus` is what is
left of the streams. -/
structure Exchange (w t : World Streams) (bus : Streams) (events : List Event) : Prop where
  bus : t.bus = bus
  kernel : t.kernel = w.kernel
  traffic : traffic t.log = traffic w.log ++ events

/-- One exchange after the other. -/
theorem Exchange.trans {w t u : World Streams} {bus bus' : Streams} {l l' : List Event}
    (h : Exchange w t bus l) (h' : Exchange t u bus' l') : Exchange w u bus' (l ++ l') :=
  ⟨h'.bus, h'.kernel.trans h.kernel, by rw [h'.traffic, h.traffic, List.append_assoc]⟩

/-- An event that is no traffic. -/
theorem exchange_say (w : World Streams) {e : Event} (he : isTraffic e = false) :
    Exchange w (w.say e) w.bus [] := by
  refine ⟨rfl, rfl, ?_⟩
  rw [World.say_log, traffic_append]
  simp [traffic, he]

/-- A poll of the status port. -/
theorem exchange_poll (w : World Streams) :
    Exchange w (w.afterInb streamBus PORT_STATUS)
      { w.bus with status := w.bus.status.tail } [] := by
  refine ⟨rfl, rfl, ?_⟩
  rw [afterInb_log, traffic_append]
  rfl

/-- The loop of a wait, whose result is 0 just when the port is late. -/
theorem run_waitLoop {ready : Kern Bool} {f : Byte → Bool}
    (hready : ∀ w, ready.run (machine streamBus) w =
      (some (f w.bus.status.head), w.afterInb streamBus PORT_STATUS))
    (n : ℕ) (hn : n < 2 ^ 32) (w : World Streams) :
    ∃ v t, (waitLoop ready n).run (machine streamBus) w = (some v, t) ∧
      (v = 0 ↔ Late f n w.bus.status) ∧
      Exchange w t { w.bus with status := w.bus.status.drop (polls f n w.bus.status) } [] := by
  induction n generalizing w with
  | zero =>
    unfold waitLoop
    rw [Prog.run_bind_of_some _ (hready w)]
    cases hf : f w.bus.status.head with
    | true =>
      refine ⟨0, _, rfl, ?_, exchange_poll w⟩
      simp [late_zero, hf]
    | false =>
      refine ⟨0 - 1, _, rfl, ?_, exchange_poll w⟩
      simp [late_zero, hf]
  | succ n ih =>
    unfold waitLoop
    rw [Prog.run_bind_of_some _ (hready w)]
    cases hf : f w.bus.status.head with
    | true =>
      have hne : BitVec.ofNat 32 (n + 1) ≠ 0 := by
        intro h
        have h' := congrArg BitVec.toNat h
        rw [BitVec.toNat_ofNat, Nat.mod_eq_of_lt hn] at h'
        exact Nat.succ_ne_zero n h'
      refine ⟨BitVec.ofNat 32 (n + 1), _, rfl, ?_, ?_⟩
      · rw [late_succ, hf]
        exact ⟨fun h => absurd h hne, fun h => Bool.noConfusion h.1⟩
      · rw [polls, hf, if_pos rfl]
        exact exchange_poll w
    | false =>
      obtain ⟨v, t, hrun, hv, ht⟩ := ih (Nat.lt_of_succ_lt hn) (w.afterInb streamBus PORT_STATUS)
      refine ⟨v, t, hrun, ?_, ?_⟩
      · rw [hv, late_succ, hf]
        exact (and_iff_right rfl).symm
      · rw [polls, hf, if_neg Bool.false_ne_true]
        exact (exchange_poll w).trans ht

theorem bne_zero_eq {v : Dword} {p : Prop} [Decidable p] (h : v = 0 ↔ p) :
    (v != 0) = !decide p := by
  by_cases hp : p
  · rw [h.2 hp, decide_eq_true hp]
    rfl
  · rw [decide_eq_false hp]
    exact bne_iff_ne.2 fun hv => hp (h.1 hv)

/-- `ps2_buffer_wait()` fails just when the controller takes a byte too late. -/
theorem run_ps2BufferWait (w : World Streams) :
    ∃ t, ps2BufferWait.run (machine streamBus) w = (some (!decide (w.bus.Late inputEmpty)), t) ∧
      Exchange w t (w.bus.await inputEmpty) [] := by
  have hready : ∀ w, commandReady.run (machine streamBus) w =
      (some (inputEmpty w.bus.status.head), w.afterInb streamBus PORT_STATUS) := fun _ => rfl
  obtain ⟨v, t, hrun, hv, ht⟩ := run_waitLoop hready DEFAULT_WAIT (by decide) w
  refine ⟨t, ?_, ht⟩
  unfold ps2BufferWait
  rw [Prog.run_bind_of_some _ hrun]
  exact congrArg (fun ok => (some ok, t)) (bne_zero_eq hv)

/-- `response_wait()` fails just when the controller has a byte too late. -/
theorem run_responseWait (w : World Streams) :
    ∃ t, responseWait.run (machine streamBus) w = (some (!decide (w.bus.Late outputFull)), t) ∧
      Exchange w t (w.bus.await outputFull) [] := by
  have hready : ∀ w, responseReady.run (machine streamBus) w =
      (some (outputFull w.bus.status.head), w.afterInb streamBus PORT_STATUS) := fun _ => rfl
  obtain ⟨v, t, hrun, hv, ht⟩ := run_waitLoop hready DEFAULT_WAIT (by decide) w
  refine ⟨t, ?_, ht⟩
  unfold responseWait
  rw [Prog.run_bind_of_some _ hrun]
  exact congrArg (fun ok => (some ok, t)) (bne_zero_eq hv)

/-- `data` at `port`, unless the wait before it fails. -/
def sent (s : Streams) (port : Word) (data : Byte) : List Event :=
  if s.Late inputEmpty then [] else [.outb port data]

/-- The wait and the write that commands and data bytes share. -/
theorem run_waitAndWrite (port : Word) (data : Byte) (text : String) (w : World Streams) :
    ∃ t, Prog.run (machine streamBus)
        (ps2BufferWait >>= fun ok => if ok then writeByte port data else println text []) w =
          (some (), t) ∧
      Exchange w t (w.bus.await inputEmpty) (sent w.bus port data) := by
  obtain ⟨t, hrun, ht⟩ := run_ps2BufferWait w
  rw [Prog.run_bind_of_some _ hrun]
  by_cases hl : w.bus.Late inputEmpty
  · simp only [hl, decide_true, Bool.not_true, Bool.false_eq_true, if_false]
    have hsay := exchange_say t (e := .print ⟨text, .white, .black, [], true⟩) rfl
    rw [ht.bus] at hsay
    rw [sent, if_pos hl]
    exact ⟨_, rfl, ht.trans hsay⟩
  · simp only [hl, decide_false, Bool.not_false, if_true]
    refine ⟨t.afterOutb streamBus port data, rfl, ht.bus, ht.kernel, ?_⟩
    rw [afterOutb_log, traffic_append, ht.traffic, List.append_nil, sent, if_neg hl]
    rfl

/-- `ps2_send_data(data)`. -/
theorem run_ps2SendData (data : Byte) (w : World Streams) :
    ∃ t, (ps2SendData data).run (machine streamBus) w = (some (), t) ∧
      Exchange w t (w.bus.await inputEmpty) (sent w.bus PORT_DATA data) :=
  run_waitAndWrite PORT_DATA data _ w

/-- A call of a function: its marks are no traffic. -/
theorem run_procedure {f : Fn} {p : Kern Unit} {w t : World Streams} {bus : Streams}
    {l : List Event} (hrun : p.run (machine streamBus) (w.say (.enter f)) = (some (), t))
    (ht : Exchange (w.say (.enter f)) t bus l) :
    (procedure f p).run (machine streamBus) w = (some (), t.say (.leave f none)) ∧
      Exchange w (t.say (.leave f none)) bus l := by
  constructor
  · exact Prog.run_bind_of_some _ hrun
  · have hleave := exchange_say t (e := Event.leave f none) rfl
    rw [ht.bus] at hleave
    simpa using (exchange_say w (e := Event.enter f) rfl).trans (ht.trans hleave)

/-- `ps2_send_command(command)`. -/
theorem run_ps2SendCommand (command : Byte) (w : World Streams) :
    ∃ t, (ps2SendCommand command).run (machine streamBus) w = (some (), t) ∧
      Exchange w t (w.bus.await inputEmpty) (sent w.bus PORT_COMMAND command) := by
  obtain ⟨t, hrun, ht⟩ := run_waitAndWrite PORT_COMMAND command
    "Error: ps/2 controller failed to enter ready state" (w.say (.enter (.sendCommand command)))
  exact ⟨_, run_procedure hrun ht⟩

/-- The read of a byte, unless it is late. -/
def heard (s : Streams) : List Event :=
  s.received.toList.map (.inb PORT_DATA)

/-- `try_read_data(data)`. -/
theorem run_tryReadData (w : World Streams) :
    ∃ t, tryReadData.run (machine streamBus) w = (some w.bus.received, t) ∧
      Exchange w t w.bus.receive (heard w.bus) := by
  obtain ⟨t, hrun, ht⟩ := run_responseWait w
  unfold tryReadData
  rw [Prog.run_bind_of_some _ hrun]
  by_cases hl : w.bus.Late outputFull
  · simp only [Streams.received, Streams.receive, heard, hl, decide_true, Bool.not_true,
      Bool.false_eq_true, if_false, if_true]
    exact ⟨t, rfl, ht⟩
  · simp only [Streams.received, Streams.receive, heard, hl, decide_false, Bool.not_false,
      if_true, if_false]
    have hdata : streamBus.inb PORT_DATA t.bus =
        (w.bus.data.head, { w.bus.await outputFull with data := w.bus.data.tail }) := by
      rw [ht.bus]
      rfl
    refine ⟨t.afterInb streamBus PORT_DATA, ?_, ?_, ht.kernel, ?_⟩
    · rw [Prog.run_bind_of_some _ (run_readByte streamBus t PORT_DATA), hdata]
      rfl
    · exact congrArg Prod.snd hdata
    · rw [afterInb_log, traffic_append, ht.traffic, List.append_nil, hdata]
      rfl

/-- `ps2_read_data()`: 0 for a byte that is late. -/
theorem run_ps2ReadData (w : World Streams) :
    ∃ t, ps2ReadData.run (machine streamBus) w = (some (w.bus.received.getD 0), t) ∧
      Exchange w t w.bus.receive (heard w.bus) := by
  obtain ⟨t, hrun, ht⟩ := run_tryReadData (w.say (.enter .readData))
  have henter := exchange_say w (e := Event.enter .readData) rfl
  unfold ps2ReadData function
  rw [Prog.run_bind_of_some _ (run_enter streamBus w .readData)]
  simp only [Prog.bind_bind]
  rw [Prog.run_bind_of_some _ hrun]
  rw [World.say_bus]
  -- after the byte, or its absence, only the message and the mark of the return follow
  have hleave : ∀ {u : World Streams} {l : List Event} (r : Byte), Exchange w u w.bus.receive l →
      Exchange w (u.say (.leave .readData (some r))) w.bus.receive l := by
    intro u l r hu
    have h := exchange_say u (e := .leave .readData (some r)) rfl
    rw [hu.bus] at h
    simpa using hu.trans h
  have hwt := henter.trans ht
  rw [World.say_bus, List.nil_append] at hwt
  cases hr : w.bus.received with
  | some byte => exact ⟨_, rfl, hleave byte hwt⟩
  | none =>
    have hprint := exchange_say t (e := .print
      ⟨"Error: PS/2 controller did not write a response", .white, .black, [], true⟩) rfl
    rw [hwt.bus] at hprint
    have hwp := hwt.trans hprint
    rw [List.append_nil] at hwp
    exact ⟨_, rfl, hleave 0 hwp⟩

end Ps2
end DrewOS

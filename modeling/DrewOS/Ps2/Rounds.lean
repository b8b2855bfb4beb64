/-
# When another scan code set is read back for ever

A round of `ps2_kbd_set_scan_codes` depends on the streams of answers and on the port
of the keyboard (`Keyed`): its two commands are answered, perhaps after requests to
resend them (`Settled`), and a byte is read for the set.  `WrongRound` says so of the
streams before and after it, and `wrongForever_iff` of the call that
`DrewOS.Ps2.Termination` forbids: the streams show a wrong round after every other.
-/

import DrewOS.Ps2.Dialogue
import DrewOS.Ps2.Routing

namespace DrewOS

open ByteMem Effect

namespace Ps2

/-- The streams are `s`, and the keyboard is on the port. -/
def Keyed (port : Port) (s : Streams) (w : World Streams) : Prop :=
  w.bus = s ∧ w.kernel.kbd.port = port

variable {port : Port} {s : Streams} {w : World Streams}

/-- `ps2_send_data` waits, and sends. -/
theorem keyed_ps2SendData (data : Byte) (h : Keyed port s w) :
    ∃ t, (ps2SendData data).run (machine streamBus) w = (some (), t) ∧
      Keyed port (s.await inputEmpty) t := by
  obtain ⟨t, hrun, ht⟩ := run_ps2SendData data w
  rw [h.1] at ht
  exact ⟨t, hrun, ht.bus, ht.kernel ▸ h.2⟩

/-- `ps2_read_data` takes the next byte, or gives 0 for a failed wait. -/
theorem keyed_ps2ReadData (h : Keyed port s w) :
    ∃ t, ps2ReadData.run (machine streamBus) w = (some (s.received.getD 0), t) ∧
      Keyed port s.receive t := by
  obtain ⟨t, hrun, ht⟩ := run_ps2ReadData w
  rw [h.1] at ht hrun
  exact ⟨t, hrun, ht.bus, ht.kernel ▸ h.2⟩

/-- A device command leaves the statics of the keyboard. -/
theorem kbd_ps2SendDeviceCommand {cmd : Byte} {v t : World Streams}
    (h : Returns (machine streamBus) (fun n => ps2SendDeviceCommand n cmd port) v () t) :
    t.kernel.kbd = v.kernel.kbd := by
  obtain ⟨n, hn⟩ := h
  have hstays : Stays Unraised SameKbd (ps2SendDeviceCommand n cmd port) :=
    stays_ps2SendDeviceCommand talks_unraised.toPolls (drives_unraised port) n cmd
  exact ((sat_stays (F := SameKbd) (fun _ => rfl) (fun _ _ _ h h' => h'.trans h) streamBus
    hstays v).run hn).kernel

/-- A command for the device on the keyboard's port leaves that port. -/
theorem keyed_ps2SendDeviceCommand (cmd : Byte) (s : Streams) :
    Follows (machine streamBus) (Keyed port) (fun n => ps2SendDeviceCommand n cmd port) s
      fun _ z => Settled port s z where
  growing := growing_command cmd
  sound := by
    rintro v ⟨⟩ t ⟨hbus, hport⟩ ht
    obtain ⟨y, ⟨hy, -⟩, hat⟩ := (follows_ps2SendDeviceCommand cmd s _).sound ⟨hbus, rfl⟩ ht
    have hkbd := kbd_ps2SendDeviceCommand ht
    exact ⟨y.1, hy, hat.1, (congrArg KbdStatics.port hkbd).trans hport⟩
  complete := by
    rintro v ⟨⟩ z ⟨hbus, hport⟩ hz
    obtain ⟨t, ht, hat⟩ :=
      (follows_ps2SendDeviceCommand cmd s (Ps2Statics.deviceId v.kernel.ps2 port)).complete
        (y := (z, Ps2Statics.deviceId v.kernel.ps2 port)) ⟨hbus, rfl⟩ ⟨hz, rfl⟩
    have hkbd := kbd_ps2SendDeviceCommand ht
    exact ⟨t, ht, hat.1, (congrArg KbdStatics.port hkbd).trans hport⟩

/-- A command for the keyboard is one for the device on its port. -/
theorem run_ps2KbdSendCmd (cmd : Byte) (n : ℕ) {v : World Streams} (h : v.kernel.kbd.port = port) :
    (ps2KbdSendCmd n cmd).run (machine streamBus) v =
      (ps2SendDeviceCommand n cmd port).run (machine streamBus) v := by
  subst h
  exact Prog.run_bind_of_some _ (run_getKernel streamBus v)

/-- So it is settled by the same bytes. -/
theorem follows_ps2KbdSendCmd (cmd : Byte) (s : Streams) :
    Follows (machine streamBus) (Keyed port) (fun n => ps2KbdSendCmd n cmd) s
      fun _ z => Settled port s z where
  growing := (growing_const _).bind fun _ => growing_command cmd
  sound := by
    rintro v a t hv ⟨n, hn⟩
    exact (keyed_ps2SendDeviceCommand cmd s).sound hv
      ⟨n, (run_ps2KbdSendCmd cmd n hv.2).symm.trans hn⟩
  complete := by
    rintro v a z hv hz
    obtain ⟨t, ⟨n, hn⟩, ht⟩ := (keyed_ps2SendDeviceCommand cmd s).complete hv hz
    exact ⟨t, ⟨n, (run_ps2KbdSendCmd cmd n hv.2).trans hn⟩, ht⟩

/-- Reading the set: the command is settled, and a byte is read. -/
theorem follows_ps2KbdGetScanCode (s : Streams) :
    Follows (machine streamBus) (Keyed port) (fun n => ps2KbdGetScanCode n) s
      fun newSet z => ∃ s₁, Settled port s s₁ ∧
        newSet = getScanCodeSet (s₁.received.getD 0) ∧ z = s₁.receive := by
  have hread : ∀ s₁ : Streams, Follows (machine streamBus) (Keyed port)
      (fun _ => ps2ReadData >>= fun id => pure (getScanCodeSet id)) s₁
      fun newSet z => newSet = getScanCodeSet (s₁.received.getD 0) ∧ z = s₁.receive := by
    intro s₁
    refine follows_run fun v hv => ?_
    obtain ⟨t, hrun, ht⟩ := keyed_ps2ReadData hv
    exact ⟨t, Prog.run_bind_of_some _ hrun, ht⟩
  exact ((follows_ps2KbdSendCmd CMD_GET_SCAN_CODE s).bind (fun _ => growing_const _)
    fun _ s₁ _ => hread s₁).congr fun _ _ =>
      ⟨fun ⟨_, s₁, h, h'⟩ => ⟨s₁, h, h'⟩, fun ⟨s₁, h, h'⟩ => ⟨(), s₁, h, h'⟩⟩

/-- The report of the comparison neither reads nor writes. -/
theorem follows_compared (newSet set : ScanCodeSet) (s : Streams) :
    Follows (machine streamBus) (Keyed port)
      (fun _ => if newSet ≠ set then println
          "ps2_kbd_get_scan_code() gives scan code %d but expected %d..."
          [byteArg (getScanCodeSetId newSet), byteArg (getScanCodeSetId set)] >>= fun _ =>
        pure true
      else pure false) s fun wrong z => wrong = decide (newSet ≠ set) ∧ z = s := by
  refine follows_run fun v hv => ?_
  by_cases h : newSet = set
  · simp only [h, ne_eq, not_true_eq_false, if_false, decide_false]
    exact ⟨v, rfl, hv⟩
  · simp only [h, ne_eq, not_false_eq_true, if_true, decide_true]
    exact ⟨_, rfl, hv⟩

/-- A round that is answered, and reads another set back than `set`. -/
def WrongRound (port : Port) (set : ScanCodeSet) (s z : Streams) : Prop :=
  ∃ s₁ s₂, Settled port s s₁ ∧ Settled port (s₁.await inputEmpty) s₂ ∧
    getScanCodeSet (s₂.received.getD 0) ≠ set ∧ z = s₂.receive

/-- **A round.** -/
theorem follows_setScanCodesRound (set : ScanCodeSet) (s : Streams) :
    Follows (machine streamBus) (Keyed port) (fun n => setScanCodesRound n set) s
      fun wrong z => ∃ s₁ s₂, Settled port s s₁ ∧ Settled port (s₁.await inputEmpty) s₂ ∧
        wrong = decide (getScanCodeSet (s₂.received.getD 0) ≠ set) ∧ z = s₂.receive := by
  have hgrow : Growing fun n => ps2KbdGetScanCode n :=
    ((growing_const _).bind fun _ => growing_command _).bind fun _ => growing_const _
  have hrest : ∀ z : Streams, Follows (machine streamBus) (Keyed port)
      (fun n => ps2SendData (getScanCodeSetId set) >>= fun _ => ps2KbdGetScanCode n >>=
        fun newSet => if newSet ≠ set then println
            "ps2_kbd_get_scan_code() gives scan code %d but expected %d..."
            [byteArg (getScanCodeSetId newSet), byteArg (getScanCodeSetId set)] >>= fun _ =>
          pure true
        else pure false) z fun wrong z' => ∃ z₁, Settled port (z.await inputEmpty) z₁ ∧
          wrong = decide (getScanCodeSet (z₁.received.getD 0) ≠ set) ∧ z' = z₁.receive := by
    intro z
    refine Follows.after (fun _ => keyed_ps2SendData _)
      (fun _ => hgrow.bind fun _ => growing_const _) ?_
    refine ((follows_ps2KbdGetScanCode (z.await inputEmpty)).bind ?_
      fun newSet z' _ => follows_compared newSet set z').congr
      fun wrong z' => ⟨?_, ?_⟩
    · exact fun _ => growing_const _
    · rintro ⟨newSet, z₂, ⟨z₁, h, hset, hz₂⟩, hwrong, hz⟩
      exact ⟨z₁, h, hset ▸ hwrong, hz.trans hz₂⟩
    · rintro ⟨z₁, h, hwrong, hz⟩
      exact ⟨_, _, ⟨z₁, h, rfl, rfl⟩, hwrong, hz⟩
  refine (Follows.bind (follows_ps2KbdSendCmd CMD_SET_SCAN_CODE s) ?_
    fun _ z _ => hrest z).congr fun wrong z => ⟨?_, ?_⟩
  · exact fun _ => (growing_const _).bind fun _ => hgrow.bind fun _ => growing_const _
  · rintro ⟨_, s₁, h, s₂, h', hwrong, hz⟩
    exact ⟨s₁, s₂, h, h', hwrong, hz⟩
  · rintro ⟨s₁, s₂, h, h', hwrong, hz⟩
    exact ⟨(), s₁, h, s₂, h', hwrong, hz⟩

/-- **An exchange that goes on for ever**, in terms of the answers: in every round both
commands are answered with something else than a request to resend at some attempt, and
the byte that is read for the set names another one. -/
theorem wrongForever_iff (set : ScanCodeSet) (u : World Streams) :
    WrongForever streamBus set u ↔ ∃ f : ℕ → Streams, f 0 = u.bus ∧
      ∀ k, WrongRound u.kernel.kbd.port set (f k) (f (k + 1)) := by
  refine endless_iff_chain (fun v : World Streams => v.kernel.kbd.port = u.kernel.kbd.port)
    World.bus (WrongRound u.kernel.kbd.port set) ?_ ?_ rfl
  · rintro v v' hv ⟨wrong, hrun, hwrong⟩
    have hentered : Keyed u.kernel.kbd.port v.bus (v.say (.enter (.kbdSetScanCodes set))) :=
      ⟨rfl, hv⟩
    obtain ⟨z, ⟨s₁, s₂, h, h', hdecide, hz⟩, hbus, hport⟩ :=
      (follows_setScanCodesRound set v.bus).sound hentered hrun
    rw [hwrong] at hdecide
    exact ⟨hport, s₁, s₂, h, h', of_decide_eq_true hdecide.symm, hbus.trans hz⟩
  · rintro v x hv ⟨s₁, s₂, h, h', hset, hx⟩
    have hentered : Keyed u.kernel.kbd.port v.bus (v.say (.enter (.kbdSetScanCodes set))) :=
      ⟨rfl, hv⟩
    obtain ⟨t, hrun, hbus, -⟩ := (follows_setScanCodesRound set v.bus).complete hentered
      ⟨s₁, s₂, h, h', (decide_eq_true hset).symm, hx⟩
    exact ⟨t, ⟨true, hrun, rfl⟩, hbus⟩

end Ps2
end DrewOS

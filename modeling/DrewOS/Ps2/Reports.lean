/-
# What is reported of a port that has failed

A port with nothing behind it, or with a device that fails its self-test, should not
be reported as initialised and no driver should be started for it.  But the identity
0 stands both for no device and for a standard mouse, a failed self-test leaves the
identity 0 there, and a reset without a device takes stray bytes for an identity
(`DrewOS.Ps2.Reset`).

The reports on a port and its reset are confined to one call of `ps2StartPort`
(`localised_ps2Init`), so whether there is one is decided by the bytes that this call
reads (`unreported_iff`).
-/

import DrewOS.Ps2.Reset

namespace DrewOS

open ByteMem Effect

namespace Ps2

/-- The message that the device on `port` is initialised. -/
def success (port : Port) (type : String) : Message :=
  ⟨"Port %d successfully initialised. Device type: %s", .white, .black,
    [.int (portNo port), .str type], true⟩

/-- The port is reported as initialised, or a driver is started for it. -/
def Reports (port : Port) (o : Op) : Prop :=
  (∃ type, o = .print (success port type)) ∨ o = .enter (.kbdInit port)

/-- The initialisation from `w` reports nothing of the kind. -/
def Unreported (L : Layout) (port : Port) (w : World Streams) : Prop :=
  ∀ o u, Asks (machine streamBus) (fun n => ps2Init L n) w o u → ¬ Reports port o

/-- When the port is reset, no byte comes from its device any more, or the device
answers that its self-test failed. -/
def Failed (port : Port) (s : Streams) : Prop :=
  (s.addressed port).Silent ∨ (s.addressed port).received = some RESP_RESET_FAIL

/-! ### Where reports come from -/

/-- Neither the reset of `port` nor a report on it. -/
def Plain (port : Port) : Event → Prop
  | .print m => ∀ type, m ≠ success port type
  | .enter (.resetPort q) => q ≠ port
  | .enter (.kbdInit q) => q ≠ port
  | _ => True

/-- The device ID of `port` is the same. -/
def SameId (port : Port) (k k' : Kernel) : Prop :=
  Ps2Statics.deviceId k'.ps2 port = Ps2Statics.deviceId k.ps2 port

theorem sameId_refl (port : Port) (k : Kernel) : SameId port k k := rfl

/-- An identity that stays over two stretches stays over both. -/
theorem sameId_trans (port : Port) (k k' k'' : Kernel) (h : SameId port k k')
    (h' : SameId port k' k'') : SameId port k k'' :=
  Eq.trans h' h

/-- The operation resets `port` or reports on it. -/
def Concerns (port : Port) (o : Op) : Prop :=
  Reports port o ∨ o = .enter (.resetPort port)

variable {port : Port} {F : Kernel → Kernel → Prop}

/-- Plain operations neither reset the port nor report its device. -/
theorem not_concerns_of_plain {o : Op} (h : o.Within (Plain port) F) : ¬ Concerns port o := by
  rintro ((⟨type, rfl⟩ | rfl) | rfl)
  · exact h type rfl
  · exact h rfl
  · exact h rfl

theorem talks_plain (port : Port) : Talks (Plain port) where
  status _ := trivial
  data _ := trivial
  print m hm := by
    rintro type rfl
    exact nomatch hm
  write _ := trivial
  readData := ⟨trivial, fun _ => trivial⟩
  getConfig := ⟨trivial, fun _ => trivial⟩
  setConfig _ := ⟨trivial, fun _ => trivial⟩

theorem sends_plain (port : Port) (command : Byte) : Sends (Plain port) command :=
  ⟨⟨trivial, fun _ => trivial⟩, trivial⟩

theorem drives_plain (port q : Port) : Drives (Plain port) q :=
  ⟨fun _ => sends_plain port _, fun _ => trivial, fun _ => ⟨trivial, fun _ => trivial⟩⟩

theorem types_plain (port : Port) : Types (Plain port) (SameId port) where
  toPolls := (talks_plain port).toPolls
  drives := drives_plain port
  readData := ⟨trivial, fun _ => trivial⟩
  setScanCodes := ⟨trivial, fun _ => trivial⟩
  clearMask := stays_irqClearMask trivial trivial (fun _ => trivial) fun _ => trivial
  int := trivial
  kbd _ _ := rfl
  idt _ _ _ _ := rfl

/-- Starting another port is plain for this one. -/
theorem starts_plain {port q : Port} (h : q ≠ port) : Starts (Plain port) q := by
  refine ⟨⟨h, fun _ => trivial⟩, ⟨h, fun _ => trivial⟩, fun text type type' he => h ?_⟩
  have hargs := congrArg Message.args he
  cases q <;> cases port <;> first | rfl | exact nomatch hargs

/-- Assigning the identity of another port leaves this one's. -/
theorem assignsIds_sameId {port q : Port} (h : q ≠ port) : AssignsIds (SameId port) q := by
  cases q <;> cases port <;> first | exact absurd rfl h | exact fun _ _ => rfl

theorem assignsPs2_sameId (port : Port) : AssignsPs2 (SameId port) := by
  cases port with
  | port0 => exact fun _ _ h => h.port0
  | port1 => exact fun _ _ h => h.port1

/-- What concerns `port` in the runs of `P` is what happens in one call of
`ps2StartPort`, at which the identity stored for the port is still 0. -/
structure Localised (L : Layout) (port : Port) {α : Type} (P : ℕ → Kern α) : Prop where
  growing : Growing P
  confined : ∀ v, Ps2Statics.deviceId v.kernel.ps2 port = 0 → Confined (machine streamBus)
    (Concerns port) (fun v => Ps2Statics.deviceId v.kernel.ps2 port = 0) P v
    fun n => ps2StartPort L n port

variable {L : Layout} {α β : Type}

/-- Plain code never comes to what concerns the port. -/
theorem always_plain {p : Kern α} (h : Stays (Plain port) F p) :
    Prog.Always (fun o => ¬ Concerns port o) p :=
  Prog.Always.mono (fun _ => not_concerns_of_plain) h

/-- Code that does not concern the port. -/
theorem localised_of_stays {P : ℕ → Kern α} (hP : Growing P)
    (h : ∀ n, Stays (Plain port) F (P n)) : Localised L port P :=
  ⟨hP, fun _ _ => confined_of_always fun n => always_plain (h n)⟩

/-- A first part that does not concern the port. -/
theorem Localised.after {P : ℕ → Kern α} {G : ℕ → α → Kern β} (hP : Growing P)
    (h : ∀ n, Stays (Plain port) (SameId port) (P n)) (hG : ∀ a, Localised L port fun n => G n a) :
    Localised L port fun n => P n >>= G n := by
  refine ⟨hP.bind fun a => (hG a).growing, fun v hv => ?_⟩
  refine Confined.after hP (fun a => (hG a).growing) (fun n => always_plain (h n)) ?_
  rintro a t ⟨n, hn⟩
  have ht : Extends (Plain port) (SameId port) v t :=
    (sat_stays (sameId_refl port) (sameId_trans port) streamBus (h n) v).run hn
  exact (hG a).confined t (ht.kernel.trans hv)

/-- A test keeps the reset and the report of a port in their place. -/
theorem localised_ite (c : Prop) [Decidable c] {P G : ℕ → Kern α} (hP : Localised L port P)
    (hG : Localised L port G) : Localised L port fun n => if c then P n else G n := by
  by_cases h : c
  · simpa only [if_pos h] using hP
  · simpa only [if_neg h] using hG

/-- The ports are started one after the other. -/
theorem localised_startPorts (L : Layout) (port : Port) : Localised L port fun n =>
    ps2StartPort L n .port0 >>= fun _ => ps2StartPort L n .port1 := by
  have hplain : ∀ q, q ≠ port → ∀ n, Stays (Plain port) (SameId port) (ps2StartPort L n q) :=
    fun q hq n => stays_ps2StartPort (types_plain port) (assignsIds_sameId hq) (starts_plain hq) L n
  cases port with
  | port0 =>
    refine ⟨(growing_ps2StartPort L _).bind fun _ => growing_ps2StartPort L _, fun v hv => ?_⟩
    refine Confined.before (growing_ps2StartPort L _) (fun _ => growing_ps2StartPort L _) ?_
      fun _ n => always_plain (hplain .port1 nofun n)
    exact confined_refl hv
  | port1 =>
    exact Localised.after (growing_ps2StartPort L _) (hplain .port0 nofun) fun _ =>
      ⟨growing_ps2StartPort L _, fun v hv => confined_refl hv⟩

/-- **What concerns a port happens where it is started.** -/
theorem localised_ps2Init (L : Layout) (port : Port) : Localised L port fun n => ps2Init L n := by
  have hafter : ∀ {p : Kern Unit} {G : ℕ → Kern Unit}, Stays (Plain port) (SameId port) p →
      Localised L port G → Localised L port fun n => p >>= fun _ => G n :=
    fun hp hG => Localised.after (growing_const _) (fun _ => hp) fun _ => hG
  have hports : Stays (Plain port) (SameId port) ps2EnablePorts :=
    stays_ps2EnablePorts (talks_plain port).toPolls fun c _ => sends_plain port c
  have hinterrupts : Stays (Plain port) (SameId port) ps2EnableInterrupts :=
    stays_ps2EnableInterrupts (talks_plain port) fun c _ => sends_plain port c
  have hdetect : Stays (Plain port) (SameId port) ps2DetectChannels :=
    stays_ps2DetectChannels (talks_plain port) (fun c _ => sends_plain port c)
      (assignsPs2_sameId port)
  have htests : Stays (Plain port) (SameId port) ps2TestPorts :=
    stays_ps2TestPorts (talks_plain port) (fun c _ => sends_plain port c) (assignsPs2_sameId port)
  have hnone : Stays (Plain port) (SameId port)
      (println "No PS/2 ports are operational. PS/2 driver will be disabled." []) :=
    stays_println (talks_plain port).toPolls _ _
  refine Localised.after (growing_const _)
    (fun _ => stays_ps2Disable (talks_plain port) fun c _ => sends_plain port c) fun config => ?_
  refine Localised.after (growing_const _)
    (fun _ => stays_ps2TestController (talks_plain port) (fun c _ => sends_plain port c) config)
    fun passed => localised_ite _ ?_ ?_
  · refine hafter hdetect (hafter htests (Localised.after (growing_const _)
      (fun _ => stays_getKernel) fun k => localised_ite _ ?_ ?_))
    · exact localised_of_stays (growing_const _) fun _ => hnone
    · exact hafter hports (hafter hinterrupts (localised_startPorts L port))
  · exact localised_of_stays (F := SameId port) (growing_const _) fun _ => stays_pure ()

/-! ### Starting a port -/

/-- No port is reset. -/
def Unreset : Event → Prop
  | .enter (.resetPort _) => False
  | _ => True

theorem types_unreset : Types Unreset fun _ _ => True where
  status _ := trivial
  data _ := trivial
  print _ _ := trivial
  drives _ := ⟨fun _ => ⟨⟨trivial, fun _ => trivial⟩, trivial⟩, fun _ => trivial, fun _ =>
    ⟨trivial, fun _ => trivial⟩⟩
  readData := ⟨trivial, fun _ => trivial⟩
  setScanCodes := ⟨trivial, fun _ => trivial⟩
  clearMask := stays_irqClearMask trivial trivial (fun _ => trivial) fun _ => trivial
  int := trivial
  kbd _ _ := trivial
  idt _ _ _ _ := trivial

theorem stays_ps2InitDevice (L : Layout) (n : ℕ) (id : Word) (port : Port) :
    Stays Unreset (fun _ _ => True) (ps2InitDevice L n id port) := by
  refine stays_ite _ (stays_getKernel.bind fun _ => stays_printMessage trivial) ?_
  exact (stays_printMessage trivial).bind fun _ => stays_ite _
    (stays_ps2KbdInit types_unreset ⟨trivial, fun _ => trivial⟩ L n) (stays_pure ())

variable {o : Op} {u v : World Streams}

/-- `ps2_init_device` resets no port. -/
theorem not_asks_reset (id : Word) : ¬ Asks (machine streamBus)
    (fun n => ps2InitDevice L n id port) v (.enter (.resetPort port)) u := by
  rintro ⟨n, hn⟩
  exact Prog.Always.asked (stays_ps2InitDevice L n id port) hn

/-- The device is reported when its identity is a known one. -/
theorem reports_ps2InitDevice_iff (id : Word) :
    (∃ o u, Reports port o ∧ Asks (machine streamBus) (fun n => ps2InitDevice L n id port) v o u) ↔
      getDeviceType id ≠ .devUnknown := by
  constructor
  · rintro ⟨o, u, ho, n, hn⟩ hunknown
    have hplain : Stays (Plain port) (SameId port) (ps2InitDevice L n id port) := by
      unfold ps2InitDevice
      dsimp only
      rw [if_pos hunknown]
      exact stays_getKernel.bind fun _ => stays_println (talks_plain port).toPolls _ _
    exact (always_plain hplain).asked hn (.inl ho)
  · intro hknown
    refine ⟨.print (success port (getDeviceTypeStr (getDeviceType id))), v, .inl ⟨_, rfl⟩, 0, ?_⟩
    unfold ps2InitDevice
    dsimp only
    rw [if_neg hknown]
    exact List.mem_cons_self ..

/-- `reset_port` asks for nothing but its own mark, of what concerns the port. -/
theorem asks_resetPort_iff (ho : Concerns port o) :
    Asks (machine streamBus) (fun n => resetPort n port) v o u ↔
      o = .enter (.resetPort port) ∧ u = v := by
  constructor
  · rintro ⟨n, hn⟩
    have hplain : Stays (Plain port) (fun _ _ => True)
        (resetPortBody n port >>= fun _ => leave (.resetPort port) none) :=
      (stays_resetPortBody (talks_plain port).toPolls (assignsIds_true port)
        (drives_plain port port) n).bind fun _ => ⟨trivial, fun _ => trivial⟩
    rcases List.mem_cons.1 hn with he | hn
    · exact Prod.mk.inj he
    · exact absurd ho ((always_plain hplain).asked hn)
  · rintro ⟨rfl, rfl⟩
    exact ⟨0, List.mem_cons_self ..⟩

/-- Reading the statics asks for nothing else. -/
theorem asks_getKernel_iff {G : ℕ → Kernel → Kern α} (ho : o ≠ .get) :
    Asks (machine streamBus) (fun n => getKernel >>= G n) v o u ↔
      Asks (machine streamBus) (fun n => G n v.kernel) v o u := by
  constructor
  · rintro ⟨n, hn⟩
    rcases List.mem_cons.1 hn with he | hn
    · exact absurd (Prod.mk.inj he).1 ho
    · exact ⟨n, hn⟩
  · rintro ⟨n, hn⟩
    exact ⟨n, List.mem_cons_of_mem _ hn⟩

/-- What concerns a port when it is started: its reset, and what follows from the identity
that the reset gives. -/
theorem asks_ps2StartPort_iff (ho : Concerns port o) :
    Asks (machine streamBus) (fun n => ps2StartPort L n port) v o u ↔
      Ps2Statics.operational v.kernel.ps2 port = true ∧
        ((o = .enter (.resetPort port) ∧ u = v) ∨
          ∃ t, Returns (machine streamBus) (fun n => resetPort n port) v () t ∧
            Asks (machine streamBus) (fun n =>
              ps2InitDevice L n (Ps2Statics.deviceId t.kernel.ps2 port) port) t o u) := by
  have hget : o ≠ .get := by
    rintro rfl
    rcases ho with (⟨_, h⟩ | h) | h <;> exact nomatch h
  unfold ps2StartPort
  rw [asks_getKernel_iff hget]
  by_cases hop : Ps2Statics.operational v.kernel.ps2 port = true
  · have hinit : ∀ _ : Unit, Growing fun n => getKernel >>= fun k =>
        ps2InitDevice L n (Ps2Statics.deviceId k.ps2 port) port := fun _ =>
      (growing_const _).bind fun k => growing_ps2InitDevice L _ port
    simp only [if_pos hop]
    refine (asks_bind (growing_resetPort port) hinit).trans ?_
    constructor
    · rintro (hreset | ⟨_, t, ht, hasks⟩)
      · exact ⟨hop, .inl ((asks_resetPort_iff ho).1 hreset)⟩
      · exact ⟨hop, .inr ⟨t, ht, (asks_getKernel_iff hget).1 hasks⟩⟩
    · rintro ⟨-, hreset | ⟨t, ht, hasks⟩⟩
      · exact .inl ((asks_resetPort_iff ho).2 hreset)
      · exact .inr ⟨(), t, ht, (asks_getKernel_iff hget).2 hasks⟩
  · simp only [if_neg hop]
    refine iff_of_false ?_ fun h => hop h.1
    rintro ⟨n, hn⟩
    exact (always_plain (stays_modifyDeviceId (assignsIds_true port) _)).asked hn ho

/-- A port is reset exactly if it is operational. -/
theorem asks_reset_iff : Asks (machine streamBus) (fun n => ps2StartPort L n port) v
    (.enter (.resetPort port)) u ↔ Ps2Statics.operational v.kernel.ps2 port = true ∧ u = v := by
  refine (asks_ps2StartPort_iff (.inr rfl)).trans (and_congr_right fun _ => ?_)
  constructor
  · rintro (h | ⟨t, -, hasks⟩)
    · exact h.2
    · exact absurd hasks (not_asks_reset _)
  · exact fun h => .inl ⟨rfl, h⟩

/-- A device is reported exactly if its identity is known behind the reset. -/
theorem reports_ps2StartPort_iff : (∃ o u, Reports port o ∧
    Asks (machine streamBus) (fun n => ps2StartPort L n port) v o u) ↔
      Ps2Statics.operational v.kernel.ps2 port = true ∧
        ∃ t, Returns (machine streamBus) (fun n => resetPort n port) v () t ∧
          getDeviceType (Ps2Statics.deviceId t.kernel.ps2 port) ≠ .devUnknown := by
  constructor
  · rintro ⟨o, u, ho, hasks⟩
    obtain ⟨hop, ⟨rfl, -⟩ | ⟨t, ht, hasks⟩⟩ := (asks_ps2StartPort_iff (.inl ho)).1 hasks
    · rcases ho with ⟨_, h⟩ | h <;> exact nomatch h
    · exact ⟨hop, t, ht, (reports_ps2InitDevice_iff _).1 ⟨o, u, ho, hasks⟩⟩
  · rintro ⟨hop, t, ht, hknown⟩
    obtain ⟨o, u, ho, hasks⟩ : ∃ o u, Reports port o ∧ Asks (machine streamBus)
        (fun n => ps2InitDevice L n (Ps2Statics.deviceId t.kernel.ps2 port) port) t o u :=
      (reports_ps2InitDevice_iff _).2 hknown
    exact ⟨o, u, ho, (asks_ps2StartPort_iff (.inl ho)).2 ⟨hop, .inr ⟨t, ht, hasks⟩⟩⟩

/-! ### Ports that have failed -/

/-- What decides whether a failed port is reported, where it is started. -/
theorem not_reported_iff (hid : Ps2Statics.deviceId v.kernel.ps2 port = 0)
    (hfailed : Failed port v.bus) :
    (¬ ∃ t, Returns (machine streamBus) (fun n => resetPort n port) v () t ∧
        getDeviceType (Ps2Statics.deviceId t.kernel.ps2 port) ≠ .devUnknown) ↔
      v.bus.data.head ≠ RESP_RESET_FAIL ∧
        ∀ id d', Phantom v.bus.data id d' → getDeviceType id = .devUnknown := by
  by_cases hd : v.bus.data.head = RESP_RESET_FAIL
  · have hreceived : (v.bus.addressed port).received = some RESP_RESET_FAIL := by
      rcases hfailed with hs | h
      · rw [hs.received, addressed_data, hd]
      · exact h
    obtain ⟨t, ht, hzero⟩ := returns_resetPort_failed hreceived hid
    refine iff_of_false (fun h => h ⟨t, ht, ?_⟩) fun h => h.1 hd
    rw [hzero]
    decide
  · have hs : (v.bus.addressed port).Silent := by
      refine hfailed.resolve_right fun h => hd ?_
      unfold Streams.received at h
      split_ifs at h
      rw [← addressed_data v.bus port]
      exact Option.some.inj h
    constructor
    · intro h
      refine ⟨hd, fun id d' hid' => ?_⟩
      obtain ⟨t, ht, rfl⟩ := (returns_resetPort_iff hs hd id).2 ⟨d', hid'⟩
      exact not_not.1 fun hknown => h ⟨t, ht, hknown⟩
    · rintro ⟨-, h⟩ ⟨t, ht, hknown⟩
      obtain ⟨d', hid'⟩ := (returns_resetPort_iff hs hd _).1 ⟨t, ht, rfl⟩
      exact hknown (h _ d' hid')

theorem deviceId_boot (port : Port) (s : Streams) (table : Idt) (mem : Mem) :
    Ps2Statics.deviceId (World.boot s table mem).kernel.ps2 port = 0 := by
  cases port <;> rfl

/-- A port is reset at most once. -/
theorem asks_reset_unique (L : Layout) (port : Port) {s : Streams} {table : Idt} {mem : Mem}
    (hu : Asks (machine streamBus) (fun n => ps2Init L n) (.boot s table mem)
      (.enter (.resetPort port)) u)
    (hv : Asks (machine streamBus) (fun n => ps2Init L n) (.boot s table mem)
      (.enter (.resetPort port)) v) : u = v := by
  obtain ⟨T, -, hone, hT⟩ :=
    (localised_ps2Init L port).confined _ (deviceId_boot port s table mem)
  obtain ⟨u', hu', hasks⟩ := (hT _ u (.inr rfl)).1 hu
  obtain ⟨v', hv', hasks'⟩ := (hT _ v (.inr rfl)).1 hv
  rw [(asks_reset_iff.1 hasks).2, (asks_reset_iff.1 hasks').2]
  exact hone u' v' hu' hv'

/-- **When a failed port is not reported.**  A port that has failed when it is reset is
neither reported as initialised nor given a driver if and only if the first byte that is
read then does not say that the self-test failed, and no known device has the identity
that the stray bytes make. -/
theorem unreported_iff (L : Layout) (port : Port) (s : Streams) (table : Idt) (mem : Mem)
    (hfailed : ∀ u, Asks (machine streamBus) (fun n => ps2Init L n) (.boot s table mem)
      (.enter (.resetPort port)) u → Failed port u.bus) :
    Unreported L port (.boot s table mem) ↔
      ∀ u, Asks (machine streamBus) (fun n => ps2Init L n) (.boot s table mem)
        (.enter (.resetPort port)) u → u.bus.data.head ≠ RESP_RESET_FAIL ∧
          ∀ id d', Phantom u.bus.data id d' → getDeviceType id = .devUnknown := by
  obtain ⟨T, hid, -, hT⟩ :=
    (localised_ps2Init L port).confined _ (deviceId_boot port s table mem)
  have hreset := fun u => hT (.enter (.resetPort port)) u (.inr rfl)
  have hreported : Unreported L port (.boot s table mem) ↔ ∀ v, T v → ¬ ∃ o u, Reports port o ∧
      Asks (machine streamBus) (fun n => ps2StartPort L n port) v o u := by
    constructor
    · rintro h v hv ⟨o, u, ho, hasks⟩
      exact h o u ((hT o u (.inl ho)).2 ⟨v, hv, hasks⟩) ho
    · intro h o u hasks ho
      obtain ⟨v, hv, hasks'⟩ := (hT o u (.inl ho)).1 hasks
      exact h v hv ⟨o, u, ho, hasks'⟩
  rw [hreported]
  constructor
  · intro h u hu
    obtain ⟨v, hv, hasks⟩ := (hreset u).1 hu
    obtain ⟨hop, rfl⟩ := asks_reset_iff.1 hasks
    refine (not_reported_iff (hid u hv) (hfailed u hu)).1 fun hknown => h u hv ?_
    exact reports_ps2StartPort_iff.2 ⟨hop, hknown⟩
  · intro h v hv hreports
    obtain ⟨hop, hknown⟩ := reports_ps2StartPort_iff.1 hreports
    have hu := (hreset v).2 ⟨v, hv, asks_reset_iff.2 ⟨hop, rfl⟩⟩
    exact (not_reported_iff (hid v hv) (hfailed v hu)).2 (h v hu) hknown

/-! ### A device that fails its self-test -/

/-- A controller that is always ready and passes its tests, with one port, behind which
the device answers the reset with `0xfc`. -/
def selfTestFails : Streams where
  status := .const 0x01
  data := [0x00, 0x00, 0x55, 0x01, 0x20, 0x00, 0x00, 0xfc] ++ₛ .const 0x00
  other := .const 0
  words := .const 0

set_option maxRecDepth 4000 in
/-- The controller whose device fails the self-test comes to the reset of port 0. -/
theorem asks_reset_selfTestFails : ∃ u, Asks (machine streamBus)
    (fun n => ps2Init Layout.sample n) (.boot selfTestFails emptyIdt fun _ => 0)
      (Op.enter (.resetPort .port0)) u ∧
    u.bus = { selfTestFails with data := [0xfc] ++ₛ .const 0x00 } :=
  ⟨_, ⟨0, List.mem_of_getElem? (i := 97) rfl⟩, rfl⟩

set_option maxRecDepth 4000 in
/-- The device of that controller fails the self-test. -/
theorem failed_selfTestFails : ∀ u, Asks (machine streamBus)
    (fun n => ps2Init Layout.sample n) (.boot selfTestFails emptyIdt fun _ => 0)
      (Op.enter (.resetPort .port0)) u → Failed .port0 u.bus := by
  intro u hu
  obtain ⟨v, hv, hbus⟩ := asks_reset_selfTestFails
  rw [asks_reset_unique Layout.sample .port0 hu hv, hbus]
  exact .inr rfl

/-- The condition at that controller. -/
theorem unreported_iff_selfTestFails :
    Unreported Layout.sample .port0 (.boot selfTestFails emptyIdt fun _ => 0) ↔
      ∀ u, Asks (machine streamBus) (fun n => ps2Init Layout.sample n)
        (.boot selfTestFails emptyIdt fun _ => 0) (Op.enter (.resetPort .port0)) u →
          u.bus.data.head ≠ RESP_RESET_FAIL ∧
            ∀ id d', Phantom u.bus.data id d' → getDeviceType id = .devUnknown :=
  unreported_iff Layout.sample .port0 selfTestFails emptyIdt (fun _ => 0) failed_selfTestFails

set_option maxRecDepth 4000 in
/-- It is reported as a mouse. -/
theorem not_unreported_selfTestFails :
    (∀ u, Asks (machine streamBus) (fun n => ps2Init Layout.sample n)
      (.boot selfTestFails emptyIdt fun _ => 0) (Op.enter (.resetPort .port0)) u →
        Failed .port0 u.bus) ∧
      ¬ Unreported Layout.sample .port0 (.boot selfTestFails emptyIdt fun _ => 0) := by
  refine ⟨failed_selfTestFails, fun h => ?_⟩
  obtain ⟨u, hu⟩ : ∃ u, Asks (machine streamBus) (fun n => ps2Init Layout.sample n)
      (.boot selfTestFails emptyIdt fun _ => 0)
      (Op.print (success .port0 "Standard PS/2 mouse")) u :=
    ⟨_, 0, List.mem_of_getElem? (i := 109) rfl⟩
  exact h _ u hu (.inl ⟨_, rfl⟩)

end Ps2
end DrewOS

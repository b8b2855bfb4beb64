/-
# A reset on a prompt device

On the bus that answers from streams a wait that sees readiness within its first
`DEFAULT_WAIT` polls succeeds, so a conversation in which every wait does so
(`Timely`) goes as it should: every byte is sent, and every reply is read.

`Speaks port P l a f` says that `P` holds the conversation `l`: it needs `l` to be
timely and the replies in `l` to come, whatever comes after them, and then it
returns `a`, leaves what comes after `l`, and takes the identity of the port along
`f`.  Such conversations follow each other (`Speaks.bind`), and a device command
with `k` requests to resend is one of them for every `k` (`speaks_command`).
-/

import DrewOS.Ps2.Prefix
import DrewOS.Ps2.Reset

namespace DrewOS

open ByteMem Effect

namespace Ps2

/-! ### Conversations -/

/-- What is waited for before an event of the traffic. -/
def readyFor : Event → Byte → Bool
  | .outb _ _ => inputEmpty
  | _ => outputFull

/-- The wait sees readiness within its first `DEFAULT_WAIT` polls. -/
def Soon (ready : Byte → Bool) (s : Streams) : Prop :=
  ∃ i < DEFAULT_WAIT, ready (s.status.get i) = true

/-- So does every wait of the traffic `l`, one after the other. -/
def Timely : List Event → Streams → Prop
  | [], _ => True
  | e :: l, s => Soon (readyFor e) s ∧ Timely l (s.await (readyFor e))

/-- The bytes read in the traffic. -/
def replies (l : List Event) : List Byte :=
  l.filterMap fun
    | .inb _ r => some r
    | _ => none

/-- The replies of two sessions, one behind the other. -/
@[simp] theorem replies_append (l l' : List Event) :
    replies (l ++ l') = replies l ++ replies l' :=
  List.filterMap_append ..

/-- What comes soon is not late. -/
theorem Soon.not_late {ready : Byte → Bool} {s : Streams} (h : Soon ready s) :
    ¬ s.Late ready := by
  obtain ⟨i, hi, hready⟩ := h
  exact fun hlate => Bool.false_ne_true ((hlate.1 i hi).symm.trans hready)

/-- Only the status bytes matter. -/
theorem Timely.congr {l : List Event} {s s' : Streams} (h : Timely l s)
    (hs : s'.status = s.status) : Timely l s' := by
  induction l generalizing s s' with
  | nil => trivial
  | cons e l ih =>
    obtain ⟨hsoon, hrest⟩ := h
    refine ⟨?_, ih hrest ?_⟩
    · unfold Soon
      rwa [hs]
    · unfold Streams.await
      rw [hs]

/-! ### Code that holds a conversation -/

variable {α β : Type} {port : Port} {f g : Word → Word} {l r : List Event} {a : α} {b : β}

/-- From `w` to `t` the conversation `l` was held; `l'` and the bytes `d` are left. -/
structure Spoken (port : Port) (w t : World Streams) (l l' : List Event) (d : Stream' Byte)
    (f : Word → Word) : Prop where
  timely : Timely l' t.bus
  data : t.bus.data = d
  traffic : traffic t.log = traffic w.log ++ l
  id : Ps2Statics.deviceId t.kernel.ps2 port = f (Ps2Statics.deviceId w.kernel.ps2 port)

/-- The code holds the conversation `l` and returns `a`; the identity goes along `f`. -/
structure Speaks (port : Port) (P : ℕ → Kern α) (l : List Event) (a : α) (f : Word → Word) :
    Prop where
  growing : Growing P
  run : ∀ (w : World Streams) l' d, Timely (l ++ l') w.bus →
    w.bus.data = replies l ++ₛ d →
      ∃ t, Returns (machine streamBus) P w a t ∧ Spoken port w t l l' d f

/-- **The sequence rule.** -/
theorem Speaks.bind {P : ℕ → Kern α} {F : ℕ → α → Kern β} (hP : Speaks port P l a f)
    (hF : Speaks port (fun n => F n a) r b g) (hg : ∀ a, Growing fun n => F n a) :
    Speaks port (fun n => P n >>= F n) (l ++ r) b (g ∘ f) where
  growing := hP.growing.bind hg
  run := by
    intro w l' d htimely hdata
    rw [List.append_assoc] at htimely
    rw [replies_append, Stream'.append_append_stream] at hdata
    obtain ⟨t, ht, hl⟩ := hP.run w (r ++ l') _ htimely hdata
    obtain ⟨u, hu, hr⟩ := hF.run t l' d hl.timely hl.data
    refine ⟨u, (returns_bind hP.growing hg).2 ⟨a, t, ht, hu⟩, hr.timely, hr.data, ?_, ?_⟩
    · rw [hr.traffic, hl.traffic, List.append_assoc]
    · rw [hr.id, hl.id]
      rfl

/-- The same for code without recursion. -/
theorem Speaks.followed {p : Kern α} {k : α → Kern β} (hp : Speaks port (fun _ => p) l a id)
    (hk : Speaks port (fun _ => k a) r b g) : Speaks port (fun _ => p >>= k) (l ++ r) b g :=
  hp.bind hk fun _ => growing_const _

/-- Code without traffic. -/
theorem speaks_quiet {p : Kern α} (h : ∀ w, ∃ t, p.run (machine streamBus) w = (some a, t) ∧
    t.bus = w.bus ∧ traffic t.log = traffic w.log ∧
      Ps2Statics.deviceId t.kernel.ps2 port = f (Ps2Statics.deviceId w.kernel.ps2 port)) :
    Speaks port (fun _ => p) [] a f where
  growing := growing_const p
  run := by
    intro w l' d htimely hdata
    obtain ⟨t, hrun, hbus, htraffic, hid⟩ := h w
    refine ⟨t, ⟨0, hrun⟩, ?_, ?_, ?_, hid⟩
    · rwa [hbus]
    · rwa [hbus]
    · rw [htraffic, List.append_nil]

/-- One exchange. -/
theorem speaks_exchange {p : Kern α} {e : Event} (h : ∀ (w : World Streams) d,
    Soon (readyFor e) w.bus → w.bus.data = replies [e] ++ₛ d →
      ∃ t bus, p.run (machine streamBus) w = (some a, t) ∧ Exchange w t bus [e] ∧
        bus.status = (w.bus.await (readyFor e)).status ∧ bus.data = d) :
    Speaks port (fun _ => p) [e] a id where
  growing := growing_const p
  run := by
    intro w l' d htimely hdata
    obtain ⟨t, bus, hrun, ht, hstatus, hd⟩ := h w d htimely.1 hdata
    refine ⟨t, ⟨0, hrun⟩, ?_, ?_, ht.traffic, ?_⟩
    · rw [ht.bus]
      exact htimely.2.congr hstatus
    · rw [ht.bus, hd]
    · rw [ht.kernel]
      rfl

/-- `ps2_send_data` says its byte. -/
theorem speaks_ps2SendData (data : Byte) :
    Speaks port (fun _ => ps2SendData data) [.outb PORT_DATA data] () id := by
  refine speaks_exchange fun w d hsoon hdata => ?_
  have hlate : ¬ w.bus.Late inputEmpty := hsoon.not_late
  obtain ⟨t, hrun, ht⟩ := run_ps2SendData data w
  rw [sent, if_neg hlate] at ht
  exact ⟨t, _, hrun, ht, rfl, hdata⟩

/-- `ps2_send_command` says its command. -/
theorem speaks_ps2SendCommand (command : Byte) :
    Speaks port (fun _ => ps2SendCommand command) [.outb PORT_COMMAND command] () id := by
  refine speaks_exchange fun w d hsoon hdata => ?_
  have hlate : ¬ w.bus.Late inputEmpty := hsoon.not_late
  obtain ⟨t, hrun, ht⟩ := run_ps2SendCommand command w
  rw [sent, if_neg hlate] at ht
  exact ⟨t, _, hrun, ht, rfl, hdata⟩

/-- Reading in time hears the byte. -/
theorem speaks_tryReadData (byte : Byte) :
    Speaks port (fun _ => tryReadData) [.inb PORT_DATA byte] (some byte) id := by
  refine speaks_exchange fun w d hsoon hdata => ?_
  have hlate : ¬ w.bus.Late outputFull := hsoon.not_late
  obtain ⟨t, hrun, ht⟩ := run_tryReadData w
  have hreceived : w.bus.received = some byte := by
    rw [Streams.received, if_neg hlate, hdata]
    rfl
  have hreceive : w.bus.receive = { w.bus.await outputFull with data := d } := by
    rw [Streams.receive, if_neg hlate, hdata]
    rfl
  rw [hreceive, heard, hreceived] at ht
  rw [hreceived] at hrun
  exact ⟨t, _, hrun, ht, rfl, rfl⟩

theorem speaks_enter (fn : Fn) : Speaks port (fun _ => enter fn) [] () id :=
  speaks_quiet fun w => ⟨_, rfl, rfl, (exchange_say w rfl).traffic.trans (List.append_nil _), rfl⟩

theorem speaks_leave (fn : Fn) : Speaks port (fun _ => leave fn none) [] () id :=
  speaks_quiet fun w => ⟨_, rfl, rfl, (exchange_say w rfl).traffic.trans (List.append_nil _), rfl⟩

/-- Assigning the identity says nothing. -/
theorem speaks_modifyDeviceId (f : Word → Word) :
    Speaks port (fun _ => modifyDeviceId port f) [] () f := by
  refine speaks_quiet fun w => ⟨_, rfl, rfl, rfl, ?_⟩
  cases port <;> rfl

theorem speaks_ret (a : α) : Speaks port (fun _ => (.ret a : Kern α)) [] a id :=
  speaks_quiet fun w => ⟨w, rfl, rfl, rfl, rfl⟩

/-- The same conversation, written differently. -/
theorem Speaks.congr {P : ℕ → Kern α} (h : Speaks port P l a f) (hl : l = r) (hf : f = g) :
    Speaks port P r a g := by
  subst hl hf
  exact h

/-- A family that starts with a cut. -/
theorem Speaks.of_succ {R : ℕ → Kern α} (h0 : R 0 = .cut) (hg : Growing R)
    (h : Speaks port (fun n => R (n + 1)) l a f) : Speaks port R l a f where
  growing := hg
  run := by
    intro w l' d htimely hdata
    obtain ⟨t, ht, hspoken⟩ := h.run w l' d htimely hdata
    exact ⟨t, (returns_succ h0).2 ht, hspoken⟩

/-! ### Device commands -/

/-- A byte for the device on `port`. -/
def toDevice (port : Port) (data : Byte) : List Event :=
  (if port = .port1 then [.outb PORT_COMMAND CMD_WRITE_INPUT_PORT_1] else []) ++
    [.outb PORT_DATA data]

/-- A device command that is answered with `k` requests to resend and then acknowledged. -/
def commandTalk (port : Port) (cmd : Byte) : ℕ → List Event
  | 0 => toDevice port cmd ++ [.inb PORT_DATA RESP_ACK]
  | k + 1 => toDevice port cmd ++ [.inb PORT_DATA RESP_RESEND] ++ commandTalk port cmd k

/-- A byte goes to its port, behind the prefix for port 1. -/
theorem speaks_toDevice (port : Port) (data : Byte) :
    Speaks port (fun _ => onlyIf (port = .port1) (ps2SendCommand CMD_WRITE_INPUT_PORT_1) >>=
      fun _ => ps2SendData data) (toDevice port data) () id := by
  have hselect : Speaks port
      (fun _ => onlyIf (port = .port1) (ps2SendCommand CMD_WRITE_INPUT_PORT_1))
      (if port = .port1 then [.outb PORT_COMMAND CMD_WRITE_INPUT_PORT_1] else []) () id := by
    unfold onlyIf
    split_ifs
    · exact speaks_ps2SendCommand _
    · exact speaks_ret ()
  exact hselect.bind (speaks_ps2SendData data) fun _ => growing_const _

/-- An attempt says the command and hears the answer. -/
theorem speaks_attemptCommand (cmd byte : Byte) :
    Speaks port (fun _ => attemptCommand cmd port) (toDevice port cmd ++ [.inb PORT_DATA byte])
      (some byte) id := by
  have hattempt := (speaks_toDevice port cmd).bind (speaks_tryReadData byte)
    fun _ => growing_const tryReadData
  simp only [Prog.bind_bind] at hattempt
  exact hattempt

/-- More fuel lets the attempts go on. -/
theorem growing_afterAttempt (cmd : Byte) (resp : Option Byte) :
    Growing fun n => if resp = some RESP_RESEND then ps2SendDeviceCommand n cmd port
      else reportResponse cmd port resp := by
  by_cases hresp : resp = some RESP_RESEND
  · simpa only [if_pos hresp] using growing_command cmd
  · simpa only [if_neg hresp] using growing_const _

/-- What follows the response. -/
theorem speaks_again {cmd byte : Byte} (hrest : Speaks port (fun n =>
      if some byte = some RESP_RESEND then ps2SendDeviceCommand n cmd port
      else reportResponse cmd port (some byte)) r () id) :
    Speaks port (fun n => ps2SendDeviceCommand n cmd port)
      (toDevice port cmd ++ [.inb PORT_DATA byte] ++ r) () id := by
  have hbody := (speaks_attemptCommand cmd byte).bind hrest (growing_afterAttempt cmd)
  have hcall := (@speaks_enter port (.sendDeviceCommand cmd port)).bind
    (hbody.bind (speaks_leave (.sendDeviceCommand cmd port)) fun _ => growing_const _)
    fun _ => hbody.growing.bind fun _ => growing_const _
  exact Speaks.of_succ rfl (growing_command cmd) (hcall.congr (List.append_nil _) rfl)

/-- **A device command**, by induction on the number of requests to resend. -/
theorem speaks_command (cmd : Byte) (k : ℕ) :
    Speaks port (fun n => ps2SendDeviceCommand n cmd port) (commandTalk port cmd k) () id := by
  induction k with
  | zero => exact (speaks_again (speaks_ret ())).congr (List.append_nil _) rfl
  | succ k ih => exact speaks_again ih

/-! ### The reset -/

/-- The three bytes of a reset's response are heard. -/
theorem speaks_resetResponse (resp0 resp1 resp2 : Byte) :
    Speaks port (fun _ => resetResponse)
      [.inb PORT_DATA resp0, .inb PORT_DATA resp1, .inb PORT_DATA resp2]
      (some (resp0, resp1, resp2)) id := by
  unfold resetResponse
  refine Speaks.congr ((speaks_tryReadData resp0).followed ?_) rfl rfl
  refine Speaks.congr ((speaks_tryReadData resp1).followed ?_) rfl rfl
  refine Speaks.congr ((speaks_tryReadData resp2).followed ?_) rfl rfl
  exact speaks_ret _

/-- The two bytes of the identity are heard. -/
theorem speaks_identifyPort (c0 c1 : Byte) :
    Speaks port (fun _ => identifyPort port) [.inb PORT_DATA c0, .inb PORT_DATA c1] ()
      fun _ => identifyIdentity c0 c1 := by
  have hsecond : Speaks port (fun _ => modifyDeviceId port fun id => (id <<< 8) + c1.setWidth 16)
      [] () fun id => (id <<< 8) + c1.setWidth 16 := speaks_modifyDeviceId _
  unfold identifyPort
  refine Speaks.congr ((speaks_tryReadData c0).followed ?_) rfl rfl
  refine Speaks.bind (g := fun id => (id <<< 8) + c1.setWidth 16)
    (speaks_modifyDeviceId fun _ => c0.setWidth 16) ?_ fun _ => growing_const _
  exact (speaks_tryReadData c1).followed hsecond

/-- The special code is heard, and goes into the identity. -/
theorem speaks_readSpecialCode (c : Byte) :
    Speaks port (fun _ => readSpecialCode port) [.inb PORT_DATA c] ()
      fun id => id + (c.setWidth 16 <<< 8) := by
  have hmodify : Speaks port
      (fun _ => modifyDeviceId port fun id => id + (c.setWidth 16 <<< 8)) [] ()
      fun id => id + (c.setWidth 16 <<< 8) := speaks_modifyDeviceId _
  unfold readSpecialCode
  exact (speaks_tryReadData c).followed hmodify

/-- The two bytes that say that the self-test passed, in either order. -/
def Passed (resp0 resp1 : Byte) : Prop :=
  (resp0 = RESP_ACK ∧ resp1 = RESP_RESET_SUCCESS) ∨
    (resp0 = RESP_RESET_SUCCESS ∧ resp1 = RESP_ACK)

/-- What has passed is no failure. -/
theorem Passed.ne_fail {resp0 resp1 : Byte} (h : Passed resp0 resp1) :
    resp0 ≠ RESP_RESET_FAIL := by
  rcases h with ⟨rfl, -⟩ | ⟨rfl, -⟩ <;> decide

/-- A passed reset is reported without a word to the controller. -/
theorem speaks_reportReset {resp0 resp1 : Byte} (h : Passed resp0 resp1) :
    Speaks port (fun _ => reportReset port resp0 resp1) [] () id := by
  unfold reportReset
  unfold Passed at h
  rw [if_pos h]
  exact speaks_ret ()

/-! ### A device -/

/-- How a device answers. -/
structure Device where
  /-- The first two bytes that answer the reset. -/
  resp0 : Byte
  resp1 : Byte
  passed : Passed resp0 resp1
  /-- The identity in the answer to the reset. -/
  r0 : Byte
  /-- Its second byte, which some identities have. -/
  special : Option Byte
  special_iff : special.isSome ↔ r0 = 0xab ∨ r0 = 0xac
  /-- The requests to resend each of the three commands. -/
  k1 : ℕ
  k2 : ℕ
  k3 : ℕ
  /-- The identity. -/
  c0 : Byte
  c1 : Byte

namespace Device

/-- A command is acknowledged after `k` requests to resend it. -/
def acknowledged (k : ℕ) : List Byte := List.replicate k RESP_RESEND ++ [RESP_ACK]

/-- All bytes the device sends. -/
def answers (D : Device) : List Byte :=
  [D.resp0, D.resp1, D.r0] ++ D.special.toList ++ acknowledged D.k1 ++ acknowledged D.k2 ++
    [D.c0, D.c1] ++ acknowledged D.k3

/-- All bytes it is sent. -/
def commands (D : Device) : List Byte :=
  CMD_RESET_DEVICE :: (List.replicate (D.k1 + 1) CMD_DISABLE_SCAN ++
    List.replicate (D.k2 + 1) CMD_IDENTIFY ++ List.replicate (D.k3 + 1) CMD_ENABLE_SCAN)

/-- The answer to the reset. -/
def resetTalk (D : Device) : List Event :=
  [.inb PORT_DATA D.resp0, .inb PORT_DATA D.resp1, .inb PORT_DATA D.r0] ++
    D.special.toList.map (.inb PORT_DATA)

/-- The three commands. -/
def identifyTalk (D : Device) (port : Port) : List Event :=
  commandTalk port CMD_DISABLE_SCAN D.k1 ++ (commandTalk port CMD_IDENTIFY D.k2 ++
    ([.inb PORT_DATA D.c0, .inb PORT_DATA D.c1] ++ commandTalk port CMD_ENABLE_SCAN D.k3))

/-- The whole conversation with the device on `port`. -/
def conversation (D : Device) (port : Port) : List Event :=
  toDevice port CMD_RESET_DEVICE ++ (D.resetTalk ++ D.identifyTalk port)

/-- The identity that the port gets. -/
def identity (D : Device) : Word := identifyIdentity D.c0 D.c1

end Device

variable (D : Device)

/-- The special code is read of the two special keyboards only. -/
theorem speaks_special :
    ∃ f, Speaks port (fun _ => onlyIf (D.r0 = 0xab ∨ D.r0 = 0xac) (readSpecialCode port))
      (D.special.toList.map (.inb PORT_DATA)) () f := by
  have hiff := D.special_iff
  unfold onlyIf
  cases hspecial : D.special with
  | none =>
    have hneg : ¬ (D.r0 = 0xab ∨ D.r0 = 0xac) := fun h => by
      have hsome := hiff.2 h
      rw [hspecial] at hsome
      exact nomatch hsome
    rw [if_neg hneg]
    exact ⟨_, speaks_ret ()⟩
  | some c =>
    rw [if_pos (hiff.1 (by rw [hspecial]; rfl))]
    exact ⟨_, speaks_readSpecialCode c⟩

/-- The identification of a device. -/
theorem speaks_identification :
    Speaks port (fun n => identification n port) (D.identifyTalk port) () fun _ => D.identity := by
  have hlast := (@speaks_identifyPort port D.c0 D.c1).bind
    (speaks_command CMD_ENABLE_SCAN D.k3) fun _ => growing_command _
  have hsecond := (@speaks_command port CMD_IDENTIFY D.k2).bind hlast
    fun _ => (growing_const _).bind fun _ => growing_command _
  exact (@speaks_command port CMD_DISABLE_SCAN D.k1).bind hsecond
    fun _ => (growing_command _).bind fun _ => (growing_const _).bind fun _ => growing_command _

/-- What follows the response of a device. -/
theorem speaks_afterResponse :
    Speaks port (fun n => afterResponse n port (some (D.resp0, D.resp1, D.r0)))
      (D.special.toList.map (.inb PORT_DATA) ++ D.identifyTalk port) () fun _ => D.identity := by
  obtain ⟨f, hspecial⟩ := @speaks_special port D
  have hidentify := hspecial.bind (speaks_identification D) fun _ => growing_identification
  have hmodify := (@speaks_modifyDeviceId port fun _ => D.r0.setWidth 16).bind hidentify
    fun _ => (growing_const _).bind fun _ => growing_identification
  have hreport := (@speaks_reportReset port _ _ D.passed).bind hmodify
    fun _ => (growing_const _).bind fun _ => (growing_const _).bind fun _ => growing_identification
  simp only [afterResponse, if_neg D.passed.ne_fail]
  exact hreport.congr rfl rfl

/-- What follows the reset of a device. -/
theorem speaks_afterReset :
    Speaks port (fun n => afterReset n port) (D.resetTalk ++ D.identifyTalk port) ()
      fun _ => D.identity := by
  have hreset := (speaks_resetResponse D.resp0 D.resp1 D.r0).bind (@speaks_afterResponse port D)
    growing_afterResponse
  refine hreset.congr ?_ rfl
  rw [Device.resetTalk, List.append_assoc]

/-- **A reset.** -/
theorem speaks_resetPort :
    Speaks port (fun n => resetPort n port) (D.conversation port) () fun _ => D.identity := by
  have hgrowing : Growing fun n => afterReset n port := (speaks_afterReset D).growing
  have hbody := (speaks_toDevice port CMD_RESET_DEVICE).bind (speaks_afterReset D)
    fun _ => hgrowing
  simp only [Prog.bind_bind] at hbody
  have hcall := (@speaks_enter port (.resetPort port)).bind
    (hbody.bind (speaks_leave (.resetPort port)) fun _ => growing_const _)
    fun _ => hbody.growing.bind fun _ => growing_const _
  exact hcall.congr (List.append_nil _) rfl

/-! ### What is sent and what is answered -/

/-- How a byte is sent to the device on `port`. -/
def addressing (port : Port) (data : Byte) : List (Word × Byte) :=
  (if port = .port1 then [select] else []) ++ [(PORT_DATA, data)]

/-- What is written to reach a port. -/
theorem writes_toDevice (port : Port) (data : Byte) :
    writes (toDevice port data) = addressing port data := by
  cases port <;> rfl

theorem replies_toDevice (port : Port) (data : Byte) : replies (toDevice port data) = [] := by
  cases port <;> rfl

/-- A command is written once for every attempt. -/
theorem writes_commandTalk (port : Port) (cmd : Byte) (k : ℕ) :
    writes (commandTalk port cmd k) =
      (List.replicate (k + 1) cmd).flatMap (addressing port) := by
  induction k with
  | zero => rw [commandTalk, writes_append, writes_toDevice]; rfl
  | succ k ih =>
    rw [commandTalk, writes_append, writes_append, writes_toDevice, ih,
      List.replicate_succ (n := k + 1), List.flatMap_cons]
    simp [writes]

/-- A command is answered by requests to resend, and in the end by the acknowledgement. -/
theorem replies_commandTalk (port : Port) (cmd : Byte) (k : ℕ) :
    replies (commandTalk port cmd k) = Device.acknowledged k := by
  induction k with
  | zero => rw [commandTalk, replies_append, replies_toDevice]; rfl
  | succ k ih =>
    rw [commandTalk, replies_append, replies_append, replies_toDevice, ih]
    rfl

namespace Device

/-- The replies of the conversation are the device's answers. -/
theorem replies_conversation (D : Device) (port : Port) :
    replies (D.conversation port) = D.answers := by
  have hspecial : replies (D.special.toList.map (Event.inb PORT_DATA)) = D.special.toList := by
    cases D.special <;> rfl
  rw [conversation, resetTalk, identifyTalk]
  simp only [replies_append, replies_toDevice, replies_commandTalk, hspecial, List.nil_append]
  simp only [answers, List.append_assoc]
  rfl

/-- The commands of the conversation are those that the device is sent. -/
theorem writes_conversation (D : Device) (port : Port) :
    writes (D.conversation port) = D.commands.flatMap (addressing port) := by
  have hspecial : writes (D.special.toList.map (Event.inb PORT_DATA)) = [] := by
    cases D.special <;> rfl
  rw [conversation, resetTalk, identifyTalk, commands]
  simp only [writes_append, writes_toDevice, writes_commandTalk, hspecial, List.flatMap_cons,
    List.flatMap_append, List.append_assoc]
  rfl

end Device

/-- The device on `port` was reset and identified; `rest` is left of the bytes to come. -/
structure Identified (D : Device) (port : Port) (w t : World Streams) (rest : Stream' Byte) :
    Prop where
  id : (Ps2Statics.deviceId t.kernel.ps2 port).toNat = 256 * D.c0.toNat + D.c1.toNat
  talk : traffic t.log = traffic w.log ++ D.conversation port
  answers : replies (traffic t.log) = replies (traffic w.log) ++ D.answers
  rest : t.bus.data = rest
  commands : writesSince w t = D.commands.flatMap (addressing port)

/-- **A prompt device is identified.** -/
theorem resetPort_identified (w : World Streams) (rest : Stream' Byte)
    (htimely : Timely (D.conversation port) w.bus) (hdata : w.bus.data = D.answers ++ₛ rest) :
    ∃ t, Returns (machine streamBus) (fun n => resetPort n port) w () t ∧
      Identified D port w t rest := by
  rw [← D.replies_conversation port] at hdata
  rw [← List.append_nil (D.conversation port)] at htimely
  obtain ⟨t, ht, hspoken⟩ := (speaks_resetPort D).run w [] rest htimely hdata
  refine ⟨t, ht, ?_, hspoken.traffic, ?_, hspoken.data, ?_⟩
  · rw [hspoken.id]
    exact toNat_identifyIdentity D.c0 D.c1
  · rw [hspoken.traffic, replies_append, D.replies_conversation]
  · have hwrites := congrArg writes hspoken.traffic
    rw [writes_append, writes_traffic, writes_traffic, D.writes_conversation] at hwrites
    exact writesSince_eq hwrites

/-- A controller that is always ready is in time for everything. -/
theorem timely_ready {l : List Event} {s : Streams} {b : Byte} (hin : inputEmpty b = true)
    (hout : outputFull b = true) (h : s.status = Stream'.const b) : Timely l s := by
  induction l generalizing s with
  | nil => trivial
  | cons e l ih =>
    refine ⟨⟨0, by decide, ?_⟩, ih ?_⟩
    · rw [h]
      cases e <;> assumption
    · show s.status.drop _ = _
      rw [h]
      rfl

/-- A keyboard that wants each of its first two commands once more. -/
def hesitantKeyboard : Device where
  resp0 := RESP_RESET_SUCCESS
  resp1 := RESP_ACK
  passed := .inr ⟨rfl, rfl⟩
  r0 := 0xab
  special := some 0x83
  special_iff := by decide
  k1 := 1
  k2 := 1
  k3 := 0
  c0 := 0xab
  c1 := 0x83

/-- The machine with this keyboard on a controller that is always ready. -/
def beforeKeyboard : World Streams :=
  .boot ⟨.const 0x01, hesitantKeyboard.answers ++ₛ .const 0, .const 0, .const 0⟩ emptyIdt
    fun _ => 0

theorem timely_beforeKeyboard (l : List Event) : Timely l beforeKeyboard.bus := by
  have hempty : inputEmpty 0x01 = true := rfl
  have hfull : outputFull 0x01 = true := rfl
  exact timely_ready hempty hfull rfl

/-- A keyboard on port 1 that asks twice to resend is identified. -/
theorem resetPort_identified_keyboard :
    ∃ t, Returns (machine streamBus) (fun n => resetPort n .port1) beforeKeyboard () t ∧
      Identified hesitantKeyboard .port1 beforeKeyboard t (.const 0) :=
  resetPort_identified hesitantKeyboard beforeKeyboard _ (timely_beforeKeyboard _) rfl

end Ps2
end DrewOS

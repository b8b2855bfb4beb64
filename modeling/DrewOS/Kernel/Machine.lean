/-
# The machine the kernel runs on

The kernel's C code asks for port reads and writes, memory loads, output on the
console and changes of its static variables; `Kern α` is such a program with a
result in `α`.  The rest of the machine is a `Bus`: what each port answers and
how a read or write changes the devices.  Nothing is assumed of it, so a
theorem over all buses holds whatever the devices do; `Streams` is the bus of a
PS/2 controller that answers from given streams of bytes.

Everything observable is written to a log in order.  `enter f` and `leave f`
mark where a function is called and where it returns; they are no operations of
the machine, and give names to the parts of a run.

Memory here is what the code loads from, the tables of the firmware: the text buffer,
to which the prints store, is the subject of `DrewOS.Console`.  Hardware interrupts
are the subject of `DrewOS.Interrupt`; a run of this machine is one without them.
-/

import DrewOS.Effect.Logic
import DrewOS.Console.Screen
import DrewOS.Kernel.Idt
import Mathlib.Data.Stream.Init

namespace DrewOS

open ByteMem Effect Console

/-- `port_t`. -/
inductive Port where
  | port0 | port1
  deriving DecidableEq, Repr

/-- `scan_code_set_t`. -/
inductive ScanCodeSet where
  | set1 | set2 | set3
  deriving DecidableEq, Repr

/-! ### Static variables -/

/-- The statics of `pic.c`. -/
structure PicStatics where
  offset0 : Byte
  offset1 : Byte

/-- The statics of `ps2.c`. -/
structure Ps2Statics where
  port0Operational : Bool
  port1Operational : Bool
  dualChannel : Bool
  port0Id : Word
  port1Id : Word

/-- The statics of `ps2_keyboard.c`. -/
structure KbdStatics where
  vector : Byte
  port : Port

/-- The statics of `rsdp.c`, `rsdt.c`, `fadt.c` and `madt.c`: pointers, 0 when unset. -/
structure AcpiStatics where
  rsdp : Addr
  xsdp : Addr
  rsdt : Addr
  xsdt : Addr
  fadt : Addr
  madt : Addr

/-- The static variables of the kernel, those of the console apart. -/
structure Kernel where
  pic : PicStatics
  idt : Idt
  ps2 : Ps2Statics
  kbd : KbdStatics
  acpi : AcpiStatics

/-- The static variables as the image is loaded: all zero. -/
def Kernel.boot (t : Idt) : Kernel where
  pic := ⟨0, 0⟩
  idt := t
  ps2 := ⟨false, false, false, 0, 0⟩
  kbd := ⟨0, .port0⟩
  acpi := ⟨0, 0, 0, 0, 0, 0⟩

/-! ### Operations and programs -/

/-- An argument of a formatted print. -/
inductive Arg where
  | int (v : Dword)
  | str (s : String)
  deriving DecidableEq

/-- What is passed to `cprint` or, with `newline`, to `cprintln`. -/
structure Message where
  text : String
  fg : Colour
  bg : Colour
  args : List Arg
  newline : Bool
  deriving DecidableEq

/-- The functions whose calls are marked in the log, with their arguments. -/
inductive Fn where
  | sendCommand (command : Byte)
  | readData
  | getConfig
  | setConfig (config : Byte)
  | sendDeviceCommand (cmd : Byte) (port : Port)
  | resetPort (port : Port)
  | kbdInit (port : Port)
  | kbdSetScanCodes (set : ScanCodeSet)
  | irqClearMask (irqLine : Byte)
  | acpiEnable
  deriving DecidableEq

/-- What the kernel's code can ask for. -/
inductive Op where
  | readByte (port : Word)
  | readWord (port : Word)
  | writeByte (port : Word) (data : Byte)
  | load (a : Addr)
  | print (m : Message)
  | clrscr
  | get
  | modify (f : Kernel → Kernel)
  | lidt
  | sti
  | int (vector : Byte)
  | invoke (handler : Addr)
  | enter (f : Fn)
  | leave (f : Fn) (result : Option Byte)

/-- The type of the answer to an operation. -/
def Op.Answer : Op → Type
  | .readByte _ => Byte
  | .readWord _ => Word
  | .load _ => Byte
  | .get => Kernel
  | _ => Unit

/-- The operations of the kernel's code. -/
def io : Interface := ⟨Op, Op.Answer⟩

/-- Kernel code with a result in `α`. -/
abbrev Kern (α : Type) : Type := Prog io α

/-- `read_byte(port)`. -/
def readByte (port : Word) : Kern Byte := .ask (.readByte port) .ret

/-- `read_word(port)`. -/
def readWord (port : Word) : Kern Word := .ask (.readWord port) .ret

/-- `write_byte(port, data)`. -/
def writeByte (port : Word) (data : Byte) : Kern Unit := .ask (.writeByte port data) .ret

/-- `io_wait()`. -/
def ioWait : Kern Unit := writeByte 0x80 0

/-- A byte of memory. -/
def loadByte (a : Addr) : Kern Byte := .ask (.load a) .ret

/-- `cprint`, `cprintln`. -/
def printMessage (m : Message) : Kern Unit := .ask (.print m) .ret

/-- `println(msg, ...)`. -/
def println (text : String) (args : List Arg) : Kern Unit :=
  printMessage ⟨text, .white, .black, args, true⟩

/-- `print(msg, ...)`. -/
def print (text : String) (args : List Arg) : Kern Unit :=
  printMessage ⟨text, .white, .black, args, false⟩

/-- `clrscr()`. -/
def clearScreen : Kern Unit := .ask .clrscr .ret

/-- The static variables. -/
def getKernel : Kern Kernel := .ask .get .ret

/-- An assignment to static variables. -/
def modifyKernel (f : Kernel → Kernel) : Kern Unit := .ask (.modify f) .ret

/-- `lidt`. -/
def lidt : Kern Unit := .ask .lidt .ret

/-- `sti`. -/
def sti : Kern Unit := .ask .sti .ret

/-- `int vector`. -/
def int (vector : Byte) : Kern Unit := .ask (.int vector) .ret

/-- A call through a function pointer. -/
def invoke (handler : Addr) : Kern Unit := .ask (.invoke handler) .ret

/-- The mark that `f` is entered. -/
def enter (f : Fn) : Kern Unit := .ask (.enter f) .ret

/-- The mark that `f` returns. -/
def leave (f : Fn) (result : Option Byte) : Kern Unit := .ask (.leave f result) .ret

/-- `if (c) p;` -/
def onlyIf (c : Prop) [Decidable c] (p : Kern Unit) : Kern Unit := if c then p else .ret ()

/-- A call of a function without a result. -/
def procedure (f : Fn) (p : Kern Unit) : Kern Unit := do
  enter f
  p
  leave f none

/-- A call of a function with a byte as its result. -/
def function (f : Fn) (p : Kern Byte) : Kern Byte := do
  enter f
  let r ← p
  leave f (some r)
  return r

/-! ### The machine -/

/-- What can be seen of a run. -/
inductive Event where
  | inb (port : Word) (r : Byte)
  | inw (port : Word) (r : Word)
  | outb (port : Word) (data : Byte)
  | load (a : Addr)
  | print (m : Message)
  | clrscr
  | lidt
  | sti
  | int (vector : Byte)
  | invoke (handler : Addr)
  | enter (f : Fn)
  | leave (f : Fn) (result : Option Byte)
  deriving DecidableEq

/-- The devices behind the ports. -/
structure Bus (ε : Type) where
  inb : Word → ε → Byte × ε
  inw : Word → ε → Word × ε
  outb : Word → Byte → ε → ε

/-- Devices that answer 0 and ignore what is written. -/
def Bus.silent : Bus Unit := ⟨fun _ _ => (0, ()), fun _ _ => (0, ()), fun _ _ _ => ()⟩

/-- The state of the machine: devices, static variables, the interrupt flag,
memory outside the text buffer, and the log of the run so far. -/
structure World (ε : Type) where
  bus : ε
  kernel : Kernel
  iflag : Bool
  mem : Mem
  log : List Event

variable {ε : Type}

/-- Append an event to the log. -/
def World.say (w : World ε) (e : Event) : World ε := { w with log := w.log ++ [e] }

@[simp] theorem World.say_bus (w : World ε) (e : Event) : (w.say e).bus = w.bus := rfl

@[simp] theorem World.say_kernel (w : World ε) (e : Event) : (w.say e).kernel = w.kernel := rfl

@[simp] theorem World.say_log (w : World ε) (e : Event) : (w.say e).log = w.log ++ [e] := rfl

/-- The kernel's machine over the bus `b`.  A software interrupt and a handler
that is invoked are logged; what the code behind them does is not followed
(`trapping` of `DrewOS.Kernel.Trap` runs the stub of the interrupt).  Prints and
`clrscr` are logged and store nothing, so the memory that the code reads is
constant over a run; and no hardware interrupt is taken, whatever the flag. -/
def machine (b : Bus ε) : Machine io (World ε)
  | .readByte p, w => ((b.inb p w.bus).1, { w with bus := (b.inb p w.bus).2 }.say
      (.inb p (b.inb p w.bus).1))
  | .readWord p, w => ((b.inw p w.bus).1, { w with bus := (b.inw p w.bus).2 }.say
      (.inw p (b.inw p w.bus).1))
  | .writeByte p d, w => ((), { w with bus := b.outb p d w.bus }.say (.outb p d))
  | .load a, w => (w.mem a, w.say (.load a))
  | .print m, w => ((), w.say (.print m))
  | .clrscr, w => ((), w.say .clrscr)
  | .get, w => (w.kernel, w)
  | .modify f, w => ((), { w with kernel := f w.kernel })
  | .lidt, w => ((), w.say .lidt)
  | .sti, w => ((), { w with iflag := true }.say .sti)
  | .int v, w => ((), w.say (.int v))
  | .invoke h, w => ((), w.say (.invoke h))
  | .enter f, w => ((), w.say (.enter f))
  | .leave f r, w => ((), w.say (.leave f r))

section Rules

variable (b : Bus ε) (w : World ε)

/-- The state after `port` has been read. -/
def World.afterInb (b : Bus ε) (w : World ε) (port : Word) : World ε :=
  { w with bus := (b.inb port w.bus).2 }.say (.inb port (b.inb port w.bus).1)

/-- The state after `data` has been written to `port`. -/
def World.afterOutb (b : Bus ε) (w : World ε) (port : Word) (data : Byte) : World ε :=
  { w with bus := b.outb port data w.bus }.say (.outb port data)

@[simp] theorem run_readByte (p : Word) :
    (readByte p).run (machine b) w = (some (b.inb p w.bus).1, w.afterInb b p) := rfl

@[simp] theorem run_writeByte (p : Word) (d : Byte) :
    (writeByte p d).run (machine b) w = (some (), w.afterOutb b p d) := rfl

@[simp] theorem run_printMessage (m : Message) :
    (printMessage m).run (machine b) w = (some (), w.say (.print m)) := rfl

@[simp] theorem run_getKernel : getKernel.run (machine b) w = (some w.kernel, w) := rfl

@[simp] theorem run_invoke (h : Addr) :
    (invoke h).run (machine b) w = (some (), w.say (.invoke h)) := rfl

@[simp] theorem run_enter (f : Fn) :
    (enter f).run (machine b) w = (some (), w.say (.enter f)) := rfl

@[simp] theorem afterInb_kernel (p : Word) : (w.afterInb b p).kernel = w.kernel := rfl

@[simp] theorem afterInb_log (p : Word) :
    (w.afterInb b p).log = w.log ++ [.inb p (b.inb p w.bus).1] := rfl

@[simp] theorem afterOutb_kernel (p : Word) (d : Byte) :
    (w.afterOutb b p d).kernel = w.kernel := rfl

@[simp] theorem afterOutb_log (p : Word) (d : Byte) :
    (w.afterOutb b p d).log = w.log ++ [.outb p d] := rfl

end Rules

/-- **The log only grows.** -/
theorem log_grows (b : Bus ε) (o : Op) (w : World ε) : w.log <+: (machine b o w).2.log := by
  cases o <;> first | exact List.prefix_append .. | exact List.prefix_rfl

/-! ### Ports that answer from streams -/

/-- What is still to be read: bytes from the status port `0x64`, from the data
port `0x60` and from all other ports, and words. -/
structure Streams where
  status : Stream' Byte
  data : Stream' Byte
  other : Stream' Byte
  words : Stream' Word

/-- The bus that answers from streams, whatever is written. -/
def streamBus : Bus Streams where
  inb p s :=
    if p = 0x64 then (s.status.head, { s with status := s.status.tail })
    else if p = 0x60 then (s.data.head, { s with data := s.data.tail })
    else (s.other.head, { s with other := s.other.tail })
  inw _ s := (s.words.head, { s with words := s.words.tail })
  outb _ _ s := s

/-- The machine when the kernel is entered, over the devices in state `e`: the
statics as loaded, interrupts off, nothing logged. -/
def World.boot (e : ε) (t : Idt) (mem : Mem) : World ε := ⟨e, .boot t, false, mem, []⟩

end DrewOS

import DrewOS.Console.Forward
import DrewOS.Console.Newlines
import DrewOS.Console.Scroll
import DrewOS.Console.Tape
import DrewOS.Console.Terminator
import DrewOS.Kernel.Arithmetic
import DrewOS.Kernel.Numerals
import DrewOS.Interrupt.Dispatch
import DrewOS.Interrupt.Return
import DrewOS.Interrupt.Acknowledge
import DrewOS.Ps2.Polls
import DrewOS.Ps2.Answers
import DrewOS.Ps2.Order
import DrewOS.Ps2.ConfigBits
import DrewOS.Ps2.ConfigKept
import DrewOS.Ps2.ScanCodes
import DrewOS.Ps2.Conversation
import DrewOS.Ps2.Decoders
import DrewOS.Ps2.Bringup
import DrewOS.Ps2.Rounds
import DrewOS.Boot.Gates
import DrewOS.Acpi.Search
import DrewOS.Chips.Cascade
import DrewOS.Boot.Loader
import DrewOS.Boot.Completes
import DrewOS.Boot.Cursor
import DrewOS.Boot.Screen
import DrewOS.Boot.Unlisted

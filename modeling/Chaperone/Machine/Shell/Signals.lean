/-!
# Names of signals

The signals that the shell knows by name, and what it says about a program that one of them ended.
-/

namespace Chaperone.Machine.Shell

/-- The names of the signals from 1 on and what is said about a program that they ended. -/
def signalTable : List (String × String) :=
  [ ("HUP", "Hangup"), ("INT", "Interrupt"), ("QUIT", "Quit"), ("ILL", "Illegal instruction"),
    ("TRAP", "Trace/breakpoint trap"), ("ABRT", "Aborted"), ("BUS", "Bus error"),
    ("FPE", "Floating point exception"), ("KILL", "Killed"), ("USR1", "User defined signal 1"),
    ("SEGV", "Segmentation fault"), ("USR2", "User defined signal 2"), ("PIPE", "Broken pipe"),
    ("ALRM", "Alarm clock"), ("TERM", "Terminated"), ("STKFLT", "Stack fault"),
    ("CHLD", "Child exited"), ("CONT", "Continued"), ("STOP", "Stopped (signal)"),
    ("TSTP", "Stopped"), ("TTIN", "Stopped (tty input)"), ("TTOU", "Stopped (tty output)"),
    ("URG", "Urgent I/O condition"), ("XCPU", "CPU time limit exceeded"),
    ("XFSZ", "File size limit exceeded"), ("VTALRM", "Virtual timer expired"),
    ("PROF", "Profiling timer expired"), ("WINCH", "Window changed"), ("IO", "I/O possible"),
    ("PWR", "Power failure"), ("SYS", "Bad system call") ]

/-- The signal with a number or name. -/
def signalOf (text : String) : Option Nat :=
  match text.toNat? with
  | some n => if n ≤ 64 then some n else none
  | none => (signalTable.findIdx? (·.1 = text.toUpper)).map (· + 1)

/-- The name of a signal, or its number if it has none. -/
def nameOf (signal : Nat) : String :=
  if signal = 16 then "16" else ((signalTable[signal - 1]?).map (·.1)).getD (toString signal)

/-- What is said about a program that a signal ended. -/
def obituary (signal : Nat) : String :=
  match signalTable[signal - 1]? with
  | some entry => entry.2
  | none => if 34 ≤ signal then "Real-time signal " ++ toString (signal - 34)
    else "Unknown signal " ++ toString signal

/-- How a program ended, as the shell counts it: its code, or 128 and the number of the signal. -/
def statusOfWord (word : Nat) : Nat :=
  if word % 128 = 0 then word / 256 % 256 else 128 + word % 128

end Chaperone.Machine.Shell

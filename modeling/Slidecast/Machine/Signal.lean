/-!
# Signals

A signal is a number.  Most of them end a program that is not prepared for them, some do nothing
to it.  The shell knows a signal by its number or by one of its own names for it, which are not
quite the names by which the end of a program is described.
-/

set_option autoImplicit false

namespace Slidecast.Machine

/-- How a program ends. -/
inductive Ending where
  | exited (status : Nat)
  | killed (signal : Nat)
  deriving DecidableEq

/-- The names of signals from the first on. -/
def signalNames : List String :=
  [ "HUP", "INT", "QUIT", "ILL", "TRAP", "ABRT", "BUS", "FPE", "KILL", "USR1", "SEGV", "USR2",
    "PIPE", "ALRM", "TERM", "STKFLT", "CHLD", "CONT", "STOP", "TSTP", "TTIN", "TTOU", "URG",
    "XCPU", "XFSZ", "VTALRM", "PROF", "WINCH", "IO", "PWR", "SYS" ]

/-- How the end of a program is described. -/
def Ending.describe : Ending → String
  | .exited status => "exit status: " ++ toString status
  | .killed signal =>
      "signal: " ++ toString signal ++
        match signalNames[signal - 1]? with
        | some name => " (SIG" ++ name ++ ")"
        | none => ""

/-- The status by which a shell tells how a program ended. -/
def Ending.status : Ending → Nat
  | .exited status => status
  | .killed signal => 128 + signal

/-- How it is said that a signal has ended a program. -/
def signalDeaths : List (Nat × String) :=
  [ (1, "Hangup"), (3, "Quit"), (4, "Illegal instruction"), (5, "Trace/breakpoint trap"),
    (6, "Aborted"), (7, "Bus error"), (8, "Floating point exception"), (9, "Killed"),
    (10, "User defined signal 1"), (11, "Segmentation fault"), (12, "User defined signal 2"),
    (14, "Alarm clock"), (15, "Terminated"), (16, "Stack fault"),
    (24, "CPU time limit exceeded"), (25, "File size limit exceeded"),
    (26, "Virtual timer expired"), (27, "Profiling timer expired"), (29, "I/O possible"),
    (30, "Power failure"), (31, "Bad system call") ]

/-- What a shell says of a program that a signal ended; of two of them it says nothing. -/
def Ending.obituary? (signal : Nat) : Option String :=
  if signal = 2 ∨ signal = 13 then none
  else if 34 ≤ signal then some ("Real-time signal " ++ toString (signal - 34))
  else
    (signalDeaths.lookup signal).or (some ("Unknown signal " ++ toString signal))

/-- The largest number of a signal. -/
def lastSignal : Nat := 64

/-- Signals that do nothing to a program that is not prepared for them. -/
def harmlessSignals : List Nat := [0, 17, 18, 23, 28]

/-- Signals that stop a program until it is continued. -/
def stoppingSignals : List Nat := [19, 20, 21, 22]

/-- Signals for which no program can be prepared. -/
def forcedSignals : List Nat := [9, 19]

/-- The names by which a shell knows signals, from zero on. -/
def shellSignalNames : List String :=
  [ "EXIT", "HUP", "INT", "QUIT", "ILL", "TRAP", "ABRT", "BUS", "FPE", "KILL", "USR1", "SEGV",
    "USR2", "PIPE", "ALRM", "TERM", "16", "CHLD", "CONT", "STOP", "TSTP", "TTIN", "TTOU", "URG",
    "XCPU", "XFSZ", "VTALRM", "PROF", "WINCH", "IO", "PWR", "SYS" ]

/-- The name by which a shell knows a signal. -/
def shellSignalName (signal : Nat) : String :=
  match shellSignalNames[signal]? with
  | some name => name
  | none =>
      if signal < 34 then toString signal
      else if signal = 34 then "RTMIN"
      else if signal = 64 then "RTMAX"
      else if signal ≤ 49 then "RTMIN+" ++ toString (signal - 34)
      else "RTMAX-" ++ toString (64 - signal)

/-- The signal with a number or a name, in letters of any case. -/
def signal? (text : String) : Option Nat :=
  match text.toNat? with
  | some number => if number ≤ lastSignal then some number else none
  | none =>
      let name := text.map Char.toUpper
      (List.range (lastSignal + 1)).find? fun signal => shellSignalName signal = name

end Slidecast.Machine

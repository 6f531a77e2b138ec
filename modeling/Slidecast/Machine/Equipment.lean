import Slidecast.Machine.Shell.Evaluation

/-!
# The equipment of the machine

A machine comes with directories, devices and programs.  Programs stand in one directory, for
which there are two names.  A program is started by its path or, if it is called by a name without
separators, from the first of the directories for programs that has it.
-/

set_option autoImplicit false

namespace Slidecast.Machine

open Files

/-- The directories of the machine. -/
def directories : List Place :=
  [ ["boot"], ["dev"], ["etc"], ["home"], ["media"], ["mnt"], ["opt"], ["proc"], ["root"],
    ["run"], ["srv"], ["sys"], ["tmp"], ["usr"], ["usr", "bin"], ["usr", "include"],
    ["usr", "lib"], ["usr", "local"], ["usr", "local", "bin"], ["usr", "local", "sbin"],
    ["usr", "sbin"], ["usr", "share"], ["usr", "src"], ["var"], ["var", "cache"],
    ["var", "lib"], ["var", "log"], ["var", "tmp"] ]

/-- Other names of directories, and the usual name of the shell. -/
def links : List (Place × Place) :=
  [ (["bin"], ["usr", "bin"]), (["sbin"], ["usr", "sbin"]), (["lib"], ["usr", "lib"]),
    (["usr", "bin", "sh"], ["usr", "bin", "dash"]) ]

/-- The devices of the machine. -/
def devices : List (String × Device) :=
  [ ("null", .null), ("zero", .endless), ("full", .full), ("random", .endless),
    ("urandom", .endless), ("tty", .missing), ("stdin", .null), ("stdout", .null),
    ("stderr", .null) ]

/-- Files with texts. -/
def textFiles : List (Place × String) :=
  [ (["etc", "passwd"], "root:x:0:0:root:/root:/bin/bash\n"),
    (["etc", "group"], "root:x:0:\n"),
    (["etc", "hostname"], "machine\n"),
    (["etc", "hosts"], "127.0.0.1\tlocalhost\n") ]

/-- The programs that start others. -/
def starters : List String :=
  ["env", "timeout", "xargs", "nohup", "nice", "setsid", "stdbuf"]

/-- The names of programs, with the programs for which they stand. -/
def programNames : List (String × String) :=
  ("dash", "sh") :: (starters ++ Shell.utilities.map Prod.fst).map fun name => (name, name)

/-- The disk of the machine when nothing else has been stored on it. -/
def equippedDisk (working : Place) : Disk :=
  let d := directories.foldl (fun d place => d.put place .directory) (Disk.empty working)
  let d := links.foldl (fun d (place, target) => d.put place (.link target)) d
  let d := devices.foldl (fun d (name, device) => d.put ["dev", name] (.device device)) d
  let d := textFiles.foldl (fun d (place, text) => d.put place (.file (.text text))) d
  programNames.foldl
    (fun d (name, program) => d.put ["usr", "bin", name] (.file (.program program))) d

/-- The directories in which programs are looked up. -/
def programDirectories : List String :=
  ["/usr/local/sbin", "/usr/local/bin", "/usr/sbin", "/usr/bin", "/sbin", "/bin"]

/-- The program at a path. -/
def programAtPath (disk : Disk) (path : Path) : Except Fault String := do
  match ← disk.find path with
  | (_, .file (.program name)) => .ok name
  | _ => .error .denied

/-- The program with a name in the first of some directories that has it. -/
def programIn (disk : Disk) (name : String) : List String → Except Fault String
  | [] => .error .noEntry
  | directory :: others =>
      match programAtPath disk ⟨directory ++ "/" ++ name⟩, programIn disk name others with
      | .ok program, _ => .ok program
      | .error _, .ok program => .ok program
      | .error .denied, .error _ => .error .denied
      | .error _, .error fault => .error fault

/-- The program that is called by a path or a name. -/
def programCalled (disk : Disk) (called : String) : Except Fault String :=
  if called.toList.contains '\x00' then .error .nulInArgument
  else if called.isEmpty then .error .noEntry
  else if called.toList.contains '/' then programAtPath disk ⟨called⟩
  else if Disk.isTooLong called then .error .nameTooLong
  else programIn disk called programDirectories

end Slidecast.Machine

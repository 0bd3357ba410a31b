import CallFlow.Layout.Program
import CallFlow.Text.Utf8

namespace CallFlow.Layout.System

def pathOf (path : Chars) : String :=
  Text.Utf8.decode (bytesOf path)

def directories : List String :=
  ["/bin", "/boot", "/dev", "/etc", "/home", "/lib", "/opt", "/proc", "/root", "/run", "/sbin",
    "/sys", "/tmp", "/usr", "/usr/bin", "/usr/lib", "/usr/local", "/usr/share", "/var", "/var/tmp"]

def records : List (String × String) :=
  [("/etc/passwd", "root:x:0:0:root:/root:/bin/bash\n"), ("/etc/group", "root:x:0:\n"),
    ("/etc/hosts", "127.0.0.1\tlocalhost\n")]

/-- Paths that only lead on to others. -/
def links : List String :=
  ["/bin", "/lib", "/sbin", "/dev/fd", "/dev/stdin", "/dev/stdout", "/dev/stderr", "/proc/self"]

def sharedDirectories : List String := ["/tmp", "/var/tmp"]

def furniture : List (Place × Item) :=
  (directories.map fun path => (Path.steps path, .directory)) ++
    records.map fun (path, text) => (Path.steps path, .file (.text text))

def furnish (tree : FileTree) : FileTree :=
  furniture.foldl (fun tree (place, item) =>
    if (tree.item? place).isSome then tree else tree.put place item) tree

def clear (before after : FileTree) : FileTree :=
  { items := after.items.filter fun (place, _) =>
      (before.item? place).isSome || !furniture.any (·.1 = place)
    home := before.home }

/-- Devices: into one everything vanishes, two are never read to their end, of which one is always
full, and one is never there. -/
inductive Device where
  | empty
  | zeros
  | full
  | terminal
  deriving DecidableEq, Repr

def device? (path : Chars) : Option Device :=
  [("/dev/null", Device.empty), ("/dev/zero", .zeros), ("/dev/full", .full),
    ("/dev/tty", .terminal)].lookup (String.ofList path)

namespace Device

def content : Device → Chars
  | zeros | full => List.replicate 131072 '\x00'
  | empty | terminal => []

def absence? : Device → Option String
  | terminal => some "No such device or address"
  | _ => none

def writeFault? : Device → Option String
  | full => some "No space left on device"
  | device => device.absence?

end Device

def descriptor? (path : Chars) : Option Nat :=
  match String.ofList path with
  | "/dev/stdin" | "/dev/fd/0" | "/proc/self/fd/0" => some 0
  | "/dev/stdout" | "/dev/fd/1" | "/proc/self/fd/1" => some 1
  | "/dev/stderr" | "/dev/fd/2" | "/proc/self/fd/2" => some 2
  | _ => none

def toolDirs : List String := ["/bin/", "/usr/bin/"]

def toolName? (path : Chars) : Option Chars :=
  if path.contains '/' then toolDirs.findSome? fun dir => Text.after? dir.toList path
  else some path

/-- Tools that are there, whether they can be run here or not. -/
def tools : List String :=
  ["[", "awk", "base64", "basename", "bash", "cat", "chmod", "cksum", "cmp", "comm", "cp", "cut",
    "dash", "date", "dd", "diff", "dirname", "echo", "egrep", "env", "expand", "expr", "false",
    "fgrep", "find", "fold", "grep", "gzip", "head", "hostname", "id", "join", "kill", "ln", "ls",
    "md5sum", "mkdir", "mktemp", "mv", "nl", "nohup", "od", "paste", "perl", "printenv", "printf",
    "pwd", "readlink", "rev", "rm", "rmdir", "sed", "seq", "sh", "sha256sum", "shuf", "sleep", "sort",
    "split", "stat", "stdbuf", "sum", "tac", "tail", "tar", "tee", "test", "timeout", "touch", "tr",
    "true", "truncate", "tsort", "uname", "unexpand", "uniq", "wc", "which", "whoami", "xargs", "yes"]

def isTool (path : Chars) : Bool :=
  path.contains '/' && (toolName? path).any fun name => tools.contains (String.ofList name)

def read (tree : FileTree) (path : Chars) : Except String Chars :=
  match device? path with
  | some device =>
    match device.absence? with
    | some reason => .error reason
    | none => .ok device.content
  | none =>
    match tree.find (pathOf path) with
    | .ok (.file content) => .ok (charsOfBytes content.bytes)
    | .ok .directory => .error (FileFault.reason .isDirectory)
    | .error fault => .error fault.reason

def write (tree : FileTree) (path : Chars) (keeps : Bool) (text : Chars) : Except String FileTree :=
  match device? path with
  | some device =>
    match device.writeFault? with
    | some reason => if text = [] && device.absence?.isNone then .ok tree else .error reason
    | none => .ok tree
  | none =>
    let before := if keeps then (read tree path).toOption.getD [] else []
    (tree.write (pathOf path) (.ofBytes (bytesOf (before ++ text)))).mapError FileFault.reason

end CallFlow.Layout.System

namespace CallFlow.Layout.Call

def read (call : Call) (path : Chars) : Except String Chars :=
  match System.descriptor? path with
  | some 0 =>
    match call.inputFault with
    | some reason => .error reason
    | none => .ok call.input
  | some _ => .ok []
  | none => System.read call.tree path

end CallFlow.Layout.Call

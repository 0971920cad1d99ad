import FlipperBlocks.CommandLine.Run

/-! Devices: files that are not kept, and where a system has them. -/
namespace FlipperBlocks.CommandLine

inductive Device where
  /-- Has nothing to read and takes whatever is written. -/
  | null
  /-- Has no room for anything. -/
  | full
  /-- The terminal, when there is none. -/
  | terminal
  | input
  | output
  | report
  deriving DecidableEq

inductive SystemEntry where
  | directory
  | device (device : Device)
  | absent
  deriving DecidableEq

def rootDirectories : List String :=
  ["bin", "boot", "dev", "etc", "home", "lib", "media", "mnt", "opt", "proc", "root", "run", "sbin",
    "srv", "sys", "tmp", "usr", "var"]

def streamEntry : String → SystemEntry
  | "0" => .device .input
  | "1" => .device .output
  | "2" => .device .report
  | _ => .absent

/-- What a system has at a path, given by its parts from the root. -/
def SystemEntry.ofParts : List String → SystemEntry
  | [] => .directory
  | [name] => if rootDirectories.contains name then .directory else .absent
  | ["dev", "null"] | ["dev", "zero"] | ["dev", "random"] | ["dev", "urandom"] => .device .null
  | ["dev", "full"] => .device .full
  | ["dev", "tty"] => .device .terminal
  | ["dev", "stdin"] => .device .input
  | ["dev", "stdout"] => .device .output
  | ["dev", "stderr"] => .device .report
  | ["dev", "fd"] | ["dev", "pts"] | ["dev", "shm"] | ["proc", "self"] | ["proc", "self", "fd"] |
    ["usr", "bin"] | ["usr", "lib"] | ["usr", "local"] | ["usr", "share"] | ["var", "lib"] |
    ["var", "log"] | ["var", "tmp"] => .directory
  | ["dev", "fd", number] | ["proc", "self", "fd", number] => streamEntry number
  | _ => .absent

end FlipperBlocks.CommandLine

import Chip8.Host.Disk

/-!
# A disk with a system on it

What a program finds around the directory it starts from: the directories that every
system of the usual kind has, their other names, a few files and the devices.  None
of it is of any use as a rom.  What matters is which locations are directories, which
are not, and which are not there at all; the files are therefore left empty.

The directory to start from lies in `tmp`, and no path can name it: its name is `/`,
and the pieces of a path have no slash in them.  So it is found by starting there, or
through the link `proc/self/cwd`, and not by going there by name.
-/

namespace Chip8
namespace Disk

/-- The directory to start from. -/
def start : Location := ["tmp", "/"]

/-- Directories, each with the names of directories in it. -/
def directoryNames : List (Location × List String) :=
  [([], ["boot", "dev", "etc", "home", "media", "mnt", "opt", "proc", "root", "run", "srv",
      "sys", "tmp", "usr", "var"]),
    (["dev"], ["mqueue", "pts", "shm"]),
    (["etc"], ["alternatives", "apt", "default", "opt", "profile.d", "security", "skel", "ssl"]),
    (["proc"], ["1", "bus", "fs", "irq", "self", "sys", "thread-self", "tty"]),
    (["proc", "self"], ["attr", "fd", "fdinfo", "map_files", "net", "ns", "task"]),
    (["proc", "sys"], ["fs", "kernel", "net", "vm"]),
    (["run"], ["lock"]),
    (["sys"], ["block", "bus", "class", "dev", "devices", "firmware", "fs", "kernel", "module",
      "power"]),
    (["usr"], ["bin", "games", "include", "lib", "lib64", "libexec", "local", "sbin", "share",
      "src"]),
    (["usr", "local"], ["bin", "etc", "games", "include", "lib", "sbin", "share", "src"]),
    (["usr", "share"], ["doc", "info", "man", "misc", "zoneinfo"]),
    (["var"], ["backups", "cache", "lib", "local", "log", "mail", "opt", "spool", "tmp"])]

/-- Links, each with where it leads. -/
def links : List (Location × Location) :=
  [(["bin"], ["usr", "bin"]),
    (["lib"], ["usr", "lib"]),
    (["lib64"], ["usr", "lib64"]),
    (["sbin"], ["usr", "sbin"]),
    (["dev", "fd"], ["proc", "self", "fd"]),
    (["proc", "net"], ["proc", "self", "net"]),
    (["proc", "mounts"], ["proc", "self", "mounts"]),
    (["proc", "self", "cwd"], start),
    (["proc", "self", "root"], []),
    (["proc", "thread-self", "cwd"], start),
    (["proc", "thread-self", "root"], []),
    (["proc", "1", "root"], []),
    (["var", "lock"], ["run", "lock"]),
    (["var", "run"], ["run"])]

/-- Directories, each with the names of some of the files in it. -/
def fileNames : List (Location × List String) :=
  [(["etc"], ["fstab", "group", "hostname", "hosts", "passwd", "resolv.conf", "shadow"]),
    (["proc"], ["cmdline", "cpuinfo", "meminfo", "stat", "uptime", "version"]),
    (["proc", "self"], ["cmdline", "environ", "exe", "maps", "mem", "mounts", "stat", "status"]),
    (["usr", "bin"], ["cat", "env", "ls", "sh"])]

/-- The devices. -/
def deviceNames : List String :=
  ["full", "null", "random", "stderr", "stdin", "stdout", "tty", "urandom", "zero"]

/-- What is on a disk with a system. -/
def systemNodes : List (Location × Node) :=
  let below (entries : List (Location × List String)) (n : Node) : List (Location × Node) :=
    entries.flatMap fun (l, names) => names.map fun name => (l ++ [name], n)
  ([], .directory) :: (start, .directory) :: below directoryNames .directory
    ++ links.map (fun (l, target) => (l, Node.link target))
    ++ below fileNames (.file [])
    ++ below [(["dev"], deviceNames)] .device

/-- A disk with a system on it, and an empty directory to start from. -/
def system : Disk := ⟨systemNodes, start⟩

end Disk
end Chip8

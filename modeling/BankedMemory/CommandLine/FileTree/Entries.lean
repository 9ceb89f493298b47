import BankedMemory.CommandLine.FileTree.Basic

/-!
# The entries of a system

The customary directories, files and devices of a system, and an empty working directory among its temporary files.
The system shows its state as a tree of its own, in which each process has a directory; from there links lead to
the working directory and to the root.
-/

namespace BankedMemory.CommandLine.FileTree

/-- The root, which is its own parent. -/
def root : Place := []

/-- The working directory, under a name that no path contains. -/
def working : Place := ["", "tmp"]

/-- The directory of the running process. -/
def process : Place := ["self", "proc"]

/-- The directory of its thread, under a name that no path contains. -/
def thread : Place := ["", "task", "self", "proc"]

/-- Whether a place belongs to the tree that shows the state of the system. -/
def showsState (place : Place) : Bool := place.getLast? = some "proc" ∨ place.getLast? = some "sys"

/-- A place with the same names in it, for which they are listed: a thread shows what its process shows. -/
def listed : Place → Place
  | [] => []
  | name :: rest => if name :: rest = thread then process else name :: listed rest

/-- The directories in a directory. -/
def directoriesIn : Place → List String
  | [] => ["boot", "dev", "etc", "home", "media", "mnt", "opt", "proc", "root", "run", "srv", "sys", "tmp", "usr",
      "var"]
  | ["dev"] => ["mqueue", "pts", "shm"]
  | ["etc"] => ["alternatives", "apt", "bash_completion.d", "ca-certificates", "cron.d", "cron.daily", "default",
      "dpkg", "init.d", "kernel", "ld.so.conf.d", "logrotate.d", "opt", "pam.d", "perl", "profile.d", "rc0.d",
      "rc1.d", "rc2.d", "rc3.d", "rc4.d", "rc5.d", "rc6.d", "rcS.d", "security", "selinux", "skel", "ssl",
      "systemd", "terminfo", "update-motd.d"]
  | ["ssl", "etc"] => ["certs", "private"]
  | ["run"] => ["lock"]
  | ["usr"] => ["bin", "games", "include", "lib", "lib64", "libexec", "local", "sbin", "share", "src"]
  | ["local", "usr"] => ["bin", "etc", "games", "include", "lib", "sbin", "share", "src"]
  | ["share", "usr"] => ["doc", "man"]
  | ["var"] => ["backups", "cache", "lib", "local", "log", "mail", "opt", "spool", "tmp"]
  | ["cache", "var"] => ["apt", "debconf", "ldconfig"]
  | ["lib", "var"] => ["apt", "dpkg", "misc", "pam", "systemd"]
  | ["log", "var"] => ["apt"]
  | ["proc"] => ["1", "acpi", "bus", "driver", "fs", "irq", "pressure", "self", "sys", "sysvipc", "tty"]
  | ["1", "proc"] => ["attr", "fd", "fdinfo", "map_files", "net", "ns", "task"]
  | ["self", "proc"] => ["attr", "fd", "fdinfo", "map_files", "net", "ns", "task"]
  | ["sys", "proc"] => ["abi", "debug", "dev", "fs", "kernel", "net", "user", "vm"]
  | ["sys"] => ["block", "bus", "class", "dev", "devices", "firmware", "fs", "kernel", "module", "power"]
  | _ => []

/-- The files in a directory that take any text. -/
def filesIn : Place → List String
  | ["dev"] => ["console", "null", "ptmx", "random", "stdin", "urandom", "zero"]
  | ["etc"] => ["adduser.conf", "bash.bashrc", "debconf.conf", "debian_version", "deluser.conf", "environment",
      "fstab", "gai.conf", "group", "group-", "gshadow", "host.conf", "hostname", "hosts", "issue", "issue.net",
      "ld.so.cache", "ld.so.conf", "login.defs", "machine-id", "networks", "nsswitch.conf", "os-release", "pam.conf",
      "passwd", "passwd-", "profile", "resolv.conf", "shadow", "shadow-", "shells", "subgid", "subuid"]
  | ["bin", "usr"] => ["awk", "basename", "bash", "cat", "chmod", "chown", "cp", "date", "dd", "df", "dirname",
      "echo", "env", "false", "find", "grep", "head", "id", "kill", "ln", "ls", "mkdir", "mv", "perl", "ps", "pwd",
      "rm", "rmdir", "sed", "sh", "sleep", "sort", "tail", "tar", "tee", "test", "touch", "tr", "true", "uname",
      "wc", "which"]
  | ["self", "proc"] => ["comm", "sched"]
  | ["fd", "self", "proc"] => ["0"]
  | _ => []

/-- Files of a process that show its state. -/
def processDisplays : List String :=
  ["arch_status", "autogroup", "auxv", "cgroup", "clear_refs", "cmdline", "coredump_filter", "cpuset", "environ",
    "io", "limits", "loginuid", "maps", "mountinfo", "mounts", "mountstats", "numa_maps", "oom_adj", "oom_score",
    "oom_score_adj", "pagemap", "personality", "schedstat", "sessionid", "setgroups", "smaps", "smaps_rollup",
    "stack", "stat", "statm", "status", "syscall", "timens_offsets", "timers", "timerslack_ns", "wchan"]

/-- One entry under several names. -/
def each (entry : Entry) (names : List String) : List (String × Entry) := names.map fun name => (name, entry)

/-- The entries of a directory that are links, devices with a use of their own, or displays, which take no text. -/
def specialsIn : Place → List (String × Entry)
  | [] => [("bin", .directory ["bin", "usr"]), ("lib", .directory ["lib", "usr"]),
      ("lib64", .directory ["lib64", "usr"]), ("sbin", .directory ["sbin", "usr"])]
  | ["dev"] => [("fd", .directory ("fd" :: process)), ("stdout", .writable .standardOutput),
      ("stderr", .writable .standardError), ("full", .failing .noSpace), ("tty", .failing .noSuchDevice)]
  | ["var"] => [("lock", .directory ["lock", "run"]), ("run", .directory ["run"])]
  | ["proc"] =>
    [("net", .directory ("net" :: process)), ("thread-self", .directory thread),
      ("mounts", .failing .invalidArgument)] ++
    each (.failing .inputOutput) ["buddyinfo", "cgroups", "cmdline", "consoles", "cpuinfo", "crypto", "devices",
      "diskstats", "dma", "execdomains", "filesystems", "interrupts", "iomem", "ioports", "kallsyms", "key-users",
      "keys", "loadavg", "locks", "meminfo", "misc", "modules", "pagetypeinfo", "partitions", "schedstat",
      "slabinfo", "softirqs", "stat", "swaps", "timer_list", "uptime", "version", "vmallocinfo", "vmstat",
      "zoneinfo"]
  | ["1", "proc"] =>
    each .barred ["cwd", "exe", "root"] ++
    each (.failing .invalidArgument) ("comm" :: processDisplays)
  | ["self", "proc"] =>
    [("cwd", .directory working), ("root", .directory root), ("exe", .failing .fileBusy),
      ("mem", .failing .inputOutput)] ++
    each (.failing .notPermitted) ["gid_map", "projid_map", "uid_map"] ++
    each (.failing .invalidArgument) processDisplays
  | ["attr", "self", "proc"] =>
    each (.failing .invalidArgument) ["current", "exec", "fscreate", "keycreate", "prev", "sockcreate"]
  | ["fd", "self", "proc"] => [("1", .writable .standardOutput), ("2", .writable .standardError)]
  | ["fdinfo", "self", "proc"] => each (.failing .invalidArgument) ["0", "1", "2"]
  | ["net", "self", "proc"] =>
    each (.failing .permissionDenied) ["arp", "dev", "netlink", "netstat", "packet", "protocols", "raw", "route",
      "snmp", "sockstat", "tcp", "tcp6", "udp", "udp6", "unix"]
  | ["ns", "self", "proc"] =>
    each (.failing .notPermitted) ["cgroup", "ipc", "mnt", "net", "pid", "pid_for_children", "time",
      "time_for_children", "user", "uts"]
  | _ => []

/-- What the directory of a process shows and that of a thread does not. -/
def processOnly : List String :=
  ["autogroup", "coredump_filter", "map_files", "mountstats", "task", "timens_offsets", "timers", "timerslack_ns"]

/-- What a name stands for in a directory, if the directory has it. -/
def entryAt (place : Place) (name : String) : Option Entry :=
  if place = thread ∧ processOnly.contains name then none
  else if (directoriesIn (listed place)).contains name then some (.directory (name :: place))
  else if (filesIn (listed place)).contains name then some (.writable .elsewhere)
  else (specialsIn (listed place)).lookup name

/-- The number of links on the way from a name to what it stands for. -/
def linksAt (place : Place) (name : String) : Nat :=
  match listed place, name with
  | [], "bin" | [], "lib" | [], "lib64" | [], "sbin" => 1
  | ["dev"], "fd" => 2
  | ["dev"], "stdin" | ["dev"], "stdout" | ["dev"], "stderr" => 3
  | ["var"], "lock" | ["var"], "run" => 1
  | ["proc"], "self" | ["proc"], "thread-self" => 1
  | ["proc"], "net" | ["proc"], "mounts" => 2
  | ["self", "proc"], "cwd" | ["self", "proc"], "exe" | ["self", "proc"], "root" => 1
  | ["fd", "self", "proc"], "0" | ["fd", "self", "proc"], "1" | ["fd", "self", "proc"], "2" => 1
  | _, _ => 0

/-- What becomes of text that is written under a new name. The directories that show a state take no new files. -/
def newFile (place : Place) (name : String) : Except WriteError Destination :=
  if place = working then .ok (.here name)
  else if place.getLast? = some "proc" then .error .notFound
  else if place.getLast? = some "sys" ∨ place = ["pts", "dev"] then .error .permissionDenied
  else .ok .elsewhere

end BankedMemory.CommandLine.FileTree

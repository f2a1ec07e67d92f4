import Constituency.FileSystem

/-!
# Directories in memory

A directory with its files and their contents, for running the command without a
file system. It lies among the directories, devices and links that every system
has, and paths are walked from it.

## Main declarations

* `Directory`, `Directory.ofFiles` — a directory and its files.
* `Directory.fileSystem`           — the directory with what is around it.
* `Directory.read`                 — the content of the file that a path leads to.
-/

namespace Constituency

/-- Files by their names, which may lead through further directories. -/
structure Directory where
  /-- The steps to each file, and its content. -/
  files : List (List String × List UInt8)

namespace Directory

/-- The directory that holds files with the given names. -/
def ofFiles (files : List (String × List UInt8)) : Directory :=
  ⟨files.map fun (name, content) =>
    ((FileSystem.pathSteps name).filter (!FileSystem.stays ·), content)⟩

/-- A name for what has none that is known. It is one that no path can have, so that
only links lead there. -/
def nameless : String := "\x00"

/-- The steps from the root to the directory: it is one of the temporary ones. -/
def home : List String := ["tmp", nameless]

/-- The steps from the root to the directory that tells about the running program. -/
def process : List String := ["proc", nameless]

/-- The directories of a system that are found by their names. -/
def standardDirectories : List (List String) :=
  [["boot"], ["dev", "pts"], ["dev", "shm"], ["etc"], ["home"], ["media"], ["mnt"], ["opt"],
   ["root"], ["run", "lock"], ["srv"], ["sys"], ["usr", "bin"], ["usr", "games"],
   ["usr", "include"], ["usr", "lib"], ["usr", "lib64"], ["usr", "local", "bin"],
   ["usr", "local", "etc"], ["usr", "local", "games"], ["usr", "local", "include"],
   ["usr", "local", "lib"], ["usr", "local", "sbin"], ["usr", "local", "share"],
   ["usr", "local", "src"], ["usr", "sbin"], ["usr", "share"], ["usr", "src"],
   ["var", "backups"], ["var", "cache"], ["var", "lib"], ["var", "local"], ["var", "log"],
   ["var", "mail"], ["var", "opt"], ["var", "spool"], ["var", "tmp"]]

/-- The links of a system. The input of the program is reached by links alone. -/
def standardLinks : List (List String × List String) :=
  [(["bin"], ["usr", "bin"]), (["lib"], ["usr", "lib"]), (["lib64"], ["usr", "lib64"]),
   (["sbin"], ["usr", "sbin"]), (["var", "run"], ["run"]), (["var", "lock"], ["run", "lock"]),
   (["dev", "fd"], ["proc", "self", "fd"]), (["dev", "stdin"], ["proc", "self", "fd", "0"]),
   (["proc", "self"], process), (["proc", "thread-self"], process), (process ++ ["cwd"], home),
   (process ++ ["root"], []), (process ++ ["exe"], ["usr", "bin", nameless]),
   (process ++ ["fd", "0"], [nameless])]

/-- The account that every system has, as it is listed. -/
def firstAccount : String := "root:x:0:0:root:/root:/bin/bash\n"

/-- What stands for the bytes of a program: they are no text. -/
def programBytes : List UInt8 := [0x7F, 0x45, 0x4C, 0x46, 0xFF]

/-- The files of a system: the null device, which is read as an empty file, the
list of accounts, the shell, the running program with its name, and the input of
the program. -/
def standardFiles : List (List String × Content) :=
  [(["dev", "null"], .bytes []), (["etc", "passwd"], .bytes firstAccount.toUTF8.toList),
   (["usr", "bin", "sh"], .bytes programBytes), (["usr", "bin", nameless], .bytes programBytes),
   (process ++ ["comm"], .bytes "chunker\n".toUTF8.toList), ([nameless], .input)]

/-- The directory with what is around it. -/
def fileSystem (d : Directory) : FileSystem where
  nodes :=
    (d.files.map fun (steps, content) => (home ++ steps, .file (.bytes content))) ++
    (home :: standardDirectories).map (·, .directory) ++
    standardLinks.map (fun (steps, target) => (steps, .link target)) ++
    standardFiles.map fun (steps, content) => (steps, .file content)
  madeUp := ["proc", "sys"]

/-- The content of the file that a path leads to. -/
def read (d : Directory) (path : String) : Except FileFault Content :=
  d.fileSystem.read home path

end Directory

end Constituency

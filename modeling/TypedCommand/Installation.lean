import TypedCommand.Tool.Table

/-!
The files of a machine before anything has been done on it: the usual directories, and in
two of them the programs.
-/

namespace TypedCommand

namespace Installation

def directories : List Text :=
  ["/", "/bin", "/boot", "/dev", "/etc", "/home", "/lib", "/media", "/mnt", "/opt", "/proc", "/proc/self",
    "/proc/self/fd", "/root", "/run", "/sbin", "/srv", "/sys", "/tmp", "/usr", "/usr/bin", "/usr/lib", "/usr/local",
    "/usr/local/bin", "/usr/local/sbin", "/usr/sbin", "/usr/share", "/var", "/var/tmp"].map String.toList

def shells : List Text := ["bash", "dash", "sh"].map String.toList

def programs : List Text := shells ++ Tool.table.map Prod.fst

def scattered : Text := (List.range 256).map fun n => Char.ofNat ((n * 167 + 13) % 256)

def entries : List (Text × Entry) :=
  directories.map ((·, .directory)) ++
    programs.map (fun name => ("/bin/".toList ++ name, .program name)) ++
    programs.map (fun name => ("/usr/bin/".toList ++ name, .program name)) ++
    (["stdin", "stdout", "stderr"].zipIdx.flatMap fun (name, n) =>
      let place := FileTree.descriptorsPlace ++ Text.ofNat n
      [("/dev/".toList ++ name.toList, .link place), (place, .device [])]) ++
    [("/dev/null".toList, .device []), ("/dev/zero".toList, .device [Char.ofNat 0]),
      (FileTree.fullPlace, .device [Char.ofNat 0]), ("/dev/fd".toList, .link "/proc/self/fd"),
      ("/dev/random".toList, .device scattered), ("/dev/urandom".toList, .device scattered),
      ("/etc/passwd".toList, .file "root:x:0:0:root:/root:/bin/bash\n" false)]

def files : FileTree where
  entries := SortedMap.ofList entries

def searchPath : Text := "/usr/local/sbin:/usr/local/bin:/usr/sbin:/usr/bin:/sbin:/bin"

end Installation

end TypedCommand

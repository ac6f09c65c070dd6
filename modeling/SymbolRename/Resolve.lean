import SymbolRename.Backup

/-!
# Resolving the file list

The entries of a file list are paths below a root.  Resolving an entry reads and decodes the file
that it names.
-/

namespace SymbolRename

/-- The files that are processed when no list is given, in order. -/
def defaultFiles : List String :=
  ["src/soloud/src/backend/miniaudio/miniaudio.h",
    "src/soloud/src/backend/miniaudio/soloud_miniaudio.cpp",
    "src/waveform/waveform.cpp",
    "src/waveform/miniaudio_libvorbis.h",
    "src/waveform/miniaudio_libvorbis.cpp",
    "src/player.h",
    "src/player.cpp"]

/-- The path at which an entry is looked for.  Only an entry that is not absolute is put below the
root. -/
def entryPath (root path : String) : String :=
  if isAbsolute path then path else joinPath root path

/-- Joining an entry onto the root leaves an absolute one alone as well. -/
theorem entryPath_eq_joinPath (root path : String) : entryPath root path = joinPath root path := by
  by_cases h : isAbsolute path = true
  · rw [entryPath, if_pos h, joinPath, if_pos h]
  · rw [entryPath, if_neg h]

/-- What an entry of the file list turned out to be. -/
inductive Resolved where
  | found (file : SourceFile)
  | missing (path absPath : String)
  | failed (path : String) (error : EditError)
  deriving DecidableEq, Repr

def decodeFile (policy : DecodePolicy) (path : String) (bytes : Bytes) : Except EditError Decoded :=
  match decodeBytes policy bytes with
  | .error validUpTo => .error (.decode path validUpTo)
  | .ok decoded => .ok decoded

/-- Reads and decodes the file at `absPath`. -/
def Disk.load (disk : Disk) (policy : DecodePolicy) (path absPath : String) :
    Except EditError SourceFile :=
  match disk.readBytes absPath with
  | .error refusal => .error (.io .read absPath refusal)
  | .ok raw =>
    match decodeFile policy absPath raw with
    | .error e => .error e
    | .ok decoded => .ok (.ofDecoded path absPath raw decoded)

/-- Resolves an entry below a root.  A path that leads nowhere is missing; one that leads to
something that cannot be loaded has failed. -/
def Disk.resolve (disk : Disk) (root : String) (policy : DecodePolicy) (path : String) : Resolved :=
  let absPath := entryPath root path
  if disk.pathExists absPath then
    match disk.load policy path absPath with
    | .ok file => .found file
    | .error e => .failed path e
  else .missing path absPath

end SymbolRename

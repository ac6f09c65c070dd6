import Std.Time
import SymbolRename.Command.Footprint

/-!
# The command line tool

Takes the part of the real file system that the command looks at, carries the command out on it, and
then performs the effects one after the other.
-/

namespace SymbolRename
namespace Main

/-- What stands at a location of the real file system. -/
def readNode (location : Location) : IO (Option Node) := do
  let path := absolutePath location
  try
    let info ← (← IO.FS.realPath path).metadata
    match info.type with
    | .dir => return some .directory
    | .file => return some (.file (← IO.FS.readBinFile path).toList)
    | _ => return none
  catch _ => return none

/-- Adds the node at a location to a tree. -/
def loadNode (tree : FileTree) (location : Location) : IO FileTree := do
  if location.isEmpty || (tree.node? location).isSome then return tree
  match ← readNode location with
  | some (.file bytes) => return tree.apply (.write location bytes)
  | some .directory => return tree.apply (.makeDirectory location)
  | none => return tree

/-- Adds the nodes on the way that a list of steps takes. -/
def loadSteps (tree : FileTree) (here : Location) : List String → IO FileTree
  | [] => return tree
  | step :: steps =>
    if step = "." then loadSteps tree here steps
    else if step = ".." then loadSteps tree here.dropLast steps
    else do
      let there := here ++ [step]
      let tree ← loadNode tree there
      if tree.node? there = some .directory then loadSteps tree there steps else return tree

/-- Adds the nodes on the way to a path. -/
def loadPath (disk : Disk) (path : String) : IO Disk := do
  let route := Route.ofPath path
  let tree ← loadSteps disk.tree (if route.absolute then [] else disk.cwd) route.steps
  return { disk with tree := tree }

/-- The part of the real file system that a request looks at. -/
def loadDisk (request : Arguments.Request) : IO Disk := do
  let cwd := Route.ofPath (← IO.currentDir).toString
  let start : Disk := ⟨.empty, cwd.steps⟩
  match request with
  | .invoke invocation =>
    (List.range Invocation.pathStages).foldlM
      (fun disk _ ↦ (invocation.paths disk).foldlM loadPath disk) start
  | _ => return start

/-- The present time in UTC. -/
def now : IO Timestamp := do
  let instant ← Std.Time.Timestamp.now
  let t := Std.Time.PlainDateTime.ofWallTime (Std.Time.WallTime.ofTimestamp instant .zero)
  return ⟨t.year.toInt, t.month.toNat, t.day.toNat, t.hour.toNat, t.minute.toNat, t.second.toNat,
    t.nanosecond.toNat⟩

/-- Does to the world what an effect says. -/
def perform : Effect → IO Unit
  | .print text => do
    let out ← IO.getStdout
    out.putStr text
    out.flush
  | .mutation (.write location bytes) =>
    IO.FS.writeBinFile (absolutePath location) ⟨bytes.toArray⟩
  | .mutation (.makeDirectory location) => IO.FS.createDir (absolutePath location)
  | .mutation (.remove location) => IO.FS.removeFile (absolutePath location)

/-- Carries out a command line and answers with the exit code. -/
def run (arguments : List String) : IO UInt32 := do
  let request := Arguments.parse arguments
  let time ← now
  let execution := executeRequest (← loadDisk request) ⟨time, time⟩ request
  execution.effects.forM perform
  if let some error := execution.error? then
    IO.eprintln error.message
  else if request = .usageError then
    IO.eprint usageText
  return UInt32.ofNat execution.exitCode

end Main
end SymbolRename

/-- The entry point. -/
def main (arguments : List String) : IO UInt32 := SymbolRename.Main.run arguments

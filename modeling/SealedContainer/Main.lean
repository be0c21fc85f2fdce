import SealedContainer.Command.Help

/-!
The program: it shows the files that a command line names to the command, and then stores what the
command has changed.
-/

namespace SealedContainer.Program

def look (path : String) : IO (Option Node) := do
  try
    if ← (← IO.FS.realPath path).isDir then return some .directory
    let content ← IO.FS.readBinFile path
    return some (.file content.toList)
  catch _ => return none

def pathOf (place : Place) : String :=
  match place with
  | [] => "."
  | "/" :: rest => "/" ++ "/".intercalate rest
  | names => "/".intercalate names

def placesOf (path : String) : List Place :=
  let names := FileTree.names path
  (List.range names.length).map fun i => (names.take (i + 1)).foldl FileTree.step []

def paths : Command → List String
  | .keygen _ privatePath publicPath => [privatePath, publicPath]
  | .create container publicKeys input => container :: input :: publicKeys
  | .decrypt container privateKey output => [container, privateKey, output]
  | .info container => [container]

def loadTree (command : Command) : IO FileTree := do
  let places := ((paths command).flatMap placesOf).eraseDups
  let nodes ← places.mapM fun place => do return (place, ← look (pathOf place))
  return ⟨nodes.filterMap fun (place, node) => node.map (place, ·)⟩

def storeChanges (before after : FileTree) : IO Unit := do
  for (place, node) in after.nodes do
    match node with
    | .file content =>
      if before.node? place ≠ some node then
        IO.FS.writeBinFile (pathOf place) ⟨content.toArray⟩
    | .directory => pure ()

/-- A private key that is new is for its owner alone. -/
def protectNewKey (before : FileTree) : Command → IO Unit
  | .keygen _ privatePath _ => do
    if (before.find privatePath).toOption.isNone then
      IO.FS.writeBinFile privatePath ByteArray.empty
      let nobody : IO.AccessRight := ⟨false, false, false⟩
      IO.setAccessRights privatePath ⟨⟨true, true, false⟩, nobody, nobody⟩
  | _ => pure ()

def draw (size : Nat) : IO Bytes := do return (← IO.getRandomBytes size.toUSize).toList

def drawEntropy : IO Entropy := do
  let scalars ← (List.range 32).mapM fun _ => draw 48
  return ⟨scalars, ← draw 32, ← draw 12⟩

def runProgram (args : List String) : IO UInt32 := do
  let entropy ← drawEntropy
  let before ← match Command.parse args with
    | .ok command => loadTree command
    | .error _ => pure ⟨[]⟩
  let logLevel := (← IO.getEnv "CDOC2_LOG").getD ""
  let (after, outcome) := Command.execute args logLevel entropy before
  try
    if let .ok command := Command.parse args then
      if after ≠ before then protectNewKey before command
    storeChanges before after
    IO.print outcome.output
    IO.eprint outcome.complaint
    return outcome.code.toUInt32
  catch e =>
    IO.eprint s!"Error: {e}\n"
    return 1

end SealedContainer.Program

def main (args : List String) : IO UInt32 := SealedContainer.Program.runProgram args

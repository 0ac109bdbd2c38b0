import MockTree.CommandLine.Run
import Std.Time.DateTime.Timestamp
/-! The program: reads the files that a command line concerns, carries it out, and writes what came of
it. Listening for requests is left to the program that embeds a server. -/
open MockTree

namespace MockTree.Main

/-- A number of random draws; they are used again from the start when all have been used. -/
def drawCount : Nat := 4096

/-- A name that no two runs share. -/
def freshName (bytes : ByteArray) : String :=
  let groups : List Nat := [4, 2, 2, 2, 6]
  let marked := bytes.toList.mapIdx fun i b =>
    if i == 6 then b &&& 0x0F ||| 0x40 else if i == 8 then b &&& 0x3F ||| 0x80 else b
  let texts := (groups.foldl (fun (done, rest) n => (done ++ [rest.take n], rest.drop n)) ([], marked)).1
  String.ofList (Text.joinWith ['-'] (texts.map fun g => g.flatMap fun b => Text.hexOf 2 b.toNat))

/-- The files and directories from a place on. -/
partial def load (read : String → IO (Option FileNode)) (list : String → IO (Option (List String)))
    (place : String) : IO FileNode := do
  match ← list place with
  | none => pure ((← read place).getD .empty)
  | some names =>
    let entries ← names.mapM fun n => do pure (n, ← load read list (place ++ "/" ++ n))
    pure (.directory entries)

def readFile (place : String) : IO (Option FileNode) :=
  (do pure (some (.file (← IO.FS.readBinFile place).toList))) <|> pure none

/-- The names in a directory; none for what is no directory. -/
def listDirectory (place : String) : IO (Option (List String)) :=
  (do
    let here := (← IO.currentDir) / place
    pure (some ((← here.readDir).toList.map (·.fileName)))) <|> pure none

/-- Adds what is at a path, if anything is. -/
def addPath (t : FileTree) (p : Path) : IO FileTree := do
  let p := t.resolve p
  let isDirectory := (← listDirectory p.text).isSome
  let isFile := (← readFile p.text).isSome
  if isDirectory || isFile then
    pure { t with root := FileNode.put (← load readFile listDirectory p.text) p.names t.root }
  else pure t

def surroundings (files : FileTree) : IO Setting := do
  let draws ← (List.range drawCount).mapM fun _ => IO.rand 0 4611686018427387903
  let table := draws.toArray
  let now := (← Std.Time.Timestamp.now).toNanosecondsSinceUnixEpoch.val / 1000
  let start := Calendar.Moment.epochDay * 86400000000
  pure {
    request := Request.simple "GET" "/"
    sink := ⟨Server.sinkName, 0, 30⟩
    now := (Calendar.Moment.ofLocalMicros? (some 0) (start + now)).getD ⟨.ofOrdinal 1, 0, 0, 0, 0, some 0⟩
    uuid := freshName (← IO.getRandomBytes 16)
    draws := fun n => (table[n % drawCount]?).getD 0
    files := files }

end MockTree.Main

def main (args : List String) : IO UInt32 := do
  let working := Path.ofString (← IO.currentDir).toString
  let reading := CommandLine.read args
  let mut files : FileTree := ⟨.empty, working⟩
  for p in reading.configFile.toList do
    files ← MockTree.Main.addPath files p
  for p in (reading.directory files).toList do
    files ← MockTree.Main.addPath files p
  let r := CommandLine.run "filemock" false (← MockTree.Main.surroundings files) args
  IO.print (String.ofList r.output)
  match r.ending with
  | .returned => pure 0
  | .exited n => pure n.toUInt32
  | .raised _ =>
    IO.eprintln "filemock: the command could not be carried out"
    pure 1

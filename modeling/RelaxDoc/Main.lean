import RelaxDoc.Cli.Session

/-! The program: it shows the file system to the phases of a session and applies what they
do to it. -/
namespace RelaxDoc.Main

/-- The path of a place, as the system takes it. -/
def placePath (place : Place) : String := "/" ++ "/".intercalate place

/-- Adds what stands at a place to a tree, and says whether it is a directory. -/
def addPlace (tree : FileTree) (place : Place) : IO (FileTree × Bool) := do
  let path := (← IO.currentDir) / placePath place
  if (tree.get? place).isSome then return (tree, tree.get? place = some .directory)
  else if ← path.isDir then return (tree.insert place .directory, true)
  else if ← path.pathExists then
    return (tree.insert place (.file (← IO.FS.readBinFile path).toList), false)
  else return (tree, false)

/-- Adds the places on the way of components to a tree. -/
def addWay (tree : FileTree) (here : Place) : List String → IO FileTree
  | [] => return tree
  | component :: rest => do
    if component = "." then addWay tree here rest
    else if component = ".." then addWay tree (FileTree.outward here) rest
    else
      let next := here ++ [component]
      let (tree, enterable) ← addPlace tree next
      if enterable then addWay tree next rest else return tree

/-- The tree of what stands on the way of some paths. -/
def survey (paths : List String) : IO FileTree := do
  let tree := FileTree.bare (Path.components (← IO.currentDir).toString)
  paths.foldlM (fun tree path => addWay tree (tree.start path) (Path.components path)) tree

/-- Removes the files that are in the first tree only, and makes what is new in the second. -/
def apply (before after : FileTree) : IO Unit := do
  for (place, entry) in before.known do
    if entry ≠ .directory && (after.get? place).isNone then
      IO.FS.removeFile (placePath place)
  for (place, entry) in after.known do
    if before.get? place ≠ some entry then
      match entry with
      | .directory => IO.FS.createDirAll (placePath place)
      | .file content => IO.FS.writeBinFile (placePath place) ⟨content.toArray⟩

/-- Milliseconds with three decimals, from a number of nanoseconds. -/
def milliseconds (nanoseconds : Nat) : List Char :=
  Nat.toDigits 10 (nanoseconds / 1000000) ++
    '.' :: (Nat.toDigits 10 (nanoseconds / 1000 % 1000)).leftpad 3 '0'

/-- Reports the time since `start` on standard error, in columns behind a text. -/
def reportTime (text : String) (start : Nat) : IO Unit := do
  let spent := milliseconds ((← IO.monoNanosNow) - start)
  let columns := String.ofList (text.toList.rightpad 17 ' ' ++ ' ' :: spent.leftpad 10 ' ')
  IO.eprintln s!"{columns} ms"

/-- Runs the phases left in a session, at most `bound`. -/
def runPhases (limit : Level) : (bound : Nat) → Cli.Session → IO Cli.Session
  | 0, s => return s
  | bound + 1, s => do
    let start ← IO.monoNanosNow
    let before ← survey s.touched
    let s := { s with tree := before }
    match s.phase? with
    | none => return s
    | some (name, phase) =>
      for m in phase.messages do
        if m.shownAt limit then IO.eprintln (Cli.Notice.message m).text
      apply before phase.value.tree
      IO.print phase.value.stdout
      if s.settings.timing && phase.value.error?.isNone then
        reportTime (Cli.Notice.phaseEnd name).text start
      runPhases limit bound phase.value

/-- Reports the failure of a run and gives its exit code. -/
def fail (error : Error) : IO Nat := do
  IO.eprintln (Cli.Notice.failure error).text
  return error.exitCode

/-- Runs a session from its first phase on and gives its exit code. -/
def runSession (limit : Level) (s : Cli.Session) : IO Nat := do
  let start ← IO.monoNanosNow
  let last ← runPhases limit Cli.phaseCount s
  match last.error? with
  | some error => fail error
  | none =>
    if s.settings.timing then reportTime Cli.Notice.total.text start
    return 0

/-- Runs a conversion and gives its exit code. What the system refuses is a failure too. -/
def convert (options : Cli.Options) (input : String) : IO Nat := do
  match options.session input .empty with
  | .error error => fail error
  | .ok s =>
    try runSession (Cli.levelOf options.verbosity) s
    catch refusal => fail (.io (.stated (toString refusal)))

end RelaxDoc.Main

/-- Runs the program. -/
def main (arguments : List String) : IO UInt32 := do
  match RelaxDoc.Cli.Request.ofArguments arguments with
  | .help =>
    IO.print RelaxDoc.Cli.helpText
    return 0
  | .version =>
    IO.print RelaxDoc.Cli.versionText
    return 0
  | .misuse =>
    IO.eprint RelaxDoc.Cli.misuseText
    return 50
  | .convert options input => return (← RelaxDoc.Main.convert options input).toUInt32

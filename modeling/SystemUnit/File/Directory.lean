import SystemUnit.File.Context
import SystemUnit.Text.CodePoints

namespace SystemUnit

/-!
# Names of files and directories

Questions about a name leave the code of the last operation alone; commands say whether they succeeded and
leave a code.  Main definitions:

* `fileExists`, `directoryExists` — what a name stands for;
* `deleteFile`, `renameFile`, `createDir`, `removeDir` — names come and go;
* `getCurrentDir`, `setCurrentDir` — the current directory.
-/

/-- Whether a name leads to a node of a kind. -/
def leadsTo (kind : Volume → NodeId → Bool) (name : Text) : FileM Bool := do
  let v ← FileM.volume
  match v.resolve name.codePoints with
  | .ok id => return kind v id
  | .error _ => return false

/-- Whether a name is that of a file; a device is none. -/
def fileExists (name : Text) : FileM Bool := leadsTo Volume.isFile name

/-- Whether a name is that of a directory. -/
def directoryExists (name : Text) : FileM Bool := leadsTo Volume.isDirectory name

/-- Takes the name of a file away. -/
def deleteFile (name : Text) : FileM Bool :=
  FileM.attempt (·.unlink name.codePoints) name.codePoints

/-- Gives a file or a directory another name. -/
def renameFile (old new : Text) : FileM Bool :=
  FileM.attempt (·.rename old.codePoints new.codePoints) old.codePoints

/-- Makes a directory in a directory that there is. -/
def createDir (name : Text) : FileM Bool :=
  FileM.attempt (·.makeDirectory name.codePoints) name.codePoints

/-- Removes a directory without entries. -/
def removeDir (name : Text) : FileM Bool :=
  FileM.attempt (·.removeDirectory name.codePoints) name.codePoints

/-- The path of the current directory, or no text if it has none any more. -/
def getCurrentDir : FileM Text := do
  match ← FileM.report (← FileM.volume).currentPath none with
  | some path => return .ofChars path
  | none => return .empty

/-- Makes a directory the current one. -/
def setCurrentDir (name : Text) : FileM Bool :=
  FileM.attempt (·.changeDirectory name.codePoints) name.codePoints

end SystemUnit

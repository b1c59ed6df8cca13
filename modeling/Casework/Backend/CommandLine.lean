import Casework.Config
import Casework.Host.Path
import Casework.Task
import Casework.Text.Blank
import Casework.Text.Case

/-!
# Command lines of scripts and containers

A script is run by one line of the shell, of which every word is quoted. A container binds the
directory that holds the store at the mount point, which is the working directory too, and the path of
the store inside the container is the last argument.
-/

namespace Casework.Shell

/-! ## Quoting words for the shell

A word of characters that mean themselves everywhere in a line is left alone. Any other word stands
between single quotes, and a quote inside it leaves them for the length of one escaped quote.
-/

def isPlain (c : Char) : Bool := c.isAlphanum || "-_./=:,@+%".toList.contains c

def quoteChar (c : Char) : List Char := if c = '\'' then ['\'', '\\', '\'', '\''] else [c]

def quoteChars (w : List Char) : List Char :=
  if !w.isEmpty && w.all isPlain then w else '\'' :: w.flatMap quoteChar ++ ['\'']

def quote (w : String) : String := .ofList (quoteChars w.toList)

end Casework.Shell

namespace Casework.Script

/-! ## Scripts

A script is a file of the scripts directory whose name begins with the name of the program.
-/

def nameLead : String := "evidenceflow-"

def scriptName (command : String) : String := nameLead ++ command

def scriptPath (scriptsDir command : String) : String := Path.join scriptsDir (scriptName command)

def slashed (p : String) : String := .ofList (p.toList.map fun c => if c = '\\' then '/' else c)

def lineWords (script : String) (task : Task) (store : String) : List String :=
  slashed script :: task.forwardedArgs ++ [slashed store]

def shellLine (script : String) (task : Task) (store : String) : String :=
  " ".intercalate ((lineWords script task store).map Shell.quote)

end Casework.Script

namespace Casework.Container

/-! ## Containers -/

/-- The directory to bind, and the store as the container sees it. -/
structure Mount where
  hostDir : String
  inner : String
  deriving DecidableEq, Repr

def trimSlashes (p : String) : String := .ofList (p.toList.reverse.dropWhile (· = '/')).reverse

def mountOf (cwd store mountPoint : String) : Mount :=
  let path := Path.absolute cwd store
  match Path.parent? path, Path.fileName? path with
  | some dir, some name => ⟨dir, trimSlashes mountPoint ++ "/" ++ name⟩
  | _, _ => ⟨path, mountPoint⟩

def volume (hostDir mountPoint : String) : String := hostDir ++ ":" ++ mountPoint

def runArgs (cwd image : String) (task : Task) (store : String) (o : ContainerOptions) : List String :=
  let m := mountOf cwd store o.mountPoint
  ["run", "--rm", "-v", volume m.hostDir o.mountPoint, "-w", o.mountPoint] ++ o.runArgs ++ [image] ++
    Text.words task.command ++ task.forwardedArgs ++ [m.inner]

def imageTag (recipe : String) : String := Environment.appName ++ "/" ++ Text.lowercase recipe ++ ":latest"

def isRecipeName (recipe : String) : Bool := (Path.components recipe).length == 1

def buildArgs (tag context : String) : List String := ["build", "-t", tag, context]

end Casework.Container

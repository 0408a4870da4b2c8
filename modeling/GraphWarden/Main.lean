import GraphWarden.Explain
import GraphWarden.Folder

/-!
# The program

Prints the report on a rule, or says on the error stream why there is none.
-/

namespace GraphWarden

/-- The text of a file, or why it could not be read. -/
def fileText (path : String) : IO (String × Except String String) := do
  try
    return (path, .ok (← IO.FS.readFile path))
  catch
    | .noFileOrDirectory .. => return (path, .error Folder.Fault.noEntry.message)
    | e => return (path, .error (toString e))

end GraphWarden

open GraphWarden in
/-- Print the report for the arguments. -/
def main (args : List String) : IO UInt32 := do
  let texts ← (args.take 2).mapM fileText
  let read := fun path => ((texts.find? fun t => t.1 == path).map Prod.snd).getD (.error "not read")
  match Explain.textFor read args with
  | .ok text =>
    IO.print text
    return 0
  | .error problem =>
    IO.eprintln ("Error: " ++ problem.message)
    return 1

import Emplace.Disk.Reading
import Emplace.Failure
import Emplace.Text.Words

/-!
Arguments from files. `@file` stands for the arguments that the file lists, one a line; a line that
begins with a single quote is read as words of a shell. `@@x` stands for the argument `@x`, and what
a file lists is not looked at again.
-/
namespace Emplace.Params

def withoutReturn (line : List Char) : List Char :=
  match line.reverse with
  | '\r' :: rest => rest.reverse
  | _ => line

def lineArguments (line : List Char) : Except Failure (List String) :=
  match withoutReturn line with
  | '\'' :: rest =>
    match Text.words ('\'' :: rest) with
    | .ok words => .ok (words.map String.ofList)
    | .error e => .error (.fault (.badValue e.message))
  | plain => .ok [String.ofList plain]

def allArguments : List (List Char) → Except Failure (List String)
  | [] => .ok []
  | line :: rest =>
    match lineArguments line with
    | .error failure => .error failure
    | .ok first => (allArguments rest).map (first ++ ·)

def ofText (text : String) : Except Failure (List String) :=
  allArguments (Text.lines text.toList)

def ofFile (disk : Disk) (file : Path) : Except Failure (List String) :=
  match disk.readText file with
  | .error fault =>
    .error (fault.blame fun e => .config (.unreadableParams file.text e))
  | .ok text => ofText text

def expandOne (disk : Disk) (argument : String) : Except Failure (List String) :=
  match argument.toList with
  | '@' :: '@' :: rest => .ok [String.ofList ('@' :: rest)]
  | '@' :: rest => ofFile disk (Path.ofString (String.ofList rest))
  | _ => .ok [argument]

def expand (disk : Disk) : List String → Except Failure (List String)
  | [] => .ok []
  | argument :: rest =>
    match expandOne disk argument with
    | .error failure => .error failure
    | .ok first => (expand disk rest).map (first ++ ·)

end Emplace.Params

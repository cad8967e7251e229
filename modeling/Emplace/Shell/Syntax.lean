/-!
Scripts of the shell as trees. A word is a list of pieces; what is quoted is never cut into several
words and never read as a pattern.
-/
namespace Emplace.Shell

inductive Opening where
  | read
  | update
  /-- Writes the file anew; a file that is there may be kept by an option of the shell. -/
  | write
  | replace
  | behind
  deriving DecidableEq, Repr

mutual

inductive Piece where
  | text (chars : List Char) (quoted : Bool)
  | parameter (name : String) (use : Use) (quoted : Bool)
  | arithmetic (expression : List Piece) (quoted : Bool)
  | output (command : Command) (quoted : Bool)

/-- What is made of a parameter's value. With `orEmpty`, an empty value counts as none. -/
inductive Use where
  | value
  | length
  | default (orEmpty : Bool) (word : List Piece)
  | assigned (orEmpty : Bool) (word : List Piece)
  | demanded (orEmpty : Bool) (word : List Piece)
  | alternative (orEmpty : Bool) (word : List Piece)
  | cutFront (longest : Bool) (pattern : List Piece)
  | cutBack (longest : Bool) (pattern : List Piece)
  | senseless

inductive Redirection where
  | file (descriptor : Nat) (opening : Opening) (name : List Piece)
  /-- Another descriptor, or a dash to close this one. -/
  | copy (descriptor : Nat) (source : List Piece)
  | document (descriptor : Nat) (content : List Piece)

inductive Command where
  | nothing
  | simple (line : Nat) (assignments : List (String × List Piece)) (words : List (List Piece))
      (redirections : List Redirection)
  | sequence (first second : Command)
  | both (first second : Command)
  | either (first second : Command)
  | negated (command : Command)
  | pipe (commands : List Command)
  | background (command : Command)
  | branch (condition yes no : Command)
  | loop (wanted : Bool) (condition body : Command)
  | each (line : Nat) (name : String) (words : List (List Piece)) (body : Command)
  | choice (line : Nat) (word : List Piece) (clauses : List (List (List Piece) × Command))
  | redirected (line : Nat) (body : Command) (redirections : List Redirection)
  | subshell (line : Nat) (body : Command) (redirections : List Redirection)
  | define (name : String) (body : Command)

end

abbrev Word := List Piece

instance : Inhabited Command := ⟨.nothing⟩

end Emplace.Shell

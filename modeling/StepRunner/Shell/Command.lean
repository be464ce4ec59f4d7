namespace StepRunner.Shell

/-- What a parameter is asked for. The texts are words that are read when they are needed. With
    `orEmpty` an empty value counts as none. -/
inductive Use where
  | value
  | length
  | fallback (orEmpty : Bool) (word : List Char)
  | assign (orEmpty : Bool) (word : List Char)
  | demand (orEmpty : Bool) (word : List Char)
  | instead (orEmpty : Bool) (word : List Char)
  | withoutStart (longest : Bool) (pattern : List Char)
  | withoutEnd (longest : Bool) (pattern : List Char)
deriving DecidableEq, Repr

/-- A part of a word. What is not quoted may be a pattern; a value that is not quoted is split
    into fields as well. -/
inductive WordPart where
  | plain (text : List Char)
  | quoted (text : List Char)
  | parameter (quoted : Bool) (name : List Char) (use : Use)
  | output (quoted : Bool) (script : List Char)
  | arithmetic (quoted : Bool) (expression : List Char)
deriving DecidableEq, Repr

abbrev Word := List WordPart

/-- Where a descriptor is led. -/
inductive Direction where
  | read
  | write
  | append
  | copy
deriving DecidableEq, Repr

structure Redirect where
  descriptor : Nat
  direction : Direction
  target : Word
deriving DecidableEq, Repr

/-- A command. `line` is the line that it stands on. -/
inductive Command where
  | simple (line : Nat) (assignments : List (List Char × Word)) (words : List Word)
      (redirects : List Redirect)
  | redirected (body : Command) (redirects : List Redirect)
  | sequence (first second : Command)
  | both (first second : Command)
  | either (first second : Command)
  | negation (body : Command)
  | pipe (first second : Command)
  | subshell (body : Command)
  | choice (condition consequent alternative : Command)
  | loop (whileStatus : Bool) (condition body : Command)
  | forEach (name : List Char) (words : Option (List Word)) (body : Command)
  | select (subject : Word) (branches : List (List Word × Command))
  | nothing
deriving Repr, Inhabited

end StepRunner.Shell

/-
# The arguments of the command line

`compile` takes an input, as an option with a value, and two flags; `operators` takes nothing. An
option or a flag may be given once. Words with one dash may join several flags, of which the last
may be the option with its value. After two dashes alone there are no more flags, and nothing else
is accepted.
-/
import RowExpr.Command.Compile

namespace RowExpr

/-- What the program is asked to do. -/
inductive Command where
  | compile (request : CompileRequest)
  | operators
  | version
  | help

namespace Command

/-- The settings of `compile` with its input; none if it had one. -/
def setInput (value : List Char) (request : CompileRequest) : Option CompileRequest :=
  if request.input.isSome then none else some { request with input := some (String.ofList value) }

/-- The settings of `compile` with several lines; none if they were asked for before. -/
def setPretty (request : CompileRequest) : Option CompileRequest :=
  if request.pretty then none else some { request with pretty := true }

/-- The settings of `compile` that only check; none if that was asked for before. -/
def setCheck (request : CompileRequest) : Option CompileRequest :=
  if request.check then none else some { request with check := true }

/-- What comes of a word among the arguments. -/
inductive Progress where
  /-- The settings so far. -/
  | settings (request : CompileRequest)
  /-- The settings so far; the input is the next word. -/
  | wantsInput (request : CompileRequest)
  | help
  | bad

/-- The settings, if they are acceptable. -/
def Progress.ofOption : Option CompileRequest → Progress
  | some request => .settings request
  | none => .bad

/-- Reads flags that follow one dash. -/
def shortFlags (request : CompileRequest) : List Char → Progress
  | [] => .settings request
  | 'p' :: rest =>
    match setPretty request with
    | some request => shortFlags request rest
    | none => .bad
  | 'i' :: [] => .wantsInput request
  | 'i' :: '=' :: value => .ofOption (setInput value request)
  | 'i' :: value => .ofOption (setInput value request)
  | 'h' :: _ => .help
  | _ => .bad

/-- Reads a word that starts with two dashes. -/
def longFlag (request : CompileRequest) (word : List Char) : Progress :=
  if word = "pretty".toList then .ofOption (setPretty request)
  else if word = "check".toList then .ofOption (setCheck request)
  else if word = "help".toList then .help
  else if word = "input".toList then .wantsInput request
  else if "input=".toList.isPrefixOf word then .ofOption (setInput (word.drop 6) request)
  else .bad

/-- Whether a word can only be a flag: it starts with a dash and is not that dash alone. -/
def isFlag (word : String) : Bool :=
  match word.toList with
  | '-' :: _ :: _ => true
  | _ => false

/-- Reads a word among the arguments of `compile`, which is the last one or not. -/
def readFlag (request : CompileRequest) (word : String) (isLast : Bool) : Progress :=
  match word.toList with
  | '-' :: '-' :: [] => if isLast then .settings request else .bad
  | '-' :: '-' :: flag => longFlag request flag
  | '-' :: c :: flags => shortFlags request (c :: flags)
  | _ => .bad

/-- Reads the arguments of `compile`. -/
def compileArguments (request : CompileRequest) : List String → Option Command
  | [] => some (.compile request)
  | [word] =>
    match readFlag request word true with
    | .settings request => some (.compile request)
    | .help => some .help
    | .wantsInput _ | .bad => none
  | word :: next :: rest =>
    match readFlag request word false with
    | .settings request => compileArguments request (next :: rest)
    | .wantsInput request =>
      if isFlag next then none
      else
        match setInput next.toList request with
        | some request => compileArguments request rest
        | none => none
    | .help => some .help
    | .bad => none

/-- Reads the arguments of `operators`. -/
def operatorsArguments : List String → Option Command
  | [] => some .operators
  | ["--"] => some .operators
  | word :: _ => if word = "--help" ∨ "-h".toList.isPrefixOf word.toList then some .help else none

/-- Reads the arguments of `help`, which is a command or nothing. -/
def helpArguments : List String → Option Command
  | [] => some .help
  | [word] => if word = "compile" ∨ word = "operators" ∨ word = "help" then some .help else none
  | _ => none

/-- The command that arguments ask for, if they are acceptable. -/
def ofArguments : List String → Option Command
  | [] => none
  | word :: rest =>
    if word = "compile" then compileArguments {} rest
    else if word = "operators" then operatorsArguments rest
    else if word = "help" then helpArguments rest
    else if word = "--version" ∨ "-V".toList.isPrefixOf word.toList then some .version
    else if word = "--help" ∨ "-h".toList.isPrefixOf word.toList then some .help
    else none

end Command

end RowExpr

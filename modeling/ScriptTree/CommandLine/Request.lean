/-
  The arguments of the command and what they ask for.

  Arguments are read from left to right.  An option is known by its exact name, a value stands
  after it or is attached to it, and an argument that looks like an option is never taken for a
  value unless it is attached.  After `--` everything is an input.  What cannot be understood is
  refused as soon as it is met, and a question for the version or for help is answered as soon as
  it is met; only when all arguments have been read is it checked that they go together.
-/
import ScriptTree.Script.Compile

namespace ScriptTree.CommandLine

/-- What a run is asked to do. -/
structure Request where
  /-- The document to read; the standard input when missing. -/
  input : Option String
  /-- The file to write; the standard output when missing. -/
  out : Option String
  shebang : Bool
  supply : Script.Supply
  /-- The name under which faults report the document, instead of the input's. -/
  label : Option String
  /-- Compile, but do not print the script. -/
  check : Bool
  /-- Print the outline of the decoded tree instead of compiling. -/
  outline : Bool
  /-- Leave the mode of the written file as it is. -/
  keepMode : Bool
  deriving DecidableEq, Inhabited

/-- What a list of arguments comes to. -/
inductive Reading where
  /-- The arguments break the rules of usage. -/
  | refused
  | version
  | help
  | request (r : Request)
  deriving DecidableEq

/-- The arguments read so far, each option at most once. -/
structure Draft where
  input : Option String
  out : Option String
  supply : Option Script.Supply
  label : Option String
  shebang : Bool
  check : Bool
  outline : Bool
  keepMode : Bool

namespace Draft

/-- Nothing read yet. -/
def empty : Draft := ⟨none, none, none, none, false, false, false, false⟩

/-! ## One argument -/

/-- Takes the input; a second one, or one without a name, is refused. -/
def setInput (d : Draft) (value : String) : Option Draft :=
  if d.input.isSome || value = "" then none else some { d with input := some value }

/-- The policy that a word names. -/
def supply? : String → Option Script.Supply
  | "auto" => some .auto
  | "always" => some .always
  | "never" => some .never
  | _ => none

/-- The options that take a value, by name. -/
def isValued (name : String) : Bool :=
  name == "out" || name == "runtime" || name == "file"

/-- Takes an option with its value; a repetition or an unusable value is refused. -/
def setValue (d : Draft) (name value : String) : Option Draft :=
  match name with
  | "out" => if d.out.isSome || value = "" then none else some { d with out := some value }
  | "runtime" =>
    match d.supply, supply? value with
    | none, some s => some { d with supply := some s }
    | _, _ => none
  | "file" => if d.label.isSome then none else some { d with label := some value }
  | _ => none

/-- Takes an option without a value; a repetition is refused. -/
def setFlag (d : Draft) (name : String) : Option Draft :=
  match name with
  | "shebang" => if d.shebang then none else some { d with shebang := true }
  | "check" => if d.check then none else some { d with check := true }
  | "emit-tree" => if d.outline then none else some { d with outline := true }
  | "no-chmod-x" => if d.keepMode then none else some { d with keepMode := true }
  | _ => none

/-- The request, if what was read goes together: a check neither writes nor prints anything else,
    and only a file that is written has a mode to keep.  A check cannot be given such a file, so
    there the wish to keep its mode asks for none and is idle. -/
def finish (d : Draft) : Reading :=
  if d.check && (d.out.isSome || d.outline) then .refused
  else if d.keepMode && d.out.isNone && !d.check then .refused
  else .request
    ⟨d.input, d.out, d.shebang, d.supply.getD .auto, d.label, d.check, d.outline, d.keepMode⟩

end Draft

/-! ## The shapes of arguments -/

/-- An argument by its shape. -/
inductive Shape where
  /-- `--`. -/
  | separator
  /-- `--name` or `--name=value`. -/
  | long (name : String) (attached : Option String)
  /-- `-x` and what follows the letter in the same argument. -/
  | short (letter : Char) (rest : List Char)
  | plain
  deriving DecidableEq

/-- The part before the first equals sign, and the part after it if there is one. -/
def splitEquals (cs : List Char) : String × Option String :=
  let name := String.ofList (cs.takeWhile (· != '='))
  match cs.dropWhile (· != '=') with
  | _ :: value => (name, some (String.ofList value))
  | [] => (name, none)

/-- The shape of an argument; a lone hyphen is plain. -/
def shapeOf (arg : String) : Shape :=
  match arg.toList with
  | ['-', '-'] => .separator
  | '-' :: '-' :: cs => .long (splitEquals cs).1 (splitEquals cs).2
  | '-' :: c :: cs => .short c cs
  | _ => .plain

/-- The value attached to a short option: an equals sign in front of it does not count. -/
def attachedValue : List Char → Option String
  | [] => none
  | '=' :: cs => some (String.ofList cs)
  | cs => some (String.ofList cs)

/-! ## All arguments -/

/-- The arguments after the separator, which are inputs whatever they look like. -/
def readInputs (d : Draft) : List String → Reading
  | [] => d.finish
  | arg :: rest =>
    match d.setInput arg with
    | some d => readInputs d rest
    | none => .refused

/-- The arguments, given what was read before them. -/
def readArguments (d : Draft) : List String → Reading
  | [] => d.finish
  | arg :: rest =>
    match shapeOf arg with
    | .separator => readInputs d rest
    | .plain =>
      match d.setInput arg with
      | some d => readArguments d rest
      | none => .refused
    | .long "version" none => .version
    | .long "help" none => .help
    | .long name none =>
      if Draft.isValued name then
        match rest with
        | value :: rest =>
          if shapeOf value = .plain then
            match d.setValue name value with
            | some d => readArguments d rest
            | none => .refused
          else .refused
        | [] => .refused
      else
        match d.setFlag name with
        | some d => readArguments d rest
        | none => .refused
    | .long name (some value) =>
      match d.setValue name value with
      | some d => readArguments d rest
      | none => .refused
    | .short 'V' _ => .version
    | .short 'h' _ => .help
    | .short 'o' cs =>
      match attachedValue cs, rest with
      | some value, rest =>
        match d.setValue "out" value with
        | some d => readArguments d rest
        | none => .refused
      | none, value :: rest =>
        if shapeOf value = .plain then
          match d.setValue "out" value with
          | some d => readArguments d rest
          | none => .refused
        else .refused
      | none, [] => .refused
    | .short _ _ => .refused

/-- What a list of arguments comes to. -/
def read (args : List String) : Reading :=
  readArguments Draft.empty args

end ScriptTree.CommandLine

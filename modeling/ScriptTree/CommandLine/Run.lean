/-
  A run of the command.

  Given the request and what reading the document gave, `plan` decides everything: a failure, a text
  to print, or a file to write.  Only the last touches the files, and only after the document has
  been read, decoded and compiled.  `run` carries a plan out on the files held as a value, and
  `runWith` is the whole command: what it prints and leaves behind as a function of its arguments,
  the standard input and the files.
-/
import ScriptTree.CommandLine.Files
import ScriptTree.CommandLine.Request
import ScriptTree.Form.Outline

namespace ScriptTree.CommandLine

/-- Why a run fails. -/
inductive Failure where
  | unreadable (path : String) (reason : Reason)
  | unreadableInput (reason : Reason)
  | unwritable (path : String) (reason : Reason)
  | fault (cause : Fault)

/-- The wording of a failure. -/
def Failure.message : Failure → String
  | .unreadable path reason => "Unable to read file: " ++ path ++ " (" ++ reason.message ++ ")"
  | .unreadableInput reason => "Unable to read stdin (" ++ reason.message ++ ")"
  | .unwritable path reason => "Failed to write to " ++ path ++ ": " ++ reason.message
  | .fault cause => cause.message

/-- The exit code of a failure: 1 for files, 2 for documents. -/
def Failure.code : Failure → Nat
  | .unreadable _ _ => 1
  | .unreadableInput _ => 1
  | .unwritable _ _ => 1
  | .fault _ => 2

/-- What a run does once nothing can fail but writing. -/
inductive Plan where
  | print (text : String)
  | save (path : String) (script : String) (makeExecutable : Bool)

namespace Request

/-- How the script is made: faults report the label, or else the input. -/
def options (r : Request) : Script.Options :=
  ⟨r.shebang, r.supply, ⟨r.label.or r.input, none⟩⟩

/-- The failure to read the document. -/
def readFailure (r : Request) (reason : Reason) : Failure :=
  match r.input with
  | some path => .unreadable path reason
  | none => .unreadableInput reason

/-- The document as text, given its bytes. -/
def text (r : Request) (source : Except Reason ByteArray) : Except Failure String :=
  match source with
  | .error reason => .error (r.readFailure reason)
  | .ok bytes =>
    match String.fromUTF8? bytes with
    | some text => .ok text
    | none => .error (r.readFailure .notText)

/-- What is done with the script. -/
def planScript (r : Request) (script : String) : Plan :=
  if r.check then .print "OK\n"
  else match r.out with
    | some path => .save path script (!r.keepMode)
    | none => .print script

/-- What a run does, given its document. -/
def plan (r : Request) (source : Except Reason ByteArray) : Except Failure Plan := do
  let text ← r.text source
  if r.outline then
    let forms ← (Document.parse text).mapError .fault
    return .print (Form.outlineText forms ++ "\n")
  else
    let script ← (Script.compileText r.options text).mapError .fault
    return r.planScript script

end Request

/-! ## Carrying a plan out -/

/-- What a run leaves behind. -/
structure Outcome where
  code : Nat
  stdout : String
  stderr : String
  files : Files

/-- A failing run prints its message and leaves the files as they were. -/
def failed (fs : Files) (f : Failure) : Outcome :=
  ⟨f.code, "", f.message ++ "\n", fs⟩

/-- A plan carried out. -/
def perform (fs : Files) : Plan → Outcome
  | .print text => ⟨0, text, "", fs⟩
  | .save path script makeExecutable =>
    match fs.write path script.toUTF8 makeExecutable with
    | .ok fs => ⟨0, "", "", fs⟩
    | .error reason => failed fs (.unwritable path reason)

/-- The bytes of the document. -/
def source (r : Request) (stdin : ByteArray) (fs : Files) : Except Reason ByteArray :=
  match r.input with
  | some path => fs.read path
  | none => .ok stdin

/-- A run of an accepted request. -/
def run (r : Request) (stdin : ByteArray) (fs : Files) : Outcome :=
  match r.plan (source r stdin fs) with
  | .ok plan => perform fs plan
  | .error f => failed fs f

/-- The answer to a question for the version. -/
def versionText : String := "shform 0.1.0\n"

/-- The answer to arguments that break the rules of usage. -/
def usageText : String := "error: invalid usage\n"

/-- The answer to a question for help. -/
def helpText : String :=
  "Compile a JSON-encoded form tree into a POSIX shell script\n\n" ++
  "Usage: shform [OPTIONS] [INPUT]\n\n" ++
  "Arguments:\n" ++
  "  [INPUT]  JSON document to compile (reads stdin when omitted)\n\n" ++
  "Options:\n" ++
  "  -o, --out <OUT>          Write the script to a file instead of stdout\n" ++
  "      --shebang            Start the script with #!/bin/sh\n" ++
  "      --runtime <RUNTIME>  When to prepend the hash_set/hash_echo helpers [default: auto] " ++
  "[possible values: auto, always, never]\n" ++
  "      --file <FILE_LABEL>  File name reported in error messages\n" ++
  "      --check              Compile without printing the script\n" ++
  "      --emit-tree          Print the decoded tree instead of compiling\n" ++
  "      --no-chmod-x         Do not set the executable bit on --out\n" ++
  "  -h, --help               Print help\n" ++
  "  -V, --version            Print version\n"

/-- A run with the given arguments. -/
def runWith (args : List String) (stdin : ByteArray) (fs : Files) : Outcome :=
  match read args with
  | .refused => ⟨2, "", usageText, fs⟩
  | .version => ⟨0, versionText, "", fs⟩
  | .help => ⟨0, helpText, "", fs⟩
  | .request r => run r stdin fs

end ScriptTree.CommandLine

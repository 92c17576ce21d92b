import ScalarLang.CommandLine.Usage

/-!
# Arguments of the command

Arguments are read from left to right.  A value that was given is accepted when the
next option or file name is reached, or at the end, so an argument that is not known
is reported before a value that cannot be accepted.
-/

set_option autoImplicit false

namespace ScalarLang

namespace CommandLine

inductive Request where
  | help
  | version
  | compile (input output : Option String)
deriving DecidableEq, Repr

structure ArgumentState where
  input : Option String
  output : Option String
  /-- A slot whose value is not accepted yet, and the value if it was given. -/
  pending : Option (Slot × Option String)
  /-- Whether all further arguments are file names. -/
  namesOnly : Bool
  /-- Whether the file name was given. -/
  named : Bool
deriving DecidableEq, Repr

inductive ArgumentStep where
  | next (state : ArgumentState)
  | stop (outcome : Except UsageError Request)
deriving Repr

def ArgumentStep.ofExcept : Except UsageError ArgumentState → ArgumentStep
  | .ok state => .next state
  | .error error => .stop (.error error)

namespace ArgumentState

def initial : ArgumentState := ⟨none, none, none, false, false⟩

def accept (state : ArgumentState) (slot : Slot) (value : Option String) :
    Except UsageError ArgumentState :=
  match slot, value with
  | slot, none => .error (.missingValue slot)
  | .output, some value =>
    if state.output.isSome then .error (.repeated .output)
    else if value = "" then .error (.missingValue .output)
    else .ok { state with output := some value }
  | .input, some value =>
    if value = "" then .error (.missingValue .input)
    else .ok { state with input := some value }

def settle (state : ArgumentState) : Except UsageError ArgumentState :=
  match state.pending with
  | none => .ok state
  | some (slot, value) => { state with pending := none }.accept slot value

/-- Whether the next argument, unless it looks like an option, is the value of an
option. -/
def awaitsValue (state : ArgumentState) : Bool :=
  match state.pending with
  | some (.output, none) => !state.namesOnly
  | _ => false

/-- Whether the option for the object file counts as given when an argument is not
known.  An empty value counts, and a second one takes back the first. -/
def givesOutput (state : ArgumentState) : Bool :=
  match state.pending with
  | some (.output, some _) => state.output.isNone
  | _ => state.output.isSome

def givesInput (state : ArgumentState) : Bool :=
  match state.pending with
  | some (.input, some _) => true
  | _ => state.input.isSome

def answer (state : ArgumentState) (request : Request) : ArgumentStep :=
  match state.settle with
  | .ok _ => .stop (.ok request)
  | .error error => .stop (.error error)

def outputOption (state : ArgumentState) (value : Option String) : ArgumentStep :=
  match state.settle with
  | .error error => .stop (.error error)
  | .ok settled =>
    match value with
    | some value => .ofExcept (settled.accept .output (some value))
    | none => .next { settled with pending := some (.output, none) }

def flagOption (state : ArgumentState) (option : LongOption) (request : Request)
    (value : Option String) : ArgumentStep :=
  match value with
  | some value =>
    let usage :=
      if state.input.isSome || state.output.isSome then Usage.choice option
      else Usage.given [option] false
    .stop (.error (.unneededValue option value usage))
  | none => state.answer request

/-- Reads an option of one letter, the first of several in one argument. -/
def shortOption (state : ArgumentState) : List Char → ArgumentStep
  | [] => .next state
  | 'h' :: _ => state.answer .help
  | 'V' :: _ => state.answer .version
  | ['o'] => state.outputOption none
  | 'o' :: '=' :: value => state.outputOption (some (String.ofList value))
  | 'o' :: value => state.outputOption (some (String.ofList value))
  | letter :: _ =>
    .stop (.error (.unexpected (String.ofList ['-', letter]) (some .fileName) .general))

/-- Reports a name that no option has, with the option that is similar to it as if it
was given. -/
def unknownOption (state : ArgumentState) (name : String) : ArgumentStep :=
  let similar := LongOption.similar? name
  let output := state.givesOutput || similar == some .output
  let flag := similar.toList.filter fun option => option != .output
  let usage := Usage.ofGiven ((if output then [.output] else []) ++ flag) state.givesInput
  let hint :=
    match similar with
    | some option => Hint.similar option
    | none => Hint.fileName
  .stop (.error (.unexpected ("--" ++ name) (some hint) usage))

def longOption (state : ArgumentState) (text : List Char) : ArgumentStep :=
  let name := String.ofList (text.takeWhile (· != '='))
  let value : Option String :=
    match text.dropWhile (· != '=') with
    | [] => none
    | _ :: rest => some (String.ofList rest)
  match LongOption.ofName? name with
  | some .output => state.outputOption value
  | some .help => state.flagOption .help .help value
  | some .version => state.flagOption .version .version value
  | none => state.unknownOption name

def fileName (state : ArgumentState) (argument : String) : ArgumentStep :=
  if state.named then .stop (.error (.unexpected argument none .general))
  else
    match state.settle with
    | .error error => .stop (.error error)
    | .ok settled =>
      .next { settled with pending := some (.input, some argument), named := true }

def read (state : ArgumentState) (argument : String) : ArgumentStep :=
  if state.namesOnly then state.fileName argument
  else
    match argument.toList with
    | ['-', '-'] => .next { state with namesOnly := true }
    | '-' :: '-' :: text => state.longOption text
    | '-' :: first :: rest => state.shortOption (first :: rest)
    | _ =>
      if state.awaitsValue then
        .next { state with pending := some (.output, some argument) }
      else state.fileName argument

def readAll (state : ArgumentState) : List String → Except UsageError Request
  | [] =>
    match state.settle with
    | .ok settled => .ok (.compile settled.input settled.output)
    | .error error => .error error
  | argument :: rest =>
    match state.read argument with
    | .next after => readAll after rest
    | .stop outcome => outcome

end ArgumentState

def Request.ofArguments (arguments : List String) : Except UsageError Request :=
  ArgumentState.initial.readAll arguments

end CommandLine

end ScalarLang
